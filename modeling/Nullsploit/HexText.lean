/-
Nullsploit/HexText.lean

Hexadecimal text as C prints and scans it: `%02x` of a byte, and `sscanf` with
the conversion `%02x`, which skips blanks and then takes at most two
characters, a sign included.
-/
import Nullsploit.CText

namespace HexText

open CText

/-- The lower-case digit for `d < 16`. -/
def hexDigit (d : Nat) : UInt8 := if d < 10 then UInt8.ofNat (48 + d) else UInt8.ofNat (87 + d)

/-- The value of a digit, in either case. -/
def hexVal (b : UInt8) : Option Nat :=
  if 48 ≤ b ∧ b ≤ 57 then some (b.toNat - 48)
  else if 97 ≤ b ∧ b ≤ 102 then some (b.toNat - 87)
  else if 65 ≤ b ∧ b ≤ 70 then some (b.toNat - 55)
  else none

/-- `sprintf("%02x", b)`. -/
def sprintf02x (b : UInt8) : List UInt8 := [hexDigit (b.toNat / 16), hexDigit (b.toNat % 16)]

/-- The bytes of a string one after the other in `%02x`. -/
def hexText (bs : List UInt8) : List UInt8 := bs.flatMap sprintf02x

/-- The number at the front of a text, if there is a digit. -/
def hexRun (s : List UInt8) : Option Nat :=
  match (s.map hexVal).takeWhile Option.isSome with
  | [] => none
  | ds => some (ds.foldl (fun n d => 16 * n + d.getD 0) 0)

/-- What `sscanf(s, "%02x", &val)` stores; `none` when nothing matches and
`val` is left as it was. -/
def sscanf02x (s : List UInt8) : Option (BitVec 32) :=
  match (s.dropWhile isSpace).take 2 with
  | [] => none
  | c :: t =>
      if c = ch '-' then (hexRun t).map fun n => -BitVec.ofNat 32 n
      else if c = ch '+' then (hexRun t).map (BitVec.ofNat 32)
      else (hexRun (c :: t)).map (BitVec.ofNat 32)

theorem hexDigit_spec {d : Nat} (h : d < 16) :
    hexVal (hexDigit d) = some d ∧ isSpace (hexDigit d) = false ∧
      hexDigit d ≠ ch '-' ∧ hexDigit d ≠ ch '+' := by
  have key : ∀ d < 16, hexVal (hexDigit d) = some d ∧ isSpace (hexDigit d) = false ∧
      hexDigit d ≠ ch '-' ∧ hexDigit d ≠ ch '+' := by decide
  exact key d h

/-- Scanning a printed byte, whatever follows. -/
theorem sscanf02x_sprintf02x (b : UInt8) (rest : List UInt8) :
    sscanf02x (sprintf02x b ++ rest) = some (BitVec.ofNat 32 b.toNat) := by
  have hb : b.toNat < 256 := b.toNat_lt
  obtain ⟨hhi, hspace, hminus, hplus⟩ := hexDigit_spec (show b.toNat / 16 < 16 by omega)
  obtain ⟨hlo, -⟩ := hexDigit_spec (show b.toNat % 16 < 16 by omega)
  have hrun : hexRun [hexDigit (b.toNat / 16), hexDigit (b.toNat % 16)] = some b.toNat := by
    simp only [hexRun, List.map_cons, List.map_nil, hhi, hlo, List.takeWhile_cons,
      Option.isSome_some, if_true, List.takeWhile_nil, List.foldl_cons, List.foldl_nil,
      Option.getD_some]
    congr 1
    omega
  -- the two digits are neither blank nor sign, and the field width ends the scan
  have htwo : ((sprintf02x b ++ rest).dropWhile isSpace).take 2
      = [hexDigit (b.toNat / 16), hexDigit (b.toNat % 16)] := by
    show (List.dropWhile isSpace (hexDigit (b.toNat / 16) :: _)).take 2 = _
    rw [List.dropWhile_cons_of_neg (by simp [hspace])]
    rfl
  rw [sscanf02x, htwo]
  dsimp only
  rw [if_neg hminus, if_neg hplus, hrun]
  rfl

@[simp] theorem length_hexText (bs : List UInt8) : (hexText bs).length = 2 * bs.length := by
  induction bs with
  | nil => rfl
  | cons b bs ih =>
      show (sprintf02x b ++ hexText bs).length = _
      rw [List.length_append, ih, List.length_cons]
      show 2 + 2 * bs.length = 2 * (bs.length + 1)
      omega

theorem hexText_append (as bs : List UInt8) : hexText (as ++ bs) = hexText as ++ hexText bs :=
  List.flatMap_append

/-- The text from the digits of byte `i` on. -/
theorem drop_hexText (bs : List UInt8) (i : Nat) :
    (hexText bs).drop (2 * i) = hexText (bs.drop i) := by
  induction i generalizing bs with
  | zero => rfl
  | succ i ih =>
      cases bs with
      | nil => simp [hexText]
      | cons b bs =>
          show (sprintf02x b ++ hexText bs).drop (2 * (i + 1)) = hexText (bs.drop i)
          rw [show 2 * (i + 1) = 2 + 2 * i by omega, ← List.drop_drop,
            List.drop_left' (show (sprintf02x b).length = 2 from rfl), ih]

/-- The bytes of a hexadecimal text are digits. -/
theorem mem_hexText {bs : List UInt8} {c : UInt8} (h : c ∈ hexText bs) :
    ∃ d < 16, c = hexDigit d := by
  obtain ⟨b, -, hc⟩ := List.mem_flatMap.mp h
  have hb : b.toNat < 256 := b.toNat_lt
  rcases List.mem_pair.mp hc with rfl | rfl
  · exact ⟨_, by omega, rfl⟩
  · exact ⟨_, by omega, rfl⟩

end HexText
