/-
Nullsploit/UrlDecoders.lean

The four copies of `url_decode`: in kernel/http_inspect.c with digit arithmetic of
its own, in kernel/sqli_detect.c, cmdi_detect.c and path_detect.c with `isxdigit`
and `strtol`.  They share one loop, run here with its indices and its buffer.

`referenceDecoding` is what decoding means, without a buffer.  A decoder whose
digits have their values (`DecodesPairs`) writes as much of it as fits
(`urlDecodeLoop_eq`), so the four write the same.
-/
import Nullsploit.CaseFold
import Nullsploit.HexText
import Nullsploit.HttpInspect

namespace Nullsploit

open CText Bytes HexText CaseFold

/-! ### The loop -/

/-- The loop of `url_decode` from indices `i` and `j` on, with its test for a digit
and the byte it makes of two: the buffer it leaves and what it returns. -/
def urlDecodeLoop (isHex : UInt8 → Bool) (value : UInt8 → UInt8 → UInt8) (src : List UInt8)
    (dstLen : Nat) (dst : Buffer) (i j : Nat) : Buffer × Nat :=
  if i < src.length ∧ j < dstLen - 1 then
    let c := src.getD i 0
    let h := src.getD (i + 1) 0
    let l := src.getD (i + 2) 0
    -- an escape that the end of the source cuts off is copied like any other text
    if c = ch '%' ∧ i + 2 < src.length ∧ isHex h = true ∧ isHex l = true then
      urlDecodeLoop isHex value src dstLen (Function.update dst j (value h l)) (i + 3) (j + 1)
    else if c = ch '+' then
      urlDecodeLoop isHex value src dstLen (Function.update dst j (ch ' ')) (i + 1) (j + 1)
    else
      urlDecodeLoop isHex value src dstLen (Function.update dst j c) (i + 1) (j + 1)
  else (Function.update dst j 0, j)
termination_by src.length - i

/-- `isxdigit` in the C locale. -/
def isxdigit (c : UInt8) : Bool := c ∈ str "0123456789abcdefABCDEF"

/-- `strtol(s, NULL, 16)`: blanks, a sign, a prefix `0x` before a digit, digits. -/
def strtol16 (s : List UInt8) : Int :=
  let number (t : List UInt8) : Int :=
    match t with
    | z :: x :: d :: rest =>
        if z = ch '0' ∧ toLower x = ch 'x' ∧ (hexVal d).isSome then (hexRun (d :: rest)).getD 0
        else (hexRun t).getD 0
    | t => (hexRun t).getD 0
  match s.dropWhile isSpace with
  | [] => 0
  | c :: t => if c = ch '-' then -number t else if c = ch '+' then number t else number (c :: t)

/-- `url_decode` of kernel/http_inspect.c. -/
def HttpInspect.urlDecode (src : List UInt8) (dst : Buffer) (dstLen : Nat) : Buffer × Nat :=
  urlDecodeLoop isHexChar (fun h l => hexCharVal h <<< 4 ||| hexCharVal l) src dstLen dst 0 0

/-- `url_decode` of kernel/sqli_detect.c. -/
def SqliDetect.urlDecode (src : List UInt8) (dst : Buffer) (dstLen : Nat) : Buffer × Nat :=
  urlDecodeLoop isxdigit (fun h l => UInt8.ofInt (strtol16 [h, l])) src dstLen dst 0 0

/-- `url_decode` of kernel/cmdi_detect.c. -/
def CmdiDetect.urlDecode (src : List UInt8) (dst : Buffer) (dstLen : Nat) : Buffer × Nat :=
  urlDecodeLoop isxdigit (fun h l => UInt8.ofInt (strtol16 [h, l])) src dstLen dst 0 0

/-- `url_decode` of kernel/path_detect.c. -/
def PathDetect.urlDecode (src : List UInt8) (dst : Buffer) (dstLen : Nat) : Buffer × Nat :=
  urlDecodeLoop isxdigit (fun h l => UInt8.ofInt (strtol16 [h, l])) src dstLen dst 0 0

/-! ### What decoding means -/

/-- The byte that `%` and two digits stand for. -/
def escapedByte (c h l : UInt8) : Option UInt8 :=
  if c = ch '%' then
    match hexVal h, hexVal l with
    | some x, some y => some (UInt8.ofNat (16 * x + y))
    | _, _ => none
  else none

/-- A byte outside an escape. -/
def plainByte (c : UInt8) : UInt8 := if c = ch '+' then ch ' ' else c

/-- The decoding of a text. -/
def referenceDecoding : List UInt8 → List UInt8
  | c :: h :: l :: rest =>
      match escapedByte c h l with
      | some b => b :: referenceDecoding rest
      | none => plainByte c :: referenceDecoding (h :: l :: rest)
  | c :: rest => plainByte c :: referenceDecoding rest
  | [] => []

/-- The digits of a decoder are the hexadecimal ones, and two of them make the byte
with these digits. -/
structure DecodesPairs (isHex : UInt8 → Bool) (value : UInt8 → UInt8 → UInt8) : Prop where
  isHex_eq : ∀ c, isHex c = (hexVal c).isSome
  value_eq : ∀ h l x y, hexVal h = some x → hexVal l = some y → value h l = UInt8.ofNat (16 * x + y)

/-! ### The digits -/

/-- `is_hex_char` and `hex_val`. -/
theorem decodesPairs_hexCharVal :
    DecodesPairs isHexChar fun h l => hexCharVal h <<< 4 ||| hexCharVal l where
  isHex_eq := forall_byte (by decide +kernel)
  value_eq := by
    intro h l x y hx hy
    have hval : ∀ c, (hexVal c).all fun x => x < 16 ∧ hexCharVal c = UInt8.ofNat x :=
      forall_byte (by decide +kernel)
    have hpair : ∀ x < 16, ∀ y < 16,
        UInt8.ofNat x <<< 4 ||| UInt8.ofNat y = UInt8.ofNat (16 * x + y) := by
      decide
    have hh := hval h
    have hl := hval l
    rw [hx, Option.all_some, decide_eq_true_iff] at hh
    rw [hy, Option.all_some, decide_eq_true_iff] at hl
    show hexCharVal h <<< 4 ||| hexCharVal l = _
    rw [hh.2, hl.2, hpair x hh.1 y hl.1]

/-- `isxdigit` and `strtol`: two digits are neither blank nor sign, and too short for
a prefix. -/
theorem decodesPairs_strtol16 :
    DecodesPairs isxdigit fun h l => UInt8.ofInt (strtol16 [h, l]) where
  isHex_eq := forall_byte (by decide +kernel)
  value_eq := by
    intro h l x y hx hy
    have hdigit : ∀ c, (hexVal c).isSome = true →
        isSpace c = false ∧ c ≠ ch '-' ∧ c ≠ ch '+' := forall_byte (by decide +kernel)
    obtain ⟨hspace, hminus, hplus⟩ := hdigit h (by rw [hx]; rfl)
    have hrun : hexRun [h, l] = some (16 * x + y) := by
      simp [hexRun, hx, hy]
    show UInt8.ofInt (strtol16 [h, l]) = _
    rw [strtol16, List.dropWhile_cons_of_neg (by simp [hspace])]
    dsimp only
    rw [if_neg hminus, if_neg hplus, hrun]
    show UInt8.ofNat ((((16 * x + y : Nat) : Int) % 2 ^ 8).toNat) = _
    have hmod : (((16 * x + y : Nat) : Int) % 2 ^ 8).toNat = (16 * x + y) % 2 ^ 8 := by omega
    rw [hmod]
    exact UInt8.ofNat_mod_size

/-! ### The reference decoding -/

/-- An escape at the front of a text. -/
theorem referenceDecoding_of_escaped {c h l b : UInt8} {rest : List UInt8}
    (hb : escapedByte c h l = some b) :
    referenceDecoding (c :: h :: l :: rest) = b :: referenceDecoding rest := by
  rw [referenceDecoding, hb]

/-- A text that does not start with a complete escape. -/
theorem referenceDecoding_of_plain {c : UInt8} {rest : List UInt8}
    (hplain : ∀ h l t, rest = h :: l :: t → escapedByte c h l = none) :
    referenceDecoding (c :: rest) = plainByte c :: referenceDecoding rest := by
  match rest with
  | [] => rfl
  | [_] => rfl
  | h :: l :: t => rw [referenceDecoding, hplain h l t rfl]

theorem length_referenceDecoding_le (s : List UInt8) : (referenceDecoding s).length ≤ s.length := by
  fun_induction referenceDecoding s with
  | case1 c h l rest b hb ih =>
      simp only [List.length_cons]
      omega
  | case2 c h l rest hb ih => exact Nat.succ_le_succ ih
  | case3 c rest hshort ih => exact Nat.succ_le_succ ih
  | case4 => exact Nat.le_refl 0

/-! ### What the loop writes -/

/-- The decoded bytes at `j` as far as there is room before the last byte of the
buffer, their terminator, and the index of the terminator. -/
def writtenFrom (dstLen : Nat) (dst : Buffer) (j : Nat) (decoded : List UInt8) : Buffer × Nat :=
  let fits := decoded.take (dstLen - 1 - j)
  (poke dst j (fits ++ [0]), j + fits.length)

theorem writtenFrom_cons {dstLen j : Nat} (hj : j < dstLen - 1) (dst : Buffer) (b : UInt8)
    (decoded : List UInt8) :
    writtenFrom dstLen (Function.update dst j b) (j + 1) decoded
      = writtenFrom dstLen dst j (b :: decoded) := by
  have hroom : dstLen - 1 - j = dstLen - 1 - (j + 1) + 1 := by omega
  unfold writtenFrom
  dsimp only
  rw [hroom, List.take_succ_cons, List.cons_append, ← poke_update, List.length_cons]
  rw [Nat.add_right_comm, Nat.add_assoc]

/-- Nothing decoded, or no room for it. -/
theorem writtenFrom_terminator {dstLen j : Nat} {decoded : List UInt8}
    (h : decoded.take (dstLen - 1 - j) = []) (dst : Buffer) :
    writtenFrom dstLen dst j decoded = (Function.update dst j 0, j) := by
  unfold writtenFrom
  rw [h]
  show (poke dst j [0], j) = _
  rw [← poke_update, poke_nil]

theorem drop_eq_getD_cons {s : List UInt8} {i : Nat} (h : i < s.length) :
    s.drop i = s.getD i 0 :: s.drop (i + 1) := by
  rw [List.drop_eq_getElem_cons h, List.getD_eq_getElem?_getD,
    List.getElem?_eq_getElem h, Option.getD_some]

/-- Where the loop sees no escape there is none. -/
theorem DecodesPairs.not_escaped {isHex : UInt8 → Bool} {value : UInt8 → UInt8 → UInt8}
    (hdec : DecodesPairs isHex value) {src : List UInt8} {i : Nat}
    (hno : ¬ (src.getD i 0 = ch '%' ∧ i + 2 < src.length ∧ isHex (src.getD (i + 1) 0) = true ∧
      isHex (src.getD (i + 2) 0) = true)) :
    ∀ h l t, src.drop (i + 1) = h :: l :: t → escapedByte (src.getD i 0) h l = none := by
  intro h l t hsrc
  have hlen : i + 2 < src.length := by
    have := congrArg List.length hsrc
    simp only [List.length_drop, List.length_cons] at this
    omega
  rw [drop_eq_getD_cons (by omega), drop_eq_getD_cons hlen] at hsrc
  obtain ⟨rfl, htail⟩ := List.cons.inj hsrc
  obtain ⟨rfl, -⟩ := List.cons.inj htail
  rw [hdec.isHex_eq, hdec.isHex_eq] at hno
  unfold escapedByte
  split
  · rename_i hc
    split
    · rename_i x y hx hy
      exact absurd ⟨hc, hlen, by rw [hx]; rfl, by rw [hy]; rfl⟩ hno
    · rfl
  · rfl

/-- The loop writes the decoding of what is left of the source. -/
theorem urlDecodeLoop_eq {isHex : UInt8 → Bool} {value : UInt8 → UInt8 → UInt8}
    (hdec : DecodesPairs isHex value) (src : List UInt8) (dstLen : Nat) (dst : Buffer) (i j : Nat) :
    urlDecodeLoop isHex value src dstLen dst i j
      = writtenFrom dstLen dst j (referenceDecoding (src.drop i)) := by
  fun_induction urlDecodeLoop isHex value src dstLen dst i j with
  | case1 dst i j hroom c h l hescape ih =>
      obtain ⟨hc, hlen, hh, hl⟩ := hescape
      rw [hdec.isHex_eq, Option.isSome_iff_exists] at hh hl
      obtain ⟨x, hx⟩ := hh
      obtain ⟨y, hy⟩ := hl
      have hsrc : src.drop i = c :: h :: l :: src.drop (i + 3) := by
        rw [drop_eq_getD_cons hroom.1, drop_eq_getD_cons (show i + 1 < src.length by omega),
          drop_eq_getD_cons hlen]
      have hbyte : escapedByte c h l = some (value h l) := by
        rw [escapedByte, if_pos hc, hx, hy, hdec.value_eq h l x y hx hy]
      rw [ih, writtenFrom_cons hroom.2, hsrc, referenceDecoding_of_escaped hbyte]
  | case2 dst i j hroom c h l hescape hplus ih =>
      rw [ih, writtenFrom_cons hroom.2, drop_eq_getD_cons hroom.1,
        referenceDecoding_of_plain (hdec.not_escaped hescape), plainByte, if_pos hplus]
  | case3 dst i j hroom c h l hescape hplus ih =>
      rw [ih, writtenFrom_cons hroom.2, drop_eq_getD_cons hroom.1,
        referenceDecoding_of_plain (hdec.not_escaped hescape), plainByte, if_neg hplus]
  | case4 dst i j hroom =>
      rw [writtenFrom_terminator]
      rcases Nat.lt_or_ge i src.length with hi | hi
      · rw [show dstLen - 1 - j = 0 by omega, List.take_zero]
      · rw [List.drop_eq_nil_of_le hi]
        exact List.take_nil

/-- The whole run. -/
theorem urlDecodeLoop_zero {isHex : UInt8 → Bool} {value : UInt8 → UInt8 → UInt8}
    (hdec : DecodesPairs isHex value) (src : List UInt8) (dstLen : Nat) (dst : Buffer) :
    urlDecodeLoop isHex value src dstLen dst 0 0
      = (poke dst 0 ((referenceDecoding src).take (dstLen - 1) ++ [0]),
          ((referenceDecoding src).take (dstLen - 1)).length) := by
  rw [urlDecodeLoop_eq hdec, List.drop_zero]
  unfold writtenFrom
  dsimp only
  rw [Nat.sub_zero, Nat.zero_add]

/-! ### The four decoders -/

/-- **The four decoders are one.**  Each writes what fits of the reference decoding,
which is never longer than the source, and its terminator. -/
theorem url_decoders_agree (src : List UInt8) (dst : Buffer) (dstLen : Nat) :
    let decoded := (referenceDecoding src).take (dstLen - 1)
    HttpInspect.urlDecode src dst dstLen = (poke dst 0 (decoded ++ [0]), decoded.length) ∧
      SqliDetect.urlDecode src dst dstLen = (poke dst 0 (decoded ++ [0]), decoded.length) ∧
      CmdiDetect.urlDecode src dst dstLen = (poke dst 0 (decoded ++ [0]), decoded.length) ∧
      PathDetect.urlDecode src dst dstLen = (poke dst 0 (decoded ++ [0]), decoded.length) ∧
      decoded.length ≤ src.length := by
  intro decoded
  have hstrtol := urlDecodeLoop_zero decodesPairs_strtol16 src dstLen dst
  refine ⟨urlDecodeLoop_zero decodesPairs_hexCharVal src dstLen dst, hstrtol, hstrtol, hstrtol, ?_⟩
  calc decoded.length ≤ (referenceDecoding src).length := List.length_take_le' _ _
    _ ≤ src.length := length_referenceDecoding_le src

/-- An escape cut off by the end of the source, and a buffer of four bytes. -/
example : peek (HttpInspect.urlDecode (str "%41+%4") (fun _ => 255) 4).1 5
    = str "A %" ++ [0, 255] := by
  decide +kernel

theorem urlEscape_eq_map (c h l : UInt8) (rest : List UInt8) :
    urlEscape (c :: h :: l :: rest) = (escapedByte c h l).map fun b => (b, rest) := by
  rw [urlEscape, escapedByte, decodesPairs_hexCharVal.isHex_eq, decodesPairs_hexCharVal.isHex_eq]
  by_cases hc : c = ch '%'
  · rw [if_pos hc]
    rcases hx : hexVal h with - | x
    · simp
    · rcases hy : hexVal l with - | y
      · simp
      · rw [if_pos ⟨hc, rfl, rfl⟩, decodesPairs_hexCharVal.value_eq h l x y hx hy]
        rfl
  · rw [if_neg hc, if_neg fun hall => hc hall.1]
    rfl

/-- The detectors work on lists: theirs is the reference decoding, cut at the room. -/
theorem urlDecode_eq_take (room : Nat) (src : List UInt8) :
    urlDecode room src = (referenceDecoding src).take room := by
  induction room generalizing src with
  | zero => rw [urlDecode, List.take_zero]
  | succ room ih =>
      match src with
      | [] => rfl
      | [c] =>
          show plainByte c :: urlDecode room [] = _
          rw [ih]
          rfl
      | [c, h] =>
          show plainByte c :: urlDecode room [h] = _
          rw [ih]
          rfl
      | c :: h :: l :: rest =>
          rw [urlDecode, urlEscape_eq_map, referenceDecoding]
          rcases escapedByte c h l with - | b
          · show plainByte c :: urlDecode room (h :: l :: rest) = _
            rw [ih]
            rfl
          · show b :: urlDecode room rest = _
            rw [ih]
            rfl

end Nullsploit
