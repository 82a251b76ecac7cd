/-
Nullsploit/Inet.lean

IPv4 addresses as C code holds them: a 32-bit word whose bytes, in memory
order, are the four octets (a little-endian host, network byte order in
memory).  Two groups of results:

* text: `inetPton` is the glibc automaton, `inetNtop` the dotted quad.  The
  automaton refuses leading zeros, so the two are exactly inverse
  (`inetPton_eq_some_iff`): an address has one text and no other text is an
  address;
* prefixes: comparing two words under the mask `~0U << (32 - m)` is comparing
  their first `m` bits (`and_mask_eq_iff`), and byte swapping loses nothing
  (`ntohl_ntohl`).
-/
import Mathlib.Data.Nat.Digits.Defs
import Nullsploit.CText

namespace Inet

open CText

/-! ### Octets and byte order -/

/-- Byte `i` of an address in memory order. -/
def octet (ip : BitVec 32) (i : Nat) : Nat := ip.toNat / 256 ^ i % 256

/-- The word whose bytes in memory order are `a`, `b`, `c`, `d`. -/
def ofOctets (a b c d : Nat) : BitVec 32 :=
  BitVec.ofNat 32 (a + 256 * b + 65536 * c + 16777216 * d)

theorem octet_lt (ip : BitVec 32) (i : Nat) : octet ip i < 256 :=
  Nat.mod_lt _ (by omega)

theorem ofOctets_octet (ip : BitVec 32) :
    ofOctets (octet ip 0) (octet ip 1) (octet ip 2) (octet ip 3) = ip := by
  apply BitVec.eq_of_toNat_eq
  have := ip.isLt
  simp only [ofOctets, octet, BitVec.toNat_ofNat]
  omega

theorem octet_ofOctets {a b c d : Nat} (ha : a < 256) (hb : b < 256) (hc : c < 256)
    (hd : d < 256) :
    octet (ofOctets a b c d) 0 = a ∧ octet (ofOctets a b c d) 1 = b ∧
      octet (ofOctets a b c d) 2 = c ∧ octet (ofOctets a b c d) 3 = d := by
  simp only [ofOctets, octet, BitVec.toNat_ofNat]
  omega

/-- `ntohl` (and `htonl`) on a little-endian host: reverse the bytes. -/
def ntohl (x : BitVec 32) : BitVec 32 :=
  ofOctets (octet x 3) (octet x 2) (octet x 1) (octet x 0)

@[simp] theorem ntohl_ntohl (x : BitVec 32) : ntohl (ntohl x) = x := by
  obtain ⟨h0, h1, h2, h3⟩ := octet_ofOctets (octet_lt x 3) (octet_lt x 2) (octet_lt x 1)
    (octet_lt x 0)
  rw [ntohl, ntohl, h0, h1, h2, h3]
  exact ofOctets_octet x

theorem ntohl_inj {x y : BitVec 32} : ntohl x = ntohl y ↔ x = y :=
  ⟨fun h => by rw [← ntohl_ntohl x, h, ntohl_ntohl], fun h => by rw [h]⟩

/-! ### Prefixes -/

/-- `x` and `y` agree on their first `m` bits. -/
def SamePrefix (m : Nat) (x y : BitVec 32) : Prop := ∀ i < m, x.getMsbD i = y.getMsbD i

instance (m : Nat) (x y : BitVec 32) : Decidable (SamePrefix m x y) :=
  inferInstanceAs (Decidable (∀ i < m, x.getMsbD i = y.getMsbD i))

theorem samePrefix_32_iff {x y : BitVec 32} : SamePrefix 32 x y ↔ x = y :=
  ⟨BitVec.eq_of_getMsbD_eq, fun h _ _ => by rw [h]⟩

/-- Comparing under the mask `~0U << (32 - m)` compares the first `m` bits. -/
theorem and_mask_eq_iff {m : Nat} (hm : m ≤ 32) (x y : BitVec 32) :
    x &&& (BitVec.allOnes 32 <<< (32 - m)) = y &&& (BitVec.allOnes 32 <<< (32 - m))
      ↔ SamePrefix m x y := by
  -- bit `i` of the mask, counted from the top, is set exactly when `i < m`
  have hbit : ∀ i, (BitVec.allOnes 32 <<< (32 - m)).getMsbD i = decide (i < m) := by
    intro i
    rw [BitVec.getMsbD_shiftLeft, BitVec.getMsbD_allOnes]
    exact decide_eq_decide.mpr (by omega)
  constructor
  · intro h i hi
    have hi' := congrArg (fun z => z.getMsbD i) h
    simp only [BitVec.getMsbD_and, hbit, hi] at hi'
    simpa using hi'
  · intro h
    apply BitVec.eq_of_getMsbD_eq
    intro i _
    rw [BitVec.getMsbD_and, BitVec.getMsbD_and, hbit]
    by_cases hi : i < m
    · rw [h i hi]
    · simp [hi]

/-! ### Dotted quads -/

/-- `inet_ntop(AF_INET, ..)`. -/
def inetNtop (ip : BitVec 32) : List UInt8 :=
  decimal (octet ip 0) ++ ch '.' :: (decimal (octet ip 1) ++ ch '.' ::
    (decimal (octet ip 2) ++ ch '.' :: decimal (octet ip 3)))

/-- The state of `inet_pton`: the finished octets, the octet being read, and
whether it has a digit yet. -/
structure Pton where
  tmp : List Nat
  cur : Nat
  sawDigit : Bool
  deriving DecidableEq, Repr

/-- One character of `inet_pton(AF_INET, ..)`. -/
def Pton.step (st : Pton) (b : UInt8) : Option Pton :=
  if isDigit b then
    if st.sawDigit ∧ st.cur = 0 then none
    else if st.cur * 10 + (b.toNat - 48) > 255 then none
    else if ¬ st.sawDigit ∧ st.tmp.length + 1 > 4 then none
    else some { st with cur := st.cur * 10 + (b.toNat - 48), sawDigit := true }
  else if b = ch '.' ∧ st.sawDigit then
    if st.tmp.length + 1 = 4 then none
    else some ⟨st.tmp ++ [st.cur], 0, false⟩
  else none

/-- The characters in turn, stopping at the first refused one. -/
def Pton.run : Pton → List UInt8 → Option Pton
  | st, [] => some st
  | st, b :: s => (st.step b).bind fun st' => st'.run s

/-- `inet_pton(AF_INET, s, &addr)`: the address when it returns 1. -/
def inetPton (s : List UInt8) : Option (BitVec 32) :=
  match Pton.run ⟨[], 0, false⟩ s with
  | some ⟨[a, b, c], d, true⟩ => some (ofOctets a b c d)
  | _ => none

/-- The text a state of the automaton stands for. -/
def Pton.text (st : Pton) : List UInt8 :=
  st.tmp.flatMap (fun o => decimal o ++ [ch '.']) ++ if st.sawDigit then decimal st.cur else []

theorem Pton.run_append (st : Pton) (s t : List UInt8) :
    st.run (s ++ t) = (st.run s).bind fun st' => st'.run t := by
  induction s generalizing st with
  | nil => rfl
  | cons b s ih =>
      rcases e : st.step b with - | st' <;> simp [Pton.run, e, ih]

/-- What the automaton keeps true: octets are bytes, and nothing is pending
before the first digit. -/
structure Pton.Ok (st : Pton) : Prop where
  tmp_lt : ∀ o ∈ st.tmp, o < 256
  cur_lt : st.cur < 256
  cur_eq : st.sawDigit = false → st.cur = 0

/-- An accepted character extends the text and keeps the invariant. -/
theorem Pton.step_some {st st' : Pton} {b : UInt8} (h : st.step b = some st') (hok : st.Ok) :
    st'.text = st.text ++ [b] ∧ st'.Ok := by
  unfold Pton.step at h
  split at h
  · rename_i hb
    have hd := isDigit_iff.mp hb
    split at h <;> [cases h; skip]
    rename_i hzero
    split at h <;> [cases h; skip]
    rename_i hbig
    split at h <;> [cases h; skip]
    obtain rfl := Option.some.inj h
    refine ⟨?_, hok.tmp_lt, by simp; omega, by simp⟩
    rcases hs : st.sawDigit with - | -
    · -- the first digit of an octet
      have hcur := hok.cur_eq hs
      simp [Pton.text, hs, hcur, decimal_of_lt (show b.toNat - 48 < 10 by omega), ← eq_digit hb]
    · -- a further digit: the octet so far is not zero
      have hpos : 0 < st.cur := by
        rcases Nat.eq_zero_or_pos st.cur with h0 | hp
        · exact absurd ⟨hs, h0⟩ hzero
        · exact hp
      have hsnoc := decimal_snoc hpos (show b.toNat - 48 < 10 by omega)
      rw [← eq_digit hb, Nat.mul_comm] at hsnoc
      simp [Pton.text, hs, hsnoc]
  · split at h <;> [skip; cases h]
    rename_i hdot
    split at h <;> [cases h; skip]
    obtain rfl := Option.some.inj h
    refine ⟨?_, ?_, by simp, by simp⟩
    · simp [Pton.text, hdot.1, hdot.2]
    · intro o ho
      rcases List.mem_append.mp ho with ho | ho
      · exact hok.tmp_lt o ho
      · rw [List.mem_singleton.mp ho]
        exact hok.cur_lt

theorem Pton.run_some {st st' : Pton} {s : List UInt8} (h : st.run s = some st') (hok : st.Ok) :
    st'.text = st.text ++ s ∧ st'.Ok := by
  induction s generalizing st with
  | nil =>
      obtain rfl := Option.some.inj h
      exact ⟨by simp, hok⟩
  | cons b s ih =>
      obtain ⟨st₁, hstep, hrun⟩ := Option.bind_eq_some_iff.mp h
      obtain ⟨ht, hok₁⟩ := Pton.step_some hstep hok
      obtain ⟨ht', hok'⟩ := ih hrun hok₁
      exact ⟨by rw [ht', ht, List.append_assoc, List.singleton_append], hok'⟩

/-- The digits of an octet are accepted where an octet may start. -/
theorem Pton.run_decimal {tmp : List Nat} (htmp : tmp.length < 4) (n : Nat) (hn : n < 256) :
    Pton.run ⟨tmp, 0, false⟩ (decimal n) = some ⟨tmp, n, true⟩ := by
  induction n using decimal_induction with
  | single d hd =>
      have h4 : ¬ tmp.length + 1 > 4 := by omega
      have h255 : ¬ d > 255 := by omega
      simp [decimal_of_lt hd, Pton.run, Pton.step, isDigit_digit hd, toNat_digit hd, h4, h255]
  | snoc n d hpos hd ih =>
      have h0 : n ≠ 0 := by omega
      have h255 : ¬ n * 10 + d > 255 := by omega
      rw [decimal_snoc hpos hd, Pton.run_append, ih (by omega)]
      simp [Pton.run, Pton.step, isDigit_digit hd, toNat_digit hd, h0, h255, Nat.mul_comm]

theorem Pton.run_dot {tmp : List Nat} (htmp : tmp.length < 3) (n : Nat) (s : List UInt8) :
    Pton.run ⟨tmp, n, true⟩ (ch '.' :: s) = Pton.run ⟨tmp ++ [n], 0, false⟩ s := by
  have hdig : isDigit (ch '.') = false := by decide
  have h4 : tmp.length + 1 ≠ 4 := by omega
  simp [Pton.run, Pton.step, hdig, h4]

theorem inetPton_inetNtop (ip : BitVec 32) : inetPton (inetNtop ip) = some ip := by
  have hrun : Pton.run ⟨[], 0, false⟩ (inetNtop ip)
      = some ⟨[octet ip 0, octet ip 1, octet ip 2], octet ip 3, true⟩ := by
    rw [inetNtop, Pton.run_append, Pton.run_decimal (by simp) _ (octet_lt ip 0), Option.bind_some,
      Pton.run_dot (by simp), Pton.run_append, Pton.run_decimal (by simp) _ (octet_lt ip 1),
      Option.bind_some, Pton.run_dot (by simp), Pton.run_append,
      Pton.run_decimal (by simp) _ (octet_lt ip 2), Option.bind_some, Pton.run_dot (by simp),
      Pton.run_decimal (by simp) _ (octet_lt ip 3)]
    rfl
  rw [inetPton, hrun]
  exact congrArg some (ofOctets_octet ip)

/-- **The text of an address is unique**: `inet_pton` accepts the dotted quad
`inet_ntop` prints, and nothing else. -/
theorem inetPton_eq_some_iff {s : List UInt8} {ip : BitVec 32} :
    inetPton s = some ip ↔ s = inetNtop ip := by
  constructor
  · intro h
    unfold inetPton at h
    split at h
    · rename_i a b c d hrun
      obtain rfl := Option.some.inj h
      obtain ⟨htext, hok⟩ := Pton.run_some hrun ⟨by simp, by simp, by simp⟩
      have hlt := hok.tmp_lt
      obtain ⟨h0, h1, h2, h3⟩ := octet_ofOctets (hlt a (by simp)) (hlt b (by simp))
        (hlt c (by simp)) hok.cur_lt
      rw [inetNtop, h0, h1, h2, h3]
      simpa [Pton.text] using htext.symm
    · cases h
  · rintro rfl
    exact inetPton_inetNtop ip

/-- The bytes of an address text are digits and dots. -/
theorem mem_inetNtop {ip : BitVec 32} {b : UInt8} (h : b ∈ inetNtop ip) :
    isDigit b = true ∨ b = ch '.' := by
  have hdec := fun n => isDigit_of_mem_decimal n b
  simp only [inetNtop, List.mem_append, List.mem_cons] at h
  rcases h with h | h | h | h | h | h | h
  · exact Or.inl (hdec _ h)
  · exact Or.inr h
  · exact Or.inl (hdec _ h)
  · exact Or.inr h
  · exact Or.inl (hdec _ h)
  · exact Or.inr h
  · exact Or.inl (hdec _ h)

/-- `INET_ADDRSTRLEN` leaves room for 15 characters. -/
theorem inetNtop_length_le (ip : BitVec 32) : (inetNtop ip).length ≤ 15 := by
  have hdec : ∀ i, (decimal (octet ip i)).length ≤ 3 := by
    intro i
    rw [decimal, List.length_map]
    have hlt := octet_lt ip i
    exact Nat.toDigits_length 10 _ 3 (by omega) (by omega)
  have h0 := hdec 0
  have h1 := hdec 1
  have h2 := hdec 2
  have h3 := hdec 3
  simp only [inetNtop, List.length_append, List.length_cons]
  omega

end Inet
