/-
Nullsploit/CText.lean

C text, as the standard library sees it.  A file is a list of bytes; a C
string is what stands in a buffer before its first NUL.  The module gives the
handful of library functions that line-oriented configuration readers are
built from (`fgets`, `strtok`, `strchr`, `strstr`, `atoi`), each total and
executable, and the algebra their users need:

* `fileLines_eq_pieces`: reading a file to its end with `fgets` cuts it into
  *pieces*, and cutting is a left fold over the bytes (`cut`), so it splits
  over appends (`cut_append`, `pieces_append`);
* `pieces_take_textLines`: a piece never crosses a newline, so the pieces of a
  text are the pieces of its lines, in order;
* `pieces_of_fits`: a line that fits the buffer is one piece.

Nothing here knows what the lines mean.
-/
import Mathlib.Algebra.Order.Ring.Int
import Mathlib.Data.List.Infix
import Mathlib.Data.List.TakeWhile
import Mathlib.Tactic.Common

namespace CText

/-! ### Bytes and literals -/

/-- The byte of an ASCII character. -/
def ch (c : Char) : UInt8 := UInt8.ofNat c.toNat

/-- The bytes of an ASCII string literal. -/
def str (s : String) : List UInt8 := s.toList.map ch

/-- The newline byte. -/
def nl : UInt8 := 10

/-! ### C strings -/

/-- The C string in a buffer: the bytes before the first NUL. -/
def cstr (s : List UInt8) : List UInt8 := s.takeWhile (· ≠ 0)

/-- First call of `strtok`: skip delimiters, then take the bytes up to the
next delimiter.  `none` is the NULL result. -/
def strtok (delims s : List UInt8) : Option (List UInt8) :=
  match s.dropWhile (· ∈ delims) with
  | [] => none
  | b :: t => some ((b :: t).takeWhile (· ∉ delims))

/-- A call of `strtok` in a row of them: the token, and the text the next call
goes on with. -/
def strtokNext (delims s : List UInt8) : Option (List UInt8 × List UInt8) :=
  match s.dropWhile (· ∈ delims) with
  | [] => none
  | b :: t =>
      some ((b :: t).takeWhile (· ∉ delims), ((b :: t).dropWhile (· ∉ delims)).drop 1)

/-- `strchr` used as a splitter: the bytes before the first `c` and those
after it, or `none` when `c` does not occur. -/
def strchr (c : UInt8) : List UInt8 → Option (List UInt8 × List UInt8)
  | [] => none
  | b :: s =>
      if b = c then some ([], s)
      else (strchr c s).map fun p => (b :: p.1, p.2)

/-- `strstr(hay, needle) != NULL`. -/
def strstr (hay needle : List UInt8) : Bool := decide (needle <:+: hay)

/-- A field that starts the string and is followed by a delimiter. -/
theorem strtok_append {delims f : List UInt8} {d : UInt8} (hne : f ≠ [])
    (hf : ∀ b ∈ f, b ∉ delims) (hd : d ∈ delims) (r : List UInt8) :
    strtok delims (f ++ d :: r) = some f := by
  obtain ⟨b, t, rfl⟩ := List.exists_cons_of_ne_nil hne
  have hb : b ∉ delims := hf b (by simp)
  rw [strtok, List.cons_append, List.dropWhile_cons_of_neg (by simpa using hb)]
  dsimp only
  rw [← List.cons_append, List.takeWhile_append_of_pos (by simpa using hf),
    List.takeWhile_cons_of_neg (by simpa using hd), List.append_nil]

/-- A token has no delimiter in it. -/
theorem not_mem_of_strtokNext {delims s t rest : List UInt8}
    (h : strtokNext delims s = some (t, rest)) : ∀ b ∈ t, b ∉ delims := by
  unfold strtokNext at h
  rcases e : s.dropWhile (· ∈ delims) with - | ⟨b, r⟩
  · rw [e] at h
    cases h
  · rw [e] at h
    cases h
    intro c hc
    simpa using List.mem_takeWhile_imp hc

/-- The first byte that is not dropped. -/
theorem head_of_dropWhile {p : UInt8 → Bool} {s r : List UInt8} {c : UInt8}
    (h : s.dropWhile p = c :: r) : p c = false := by
  have hne : s.dropWhile p ≠ [] := by
    rw [h]
    exact List.cons_ne_nil _ _
  simpa only [h, List.head_cons] using List.head_dropWhile_not p hne

/-- What `strtok` finds: delimiters, a token, and the end of the string or a
delimiter behind it. -/
theorem strtokNext_eq_some_iff {delims s t rest : List UInt8} :
    strtokNext delims s = some (t, rest) ↔
      (t ≠ [] ∧ ∀ c ∈ t, c ∉ delims) ∧ ∃ skipped, (∀ c ∈ skipped, c ∈ delims) ∧
        (s = skipped ++ t ∧ rest = [] ∨ ∃ d ∈ delims, s = skipped ++ (t ++ d :: rest)) := by
  constructor
  · intro h
    have htoken := not_mem_of_strtokNext h
    have hsplit := List.takeWhile_append_dropWhile (p := (· ∈ delims)) (l := s)
    unfold strtokNext at h
    rcases e : s.dropWhile (· ∈ delims) with - | ⟨b, r⟩
    · rw [e] at h
      cases h
    · rw [e] at h hsplit
      obtain ⟨ht, hrest⟩ := Prod.mk.inj (Option.some.inj h)
      have hb : b ∉ delims := by simpa using head_of_dropWhile e
      have hskipped : ∀ c ∈ s.takeWhile (· ∈ delims), c ∈ delims := by
        intro c hc
        simpa using List.mem_takeWhile_imp hc
      have hbody := List.takeWhile_append_dropWhile (p := (· ∉ delims)) (l := b :: r)
      rw [ht] at hbody
      refine ⟨⟨?_, htoken⟩, s.takeWhile (· ∈ delims), hskipped, ?_⟩
      · rw [← ht, List.takeWhile_cons_of_pos (by simpa using hb)]
        exact List.cons_ne_nil _ _
      · rcases e' : (b :: r).dropWhile (· ∉ delims) with - | ⟨d, r'⟩
        · rw [e', List.append_nil] at hbody
          rw [e', List.drop_nil] at hrest
          left
          exact ⟨by rw [hbody, hsplit], hrest.symm⟩
        · rw [e'] at hbody hrest
          have hd : d ∈ delims := by simpa using head_of_dropWhile e'
          have hrest : r' = rest := hrest
          right
          exact ⟨d, hd, by rw [← hrest, hbody, hsplit]⟩
  · rintro ⟨⟨hne, htoken⟩, skipped, hskipped, hcase⟩
    obtain ⟨b, t, rfl⟩ := List.exists_cons_of_ne_nil hne
    have hb : b ∉ delims := htoken b List.mem_cons_self
    have hdrop : ∀ r, (skipped ++ (b :: r)).dropWhile (· ∈ delims) = b :: r := by
      intro r
      rw [List.dropWhile_append_of_pos (by simpa using hskipped),
        List.dropWhile_cons_of_neg (by simpa using hb)]
    unfold strtokNext
    rcases hcase with ⟨rfl, rfl⟩ | ⟨d, hd, rfl⟩
    · rw [hdrop]
      dsimp only
      rw [List.takeWhile_eq_self_iff.mpr (by simpa using htoken),
        List.dropWhile_eq_nil_iff.mpr (by simpa using htoken)]
      rfl
    · rw [List.cons_append, hdrop]
      dsimp only
      rw [← List.cons_append, List.takeWhile_append_of_pos (by simpa using htoken),
        List.dropWhile_append_of_pos (by simpa using htoken),
        List.takeWhile_cons_of_neg (by simpa using hd), List.append_nil,
        List.dropWhile_cons_of_neg (by simpa using hd)]
      rfl

/-- A field and the delimiter behind it. -/
theorem strtokNext_append {delims f : List UInt8} {d : UInt8} (hne : f ≠ [])
    (hf : ∀ c ∈ f, c ∉ delims) (hd : d ∈ delims) (rest : List UInt8) :
    strtokNext delims (f ++ d :: rest) = some (f, rest) := by
  rw [strtokNext_eq_some_iff]
  exact ⟨⟨hne, hf⟩, [], fun c hc => absurd hc List.not_mem_nil, Or.inr ⟨d, hd, rfl⟩⟩

/-- The last field. -/
theorem strtokNext_last {delims f : List UInt8} (hne : f ≠ []) (hf : ∀ c ∈ f, c ∉ delims) :
    strtokNext delims f = some (f, []) := by
  rw [strtokNext_eq_some_iff]
  exact ⟨⟨hne, hf⟩, [], fun c hc => absurd hc List.not_mem_nil, Or.inl ⟨rfl, rfl⟩⟩

/-- A field is a stretch of the string. -/
theorem infix_of_strtok {delims s t : List UInt8} (h : strtok delims s = some t) : t <:+: s := by
  rw [strtok] at h
  rcases e : s.dropWhile (· ∈ delims) with - | ⟨b, r⟩
  · simp [e] at h
  · rw [e] at h
    obtain rfl := Option.some.inj h
    apply (List.takeWhile_prefix _).isInfix.trans
    rw [← e]
    exact (List.dropWhile_suffix _).isInfix

theorem strtok_subset {delims s t : List UInt8} (h : strtok delims s = some t) : t ⊆ s :=
  (infix_of_strtok h).subset

theorem zero_not_mem_cstr (s : List UInt8) : (0 : UInt8) ∉ cstr s := by
  intro h
  have := List.mem_takeWhile_imp h
  simp at this

theorem cstr_of_not_mem {s : List UInt8} (h : (0 : UInt8) ∉ s) : cstr s = s := by
  rw [cstr, List.takeWhile_eq_self_iff]
  intro x hx
  have : x ≠ 0 := fun e => h (e ▸ hx)
  simpa using this

/-- A buffer with a NUL is its C string, the NUL, and some rest. -/
theorem eq_cstr_append {s : List UInt8} (h : (0 : UInt8) ∈ s) : ∃ q, s = cstr s ++ 0 :: q := by
  induction s with
  | nil => simp at h
  | cons b s ih =>
      by_cases hb : b = 0
      · exact ⟨s, by simp [cstr, hb]⟩
      · obtain ⟨q, hq⟩ := ih (by simpa [Ne.symm hb] using h)
        refine ⟨q, ?_⟩
        have hcons : cstr (b :: s) = b :: cstr s := by simp [cstr, hb]
        rw [hcons, List.cons_append, ← hq]

theorem cstr_append_of_not_mem {u : List UInt8} (h : (0 : UInt8) ∉ u) (v : List UInt8) :
    cstr (u ++ v) = u ++ cstr v := by
  unfold cstr
  rw [List.takeWhile_append_of_pos]
  intro b hb
  exact decide_eq_true fun e => h (e ▸ hb)

theorem cstr_append_of_mem {u : List UInt8} (h : (0 : UInt8) ∈ u) (v : List UInt8) :
    cstr (u ++ v) = cstr u := by
  obtain ⟨q, hq⟩ := eq_cstr_append h
  conv_lhs => rw [hq, List.append_assoc, cstr_append_of_not_mem (zero_not_mem_cstr u)]
  simp [cstr]

/-- A NUL either does not matter to the first field, or stands in it. -/
theorem strtok_cstr {delims : List UInt8} (h0 : (0 : UInt8) ∉ delims) (s : List UInt8) :
    strtok delims s = strtok delims (cstr s) ∨ ∃ f, strtok delims s = some f ∧ 0 ∈ f := by
  by_cases hs : (0 : UInt8) ∈ s
  · obtain ⟨q, hq⟩ := eq_cstr_append hs
    generalize cstr s = p at hq
    subst hq
    simp only [strtok, List.dropWhile_append]
    rcases e : p.dropWhile (fun b => decide (b ∈ delims)) with - | ⟨b, t⟩
    · -- only delimiters before the NUL: the field starts at the NUL
      right
      simp [h0]
    · simp only [List.isEmpty_cons, Bool.false_eq_true, if_false, List.cons_append]
      rw [← List.cons_append, List.takeWhile_append]
      split
      · right
        exact ⟨_, rfl, by simp [h0]⟩
      · left
        rfl
  · exact Or.inl (by rw [cstr_of_not_mem hs])

theorem strchr_eq_some {c : UInt8} {s p q : List UInt8}
    (h : strchr c s = some (p, q)) : s = p ++ c :: q ∧ c ∉ p := by
  induction s generalizing p with
  | nil => simp [strchr] at h
  | cons b s ih =>
      rw [strchr] at h
      split at h
      · rename_i hb
        obtain ⟨rfl, rfl⟩ := Prod.mk.inj (Option.some.inj h)
        simp [hb]
      · rename_i hb
        obtain ⟨⟨p', q'⟩, hs, hpq⟩ := Option.map_eq_some_iff.mp h
        obtain ⟨rfl, rfl⟩ := Prod.mk.inj hpq
        obtain ⟨rfl, hc⟩ := ih hs
        exact ⟨rfl, by simp [hc, Ne.symm hb]⟩

theorem strchr_append {c : UInt8} {p q : List UInt8} (hp : c ∉ p) :
    strchr c (p ++ c :: q) = some (p, q) := by
  induction p with
  | nil => simp [strchr]
  | cons b p ih =>
      have hb : b ≠ c := fun e => hp (by simp [e])
      have hp' : c ∉ p := fun e => hp (by simp [e])
      simp [strchr, hb, ih hp']

theorem strchr_eq_none_iff {c : UInt8} {s : List UInt8} :
    strchr c s = none ↔ c ∉ s := by
  induction s with
  | nil => simp [strchr]
  | cons b s ih =>
      by_cases hb : b = c
      · simp [strchr, hb]
      · simp [strchr, hb, ih, Ne.symm hb]

/-! ### Decimal numbers -/

/-- `isspace` in the C locale. -/
def isSpace (b : UInt8) : Bool := b = 32 ∨ (9 ≤ b ∧ b ≤ 13)

/-- `isdigit`. -/
def isDigit (b : UInt8) : Bool := 48 ≤ b ∧ b ≤ 57

/-- The value of a digit string. -/
def digitsVal (s : List UInt8) : Nat :=
  s.foldl (fun v b => 10 * v + (b.toNat - 48)) 0

/-- `strtol(s, NULL, 10)` for a 64-bit `long`: leading blanks, an optional
sign, the longest run of digits, saturated at the ends of the range. -/
def strtol (s : List UInt8) : Int :=
  match s.dropWhile isSpace with
  | [] => 0
  | b :: t =>
      if b = ch '-' then max (-2 ^ 63) (-(digitsVal (t.takeWhile isDigit) : Int))
      else if b = ch '+' then min (2 ^ 63 - 1) (digitsVal (t.takeWhile isDigit) : Int)
      else min (2 ^ 63 - 1) (digitsVal ((b :: t).takeWhile isDigit) : Int)

/-- `atoi`, that is `(int)strtol(s, NULL, 10)`, as the 32 bits of the `int`. -/
def atoi (s : List UInt8) : BitVec 32 := BitVec.ofInt 32 (strtol s)

/-- `%u` of a number. -/
def decimal (n : Nat) : List UInt8 := (Nat.toDigits 10 n).map ch

/-- The byte of a decimal digit. -/
def digit (d : Nat) : UInt8 := UInt8.ofNat (48 + d)

theorem toNat_digit {d : Nat} (h : d < 10) : (digit d).toNat = 48 + d := by
  simp only [digit, UInt8.toNat_ofNat']
  omega

theorem isDigit_iff {b : UInt8} : isDigit b = true ↔ 48 ≤ b.toNat ∧ b.toNat ≤ 57 := by
  simp [isDigit, UInt8.le_iff_toNat_le]

theorem isDigit_digit {d : Nat} (h : d < 10) : isDigit (digit d) = true := by
  rw [isDigit_iff, toNat_digit h]
  omega

/-- A digit byte is the digit of its value. -/
theorem eq_digit {b : UInt8} (h : isDigit b = true) : b = digit (b.toNat - 48) := by
  rw [isDigit_iff] at h
  apply UInt8.toNat_inj.mp
  rw [toNat_digit (by omega)]
  omega

theorem decimal_of_lt {d : Nat} (h : d < 10) : decimal d = [digit d] := by
  have hch : ∀ d < 10, ch (Nat.digitChar d) = digit d := by decide
  rw [decimal, Nat.toDigits_of_lt_base h, List.map_singleton, hch d h]

/-- Appending a digit to a positive number's text is appending it to the
number. -/
theorem decimal_snoc {n d : Nat} (hn : 0 < n) (hd : d < 10) :
    decimal (10 * n + d) = decimal n ++ [digit d] := by
  rw [← decimal_of_lt hd, decimal, decimal, decimal, ← List.map_append,
    Nat.toDigits_append_toDigits (by omega) hn hd]

/-- Induction on the digits of a number, the last digit first. -/
theorem decimal_induction {P : Nat → Prop} (single : ∀ d < 10, P d)
    (snoc : ∀ n d, 0 < n → d < 10 → P n → P (10 * n + d)) (n : Nat) : P n := by
  induction n using Nat.strongRecOn with
  | ind n ih =>
      by_cases h : n < 10
      · exact single n h
      · have hn := snoc (n / 10) (n % 10) (by omega) (by omega) (ih (n / 10) (by omega))
        rwa [Nat.div_add_mod] at hn

theorem decimal_ne_nil (n : Nat) : decimal n ≠ [] := by
  induction n using decimal_induction with
  | single d hd => simp [decimal_of_lt hd]
  | snoc n d hn hd _ => simp [decimal_snoc hn hd]

theorem isDigit_of_mem_decimal (n : Nat) : ∀ b ∈ decimal n, isDigit b = true := by
  induction n using decimal_induction with
  | single d hd => simpa [decimal_of_lt hd] using isDigit_digit hd
  | snoc n d hn hd ih =>
      intro b hb
      rw [decimal_snoc hn hd, List.mem_append, List.mem_singleton] at hb
      rcases hb with hb | rfl
      · exact ih b hb
      · exact isDigit_digit hd

theorem digitsVal_snoc (s : List UInt8) (b : UInt8) :
    digitsVal (s ++ [b]) = 10 * digitsVal s + (b.toNat - 48) := by
  simp [digitsVal, List.foldl_append]

theorem digitsVal_decimal (n : Nat) : digitsVal (decimal n) = n := by
  induction n using decimal_induction with
  | single d hd => simp [decimal_of_lt hd, digitsVal, toNat_digit hd]
  | snoc n d hn hd ih =>
      rw [decimal_snoc hn hd, digitsVal_snoc, ih, toNat_digit hd]
      omega

theorem decimal_injective : Function.Injective decimal :=
  Function.LeftInverse.injective digitsVal_decimal

/-- The text of a number below a power of ten. -/
theorem length_decimal_le {n k : Nat} (hk : 0 < k) (h : n < 10 ^ k) : (decimal n).length ≤ k := by
  rw [decimal, List.length_map]
  exact (Nat.length_toDigits_le_iff (by omega) hk).mpr h

/-- `%lld` of a number. -/
def decimalInt (n : Int) : List UInt8 :=
  if n < 0 then ch '-' :: decimal n.natAbs else decimal n.natAbs

theorem decimalInt_injective : Function.Injective decimalInt := by
  intro m n h
  have hminus : ∀ k, ch '-' ∉ decimal k := fun k hk =>
    absurd (isDigit_of_mem_decimal k _ hk) (by decide)
  unfold decimalInt at h
  split at h <;> split at h
  · have := decimal_injective (List.cons_eq_cons.mp h).2
    omega
  · exact absurd (h ▸ List.mem_cons_self) (hminus n.natAbs)
  · exact absurd (h.symm ▸ List.mem_cons_self) (hminus m.natAbs)
  · have := decimal_injective h
    omega

theorem length_decimalInt_le {n : Int} {k : Nat} (hk : 0 < k) (h : n.natAbs < 10 ^ k) :
    (decimalInt n).length ≤ k + 1 := by
  have hlen := length_decimal_le hk h
  unfold decimalInt
  split
  · rw [List.length_cons]
    omega
  · omega

theorem not_blank_not_sign {b : UInt8} (h : isDigit b = true) :
    isSpace b = false ∧ b ≠ ch '-' ∧ b ≠ ch '+' := by
  rw [eq_digit h]
  rw [isDigit_iff] at h
  have key : ∀ d < 10,
      isSpace (digit d) = false ∧ digit d ≠ ch '-' ∧ digit d ≠ ch '+' := by decide
  exact key _ (by omega)

/-- A nonempty digit string is read by `strtol` as its value. -/
theorem strtol_of_digits {s : List UInt8} (hne : s ≠ []) (hs : ∀ b ∈ s, isDigit b = true)
    (hv : digitsVal s < 2 ^ 63) : strtol s = digitsVal s := by
  obtain ⟨b, t, rfl⟩ := List.exists_cons_of_ne_nil hne
  have hb := hs b (by simp)
  obtain ⟨hsp, hm, hp⟩ := not_blank_not_sign hb
  have hdrop : (b :: t).dropWhile isSpace = b :: t := by simp [hsp]
  have htake : (b :: t).takeWhile isDigit = b :: t :=
    List.takeWhile_eq_self_iff.mpr hs
  simp only [strtol, hdrop, hm, hp, if_false, htake]
  omega

theorem atoi_of_digits {s : List UInt8} (hne : s ≠ []) (hs : ∀ b ∈ s, isDigit b = true)
    (hv : digitsVal s < 2 ^ 63) : atoi s = BitVec.ofNat 32 (digitsVal s) := by
  rw [atoi, strtol_of_digits hne hs hv, BitVec.ofInt_natCast]

theorem decimalInt_ne_nil (n : Int) : decimalInt n ≠ [] := by
  unfold decimalInt
  split
  · exact List.cons_ne_nil _ _
  · exact decimal_ne_nil _

theorem mem_decimalInt {n : Int} {b : UInt8} (h : b ∈ decimalInt n) :
    b = ch '-' ∨ isDigit b = true := by
  unfold decimalInt at h
  split at h
  · rcases List.mem_cons.mp h with rfl | h
    · exact Or.inl rfl
    · exact Or.inr (isDigit_of_mem_decimal _ b h)
  · exact Or.inr (isDigit_of_mem_decimal _ b h)

theorem not_mem_decimalInt {c : UInt8} (hdash : c ≠ ch '-') (hdigit : isDigit c = false) (n : Int) :
    c ∉ decimalInt n := by
  intro h
  rcases mem_decimalInt h with rfl | hd
  · exact hdash rfl
  · rw [hdigit] at hd
    cases hd

/-- `strtol` reads back what `%lld` prints. -/
theorem strtol_decimalInt {n : Int} (hlo : -2 ^ 63 ≤ n) (hhi : n < 2 ^ 63) :
    strtol (decimalInt n) = n := by
  have hdigits := isDigit_of_mem_decimal n.natAbs
  unfold decimalInt
  split
  · rename_i hneg
    have hdrop : (ch '-' :: decimal n.natAbs).dropWhile isSpace = ch '-' :: decimal n.natAbs :=
      List.dropWhile_cons_of_neg (by decide)
    rw [strtol, hdrop]
    dsimp only
    rw [if_pos rfl, List.takeWhile_eq_self_iff.mpr hdigits, digitsVal_decimal]
    omega
  · rw [strtol_of_digits (decimal_ne_nil _) hdigits (by rw [digitsVal_decimal]; omega),
      digitsVal_decimal]
    omega

/-! ### Reading a file line by line -/

/-- One call `fgets(line, n + 1, f)` on the unread bytes: the bytes stored and
the bytes left.  Nothing stored is the NULL result. -/
def fgets : Nat → List UInt8 → List UInt8 × List UInt8
  | 0, s => ([], s)
  | _ + 1, [] => ([], [])
  | n + 1, b :: s =>
      if b = nl then ([b], s)
      else (b :: (fgets n s).1, (fgets n s).2)

/-- The results of calling `fgets(line, n + 1, f)` until it returns NULL.
The fuel is the number of unread bytes; each call takes at least one. -/
def fgetsLoop (n : Nat) : Nat → List UInt8 → List (List UInt8)
  | 0, _ => []
  | fuel + 1, s =>
      match fgets n s with
      | ([], _) => []
      | (line, rest) => line :: fgetsLoop n fuel rest

/-- All the lines `while (fgets(line, n + 1, f))` sees. -/
def fileLines (n : Nat) (s : List UInt8) : List (List UInt8) := fgetsLoop n s.length s

/-- Cutting as a fold: `acc` is the piece read so far; the result is the list
of finished pieces and the unfinished remainder. -/
def cut (n : Nat) : List UInt8 → List UInt8 → List (List UInt8) × List UInt8
  | acc, [] => ([], acc)
  | acc, b :: s =>
      if b = nl ∨ (acc ++ [b]).length = n then
        ((acc ++ [b]) :: (cut n [] s).1, (cut n [] s).2)
      else cut n (acc ++ [b]) s

/-- The finished pieces of a file. -/
def finished (n : Nat) (s : List UInt8) : List (List UInt8) := (cut n [] s).1

/-- The unfinished last piece: no newline yet, and shorter than the buffer. -/
def remainder (n : Nat) (s : List UInt8) : List UInt8 := (cut n [] s).2

/-- An unfinished piece is still a line for `fgets`, unless it is empty. -/
def pending : List UInt8 → List (List UInt8)
  | [] => []
  | b :: r => [b :: r]

/-- The pieces of a file, the unfinished one last. -/
def pieces (n : Nat) (s : List UInt8) : List (List UInt8) :=
  finished n s ++ pending (remainder n s)

theorem pending_of_ne_nil {r : List UInt8} (h : r ≠ []) : pending r = [r] := by
  obtain ⟨b, r, rfl⟩ := List.exists_cons_of_ne_nil h
  rfl

@[simp] theorem finished_nil (n : Nat) : finished n [] = [] := rfl

@[simp] theorem remainder_nil (n : Nat) : remainder n [] = [] := rfl

@[simp] theorem pieces_nil (n : Nat) : pieces n [] = [] := rfl

theorem cut_append (n : Nat) (acc a b : List UInt8) :
    cut n acc (a ++ b)
      = ((cut n acc a).1 ++ (cut n (cut n acc a).2 b).1, (cut n (cut n acc a).2 b).2) := by
  induction a generalizing acc with
  | nil => simp [cut]
  | cons x a ih =>
      rw [List.cons_append, cut, cut]
      split
      · simp [ih]
      · rw [ih]

/-- What was read before the remainder does not influence what follows: a
file with nothing pending reads on as a fresh one. -/
theorem pieces_append {n : Nat} {a b : List UInt8} (h : remainder n a = []) :
    pieces n (a ++ b) = pieces n a ++ pieces n b := by
  unfold remainder at h
  simp [pieces, finished, remainder, cut_append, h, pending]

/-- One `fgets` call takes the first piece, continuing a piece `acc` that is
already in the buffer. -/
theorem cut_eq_fgets {n m : Nat} {acc s : List UInt8} (hm : 0 < m)
    (hn : acc.length + m = n) (hne : acc ≠ [] ∨ s ≠ []) :
    (cut n acc s).1 ++ pending (cut n acc s).2
      = (acc ++ (fgets m s).1) :: pieces n (fgets m s).2 := by
  induction s generalizing acc m with
  | nil =>
      obtain ⟨m, rfl⟩ := Nat.exists_eq_succ_of_ne_zero hm.ne'
      have hacc : acc ≠ [] := by simpa using hne
      simp [cut, fgets, pending_of_ne_nil hacc]
  | cons b s ih =>
      obtain ⟨m, rfl⟩ := Nat.exists_eq_succ_of_ne_zero hm.ne'
      by_cases hb : b = nl
      · simp [cut, fgets, hb, pieces, finished, remainder]
      · by_cases hfull : m = 0
        · -- the buffer is full after this byte
          have hlen : (acc ++ [b]).length = n := by simp; omega
          simp [cut, fgets, hb, hfull, hlen, pieces, finished, remainder]
        · have hstep : cut n acc (b :: s) = cut n (acc ++ [b]) s := by
            rw [cut, if_neg (by simp [hb]; omega)]
          have hlen : (acc ++ [b]).length + m = n := by simp; omega
          rw [hstep, ih (by omega) hlen (by simp)]
          simp [fgets, hb]

theorem fgets_length {n : Nat} {s : List UInt8} :
    (fgets n s).1.length + (fgets n s).2.length = s.length := by
  induction n generalizing s with
  | zero => simp [fgets]
  | succ n ih =>
      cases s with
      | nil => simp [fgets]
      | cons b s =>
          by_cases hb : b = nl
          · simp [fgets, hb]; omega
          · have := ih (s := s)
            simp [fgets, hb]; omega

theorem fgets_ne_nil {n : Nat} {s : List UInt8} (hn : 0 < n) (hs : s ≠ []) :
    (fgets n s).1 ≠ [] := by
  obtain ⟨n, rfl⟩ := Nat.exists_eq_succ_of_ne_zero hn.ne'
  obtain ⟨b, s, rfl⟩ := List.exists_cons_of_ne_nil hs
  by_cases hb : b = nl <;> simp [fgets, hb]

/-- Reading with `fgets` to the end of the file is cutting it into pieces. -/
theorem fileLines_eq_pieces {n : Nat} (hn : 0 < n) (s : List UInt8) :
    fileLines n s = pieces n s := by
  -- every line read takes at least one byte, so the length is fuel enough
  have key : ∀ fuel s, s.length ≤ fuel → fgetsLoop n fuel s = pieces n s := by
    intro fuel
    induction fuel with
    | zero =>
        intro s hs
        simp [List.length_eq_zero_iff.mp (Nat.le_zero.mp hs), fgetsLoop]
    | succ fuel ih =>
        intro s hs
        by_cases hne : s = []
        · obtain ⟨n, rfl⟩ := Nat.exists_eq_succ_of_ne_zero hn.ne'
          simp [hne, fgetsLoop, fgets]
        · have hline := fgets_ne_nil hn hne
          have hpos := List.length_pos_of_ne_nil hline
          have hlen := fgets_length (n := n) (s := s)
          have hcut : pieces n s = (fgets n s).1 :: pieces n (fgets n s).2 := by
            simpa [pieces, finished, remainder] using
              @cut_eq_fgets n n [] s hn (by simp) (Or.inr hne)
          rw [hcut, ← ih (fgets n s).2 (by omega), fgetsLoop]
          rcases e : fgets n s with ⟨_ | ⟨b, l⟩, rest⟩
          · exact absurd (by rw [e]) hline
          · rfl
  exact key s.length s le_rfl

/-- A pending piece has no newline and leaves room in the buffer. -/
theorem cut_pending {n : Nat} {acc s : List UInt8} (hn : 0 < n) (hacc : nl ∉ acc)
    (hlen : acc.length < n) : nl ∉ (cut n acc s).2 ∧ (cut n acc s).2.length < n := by
  induction s generalizing acc with
  | nil => exact ⟨hacc, hlen⟩
  | cons b s ih =>
      rw [cut]
      split
      · exact ih (by simp) (by simpa using hn)
      · rename_i hstop
        have hb : b ≠ nl := fun e => hstop (Or.inl e)
        have hfull : (acc ++ [b]).length ≠ n := fun e => hstop (Or.inr e)
        rw [List.length_append, List.length_singleton] at hfull
        refine ih ?_ ?_
        · simp [hacc, Ne.symm hb]
        · rw [List.length_append, List.length_singleton]
          omega

/-! ### Lines of a text -/

/-- The lines of a text, each with its newline; the last may lack one. -/
def textLines : List UInt8 → List (List UInt8)
  | [] => []
  | b :: s =>
      if b = nl then [b] :: textLines s
      else
        match textLines s with
        | [] => [[b]]
        | l :: ls => (b :: l) :: ls

/-- A text is empty or its first line followed by the rest, and the first
line ends in a newline unless it is the last. -/
theorem textLines_cases (s : List UInt8) :
    s = [] ∨ ∃ l s', l ≠ [] ∧ s = l ++ s' ∧ textLines s = l :: textLines s' ∧
      (l.getLast? = some nl ∨ s' = []) := by
  induction s with
  | nil => exact Or.inl rfl
  | cons b s ih =>
      refine Or.inr ?_
      by_cases hb : b = nl
      · exact ⟨[b], s, by simp, rfl, by simp [textLines, hb], by simp [hb]⟩
      · rcases ih with rfl | ⟨l, s', hl, rfl, hlines, hlast⟩
        · exact ⟨[b], [], by simp, rfl, by simp [textLines, hb], by simp⟩
        · refine ⟨b :: l, s', by simp, rfl, by simp [textLines, hb, hlines], ?_⟩
          rw [List.getLast?_cons_of_ne_nil hl]
          exact hlast

/-- A piece never survives a newline. -/
theorem cut_newline {n : Nat} {acc l : List UInt8} (h : l.getLast? = some nl) :
    (cut n acc l).2 = [] := by
  obtain ⟨l', rfl⟩ := List.getLast?_eq_some_iff.mp h
  rw [cut_append]
  simp [cut]

theorem flatten_textLines (s : List UInt8) : (textLines s).flatten = s := by
  induction h : s.length using Nat.strongRecOn generalizing s with
  | ind k ih =>
      rcases textLines_cases s with rfl | ⟨l, s', hl, rfl, hlines, -⟩
      · rfl
      · have hpos := List.length_pos_of_ne_nil hl
        rw [List.length_append] at h
        rw [hlines, List.flatten_cons, ih s'.length (by omega) s' rfl]

/-- A newline stands only at the end of a line. -/
theorem mem_textLines {s l : List UInt8} (h : l ∈ textLines s) : l ≠ [] ∧ nl ∉ l.dropLast := by
  induction s generalizing l with
  | nil => simp [textLines] at h
  | cons b s ih =>
      rw [textLines] at h
      split at h
      · rcases List.mem_cons.mp h with rfl | h
        · simp
        · exact ih h
      · rename_i hb
        -- the byte joins the first of the lines that follow
        rcases e : textLines s with - | ⟨l₀, ls⟩
        · rw [e] at h
          obtain rfl := List.mem_singleton.mp h
          simp
        · rw [e] at h ih
          rcases List.mem_cons.mp h with rfl | h
          · obtain ⟨hne, hnl⟩ := ih (l := l₀) (by simp)
            rw [List.dropLast_cons_of_ne_nil hne]
            exact ⟨by simp, by simp [hnl, Ne.symm hb]⟩
          · exact ih (List.mem_cons_of_mem _ h)

/-- The pieces of the first `k` lines of a text are the pieces of each. -/
theorem pieces_take_textLines (n k : Nat) (s : List UInt8) :
    pieces n ((textLines s).take k).flatten = ((textLines s).take k).flatMap (pieces n) := by
  induction k generalizing s with
  | zero => simp
  | succ k ih =>
      rcases textLines_cases s with rfl | ⟨l, s', -, rfl, hlines, hlast⟩
      · simp [textLines]
      · rw [hlines, List.take_succ_cons, List.flatten_cons, List.flatMap_cons, ← ih s']
        rcases hlast with hnl | rfl
        · exact pieces_append (cut_newline hnl)
        · simp [textLines]

/-- Bytes without a newline that do not fill the buffer stay pending. -/
theorem cut_of_short {n : Nat} {acc s : List UInt8} (hs : nl ∉ s)
    (hlen : acc.length + s.length < n) : cut n acc s = ([], acc ++ s) := by
  induction s generalizing acc with
  | nil => simp [cut]
  | cons b s ih =>
      have hb : b ≠ nl := fun e => hs (by simp [e])
      have hlen' : (acc ++ [b]).length + s.length < n := by simp at hlen ⊢; omega
      rw [cut, if_neg (by simp [hb]; simp at hlen'; omega), ih (fun e => hs (by simp [e])) hlen']
      simp

/-- Bytes after a pending piece are read as if the file began there. -/
theorem pieces_append_remainder {n : Nat} (hn : 0 < n) (a b : List UInt8) :
    pieces n (a ++ b) = finished n a ++ pieces n (remainder n a ++ b) := by
  have hrem : cut n [] (remainder n a) = ([], remainder n a) := by
    obtain ⟨hnl, hlen⟩ := @cut_pending n [] a hn (by simp) (by simpa using hn)
    exact cut_of_short hnl (by simpa [remainder] using hlen)
  simp only [pieces, finished, remainder] at hrem ⊢
  rw [cut_append, cut_append, hrem]
  simp

/-- Bytes without a newline that fill the buffer are a piece. -/
theorem pieces_full {n : Nat} {a : List UInt8} (ha : nl ∉ a) (hn : 0 < n) (hlen : a.length = n)
    (b : List UInt8) : pieces n (a ++ b) = a :: pieces n b := by
  have hne : a ≠ [] := List.ne_nil_of_length_pos (by omega)
  have hsplit : a.dropLast ++ [a.getLast hne] = a := List.dropLast_append_getLast hne
  have hshort : cut n [] a.dropLast = ([], a.dropLast) := by
    apply cut_of_short
    · exact fun h => ha (List.dropLast_subset a h)
    · rw [List.length_nil, List.length_dropLast]
      omega
  have hcut : cut n [] a = ([a], []) := by
    rw [← hsplit, cut_append, hshort]
    dsimp only
    rw [cut, hsplit, if_pos (Or.inr hlen)]
    rfl
  rw [pieces_append (by rw [remainder, hcut]), pieces, finished, remainder, hcut]
  rfl

/-- A line that fits the buffer is one piece. -/
theorem pieces_of_fits {n : Nat} {l : List UInt8} (hne : l ≠ []) (hl : nl ∉ l.dropLast)
    (hlen : l.length ≤ n) : pieces n l = [l] := by
  obtain ⟨l', b, rfl⟩ : ∃ l' b, l = l' ++ [b] :=
    ⟨l.dropLast, l.getLast hne, (List.dropLast_append_getLast hne).symm⟩
  rw [List.dropLast_concat] at hl
  rw [List.length_append, List.length_singleton] at hlen
  have h := @cut_of_short n [] l' hl (by rw [List.length_nil]; omega)
  have hcut : cut n [] (l' ++ [b]) = cut n l' [b] := by simp [cut_append, h]
  rw [pieces, finished, remainder, hcut, cut]
  split
  · simp [cut, pending]
  · simp [cut, pending_of_ne_nil]

/-! ### Writing pieces back

A piece that ends in a newline or fills the buffer is read again as it was,
whatever follows it; only the last piece of a file may be of another kind. -/

/-- A piece after which the buffer is empty. -/
structure Complete (n : Nat) (l : List UInt8) : Prop where
  ne_nil : l ≠ []
  newline : nl ∉ l.dropLast
  length_le : l.length ≤ n
  stops : l.getLast? = some nl ∨ l.length = n

theorem complete_of_mem_cut {n : Nat} {acc s l : List UInt8} (hn : 0 < n) (hacc : nl ∉ acc)
    (hlen : acc.length < n) (h : l ∈ (cut n acc s).1) : Complete n l := by
  induction s generalizing acc with
  | nil => cases h
  | cons b s ih =>
      rw [cut] at h
      split at h
      · rename_i hstop
        rcases List.mem_cons.mp h with rfl | h
        · refine ⟨by simp, by rwa [List.dropLast_concat], ?_, ?_⟩
          · rw [List.length_append, List.length_singleton]
            omega
          · rcases hstop with rfl | hfull
            · exact Or.inl (by simp)
            · exact Or.inr hfull
        · exact ih (by simp) (by simpa using hn) h
      · rename_i hstop
        have hb : b ≠ nl := fun e => hstop (Or.inl e)
        have hfull : (acc ++ [b]).length ≠ n := fun e => hstop (Or.inr e)
        rw [List.length_append, List.length_singleton] at hfull
        refine ih ?_ ?_ h
        · simp [hacc, Ne.symm hb]
        · rw [List.length_append, List.length_singleton]
          omega

theorem Complete.pieces_append {n : Nat} {l : List UInt8} (h : Complete n l) (rest : List UInt8) :
    pieces n (l ++ rest) = l :: pieces n rest := by
  rcases h.stops with hnl | hfull
  · rw [CText.pieces_append (cut_newline hnl), pieces_of_fits h.ne_nil h.newline h.length_le]
    rfl
  · by_cases hlast : l.getLast? = some nl
    · rw [CText.pieces_append (cut_newline hlast), pieces_of_fits h.ne_nil h.newline h.length_le]
      rfl
    · have hnl : nl ∉ l := by
        intro hmem
        rw [← List.dropLast_append_getLast h.ne_nil, List.mem_append] at hmem
        rcases hmem with hmem | hmem
        · exact h.newline hmem
        · apply hlast
          rw [List.getLast?_eq_some_getLast h.ne_nil, List.mem_singleton.mp hmem]
      exact pieces_full hnl (hfull ▸ List.length_pos_of_ne_nil h.ne_nil) hfull rest

/-- Any piece fits the buffer, with no newline but at its end. -/
theorem fits_of_mem_pieces {n : Nat} {s l : List UInt8} (hn : 0 < n) (h : l ∈ pieces n s) :
    nl ∉ l.dropLast ∧ l.length ≤ n := by
  rcases List.mem_append.mp h with h | h
  · have hl := complete_of_mem_cut hn List.not_mem_nil (by simpa using hn) h
    exact ⟨hl.newline, hl.length_le⟩
  · obtain ⟨hnl, hlen⟩ : nl ∉ remainder n s ∧ (remainder n s).length < n :=
      cut_pending hn List.not_mem_nil (by simpa using hn)
    generalize remainder n s = r at h hnl hlen
    cases r with
    | nil => cases h
    | cons b r =>
        obtain rfl := List.mem_singleton.mp h
        exact ⟨fun hmem => hnl (List.dropLast_subset _ hmem), hlen.le⟩

/-- Of some pieces of a file, all but the last are complete. -/
theorem complete_of_sublist {n : Nat} {s : List UInt8} (hn : 0 < n) {kept : List (List UInt8)}
    (hkept : kept.Sublist (pieces n s)) {l : List UInt8} (h : l ∈ kept.dropLast) :
    Complete n l := by
  have hfinished : ∀ l ∈ finished n s, Complete n l := fun l hl =>
    complete_of_mem_cut hn List.not_mem_nil (by simpa using hn) hl
  obtain ⟨front, back, rfl, hfront, hback⟩ := List.sublist_append_iff.mp hkept
  cases back with
  | nil =>
      rw [List.append_nil] at h
      exact hfinished l (hfront.subset (List.dropLast_subset _ h))
  | cons b back =>
      have hone : back = [] := by
        have hlen := hback.length_le
        cases e : remainder n s with
        | nil => simp [e, pending] at hlen
        | cons c r =>
            rw [e, pending, List.length_cons, List.length_singleton] at hlen
            exact List.length_eq_zero_iff.mp (by omega)
      rw [hone, List.dropLast_concat] at h
      exact hfinished l (hfront.subset h)

/-- Pieces written back one after the other, each as a C string, are read again
one by one, if no NUL cuts off the end of one that is not the last. -/
theorem pieces_map_cstr {n : Nat} {kept : List (List UInt8)}
    (hfits : ∀ l ∈ kept, nl ∉ l.dropLast ∧ l.length ≤ n)
    (hcomplete : ∀ l ∈ kept.dropLast, Complete n l) (huncut : ∀ l ∈ kept.dropLast, (0 : UInt8) ∉ l) :
    pieces n (kept.map cstr).flatten = (kept.map cstr).filter (· ≠ []) := by
  induction kept with
  | nil => rfl
  | cons l kept ih =>
      cases kept with
      | nil =>
          obtain ⟨hnl, hlen⟩ := hfits l List.mem_cons_self
          have hfront : cstr l <+: l := List.takeWhile_prefix _
          rw [List.map_singleton, List.flatten_singleton]
          by_cases hl : cstr l = []
          · rw [hl]
            rfl
          · rw [pieces_of_fits hl ?_ (hfront.length_le.trans hlen), List.filter_singleton]
            · simp [hl]
            · intro hmem
              refine hnl ?_
              obtain ⟨rest, hrest⟩ := hfront
              rw [← hrest]
              cases rest with
              | nil => rwa [List.append_nil]
              | cons b rest =>
                  rw [List.dropLast_append_of_ne_nil (List.cons_ne_nil _ _), List.mem_append]
                  exact Or.inl (List.dropLast_subset _ hmem)
      | cons l' kept =>
          have hmem : l ∈ (l :: l' :: kept).dropLast := List.mem_cons_self
          have hl := hcomplete l hmem
          have hrest := ih (fun x hx => hfits x (List.mem_cons_of_mem _ hx))
            (fun x hx => hcomplete x (List.mem_cons_of_mem _ hx))
            (fun x hx => huncut x (List.mem_cons_of_mem _ hx))
          rw [List.map_cons, List.flatten_cons, cstr_of_not_mem (huncut l hmem),
            hl.pieces_append, hrest, List.filter_cons_of_pos (by simpa using hl.ne_nil)]

/-! ### Searching and scanning -/

/-- `strstr` as a pointer: the text from the first occurrence on. -/
def strstrFrom (needle : List UInt8) : List UInt8 → Option (List UInt8)
  | [] => if needle = [] then some [] else none
  | b :: s => if needle <+: b :: s then some (b :: s) else strstrFrom needle s

/-- The first place with a property stays the first behind one more byte, if the
property does not hold there. -/
theorem length_front_cons {p : List UInt8 → Prop} {b : UInt8} {s front : List UInt8}
    (hhere : ¬ p (b :: s))
    (hfirst : ∀ front' rest, s = front' ++ rest → p rest → front.length ≤ front'.length) :
    ∀ front' rest, b :: s = front' ++ rest → p rest → (b :: front).length ≤ front'.length := by
  intro front' rest hsplit hrest
  match front' with
  | [] =>
      rw [List.nil_append] at hsplit
      rw [← hsplit] at hrest
      exact absurd hrest hhere
  | c :: front' =>
      exact Nat.succ_le_succ (hfirst front' rest (List.cons_eq_cons.mp hsplit).2 hrest)

/-- What `strstr` finds is the first occurrence. -/
theorem strstrFrom_eq_some {needle s found : List UInt8} (h : strstrFrom needle s = some found) :
    ∃ front, s = front ++ found ∧ needle <+: found ∧
      ∀ front' rest, s = front' ++ rest → needle <+: rest → front.length ≤ front'.length := by
  induction s with
  | nil =>
      rw [strstrFrom] at h
      split at h
      · rename_i hnil
        obtain rfl := Option.some.inj h
        exact ⟨[], rfl, by rw [hnil], fun _ _ _ _ => Nat.zero_le _⟩
      · cases h
  | cons b s ih =>
      rw [strstrFrom] at h
      split at h
      · rename_i hhere
        obtain rfl := Option.some.inj h
        exact ⟨[], rfl, hhere, fun _ _ _ _ => Nat.zero_le _⟩
      · rename_i hhere
        obtain ⟨front, rfl, hfound, hfirst⟩ := ih h
        exact ⟨b :: front, rfl, hfound, length_front_cons hhere hfirst⟩

theorem strstrFrom_eq_none_iff {needle s : List UInt8} :
    strstrFrom needle s = none ↔ ¬ needle <:+: s := by
  induction s with
  | nil =>
      rw [strstrFrom, List.infix_nil]
      split
      · rename_i h
        simp [h]
      · rename_i h
        simp [h]
  | cons b s ih =>
      rw [strstrFrom, List.infix_cons_iff, not_or]
      split
      · rename_i h
        simp [h]
      · rename_i h
        simp [h, ih]

/-- No proper end of the word is a beginning of it, so that occurrences do not
overlap. -/
def Unbordered (word : List UInt8) : Prop :=
  ∀ k < word.length, 0 < k → word.drop k ≠ word.take (word.length - k)

instance (word : List UInt8) : Decidable (Unbordered word) :=
  inferInstanceAs (Decidable (∀ k < word.length, 0 < k → word.drop k ≠ word.take (word.length - k)))

/-- Behind a text without the word the search finds it. -/
theorem strstrFrom_append {word front : List UInt8} (hword : Unbordered word) (hne : word ≠ [])
    (hfront : ¬ word <:+: front) (rest : List UInt8) :
    strstrFrom word (front ++ (word ++ rest)) = some (word ++ rest) := by
  induction front with
  | nil =>
      obtain ⟨b, t, rfl⟩ := List.exists_cons_of_ne_nil hne
      show strstrFrom _ (b :: (t ++ rest)) = some (b :: (t ++ rest))
      rw [strstrFrom]
      exact if_pos (List.prefix_append (b :: t) rest)
  | cons b front ih =>
      rw [List.infix_cons_iff, not_or] at hfront
      rw [List.cons_append, strstrFrom, if_neg, ih hfront.2]
      intro hhere
      rw [← List.cons_append] at hhere
      rcases Nat.lt_or_ge (b :: front).length word.length with hlt | hge
      · -- the occurrence runs into the one behind the text
        have hend := congrArg (List.drop (b :: front).length) (List.prefix_iff_eq_take.mp hhere)
        rw [List.drop_take, List.drop_left, List.take_append_of_le_length (Nat.sub_le _ _)] at hend
        exact hword _ hlt (Nat.zero_lt_succ _) hend
      · exact hfront.1 (List.prefix_of_prefix_length_le hhere (List.prefix_append _ _) hge)

/-- `tolower`. -/
def toLower (b : UInt8) : UInt8 := if 65 ≤ b ∧ b ≤ 90 then b + 32 else b

/-- `strcasestr`. -/
def strcasestr (needle : List UInt8) : List UInt8 → Option (List UInt8)
  | [] => if needle = [] then some [] else none
  | b :: s =>
      if needle.map toLower <+: (b :: s).map toLower then some (b :: s) else strcasestr needle s

/-- The conversion `%ns` of `sscanf`: skip blanks, then take at most `n` bytes
up to the next blank.  The second part is what is left to scan. -/
def scanWord (n : Nat) (s : List UInt8) : Option (List UInt8 × List UInt8) :=
  match s.dropWhile isSpace with
  | [] => none
  | b :: t =>
      let word := ((b :: t).takeWhile fun c => !isSpace c).take n
      some (word, (b :: t).drop word.length)

/-- The conversion `%n[^stop]`: at most `n` bytes up to the first in `stop`. -/
def scanUntil (n : Nat) (stop s : List UInt8) : List UInt8 := (s.takeWhile (· ∉ stop)).take n

end CText
