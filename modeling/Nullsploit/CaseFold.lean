/-
Nullsploit/CaseFold.lean

Texts that differ only in the case of ASCII letters.  `SameFold` is that
relation; what is cut out of two such texts by position, by a class of bytes
that knows no case (`takeWhile`, `dropWhile`), by `strcasestr` or by a
conversion of `sscanf` are two such texts again, and a search for something
without letters in it finds the same in both.

Nothing here knows what the texts mean.
-/
import Nullsploit.CText

namespace CaseFold

open CText

/-- The two texts differ in the case of letters at most. -/
def SameFold (s t : List UInt8) : Prop := s.map toLower = t.map toLower

namespace SameFold

variable {s t : List UInt8}

theorem cons_iff {a b : UInt8} :
    SameFold (a :: s) (b :: t) ↔ toLower a = toLower b ∧ SameFold s t := by
  unfold SameFold
  rw [List.map_cons, List.map_cons, List.cons_eq_cons]

theorem length_eq (h : SameFold s t) : s.length = t.length := by
  have := congrArg List.length h
  rwa [List.length_map, List.length_map] at this

theorem eq_nil_iff (h : SameFold s t) : s = [] ↔ t = [] := by
  rw [← List.length_eq_zero_iff, h.length_eq, List.length_eq_zero_iff]

/-- Two such texts end together. -/
theorem cases_on (h : SameFold s t) :
    s = [] ∧ t = [] ∨ ∃ a s' b t', s = a :: s' ∧ t = b :: t' ∧ toLower a = toLower b ∧
      SameFold s' t' := by
  match s, t with
  | [], [] => exact Or.inl ⟨rfl, rfl⟩
  | [], _ :: _ => cases h
  | _ :: _, [] => cases h
  | a :: s', b :: t' => exact Or.inr ⟨a, s', b, t', rfl, rfl, cons_iff.mp h⟩

theorem take (h : SameFold s t) (n : Nat) : SameFold (s.take n) (t.take n) := by
  unfold SameFold
  rw [List.map_take, List.map_take, h]

theorem drop (h : SameFold s t) (n : Nat) : SameFold (s.drop n) (t.drop n) := by
  unfold SameFold
  rw [List.map_drop, List.map_drop, h]

end SameFold

/-- A class of bytes that knows no case. -/
def FoldClass (p : UInt8 → Bool) : Prop := ∀ b, p (toLower b) = p b

namespace SameFold

variable {s t : List UInt8}

theorem takeWhile {p : UInt8 → Bool} (hp : FoldClass p) (h : SameFold s t) :
    SameFold (s.takeWhile p) (t.takeWhile p) := by
  have hcomm : ∀ u : List UInt8, (u.takeWhile p).map toLower = (u.map toLower).takeWhile p := by
    intro u
    rw [List.takeWhile_map, show p ∘ toLower = p from funext hp]
  unfold SameFold
  rw [hcomm, hcomm, h]

theorem dropWhile {p : UInt8 → Bool} (hp : FoldClass p) (h : SameFold s t) :
    SameFold (s.dropWhile p) (t.dropWhile p) := by
  have hcomm : ∀ u : List UInt8, (u.dropWhile p).map toLower = (u.map toLower).dropWhile p := by
    intro u
    rw [List.dropWhile_map, show p ∘ toLower = p from funext hp]
  unfold SameFold
  rw [hcomm, hcomm, h]

end SameFold

/-! ### Bytes without a case -/

/-- Not a letter. -/
def Caseless (c : UInt8) : Prop := ∀ b, toLower b = toLower c → b = c

theorem caseless_of_not_letter {c : UInt8} (hupper : ¬ (65 ≤ c ∧ c ≤ 90))
    (hlower : ¬ (97 ≤ c ∧ c ≤ 122)) : Caseless c := by
  intro b hb
  unfold toLower at hb
  rw [if_neg hupper] at hb
  split at hb
  · rename_i hletter
    exfalso
    apply hlower
    rw [← hb]
    simp only [UInt8.le_iff_toNat_le, UInt8.toNat_add] at hletter ⊢
    simp only [UInt8.reduceToNat] at hletter ⊢
    omega
  · exact hb

/-- A property of all bytes, checked one by one. -/
theorem forall_byte {P : UInt8 → Prop} [DecidablePred P]
    (h : (List.range 256).all fun n => P (UInt8.ofNat n)) (b : UInt8) : P b := by
  have hb := List.all_eq_true.mp h b.toNat (List.mem_range.mpr b.toNat_lt)
  rw [decide_eq_true_iff, UInt8.ofNat_toNat] at hb
  exact hb

theorem foldClass_isSpace : FoldClass isSpace := forall_byte (by decide +kernel)

theorem foldClass_not_isSpace : FoldClass fun b => !isSpace b := forall_byte (by decide +kernel)

namespace SameFold

variable {s t : List UInt8}

theorem cstr (h : SameFold s t) : SameFold (cstr s) (cstr t) :=
  h.takeWhile (forall_byte (by decide +kernel))

theorem mem_iff {c : UInt8} (hc : Caseless c) (h : SameFold s t) : c ∈ s ↔ c ∈ t := by
  have hmem : ∀ u : List UInt8, c ∈ u ↔ toLower c ∈ u.map toLower := by
    intro u
    refine ⟨List.mem_map_of_mem, fun hin => ?_⟩
    obtain ⟨b, hb, hbc⟩ := List.mem_map.mp hin
    rwa [← hc b hbc]
  rw [hmem, hmem, h]

/-- A word without letters. -/
theorem infix_iff {word : List UInt8} (hword : ∀ c ∈ word, Caseless c) (h : SameFold s t) :
    word <:+: s ↔ word <:+: t := by
  have hself : ∀ u v : List UInt8, (∀ c ∈ v, Caseless c) → u.map toLower = v.map toLower → u = v := by
    intro u v hv huv
    induction v generalizing u with
    | nil => exact List.map_eq_nil_iff.mp huv
    | cons c v ih =>
        match u with
        | [] => cases huv
        | b :: u =>
            obtain ⟨hb, hu⟩ := cons_iff.mp huv
            obtain ⟨hc, hv⟩ := List.forall_mem_cons.mp hv
            rw [hc b hb, ih u hv hu]
  have hfold : ∀ u : List UInt8, word <:+: u ↔ word.map toLower <:+: u.map toLower := by
    intro u
    refine ⟨fun hin => hin.map toLower, ?_⟩
    rintro ⟨a, b, hab⟩
    obtain ⟨ab, b', rfl, hab', rfl⟩ := List.map_eq_append_iff.mp hab.symm
    obtain ⟨a', w, rfl, rfl, hw⟩ := List.map_eq_append_iff.mp hab'
    rw [hself w word hword hw]
    exact ⟨a', b', rfl⟩
  rw [hfold, hfold, h]

end SameFold

/-! ### Library functions -/

/-- What `strcasestr` finds is the first occurrence. -/
theorem strcasestr_eq_some {needle s found : List UInt8} (h : strcasestr needle s = some found) :
    ∃ pre, s = pre ++ found ∧ needle.map toLower <+: found.map toLower ∧
      ∀ pre' post, s = pre' ++ post → needle.map toLower <+: post.map toLower →
        pre.length ≤ pre'.length := by
  induction s with
  | nil =>
      rw [strcasestr] at h
      split at h
      · rename_i hnil
        obtain rfl := Option.some.inj h
        exact ⟨[], rfl, by rw [hnil], fun _ _ _ _ => Nat.zero_le _⟩
      · cases h
  | cons b s ih =>
      rw [strcasestr] at h
      split at h
      · rename_i hhere
        obtain rfl := Option.some.inj h
        exact ⟨[], rfl, hhere, fun _ _ _ _ => Nat.zero_le _⟩
      · rename_i hhere
        obtain ⟨pre, rfl, hfound, hfirst⟩ := ih h
        refine ⟨b :: pre, rfl, hfound, ?_⟩
        exact length_front_cons (p := fun t => needle.map toLower <+: t.map toLower) hhere hfirst

namespace SameFold

variable {s t : List UInt8}

theorem strcasestr (needle : List UInt8) (h : SameFold s t) :
    Option.Rel SameFold (CText.strcasestr needle s) (CText.strcasestr needle t) := by
  induction s generalizing t with
  | nil =>
      obtain rfl := h.eq_nil_iff.mp rfl
      rw [CText.strcasestr]
      split
      · exact .some rfl
      · exact .none
  | cons a s ih =>
      rcases h.cases_on with ⟨hnil, -⟩ | ⟨a', s', b, t', hs, rfl, hab, hst⟩
      · cases hnil
      · obtain ⟨rfl, rfl⟩ := List.cons_eq_cons.mp hs
        have hboth : (a :: s).map toLower = (b :: t').map toLower := h
        rw [CText.strcasestr, CText.strcasestr, hboth]
        split
        · exact .some h
        · exact ih hst

theorem scanWord (n : Nat) (h : SameFold s t) :
    Option.Rel (fun a b => SameFold a.1 b.1 ∧ SameFold a.2 b.2) (CText.scanWord n s)
      (CText.scanWord n t) := by
  have hskip := h.dropWhile foldClass_isSpace
  unfold CText.scanWord
  rcases hskip.cases_on with ⟨hs, ht⟩ | ⟨a, s', b, t', hs, ht, -, -⟩
  · rw [hs, ht]
    exact .none
  · rw [hs, ht] at hskip ⊢
    have hword := (hskip.takeWhile foldClass_not_isSpace).take n
    refine .some ⟨hword, ?_⟩
    rw [hword.length_eq]
    exact hskip.drop _

end SameFold

end CaseFold
