/-
Nullsploit/Slots.lean

Tables of fixed size whose entries are free or taken, as lists of options:
`fill` takes the first free slot, `clear` frees the first one that matches, and
`sweep` visits every taken slot in turn with a state, freeing those its visitor
says to free.

What matters about a table is the list of what is in it, `List.reduceOption`.
`perm_fill`, `clear_sublist` and `sweep_invariant` are in these terms; the
last is the rule for loops over a table.
-/
import Mathlib.Data.List.ReduceOption
import Mathlib.Tactic.Common

namespace Slots

variable {α σ : Type*}

/-- Put `x` into the first free slot, if there is one. -/
def fill (x : α) : List (Option α) → List (Option α)
  | [] => []
  | none :: slots => some x :: slots
  | some y :: slots => some y :: fill x slots

/-- Free the first slot with an entry for which `p` holds. -/
def clear (p : α → Bool) : List (Option α) → List (Option α)
  | [] => []
  | none :: slots => none :: clear p slots
  | some y :: slots => if p y then none :: slots else some y :: clear p slots

/-- Visit the taken slots; a visit returns the next state and whether the slot
is to be freed. -/
def sweep (visit : σ → α → σ × Bool) : σ → List (Option α) → σ × List (Option α)
  | s, [] => (s, [])
  | s, none :: slots =>
      let (s', slots') := sweep visit s slots
      (s', none :: slots')
  | s, some x :: slots =>
      let (s', free) := visit s x
      let (s'', slots') := sweep visit s' slots
      (s'', (if free then none else some x) :: slots')

/-! ### Filling -/

theorem fill_of_full {x : α} {slots : List (Option α)} (h : none ∉ slots) :
    fill x slots = slots := by
  induction slots with
  | nil => rfl
  | cons slot slots ih =>
      rcases slot with - | y
      · simp at h
      · rw [fill, ih fun hn => h (List.mem_cons_of_mem _ hn)]

/-- In a table with a free slot the new entry is there, once, and the others
are as before. -/
theorem perm_fill {x : α} {slots : List (Option α)} (h : none ∈ slots) :
    (fill x slots).reduceOption.Perm (x :: slots.reduceOption) := by
  induction slots with
  | nil => cases h
  | cons slot slots ih =>
      rcases slot with - | y
      · rw [fill, List.reduceOption_cons_of_some, List.reduceOption_cons_of_none]
      · have hrest : none ∈ slots := by simpa using h
        rw [fill, List.reduceOption_cons_of_some, List.reduceOption_cons_of_some]
        exact ((ih hrest).cons y).trans (List.Perm.swap x y _)

theorem fill_cases (x : α) (slots : List (Option α)) :
    none ∉ slots ∧ fill x slots = slots ∨
      none ∈ slots ∧ (fill x slots).reduceOption.Perm (x :: slots.reduceOption) := by
  by_cases h : none ∈ slots
  · exact Or.inr ⟨h, perm_fill h⟩
  · exact Or.inl ⟨h, fill_of_full h⟩

/-! ### Clearing -/

theorem clear_sublist (p : α → Bool) (slots : List (Option α)) :
    (clear p slots).reduceOption.Sublist slots.reduceOption := by
  induction slots with
  | nil => exact .slnil
  | cons slot slots ih =>
      rcases slot with - | y
      · rw [clear, List.reduceOption_cons_of_none, List.reduceOption_cons_of_none]
        exact ih
      · rw [clear, List.reduceOption_cons_of_some]
        split
        · rw [List.reduceOption_cons_of_none]
          exact List.sublist_cons_self y _
        · rw [List.reduceOption_cons_of_some]
          exact ih.cons_cons y

/-- An entry for which `p` does not hold stays. -/
theorem mem_clear {p : α → Bool} {slots : List (Option α)} {x : α} (hx : p x = false)
    (hmem : x ∈ slots.reduceOption) : x ∈ (clear p slots).reduceOption := by
  induction slots with
  | nil => cases hmem
  | cons slot slots ih =>
      rcases slot with - | y
      · rw [List.reduceOption_cons_of_none] at hmem
        rw [clear, List.reduceOption_cons_of_none]
        exact ih hmem
      · rw [List.reduceOption_cons_of_some, List.mem_cons] at hmem
        rw [clear]
        split
        · rename_i hy
          rw [List.reduceOption_cons_of_none]
          refine hmem.resolve_left ?_
          rintro rfl
          rw [hx] at hy
          cases hy
        · rw [List.reduceOption_cons_of_some, List.mem_cons]
          exact hmem.imp_right ih

/-- If `x` is the only entry for which `p` holds, and it is there once, it is
gone afterwards. -/
theorem not_mem_clear {p : α → Bool} {slots : List (Option α)} {x : α} (hx : p x = true)
    (hnodup : slots.reduceOption.Nodup)
    (honly : ∀ y ∈ slots.reduceOption, p y = true → y = x) :
    x ∉ (clear p slots).reduceOption := by
  induction slots with
  | nil => simp [clear]
  | cons slot slots ih =>
      rcases slot with - | y
      · rw [List.reduceOption_cons_of_none] at hnodup honly
        rw [clear, List.reduceOption_cons_of_none]
        exact ih hnodup honly
      · rw [List.reduceOption_cons_of_some] at hnodup honly
        rw [clear]
        split
        · rename_i hy
          -- this is the slot that is cleared, and `x` is nowhere else
          obtain rfl := honly y (by simp) hy
          rw [List.reduceOption_cons_of_none]
          exact (List.nodup_cons.mp hnodup).1
        · rename_i hy
          rw [List.reduceOption_cons_of_some, List.mem_cons, not_or]
          refine ⟨?_, ih (List.nodup_cons.mp hnodup).2 fun z hz => honly z (by simp [hz])⟩
          rintro rfl
          exact hy hx

/-! ### Sweeping -/

variable {visit : σ → α → σ × Bool}

/-- The rule for sweeps, with `pre` the entries kept so far. -/
theorem sweep_invariant_aux (I : σ → List α → Prop)
    (hkeep : ∀ s pre x post, I s (pre ++ x :: post) → (visit s x).2 = false →
      I (visit s x).1 (pre ++ x :: post))
    (hfree : ∀ s pre x post, I s (pre ++ x :: post) → (visit s x).2 = true →
      I (visit s x).1 (pre ++ post))
    (slots : List (Option α)) :
    ∀ (s : σ) (pre : List α), I s (pre ++ slots.reduceOption) →
      I (sweep visit s slots).1 (pre ++ (sweep visit s slots).2.reduceOption) := by
  induction slots with
  | nil => exact fun _ _ h => h
  | cons slot slots ih =>
      intro s pre h
      rcases slot with - | x
      · rw [List.reduceOption_cons_of_none] at h
        have hnext := ih s pre h
        rw [sweep]
        rwa [List.reduceOption_cons_of_none]
      · rw [List.reduceOption_cons_of_some] at h
        rcases hv : visit s x with ⟨s', - | -⟩
        · -- kept: the entry moves to `pre`
          have hs := hkeep s pre x _ h (by rw [hv])
          rw [hv, List.append_cons] at hs
          have hnext := ih s' (pre ++ [x]) hs
          rw [← List.append_cons] at hnext
          simpa only [sweep, hv, if_false, Bool.false_eq_true, List.reduceOption_cons_of_some]
            using hnext
        · have hs := hfree s pre x _ h (by rw [hv])
          rw [hv] at hs
          simpa only [sweep, hv, if_true, List.reduceOption_cons_of_none] using ih s' pre hs

/-- What every visit keeps, in terms of the state and of the entries of the
table, a sweep keeps. -/
theorem sweep_invariant (visit : σ → α → σ × Bool) (I : σ → List α → Prop)
    (hkeep : ∀ s pre x post, I s (pre ++ x :: post) → (visit s x).2 = false →
      I (visit s x).1 (pre ++ x :: post))
    (hfree : ∀ s pre x post, I s (pre ++ x :: post) → (visit s x).2 = true →
      I (visit s x).1 (pre ++ post))
    (s : σ) (slots : List (Option α)) (h : I s slots.reduceOption) :
    I (sweep visit s slots).1 (sweep visit s slots).2.reduceOption :=
  sweep_invariant_aux I hkeep hfree slots s [] h

/-- Where a visit that keeps its slot keeps the state too, a table is left as it
was exactly by a sweep that frees nothing. -/
theorem sweep_eq_self_iff {s : σ} (hkeep : ∀ x, (visit s x).2 = false → (visit s x).1 = s)
    (slots : List (Option α)) :
    ((sweep visit s slots).2 = slots ↔ ∀ x ∈ slots.reduceOption, (visit s x).2 = false) ∧
      ((sweep visit s slots).2 = slots → (sweep visit s slots).1 = s) := by
  induction slots with
  | nil => simp [sweep]
  | cons slot slots ih =>
      rcases slot with - | x
      · rw [sweep, List.reduceOption_cons_of_none, List.cons_inj_right]
        exact ih
      · rw [List.reduceOption_cons_of_some, List.forall_mem_cons]
        rcases hv : visit s x with ⟨s', - | -⟩
        · obtain rfl : s' = s := by
            have := hkeep x (by rw [hv])
            rwa [hv] at this
          simpa [sweep, hv] using ih
        · simp [sweep, hv]

end Slots
