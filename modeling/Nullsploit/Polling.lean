/-
Nullsploit/Polling.lean

Reading a table through a cursor.  Rows get growing keys and may be removed at
any time; a reader that remembers one key asks for the first rows behind it,
deals with them one after the other and moves the cursor along.

`ReaderProgress c done t top k` says how far it has come: of the rows behind `c`, those
in the table up to the cursor `k` are exactly those dealt with, and what was
dealt with is in order, each row once.  It is kept when a row is added
(`ReaderProgress.insert`), when rows are removed (`ReaderProgress.remove`), when the reader
deals with a batch or any first part of one (`ReaderProgress.batch`), and when a cursor
that points behind the table is put back to its end (`ReaderProgress.rewind`).
-/
import Mathlib.Data.List.Basic
import Mathlib.Order.Lattice
import Mathlib.Tactic.Common

namespace Polling

variable {α κ : Type*} [LinearOrder κ] {key : α → κ}

/-- The rows behind the cursor. -/
def after (key : α → κ) (k : κ) (t : List α) : List α := t.filter fun r => decide (k < key r)

/-- The cursor after the rows of a batch. -/
def reached (key : α → κ) (k : κ) (b : List α) : κ := b.foldl (fun _ r => key r) k

/-- Rows in the order of their keys, no two with the same. -/
def Increasing (key : α → κ) (t : List α) : Prop := t.Pairwise fun r r' => key r < key r'

theorem mem_after {k : κ} {t : List α} {r : α} : r ∈ after key k t ↔ r ∈ t ∧ k < key r := by
  simp [after]

theorem increasing_after {t : List α} (h : Increasing key t) (k : κ) :
    Increasing key (after key k t) :=
  h.filter _

/-- A key stands for its row. -/
theorem Increasing.eq_of_key {t : List α} (h : Increasing key t) {r r' : α} (hr : r ∈ t)
    (hr' : r' ∈ t) (heq : key r = key r') : r = r' := by
  induction t with
  | nil => exact absurd hr List.not_mem_nil
  | cons x t ih =>
      obtain ⟨hx, ht⟩ := List.pairwise_cons.mp h
      rcases List.mem_cons.mp hr with h₁ | h₁ <;> rcases List.mem_cons.mp hr' with h₂ | h₂
      · exact h₁.trans h₂.symm
      · exact absurd heq (h₁ ▸ hx r' h₂).ne
      · exact absurd heq (h₂ ▸ hx r h₁).ne'
      · exact ih ht h₁ h₂

section Reached

omit [LinearOrder κ]

@[simp] theorem reached_nil (k : κ) : reached key k [] = k := rfl

@[simp] theorem reached_cons (k : κ) (r : α) (b : List α) :
    reached key k (r :: b) = reached key (key r) b := rfl

/-- The cursor stands where it was, or on a row of the batch. -/
theorem reached_cases (key : α → κ) (k : κ) (b : List α) :
    reached key k b = k ∨ ∃ r ∈ b, reached key k b = key r := by
  induction b generalizing k with
  | nil => exact Or.inl rfl
  | cons r b ih =>
      refine Or.inr ?_
      rcases ih (key r) with h | ⟨r', hr', h⟩
      · exact ⟨r, List.mem_cons_self, h⟩
      · exact ⟨r', List.mem_cons_of_mem _ hr', h⟩

end Reached

/-- In a batch with growing keys no row is behind the cursor. -/
theorem Increasing.le_reached {b : List α} (h : Increasing key b) :
    ∀ {k : κ} {r : α}, r ∈ b → key r ≤ reached key k b := by
  induction b with
  | nil => exact fun hr => absurd hr List.not_mem_nil
  | cons r₀ b ih =>
      obtain ⟨hhead, htail⟩ := List.pairwise_cons.mp h
      intro k r hr
      rw [reached_cons]
      rcases List.mem_cons.mp hr with rfl | hr
      · rcases reached_cases key (key r) b with heq | ⟨r', hr', heq⟩
        · exact heq.ge
        · exact heq ▸ (hhead r' hr').le
      · exact ih htail hr

/-- A first part of the rows behind the cursor, and the rest. -/
theorem Increasing.mem_batch_iff {k : κ} {t b rest : List α} (ht : Increasing key t)
    (hb : after key k t = b ++ rest) {r : α} (hr : r ∈ t) :
    r ∈ b ↔ k < key r ∧ key r ≤ reached key k b := by
  have hinc : Increasing key (b ++ rest) := hb ▸ increasing_after ht k
  obtain ⟨hincb, -, hcross⟩ := List.pairwise_append.mp hinc
  constructor
  · intro hrb
    have hmem : r ∈ after key k t := hb ▸ List.mem_append_left _ hrb
    exact ⟨(mem_after.mp hmem).2, Increasing.le_reached hincb hrb⟩
  · rintro ⟨hk, hle⟩
    have hmem : r ∈ b ++ rest := hb ▸ mem_after.mpr ⟨hr, hk⟩
    rcases List.mem_append.mp hmem with h | h
    · exact h
    · exfalso
      -- the row would be behind the whole batch
      rcases reached_cases key k b with heq | ⟨r', hr', heq⟩
      · exact absurd hk (not_lt.mpr (heq ▸ hle))
      · exact absurd (hcross r' hr' r h) (not_lt.mpr (heq ▸ hle))

/-- What is behind the cursor after the batch is the rest. -/
theorem Increasing.after_reached {k : κ} {t b rest : List α} (ht : Increasing key t)
    (hb : after key k t = b ++ rest) : after key (reached key k b) t = rest := by
  have hinc : Increasing key (b ++ rest) := hb ▸ increasing_after ht k
  obtain ⟨hincb, -, hcross⟩ := List.pairwise_append.mp hinc
  have hle : k ≤ reached key k b := by
    rcases reached_cases key k b with heq | ⟨r', hr', heq⟩
    · exact heq.ge
    · have hmem : r' ∈ after key k t := hb ▸ List.mem_append_left _ hr'
      exact heq ▸ (mem_after.mp hmem).2.le
  have htwice : after key (reached key k b) t
      = (after key k t).filter fun r => decide (reached key k b < key r) := by
    rw [after, after, List.filter_filter]
    refine List.filter_congr fun r _ => ?_
    rw [← Bool.decide_and]
    exact decide_eq_decide.mpr ⟨fun h => ⟨h, lt_of_le_of_lt hle h⟩, And.left⟩
  have hnone : b.filter (fun r => decide (reached key k b < key r)) = [] := by
    refine List.filter_eq_nil_iff.mpr fun r hr => ?_
    simpa using Increasing.le_reached hincb hr
  have hall : rest.filter (fun r => decide (reached key k b < key r)) = rest := by
    refine List.filter_eq_self.mpr fun r hr => decide_eq_true ?_
    rcases reached_cases key k b with heq | ⟨r', hr', heq⟩
    · have hmem : r ∈ after key k t := hb ▸ List.mem_append_right _ hr
      rw [heq]
      exact (mem_after.mp hmem).2
    · exact heq ▸ hcross r' hr' r hr
  rw [htwice, hb, List.filter_append, hnone, hall, List.nil_append]

/-! ### How far a reader has come -/

/-- Of the rows behind `c`, those up to the cursor `k` have been dealt with.  No
key is larger than `top` yet. -/
structure ReaderProgress (key : α → κ) (c : κ) (done t : List α) (top k : κ) : Prop where
  increasing : Increasing key t
  le_top : ∀ r ∈ t, key r ≤ top
  in_order : Increasing key done
  covered : ∀ r ∈ t, c < key r → (r ∈ done ↔ key r ≤ k)
  ahead : ∀ r ∈ t, k < key r → c < key r ∧ ∀ r' ∈ done, key r' < key r
  behind : ∀ r ∈ done, c < key r ∧ key r ≤ top
  cursor : k = c ∨ c ≤ top ∧ k ≤ top

namespace ReaderProgress

variable {c top k : κ} {done t : List α}

/-- At the start nothing has been dealt with. -/
theorem start (ht : Increasing key t) (htop : ∀ r ∈ t, key r ≤ top) :
    ReaderProgress key c [] t top c where
  increasing := ht
  le_top := htop
  in_order := List.Pairwise.nil
  covered := fun _ _ hc => ⟨fun h => absurd h List.not_mem_nil, fun h => absurd hc (not_lt.mpr h)⟩
  ahead := fun _ _ hc => ⟨hc, fun _ h => absurd h List.not_mem_nil⟩
  behind := fun _ h => absurd h List.not_mem_nil
  cursor := Or.inl rfl

/-- A new row gets a key that no row has had. -/
theorem insert (h : ReaderProgress key c done t top k) {r : α} (hr : top < key r) :
    ReaderProgress key c done (t ++ [r]) (key r) k where
  increasing :=
    List.pairwise_append.mpr ⟨h.increasing, List.pairwise_singleton _ _, fun r' hr' r'' hr'' => by
      rw [List.mem_singleton.mp hr'']
      exact lt_of_le_of_lt (h.le_top r' hr') hr⟩
  le_top := by
    intro r' hr'
    rcases List.mem_append.mp hr' with hr' | hr'
    · exact (h.le_top r' hr').trans hr.le
    · rw [List.mem_singleton.mp hr']
  in_order := h.in_order
  covered := by
    intro r' hr' hc
    rcases List.mem_append.mp hr' with hr' | hr'
    · exact h.covered r' hr' hc
    · rw [List.mem_singleton.mp hr'] at hc ⊢
      refine iff_of_false (fun hd => absurd hr (not_lt.mpr (h.behind r hd).2)) fun hk => ?_
      -- a cursor behind the table is where the reader began
      rcases h.cursor with rfl | ⟨-, htop⟩
      · exact absurd hc (not_lt.mpr hk)
      · exact absurd hr (not_lt.mpr (hk.trans htop))
  ahead := by
    intro r' hr' hk
    rcases List.mem_append.mp hr' with hr' | hr'
    · exact h.ahead r' hr' hk
    · rw [List.mem_singleton.mp hr'] at hk ⊢
      refine ⟨?_, fun r'' hd => lt_of_le_of_lt (h.behind r'' hd).2 hr⟩
      rcases h.cursor with rfl | ⟨htop, -⟩
      · exact hk
      · exact lt_of_le_of_lt htop hr
  behind := fun r' hd => ⟨(h.behind r' hd).1, (h.behind r' hd).2.trans hr.le⟩
  cursor := h.cursor.imp_right fun htop => ⟨htop.1.trans hr.le, htop.2.trans hr.le⟩

/-- Rows may go at any time, dealt with or not. -/
theorem remove (h : ReaderProgress key c done t top k) {t' : List α} (ht : t'.Sublist t) :
    ReaderProgress key c done t' top k :=
  { h with
    increasing := h.increasing.sublist ht
    le_top := fun r hr => h.le_top r (ht.subset hr)
    covered := fun r hr => h.covered r (ht.subset hr)
    ahead := fun r hr => h.ahead r (ht.subset hr) }

/-- The reader deals with the first rows behind the cursor. -/
theorem batch (h : ReaderProgress key c done t top k) {b rest : List α}
    (hb : after key k t = b ++ rest) :
    ReaderProgress key c (done ++ b) t top (reached key k b) := by
  have hmem : ∀ r ∈ b, r ∈ t ∧ k < key r := fun r hr =>
    mem_after.mp (hb ▸ List.mem_append_left _ hr)
  have hb_iff := fun r hr => h.increasing.mem_batch_iff hb (r := r) hr
  have hle : k ≤ reached key k b := by
    rcases reached_cases key k b with heq | ⟨r', hr', heq⟩
    · exact heq.ge
    · exact heq ▸ (hmem r' hr').2.le
  have hincb : Increasing key (b ++ rest) := hb ▸ increasing_after h.increasing k
  refine { h with in_order := ?_, covered := ?_, ahead := ?_, behind := ?_, cursor := ?_ }
  · exact List.pairwise_append.mpr ⟨h.in_order, (List.pairwise_append.mp hincb).1,
      fun r' hr' r hr => (h.ahead r (hmem r hr).1 (hmem r hr).2).2 r' hr'⟩
  · intro r hr hc
    rw [List.mem_append, h.covered r hr hc, hb_iff r hr]
    constructor
    · rintro (hk | hk)
      · exact hk.trans hle
      · exact hk.2
    · intro hk
      exact (le_or_gt (key r) k).imp_right fun hlt => ⟨hlt, hk⟩
  · intro r hr hk
    refine ⟨(h.ahead r hr (lt_of_le_of_lt hle hk)).1, fun r' hr' => ?_⟩
    rcases List.mem_append.mp hr' with hd | hd
    · exact (h.ahead r hr (lt_of_le_of_lt hle hk)).2 r' hd
    · exact lt_of_le_of_lt ((hb_iff r' (hmem r' hd).1).mp hd).2 hk
  · intro r hr
    rcases List.mem_append.mp hr with hd | hd
    · exact h.behind r hd
    · exact ⟨(h.ahead r (hmem r hd).1 (hmem r hd).2).1, h.le_top r (hmem r hd).1⟩
  · rcases reached_cases key k b with heq | ⟨r, hr, heq⟩
    · exact heq.symm ▸ h.cursor
    · have htop := h.le_top r (hmem r hr).1
      exact Or.inr ⟨(h.ahead r (hmem r hr).1 (hmem r hr).2).1.le.trans htop, heq ▸ htop⟩

/-- A cursor that stands behind all rows may be put back to the last of them, or
further as long as no row is behind it. -/
theorem rewind (h : ReaderProgress key c done t top k) {k' : κ} (hk : k' ≤ k) (hc : c ≤ top)
    (htop : k' ≤ top) (hlast : ∀ r ∈ t, key r ≤ k') : ReaderProgress key c done t top k' :=
  { h with
    covered := fun r hr hcr =>
      iff_of_true ((h.covered r hr hcr).mpr ((hlast r hr).trans hk)) (hlast r hr)
    ahead := fun r hr hkr => absurd hkr (not_lt.mpr (hlast r hr))
    cursor := Or.inr ⟨hc, htop⟩ }

end ReaderProgress

end Polling
