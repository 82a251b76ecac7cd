/-
Nullsploit/RingQueue.lean

Ring queues: `n` slots, a head where the next element goes and a tail where the
oldest one is, both advancing modulo `n`.  Equal positions mean empty, so one
slot always stays unused: that is how full and empty are told apart.

`contents` is the list a ring stands for, oldest first.  The operations are
those of a bounded queue on it: `contents_push`, `contents_pop`, `drain_eq`.
-/
import Mathlib.Data.List.Basic
import Mathlib.Logic.Function.Basic
import Mathlib.Tactic.Common

/-- A ring of `n` slots. -/
structure RingQueue (n : Nat) (α : Type*) where
  slots : Fin n → α
  head : Fin n
  tail : Fin n

namespace RingQueue

variable {n : Nat} {α : Type*}

/-- The position `k` slots after `i`. -/
def after (i : Fin n) (k : Nat) : Fin n := ⟨(i + k) % n, Nat.mod_lt _ i.pos⟩

/-- The next position, `(i + 1) % n`. -/
def next (i : Fin n) : Fin n := after i 1

/-- An empty ring at some position; what the slots hold does not matter. -/
def empty (slots : Fin n → α) (i : Fin n) : RingQueue n α := ⟨slots, i, i⟩

/-- One more element would make it look empty. -/
def full (r : RingQueue n α) : Prop := next r.head = r.tail

instance (r : RingQueue n α) : Decidable r.full := inferInstanceAs (Decidable (_ = _))

/-- Store at the head. -/
def push (r : RingQueue n α) (x : α) : RingQueue n α :=
  { r with slots := Function.update r.slots r.head x, head := next r.head }

/-- The oldest element, if there is one. -/
def front (r : RingQueue n α) : α := r.slots r.tail

/-- Pass over the oldest element. -/
def pop (r : RingQueue n α) : RingQueue n α := { r with tail := next r.tail }

/-- The number of elements. -/
def count (r : RingQueue n α) : Nat := (r.head + (n - r.tail)) % n

/-- The elements, oldest first. -/
def contents (r : RingQueue n α) : List α := (List.range r.count).map fun k => r.slots (after r.tail k)

/-! ### Positions -/

/-- Within one turn the sum wraps at most once. -/
theorem val_after (i : Fin n) {k : Nat} (hk : k ≤ n) :
    (after i k).val = if i + k < n then i + k else i + k - n := by
  have hi := i.isLt
  show (i + k) % n = _
  split
  · rename_i hlt
    exact Nat.mod_eq_of_lt hlt
  · rename_i hge
    rw [Nat.mod_eq_sub_mod (Nat.not_lt.mp hge)]
    rcases Nat.lt_or_ge (i + k - n) n with hlt | hge'
    · exact Nat.mod_eq_of_lt hlt
    · omega

theorem count_eq (r : RingQueue n α) :
    r.count = if r.tail.val ≤ r.head.val then r.head.val - r.tail.val
      else r.head.val + n - r.tail.val := by
  have hh := r.head.isLt
  have ht := r.tail.isLt
  have hval := val_after r.head (Nat.sub_le n r.tail)
  have hcount : r.count = (after r.head (n - r.tail)).val := rfl
  rw [hcount, hval]
  rcases Nat.lt_or_ge r.head.val r.tail.val with hlt | hge
  · rw [if_pos (by omega), if_neg (by omega)]
    omega
  · rw [if_neg (by omega), if_pos hge]
    omega

theorem count_lt (r : RingQueue n α) : r.count < n := Nat.mod_lt _ r.head.pos

/-- The head is that many slots after the tail. -/
theorem after_count (r : RingQueue n α) : after r.tail r.count = r.head := by
  have hh := r.head.isLt
  have ht := r.tail.isLt
  apply Fin.ext
  rw [val_after r.tail (Nat.le_of_lt r.count_lt), count_eq]
  split <;> split <;> omega

/-- Positions within one turn differ. -/
theorem after_inj (i : Fin n) {j k : Nat} (hj : j < n) (hk : k < n) (h : after i j = after i k) :
    j = k := by
  have hi := i.isLt
  have hval := congrArg Fin.val h
  rw [val_after i (Nat.le_of_lt hj), val_after i (Nat.le_of_lt hk)] at hval
  split at hval <;> split at hval <;> omega

theorem after_next (i : Fin n) (k : Nat) : after (next i) k = after i (k + 1) := by
  apply Fin.ext
  show ((i + 1) % n + k) % n = (i + (k + 1)) % n
  rw [Nat.mod_add_mod, Nat.add_assoc, Nat.add_comm 1 k]

/-! ### The operations on the contents -/

theorem length_contents (r : RingQueue n α) : r.contents.length = r.count := by simp [contents]

theorem count_eq_zero_iff (r : RingQueue n α) : r.count = 0 ↔ r.head = r.tail := by
  have hh := r.head.isLt
  have ht := r.tail.isLt
  rw [count_eq, Fin.ext_iff]
  split <;> omega

theorem contents_eq_nil_iff (r : RingQueue n α) : r.contents = [] ↔ r.head = r.tail := by
  rw [← List.length_eq_zero_iff, length_contents, count_eq_zero_iff]

/-- A ring is full with one slot left. -/
theorem full_iff (r : RingQueue n α) : r.full ↔ r.count + 1 = n := by
  have hh := r.head.isLt
  have ht := r.tail.isLt
  unfold full next
  rw [Fin.ext_iff, val_after r.head (by omega), count_eq]
  split <;> split <;> omega

theorem count_push {r : RingQueue n α} (h : ¬ r.full) (x : α) : (r.push x).count = r.count + 1 := by
  have hlt := r.count_lt
  have hne : r.count + 1 ≠ n := fun e => h (r.full_iff.mpr e)
  have hnext : after r.tail (r.push x).count = after r.tail (r.count + 1) := by
    calc after r.tail (r.push x).count = next r.head := after_count (r.push x)
      _ = after r.tail (r.count + 1) := by
          rw [← after_count r]
          apply Fin.ext
          show ((r.tail + r.count) % n + 1) % n = (r.tail + (r.count + 1)) % n
          rw [Nat.mod_add_mod, Nat.add_assoc]
  exact after_inj r.tail (r.push x).count_lt (by omega) hnext

theorem contents_push {r : RingQueue n α} (h : ¬ r.full) (x : α) :
    (r.push x).contents = r.contents ++ [x] := by
  unfold contents
  rw [count_push h, List.range_succ, List.map_append, List.map_singleton]
  congr 1
  · -- the slots in use are not the one stored in
    apply List.map_congr_left
    intro k hk
    have hlt := List.mem_range.mp hk
    have hne : after r.tail k ≠ r.head := by
      rw [← after_count r]
      intro e
      have := after_inj r.tail (Nat.lt_trans hlt r.count_lt) r.count_lt e
      omega
    exact Function.update_of_ne hne x r.slots
  · show [Function.update r.slots r.head x (after r.tail r.count)] = [x]
    rw [after_count, Function.update_self]

theorem count_pop {r : RingQueue n α} (h : r.head ≠ r.tail) : r.pop.count + 1 = r.count := by
  have hpos : r.count ≠ 0 := fun e => h (r.count_eq_zero_iff.mp e)
  have hlt := r.count_lt
  have hhead : after r.tail (r.pop.count + 1) = after r.tail r.count := by
    rw [← after_next, after_count r]
    exact after_count r.pop
  have hpop := r.pop.count_lt
  rcases Nat.lt_or_ge (r.pop.count + 1) n with hlt' | hge
  · exact after_inj r.tail hlt' hlt hhead
  · -- a whole turn would end at the tail
    have hturn : r.pop.count + 1 = n := by omega
    rw [hturn, after_count] at hhead
    refine absurd (hhead.symm.trans (Fin.ext ?_)) h
    show (r.tail + n) % n = r.tail
    rw [Nat.add_mod_right, Nat.mod_eq_of_lt r.tail.isLt]

theorem contents_pop {r : RingQueue n α} (h : r.head ≠ r.tail) :
    r.contents = r.front :: r.pop.contents := by
  unfold contents
  rw [← count_pop h, List.range_succ_eq_map, List.map_cons, List.map_map]
  congr 1
  · show r.slots (after r.tail 0) = r.slots r.tail
    congr 1
    apply Fin.ext
    show (r.tail + 0) % n = r.tail
    rw [Nat.add_zero, Nat.mod_eq_of_lt r.tail.isLt]
  · apply List.map_congr_left
    intro k _
    exact congrArg r.slots (after_next r.tail k).symm

@[simp] theorem contents_empty (slots : Fin n → α) (i : Fin n) : (empty slots i).contents = [] :=
  (contents_eq_nil_iff _).mpr rfl

/-! ### Emptying -/

/-- `while (head != tail)`: pass over the elements in turn. -/
def drain (r : RingQueue n α) : List α × RingQueue n α :=
  if h : r.head = r.tail then ([], r)
  else
    have : r.pop.count < r.count := by
      have := count_pop h
      omega
    (r.front :: r.pop.drain.1, r.pop.drain.2)
termination_by r.count

/-- They are the contents, and nothing is left. -/
theorem drain_eq (r : RingQueue n α) : r.drain.1 = r.contents ∧ r.drain.2.contents = [] := by
  fun_induction drain r with
  | case1 r h => exact ⟨((contents_eq_nil_iff r).mpr h).symm, (contents_eq_nil_iff r).mpr h⟩
  | case2 r h _ ih =>
      refine ⟨?_, ih.2⟩
      rw [contents_pop h, ih.1]

end RingQueue
