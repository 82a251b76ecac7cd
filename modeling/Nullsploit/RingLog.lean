/-
Nullsploit/RingLog.lean

A ring that is overwritten in turn: `n` slots, blank at first, and each element
goes to the slot after the one before it, modulo `n`.  So the ring remembers
the last `n` elements of its log and nothing else (`Holds.mem_iff`).
-/
import Mathlib.Data.List.Basic
import Mathlib.Tactic.Common

namespace RingLog

variable {α : Type*} {n : Nat} {blank x : α} {log ring : List α}

/-- The ring after the elements of the log were written to it. -/
structure Holds (n : Nat) (blank : α) (log ring : List α) : Prop where
  length_eq : ring.length = n
  /-- One of the last `n` elements is in its slot. -/
  recent : ∀ k < log.length, log.length ≤ k + n → ring[k % n]? = log[k]?
  /-- In the first round there are slots not yet written. -/
  unused : ∀ i, log.length ≤ i → i < n → ring[i]? = some blank

theorem holds_nil (n : Nat) (blank : α) : Holds n blank [] (List.replicate n blank) where
  length_eq := List.length_replicate
  recent := fun k hk => absurd hk (Nat.not_lt_zero k)
  unused := fun i _ hi => by rw [List.getElem?_replicate, if_pos hi]

/-- Two positions less than a round apart are different slots. -/
theorem mod_ne_of_lt {k m : Nat} (hkm : k < m) (hround : m < k + n) : k % n ≠ m % n := by
  intro h
  have hzero : (m - k) % n = 0 := Nat.sub_mod_eq_zero_of_mod_eq h.symm
  rw [Nat.mod_eq_of_lt (by omega)] at hzero
  omega

theorem Holds.write (h : Holds n blank log ring) (hn : 0 < n) (x : α) :
    Holds n blank (log ++ [x]) (ring.set (log.length % n) x) where
  length_eq := by rw [List.length_set, h.length_eq]
  recent := by
    intro k hk hround
    rw [List.length_append, List.length_singleton] at hk hround
    have hslot : log.length % n < ring.length := by
      rw [h.length_eq]
      exact Nat.mod_lt _ hn
    rcases Nat.lt_or_ge k log.length with hlt | hge
    · -- an older element: the write is to another slot
      rw [List.getElem?_set_ne (mod_ne_of_lt hlt (by omega)).symm, h.recent k hlt (by omega),
        List.getElem?_append_left hlt]
    · obtain rfl : k = log.length := by omega
      rw [List.getElem?_set_self hslot, List.getElem?_append_right (Nat.le_refl _), Nat.sub_self]
      rfl
  unused := by
    intro i hi hin
    rw [List.length_append, List.length_singleton] at hi
    have hslot : log.length % n = log.length := Nat.mod_eq_of_lt (by omega)
    rw [hslot, List.getElem?_set_ne (by omega), h.unused i (by omega) hin]

/-- **What the ring remembers**: the elements with fewer than `n` after them. -/
theorem Holds.mem_iff (h : Holds n blank log ring) (hn : 0 < n) :
    x ∈ ring ↔ (∃ before after, log = before ++ x :: after ∧ after.length < n) ∨
      log.length < n ∧ x = blank := by
  constructor
  · intro hx
    obtain ⟨i, hi, rfl⟩ := List.mem_iff_getElem.mp hx
    have hin : i < n := h.length_eq ▸ hi
    rcases Nat.lt_or_ge i log.length with hlt | hge
    · -- the last position of the log that falls on slot i
      obtain ⟨k, hk, hround, hslot⟩ : ∃ k, k < log.length ∧ log.length ≤ k + n ∧ k % n = i := by
        refine ⟨i + n * ((log.length - 1 - i) / n), ?_, ?_, ?_⟩
        · have := Nat.mul_div_le (log.length - 1 - i) n
          omega
        · have hsplit := Nat.div_add_mod (log.length - 1 - i) n
          have hrest := Nat.mod_lt (log.length - 1 - i) hn
          omega
        · rw [Nat.add_mul_mod_self_left, Nat.mod_eq_of_lt hin]
      have hval := h.recent k hk hround
      rw [hslot, List.getElem?_eq_getElem hi, List.getElem?_eq_getElem hk,
        Option.some.injEq] at hval
      refine Or.inl ⟨log.take k, log.drop (k + 1), ?_, ?_⟩
      · rw [hval, ← List.drop_eq_getElem_cons hk, List.take_append_drop]
      · rw [List.length_drop]
        omega
    · have hval := h.unused i hge hin
      rw [List.getElem?_eq_getElem hi, Option.some.injEq] at hval
      exact Or.inr ⟨by omega, hval⟩
  · rintro (⟨before, after, rfl, hafter⟩ | ⟨hlt, rfl⟩)
    · have hval := h.recent before.length (by simp) (by simp; omega)
      rw [List.getElem?_append_right (Nat.le_refl _), Nat.sub_self] at hval
      exact List.mem_of_getElem? hval
    · exact List.mem_of_getElem? (h.unused _ (Nat.le_refl _) hlt)

end RingLog
