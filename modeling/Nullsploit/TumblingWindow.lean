/-
Nullsploit/TumblingWindow.lean

Counting in tumbling windows.  `windows` divides a history of arrivals: a
window opens at the first arrival, and again at every counted one that comes
more than `len` after the window's start; what comes in between belongs to the
window, however its time compares.  `Meter` is the constant-space counter that
goes with it, with a flag that stays up and an alarm for each window that
crosses a limit.

`meter_spec` relates the two: the flag is up iff some window exceeds the limit,
and there are as many alarms as such windows.
-/
import Mathlib.Data.List.Induction
import Mathlib.Tactic.Common

namespace TumblingWindow

/-- Something that happens at a moment, and whether it counts. -/
structure Arrival where
  time : Nat
  counted : Bool
  deriving DecidableEq, Repr

/-- A window with what arrived in it. -/
structure Window where
  start : Nat
  arrivals : List Arrival
  deriving DecidableEq, Repr

/-- How many of its arrivals count. -/
def Window.marks (w : Window) : Nat := w.arrivals.countP Arrival.counted

/-- Put an arrival into its window; the newest window comes first. -/
def place (len : Nat) (a : Arrival) : List Window → List Window
  | [] => [⟨a.time, [a]⟩]
  | w :: ws =>
      if a.counted ∧ w.start + len < a.time then ⟨a.time, [a]⟩ :: w :: ws
      else ⟨w.start, w.arrivals ++ [a]⟩ :: ws

/-- The windows of a history. -/
def windows (len : Nat) (as : List Arrival) : List Window :=
  as.foldl (fun ws a => place len a ws) []

theorem windows_snoc (len : Nat) (as : List Arrival) (a : Arrival) :
    windows len (as ++ [a]) = place len a (windows len as) := by
  unfold windows
  rw [List.foldl_append]
  rfl

/-! ### The counter -/

/-- What the counter keeps. -/
structure Meter where
  start : Nat
  count : Nat
  tripped : Bool
  alarms : Nat

/-- The counter at the moment of the first arrival. -/
def Meter.start0 (t : Nat) : Meter := ⟨t, 0, false, 0⟩

/-- An arrival in the counter. -/
def Meter.feed (len limit : Nat) (m : Meter) (a : Arrival) : Meter :=
  if a.counted then
    if m.start + len < a.time then { m with start := a.time, count := 1 }
    else if limit < m.count + 1 then
      { m with
        count := m.count + 1
        tripped := true
        alarms := if m.count = limit then m.alarms + 1 else m.alarms }
    else { m with count := m.count + 1 }
  else m

/-- The counter after a history; there is none before the first arrival. -/
def meter (len limit : Nat) (as : List Arrival) : Option Meter :=
  as.foldl (fun m a => some ((m.getD (.start0 a.time)).feed len limit a)) none

theorem meter_snoc (len limit : Nat) (as : List Arrival) (a : Arrival) :
    meter len limit (as ++ [a])
      = some (((meter len limit as).getD (.start0 a.time)).feed len limit a) := by
  unfold meter
  rw [List.foldl_append]
  rfl

/-! ### The counter reads the windows -/

/-- The window exceeds the limit. -/
def Window.exceeds (limit : Nat) (w : Window) : Bool := limit < w.marks

/-- What the counter shows of the windows so far. -/
structure Meter.Reads (limit : Nat) (m : Meter) (w : Window) (ws : List Window) : Prop where
  start : m.start = w.start
  count : m.count = w.marks
  tripped : m.tripped = (w :: ws).any (Window.exceeds limit)
  alarms : m.alarms = (w :: ws).countP (Window.exceeds limit)

theorem Window.marks_snoc (start : Nat) (as : List Arrival) (a : Arrival) :
    Window.marks ⟨start, as ++ [a]⟩
      = Window.marks ⟨start, as⟩ + if a.counted then 1 else 0 := by
  unfold Window.marks
  rw [List.countP_append, List.countP_singleton]

variable {len limit : Nat} {m : Meter} {w : Window} {ws : List Window} {a : Arrival}

/-- An arrival that does not count leaves the counter as it is. -/
theorem Meter.Reads.uncounted (h : m.Reads limit w ws) (ha : a.counted = false) :
    m.Reads limit ⟨w.start, w.arrivals ++ [a]⟩ ws := by
  have hmarks : Window.marks ⟨w.start, w.arrivals ++ [a]⟩ = w.marks := by
    rw [Window.marks_snoc, ha]
    rfl
  have hexceeds : Window.exceeds limit ⟨w.start, w.arrivals ++ [a]⟩ = w.exceeds limit := by
    unfold Window.exceeds
    rw [hmarks]
  refine ⟨h.start, h.count.trans hmarks.symm, ?_, ?_⟩
  · rw [h.tripped, List.any_cons, List.any_cons, hexceeds]
  · rw [h.alarms, List.countP_cons, List.countP_cons, hexceeds]

/-- A new window: one mark, which is within the limit. -/
theorem Meter.Reads.opened (hlimit : 0 < limit) (h : m.Reads limit w ws) (ha : a.counted = true) :
    { m with start := a.time, count := 1 : Meter}.Reads limit ⟨a.time, [a]⟩ (w :: ws) := by
  have hmarks : Window.marks ⟨a.time, [a]⟩ = 1 := by
    rw [Window.marks, List.countP_singleton, if_pos ha]
  have hexceeds : Window.exceeds limit ⟨a.time, [a]⟩ = false := by
    rw [Window.exceeds, hmarks, decide_eq_false_iff_not]
    omega
  refine ⟨rfl, hmarks.symm, ?_, ?_⟩
  · rw [List.any_cons, hexceeds, Bool.false_or]
    exact h.tripped
  · rw [List.countP_cons, hexceeds]
    exact h.alarms

/-- A further mark of the window.  It exceeds the limit from the mark on that
finds `limit` of them. -/
theorem Meter.Reads.marked (h : m.Reads limit w ws) (ha : a.counted = true) :
    (if limit < m.count + 1 then
      { m with
        count := m.count + 1
        tripped := true
        alarms := if m.count = limit then m.alarms + 1 else m.alarms }
    else { m with count := m.count + 1 } : Meter).Reads limit
      ⟨w.start, w.arrivals ++ [a]⟩ ws := by
  have hmarks : Window.marks ⟨w.start, w.arrivals ++ [a]⟩ = m.count + 1 := by
    rw [Window.marks_snoc, if_pos ha, h.count]
  have hbefore : w.exceeds limit = decide (limit < m.count) := by
    rw [Window.exceeds, h.count]
  have hafter : Window.exceeds limit ⟨w.start, w.arrivals ++ [a]⟩
      = decide (limit < m.count + 1) := by
    rw [Window.exceeds, hmarks]
  have htripped := h.tripped
  have halarms := h.alarms
  rw [List.any_cons, hbefore] at htripped
  rw [List.countP_cons, hbefore] at halarms
  split
  · rename_i hlt
    refine ⟨h.start, hmarks.symm, ?_, ?_⟩
    · rw [List.any_cons, hafter, decide_eq_true hlt, Bool.true_or]
    · rw [List.countP_cons, hafter, if_pos (decide_eq_true hlt)]
      -- the window is new among those that exceed iff it was at the limit
      show (if m.count = limit then m.alarms + 1 else m.alarms) = _
      split
      · rename_i heq
        rw [halarms, heq, if_neg (by simp)]
      · rename_i hne
        rw [halarms, if_pos (decide_eq_true (by omega))]
  · rename_i hlt
    have hnot : ¬ limit < m.count := by omega
    rw [decide_eq_false hnot] at htripped halarms
    refine ⟨h.start, hmarks.symm, ?_, ?_⟩
    · rw [List.any_cons, hafter, decide_eq_false hlt]
      exact htripped
    · rw [List.countP_cons, hafter, decide_eq_false hlt]
      exact halarms

theorem Meter.Reads.feed (hlimit : 0 < limit) (h : m.Reads limit w ws) (len : Nat)
    (a : Arrival) :
    ∃ w' ws', place len a (w :: ws) = w' :: ws' ∧ (m.feed len limit a).Reads limit w' ws' := by
  rw [place, Meter.feed]
  by_cases ha : a.counted = true
  · rw [if_pos ha]
    by_cases hlate : m.start + len < a.time
    · rw [if_pos hlate, if_pos ⟨ha, h.start ▸ hlate⟩]
      exact ⟨_, _, rfl, h.opened hlimit ha⟩
    · rw [if_neg hlate, if_neg fun hopen => hlate (h.start ▸ hopen.2)]
      exact ⟨_, _, rfl, h.marked ha⟩
  · rw [if_neg ha, if_neg fun hopen => ha hopen.1]
    exact ⟨_, _, rfl, h.uncounted (Bool.eq_false_iff.mpr ha)⟩

/-- At the first arrival the counter reads an empty window that opens there. -/
theorem Meter.reads_start0 (t : Nat) : (Meter.start0 t).Reads limit ⟨t, []⟩ [] :=
  ⟨rfl, rfl, rfl, rfl⟩

/-- The counter shows the windows of the history. -/
theorem meter_reads (hlimit : 0 < limit) (len : Nat) (as : List Arrival) :
    meter len limit as = none ∧ windows len as = [] ∨
      ∃ m w ws, meter len limit as = some m ∧ windows len as = w :: ws ∧ m.Reads limit w ws := by
  induction as using List.reverseRecOn with
  | nil => exact Or.inl ⟨rfl, rfl⟩
  | append_singleton as a ih =>
      right
      rw [meter_snoc, windows_snoc]
      rcases ih with ⟨hm, hws⟩ | ⟨m, w, ws, hm, hws, hreads⟩
      · rw [hm, hws]
        obtain ⟨w', ws', hplace, hreads⟩ :=
          (Meter.reads_start0 a.time).feed hlimit len a
        -- the first arrival opens its window whether it counts or not
        have hopen : place len a [⟨a.time, []⟩] = place len a [] := by
          have hnot : ¬ (a.counted = true ∧ a.time + len < a.time) := by omega
          exact if_neg hnot
        rw [hopen] at hplace
        exact ⟨_, w', ws', rfl, hplace, hreads⟩
      · rw [hm, hws]
        obtain ⟨w', ws', hplace, hreads'⟩ := hreads.feed hlimit len a
        exact ⟨_, w', ws', rfl, hplace, hreads'⟩

/-- **The counter says which windows exceeded the limit**: whether any did, and
how many. -/
theorem meter_spec (hlimit : 0 < limit) {as : List Arrival} {m : Meter}
    (h : meter len limit as = some m) :
    (m.tripped = true ↔ ∃ w ∈ windows len as, limit < w.marks) ∧
      m.alarms = (windows len as).countP fun w => decide (limit < w.marks) := by
  obtain ⟨hm, -⟩ | ⟨m', w, ws, hm, hws, hreads⟩ := meter_reads hlimit len as
  · rw [h] at hm
    cases hm
  · rw [h] at hm
    obtain rfl := Option.some.inj hm
    rw [hws, hreads.tripped, hreads.alarms, List.any_eq_true]
    refine ⟨?_, rfl⟩
    simp only [Window.exceeds, decide_eq_true_iff]

/-- It never counts further than the history is long. -/
theorem meter_count_le {as : List Arrival} {m : Meter} (h : meter len limit as = some m) :
    m.count ≤ as.length := by
  induction as using List.reverseRecOn generalizing m with
  | nil => cases h
  | append_singleton as a ih =>
      rw [meter_snoc] at h
      have hfeed : ∀ m' : Meter, m'.count ≤ as.length →
          (m'.feed len limit a).count ≤ as.length + 1 := by
        intro m' hm'
        unfold Meter.feed
        split
        · split
          · exact Nat.succ_le_succ (Nat.zero_le _)
          · split <;> exact Nat.succ_le_succ hm'
        · exact Nat.le_succ_of_le hm'
      rw [← Option.some.inj h, List.length_append]
      apply hfeed
      rcases hm : meter len limit as with _ | m'
      · exact Nat.zero_le _
      · exact ih hm

end TumblingWindow
