/-
Nullsploit/EventDedup.lean

Runs of `is_duplicate_alert` (agent/fw_agent.c) from the zero-initialised cache.
The cache is a ring of 32 slots, written in turn with each event that is not
reported as a duplicate: it remembers the last 32 of these, whatever their
address and kind (`dedupHolds_dedupAfter`).  So an event is a duplicate if one
of its kind is among them and less than 10 s old (`duplicate_iff_among_last`);
an older report within the 10 s is forgotten.
-/
import Nullsploit.AgentLoop
import Nullsploit.RingLog

namespace Nullsploit

open Runs

/-- A call of `is_duplicate_alert`, with the event as output if it is reported
as not duplicate. -/
def dedupStep (cache : DedupCache) (e : FwEvent) : DedupCache × Option FwEvent :=
  let r := isDuplicateAlert cache e
  (r.2, if r.1 then none else some e)

/-- The cache after the events. -/
def dedupAfter (events : List FwEvent) : DedupCache := (exec dedupStep .init events).1

/-- The events of the run that were reported as not duplicate, in order. -/
def notDuplicates (events : List FwEvent) : List FwEvent :=
  (exec dedupStep .init events).2.filterMap id

theorem dedupAfter_snoc (events : List FwEvent) (e : FwEvent) :
    dedupAfter (events ++ [e]) = (isDuplicateAlert (dedupAfter events) e).2 :=
  exec_snoc _ events e

theorem notDuplicates_snoc (events : List FwEvent) (e : FwEvent) :
    notDuplicates (events ++ [e])
      = notDuplicates events ++ if (isDuplicateAlert (dedupAfter events) e).1 then [] else [e] := by
  rw [notDuplicates, exec_append, List.filterMap_append]
  congr 1
  show ([(dedupStep (dedupAfter events) e).2]).filterMap id = _
  unfold dedupStep
  dsimp only
  cases (isDuplicateAlert (dedupAfter events) e).1 <;> rfl

theorem notDuplicates_subset (events : List FwEvent) : notDuplicates events ⊆ events := by
  induction events using List.reverseRecOn with
  | nil => exact List.Subset.refl _
  | append_singleton events e ih =>
      rw [notDuplicates_snoc]
      refine List.append_subset.mpr ⟨fun a ha => List.mem_append_left _ (ih ha), ?_⟩
      split
      · exact List.nil_subset _
      · exact List.subset_append_right _ _

/-! ### What the cache remembers -/

/-- The cache entry of an event. -/
def FwEvent.dedupEntry (e : FwEvent) : DedupEntry := ⟨e.srcIp, e.threatType, e.timestamp⟩

/-- The cache is a ring log of the events that were not duplicates. -/
structure DedupHolds (events : List FwEvent) (cache : DedupCache) : Prop where
  entries : RingLog.Holds dedupCacheSize ⟨0, 0, 0⟩ ((notDuplicates events).map FwEvent.dedupEntry)
    cache.entries
  next : cache.next = (notDuplicates events).length % dedupCacheSize

/-- The call, taken apart: what it looks for in the cache, and what it writes. -/
theorem isDuplicateAlert_fst (cache : DedupCache) (e : FwEvent) :
    (isDuplicateAlert cache e).1 = true ↔ ∃ c ∈ cache.entries, c.srcIp = e.srcIp ∧
      c.threatType = e.threatType ∧ c.lastSentTime ≤ e.timestamp ∧
      e.timestamp - c.lastSentTime < dedupWindowSecs := by
  unfold isDuplicateAlert
  dsimp only
  split
  · rename_i h
    simpa using h
  · rename_i h
    simpa using h

theorem isDuplicateAlert_snd (cache : DedupCache) (e : FwEvent) :
    (isDuplicateAlert cache e).2 = if (isDuplicateAlert cache e).1 then cache
      else ⟨cache.entries.set cache.next e.dedupEntry, (cache.next + 1) % dedupCacheSize⟩ := by
  unfold isDuplicateAlert
  dsimp only
  split
  · rfl
  · rfl

theorem dedupHolds_dedupAfter (events : List FwEvent) :
    DedupHolds events (dedupAfter events) := by
  induction events using List.reverseRecOn with
  | nil => exact ⟨RingLog.holds_nil _ _, rfl⟩
  | append_singleton events e ih =>
      obtain ⟨hentries, hnext⟩ := ih
      rw [dedupAfter_snoc, isDuplicateAlert_snd]
      have hsnoc := notDuplicates_snoc events e
      -- a duplicate leaves the cache and the log as they were
      split
      · rename_i hdup
        rw [if_pos hdup, List.append_nil] at hsnoc
        exact ⟨by rw [hsnoc]; exact hentries, by rw [hsnoc]; exact hnext⟩
      · rename_i hdup
        rw [if_neg hdup] at hsnoc
        refine ⟨?_, ?_⟩
        · have hwrite := hentries.write (by decide) e.dedupEntry
          rw [List.length_map, ← hnext] at hwrite
          rw [hsnoc, List.map_append]
          exact hwrite
        · show (_ + 1) % _ = _
          rw [hsnoc, hnext, List.length_append, List.length_singleton, Nat.mod_add_mod]

/-! ### The window -/

/-- **When an event is a duplicate**: one of the last 32 events that were not
has its address and kind, and is less than 10 s old. -/
theorem duplicate_iff_among_last (before : List FwEvent) (e : FwEvent) (hthreat : 1 ≤ e.threatType)
    (htime : (before ++ [e]).Pairwise fun a b => a.timestamp ≤ b.timestamp) :
    (isDuplicateAlert (dedupAfter before) e).1 = true ↔
      ∃ earlier e' later, notDuplicates before = earlier ++ e' :: later ∧
        later.length < dedupCacheSize ∧ e'.srcIp = e.srcIp ∧ e'.threatType = e.threatType ∧
        e.timestamp < e'.timestamp + dedupWindowSecs := by
  have hbefore : ∀ e' ∈ notDuplicates before, e'.timestamp ≤ e.timestamp := by
    intro e' he'
    exact (List.pairwise_append.mp htime).2.2 e' (notDuplicates_subset before he') e
      (List.mem_singleton_self e)
  have hmem := fun c : DedupEntry =>
    (dedupHolds_dedupAfter before).entries.mem_iff (x := c) (by decide)
  rw [isDuplicateAlert_fst]
  constructor
  · rintro ⟨c, hc, hip, hthreat', hle, hwindow⟩
    rcases (hmem c).mp hc with ⟨earlier, later, hlog, hlater⟩ | ⟨-, rfl⟩
    · obtain ⟨es, rest, hsplit, rfl, hrest⟩ := List.map_eq_append_iff.mp hlog
      obtain ⟨e', ls, rfl, rfl, rfl⟩ := List.map_eq_cons_iff.mp hrest
      rw [List.length_map] at hlater
      have hle : e'.timestamp ≤ e.timestamp := hle
      have hwindow : e.timestamp - e'.timestamp < dedupWindowSecs := hwindow
      exact ⟨es, e', ls, hsplit, hlater, hip, hthreat', by omega⟩
    · -- a slot not yet written has kind 0
      rw [← show (0 : UInt8) = e.threatType from hthreat'] at hthreat
      exact absurd hthreat (by decide)
  · rintro ⟨earlier, e', later, hsplit, hlater, hip, hthreat', hwindow⟩
    have hle := hbefore e' (by rw [hsplit]; simp)
    refine ⟨e'.dedupEntry, (hmem _).mpr (Or.inl ⟨earlier.map FwEvent.dedupEntry,
      later.map FwEvent.dedupEntry, ?_, ?_⟩), hip, hthreat', hle, ?_⟩
    · rw [hsplit, List.map_append, List.map_cons]
    · rw [List.length_map]
      exact hlater
    · show e.timestamp - e'.timestamp < dedupWindowSecs
      omega

/-- An alert of kind 3 from an address. -/
def alertFrom (seconds : Nat) (ip : BitVec 32) : FwEvent :=
  .make seconds ip 0 0 0 threatSynFlood severityCritical [] []

/-- A second alert after 9 s is a duplicate. -/
theorem second_alert_duplicate :
    1 ≤ (alertFrom 9 5).threatType ∧
      ([alertFrom 0 5] ++ [alertFrom 9 5]).Pairwise (fun a b => a.timestamp ≤ b.timestamp) ∧
      (isDuplicateAlert (dedupAfter [alertFrom 0 5]) (alertFrom 9 5)).1 = true := by
  have hthreat : 1 ≤ (alertFrom 9 5).threatType := by decide
  have htime : ([alertFrom 0 5] ++ [alertFrom 9 5]).Pairwise
      fun a b => a.timestamp ≤ b.timestamp := by
    simp only [List.cons_append, List.nil_append, List.pairwise_pair]
    decide
  refine ⟨hthreat, htime, (duplicate_iff_among_last _ _ hthreat htime).mpr ?_⟩
  exact ⟨[], alertFrom 0 5, [], by decide +kernel, by decide, by decide, by decide, by decide⟩

/-- An alert, and alerts of 32 other addresses at the same second. -/
def manyAlerts : List FwEvent :=
  alertFrom 0 5 :: (List.range 32).map fun k => alertFrom 0 (BitVec.ofNat 32 (100 + k))

/-- After those a second alert is not a duplicate: the first one is forgotten,
though it was reported 1 s ago. -/
theorem alert_forgotten :
    (∀ e ∈ manyAlerts ++ [alertFrom 1 5], 1 ≤ e.threatType) ∧
      (manyAlerts ++ [alertFrom 1 5]).Pairwise (fun a b => a.timestamp ≤ b.timestamp) ∧
      (isDuplicateAlert (dedupAfter manyAlerts) (alertFrom 1 5)).1 = false ∧
      ∃ e' ∈ notDuplicates manyAlerts, e'.srcIp = (alertFrom 1 5).srcIp ∧
        e'.threatType = (alertFrom 1 5).threatType ∧
        (alertFrom 1 5).timestamp < e'.timestamp + dedupWindowSecs := by
  refine ⟨by decide +kernel, by decide +kernel, by decide +kernel, alertFrom 0 5, ?_, by decide,
    by decide, by decide⟩
  decide +kernel

end Nullsploit
