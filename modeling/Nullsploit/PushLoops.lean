/-
Nullsploit/PushLoops.lean

The three loops that apply a pushed payload, with the counters and bounds the
source gives them: the search of `sync_reputation_with_blocklist`
(kernel/ip_reputation.c), the rebuild in `update_ip_blocklist`
(kernel/ip_blocklist.c) and the push into the XDP map in `agent_listener_thread`
(kernel/fw_nfq.c).  Each is run with a record of the entries it touches.

`count` is a 32-bit field of the payload and `entries` has `MAX_BLOCKLIST_IPS`
places; only the rebuild compares with both.  `handlePush_eq_loops` says that the
loops do what the model of a push does, and `push_bounds_iff` for which counts
they stay inside the array and agree.
-/
import Nullsploit.XdpFirewall

namespace Nullsploit

/-! ### Loops with a 32-bit counter -/

section Counted

variable {σ : Type*} (count : BitVec 32) (guard : BitVec 32 → Bool) (body : σ → Nat → σ × Bool)

/-- `for (; i < count && guard(i); i++)`, the counter compared as unsigned.  The
body says whether it breaks; beside the state, the values of the counter at
which it ran. -/
def countedLoop (s : σ) (i : BitVec 32) : σ × List Nat :=
  if i < count ∧ guard i = true then
    let (s', stop) := body s i.toNat
    if stop then (s', [i.toNat])
    else
      let r := countedLoop s' (i + 1)
      (r.1, i.toNat :: r.2)
  else (s, [])
termination_by count.toNat - i.toNat
decreasing_by
  have hlt : i.toNat < count.toNat := by bv_omega
  bv_omega

variable {count guard body}

/-- The guard bounds the counter, as long as it counts up from below the bound. -/
def GuardsBelow (guard : BitVec 32 → Bool) (limit : Nat) : Prop :=
  ∀ j : BitVec 32, j.toNat ≤ limit → (guard j = true ↔ j.toNat < limit)

/-- The counters from `i` on that are below both bounds. -/
def counters (count : BitVec 32) (limit : Nat) (i : BitVec 32) : List Nat :=
  List.range' i.toNat (min count.toNat limit - i.toNat)

/-- A running loop is at the first of its counters. -/
theorem GuardsBelow.counters_cons {limit : Nat} (hguard : GuardsBelow guard limit) {i : BitVec 32}
    (hi : i.toNat ≤ limit) (h : i < count ∧ guard i = true) :
    (i + 1).toNat ≤ limit ∧ counters count limit i = i.toNat :: counters count limit (i + 1) := by
  have hlimit := (hguard i hi).mp h.2
  have hlt : i.toNat < count.toNat := h.1
  have hsucc : (i + 1).toNat = i.toNat + 1 := by bv_omega
  have hcut : min count.toNat limit - i.toNat = min count.toNat limit - (i + 1).toNat + 1 := by omega
  refine ⟨by omega, ?_⟩
  unfold counters
  rw [hcut, List.range'_succ, hsucc]

/-- A loop that stops has none left. -/
theorem GuardsBelow.counters_nil {limit : Nat} (hguard : GuardsBelow guard limit) {i : BitVec 32}
    (hi : i.toNat ≤ limit) (h : ¬ (i < count ∧ guard i = true)) : counters count limit i = [] := by
  have hnone : min count.toNat limit - i.toNat = 0 := by
    by_contra hne
    exact h ⟨show i.toNat < count.toNat by omega, (hguard i hi).mpr (by omega)⟩
  unfold counters
  rw [hnone]
  rfl

/-- Whatever the body does, it runs below both bounds. -/
theorem mem_countedLoop {limit : Nat} (hguard : GuardsBelow guard limit) {s : σ} {i : BitVec 32}
    (hi : i.toNat ≤ limit) {x : Nat} (hx : x ∈ (countedLoop count guard body s i).2) :
    x ∈ counters count limit i := by
  fun_induction countedLoop count guard body s i with
  | case1 s i h s' hbody =>
      obtain ⟨-, hcons⟩ := hguard.counters_cons hi h
      rw [List.mem_singleton] at hx
      rw [hcons, hx]
      exact List.mem_cons_self
  | case2 s i h s' stop hbody hstop r ih =>
      obtain ⟨hnext, hcons⟩ := hguard.counters_cons hi h
      rw [hcons]
      rcases List.mem_cons.mp hx with rfl | hx
      · exact List.mem_cons_self
      · exact List.mem_cons_of_mem _ (ih hnext hx)
  | case3 s i h => cases hx

/-- A loop without a break folds its body over its counters. -/
theorem countedLoop_eq_foldl {limit : Nat} (hguard : GuardsBelow guard limit)
    (hbody : ∀ s j, (body s j).2 = false) {s : σ} {i : BitVec 32} (hi : i.toNat ≤ limit) :
    countedLoop count guard body s i
      = ((counters count limit i).foldl (fun s j => (body s j).1) s, counters count limit i) := by
  fun_induction countedLoop count guard body s i with
  | case1 s i h s' hstop =>
      have := hbody s i.toNat
      rw [hstop] at this
      cases this
  | case2 s i h s' stop hstep hstop r ih =>
      obtain ⟨hnext, hcons⟩ := hguard.counters_cons hi h
      have hs' : s' = (body s i.toNat).1 := by rw [hstep]
      rw [hcons, List.foldl_cons, ← hs', show r = _ from ih hnext]
  | case3 s i h => rw [hguard.counters_nil hi h, List.foldl_nil]

/-- The body of a search: at the first match it notes it and breaks. -/
def searchBody (p : Nat → Bool) (found : Bool) (j : Nat) : Bool × Bool :=
  if p j then (true, true) else (found, false)

theorem searchBody_of_match {p : Nat → Bool} {j : Nat} (h : p j = true) (found : Bool) :
    searchBody p found j = (true, true) := if_pos h

theorem searchBody_of_miss {p : Nat → Bool} {j : Nat} (h : p j = false) (found : Bool) :
    searchBody p found j = (found, false) := if_neg (Bool.eq_false_iff.mp h)

/-- A search finds what matches at one of its counters; if nothing does, it has
run at all of them. -/
theorem countedLoop_search {limit : Nat} (hguard : GuardsBelow guard limit) (p : Nat → Bool)
    {i : BitVec 32} (hi : i.toNat ≤ limit) :
    let r := countedLoop count guard (searchBody p) false i
    (r.1 = true ↔ ∃ j ∈ counters count limit i, p j = true) ∧
      (r.1 = true ∨ r.2 = counters count limit i) := by
  generalize hfound : false = found
  fun_induction countedLoop count guard (searchBody p) found i with
  | case1 found i h s' hstop =>
      obtain ⟨-, hcons⟩ := hguard.counters_cons hi h
      cases hp : p i.toNat
      · rw [searchBody_of_miss hp] at hstop
        cases (Prod.mk.inj hstop).2
      · rw [searchBody_of_match hp] at hstop
        obtain rfl := (Prod.mk.inj hstop).1
        rw [hcons]
        exact ⟨iff_of_true rfl ⟨_, List.mem_cons_self, hp⟩, Or.inl rfl⟩
  | case2 found i h s' stop hstep hstop r ih =>
      obtain ⟨hnext, hcons⟩ := hguard.counters_cons hi h
      cases hp : p i.toNat
      · rw [searchBody_of_miss hp] at hstep
        obtain rfl := (Prod.mk.inj hstep).1
        obtain ⟨hiff, hall⟩ := ih hnext hfound
        rw [hcons]
        refine ⟨hiff.trans ?_, hall.imp_right (congrArg (i.toNat :: ·))⟩
        simp [hp]
      · rw [searchBody_of_match hp] at hstep
        exact absurd (Prod.mk.inj hstep).2.symm hstop
  | case3 found i h =>
      rw [hguard.counters_nil hi h, ← hfound]
      simp

end Counted

/-! ### The loops of a push -/

/-- No guard beside the comparison with `count`. -/
theorem guardsBelow_true : GuardsBelow (fun _ => true) (2 ^ 32) := by
  intro j _
  exact iff_of_true rfl j.isLt

/-- The guard of the rebuild, `i < MAX_BLOCKLIST_IPS` for an `int`: true of the
negative numbers too, but the counter starts at 0. -/
def rebuildGuard (i : BitVec 32) : Bool := i.slt (BitVec.ofNat 32 maxBlocklistIps)

theorem guardsBelow_rebuildGuard : GuardsBelow rebuildGuard maxBlocklistIps := by
  intro j hj
  unfold rebuildGuard maxBlocklistIps at *
  rw [BitVec.slt_iff_toInt_lt, BitVec.toInt_eq_toNat_of_lt (by omega)]
  show (j.toNat : Int) < 1024 ↔ _
  omega

section Push

variable (count : BitVec 32) (entries : Nat → BlocklistEntry)

/-- The search of `sync_reputation_with_blocklist` for one address. -/
def syncSearch (ip : BitVec 32) : Bool × List Nat :=
  countedLoop count (fun _ => true) (searchBody fun j => (entries j).ip = ip) false 0

/-- The rebuild of `update_ip_blocklist`, allocation succeeding. -/
def rebuildLoop : ChainTable.Table BlocklistEntry blocklistBuckets × List Nat :=
  countedLoop count rebuildGuard (fun t i => (hashAddRcu t (entries i), false)) (fun _ => []) 0

/-- The push into the XDP map in `agent_listener_thread`. -/
def xdpLoop (blockedIps : BlockedIps) : BlockedIps × List Nat :=
  countedLoop count (fun _ => true) (fun m i => (ebpfXdpBlockIp m (entries i).ip, false)) blockedIps 0

theorem counters_unguarded : counters count (2 ^ 32) 0 = List.range count.toNat := by
  unfold counters
  rw [Nat.min_eq_left count.isLt.le, List.range_eq_range']
  rfl

theorem counters_guarded :
    counters count maxBlocklistIps 0 = List.range (min count.toNat maxBlocklistIps) := by
  unfold counters
  rw [List.range_eq_range']
  rfl

theorem syncSearch_spec (ip : BitVec 32) :
    ((syncSearch count entries ip).1 = true ↔ ∃ j ∈ List.range count.toNat, (entries j).ip = ip) ∧
      ((syncSearch count entries ip).1 = true ∨
        (syncSearch count entries ip).2 = List.range count.toNat) ∧
      ∀ j ∈ (syncSearch count entries ip).2, j ∈ List.range count.toNat := by
  have hzero : (0 : BitVec 32).toNat ≤ 2 ^ 32 := Nat.zero_le _
  have hsearch : ((syncSearch count entries ip).1 = true ↔
        ∃ j ∈ counters count (2 ^ 32) 0, decide ((entries j).ip = ip) = true) ∧
      ((syncSearch count entries ip).1 = true ∨
        (syncSearch count entries ip).2 = counters count (2 ^ 32) 0) :=
    countedLoop_search guardsBelow_true _ hzero
  rw [counters_unguarded] at hsearch
  refine ⟨hsearch.1.trans ?_, hsearch.2, fun j hj => ?_⟩
  · simp
  · rw [← counters_unguarded]
    exact mem_countedLoop guardsBelow_true hzero hj

theorem rebuildLoop_eq :
    rebuildLoop count entries
      = ((List.range (min count.toNat maxBlocklistIps)).foldl (fun t i => hashAddRcu t (entries i))
          fun _ => [], List.range (min count.toNat maxBlocklistIps)) := by
  rw [← counters_guarded]
  exact countedLoop_eq_foldl guardsBelow_rebuildGuard (fun _ _ => rfl) (Nat.zero_le _)

theorem xdpLoop_eq (blockedIps : BlockedIps) :
    xdpLoop count entries blockedIps
      = ((List.range count.toNat).foldl (fun m i => ebpfXdpBlockIp m (entries i).ip) blockedIps,
          List.range count.toNat) := by
  rw [← counters_unguarded]
  exact countedLoop_eq_foldl guardsBelow_true (fun _ _ => rfl) (Nat.zero_le _)

/-- The payload as it is received. -/
def receivedPayload (blockLocalIps : BitVec 32) : BlocklistPayload :=
  ⟨count.toNat, blockLocalIps, entries⟩

/-- One reputation entry in `sync_reputation_with_blocklist`. -/
def syncEntryLoop (e : ReputationEntry) : ReputationEntry × List Nat :=
  if e.score ≤ 20 then
    let (found, accesses) := syncSearch count entries e.ip
    (if found then e else { e with score := 100 }, accesses)
  else (e, [])

theorem syncEntryLoop_fst (blockLocalIps : BitVec 32) (e : ReputationEntry) :
    (syncEntryLoop count entries e).1 = syncEntry (receivedPayload count entries blockLocalIps) e := by
  have hfound : (syncSearch count entries e.ip).1
      = (List.range count.toNat).any fun j => decide ((entries j).ip = e.ip) := by
    rw [Bool.eq_iff_iff, (syncSearch_spec count entries e.ip).1]
    simp
  unfold syncEntryLoop syncEntry
  split
  · show (if (syncSearch count entries e.ip).1 = true then e else { e with score := 100 }) = _
    rw [hfound]
    rfl
  · rfl

/-- **The loops are the push.** -/
theorem handlePush_eq_loops (s : XdpState) (blockLocalIps : BitVec 32) :
    handlePush s (receivedPayload count entries blockLocalIps)
      = { path :=
            { s.path with
              firewall :=
                { reputation := fun b =>
                    (s.path.firewall.reputation b).map fun e => (syncEntryLoop count entries e).1
                  blocklist := (rebuildLoop count entries).1
                  gBlockLocalIps := blockLocalIps } }
          blockedIps := (xdpLoop count entries s.blockedIps).1 } := by
  have hsync : (fun e => (syncEntryLoop count entries e).1)
      = syncEntry (receivedPayload count entries blockLocalIps) := by
    funext e
    exact syncEntryLoop_fst count entries blockLocalIps e
  rw [hsync, rebuildLoop_eq, xdpLoop_eq]
  unfold handlePush BlocklistPayload.listed
  rw [List.foldl_map]
  rfl

/-! ### Inside the array -/

/-- The entries touched while a payload is applied: by a search for each low
score, by the rebuild and by the push into the map. -/
def pushAccesses (s : XdpState) : List Nat :=
  ((List.finRange hashSize).flatMap fun b =>
      (s.path.firewall.reputation b).flatMap fun e => (syncEntryLoop count entries e).2) ++
    (rebuildLoop count entries).2 ++ (xdpLoop count entries s.blockedIps).2

/-- Every access is inside the array. -/
def AccessesInside (s : XdpState) : Prop :=
  ∀ j ∈ pushAccesses count entries s, j < maxBlocklistIps

/-- The loops process the same entries.  The push into the map touches those of
the rebuild; a search is a search among them, and has touched all of them if it
finds nothing. -/
structure SameEntries (s : XdpState) : Prop where
  xdp : (xdpLoop count entries s.blockedIps).2 = (rebuildLoop count entries).2
  found : ∀ ip, (syncSearch count entries ip).1 = true ↔
    ∃ j ∈ (rebuildLoop count entries).2, (entries j).ip = ip
  searched : ∀ ip, (syncSearch count entries ip).1 = true ∨
    (syncSearch count entries ip).2 = (rebuildLoop count entries).2

variable {count entries}

theorem accessesInside_iff {s : XdpState} :
    AccessesInside count entries s ↔ count.toNat ≤ maxBlocklistIps := by
  unfold AccessesInside pushAccesses
  rw [List.forall_mem_append, List.forall_mem_append, rebuildLoop_eq, xdpLoop_eq]
  simp only [List.mem_range]
  constructor
  · rintro ⟨-, hxdp⟩
    by_contra hlarge
    exact absurd (hxdp maxBlocklistIps (by omega)) (Nat.lt_irrefl _)
  · intro hcount
    refine ⟨⟨?_, fun j hj => by omega⟩, fun j hj => by omega⟩
    intro j hj
    obtain ⟨b, -, hj⟩ := List.mem_flatMap.mp hj
    obtain ⟨e, -, hj⟩ := List.mem_flatMap.mp hj
    unfold syncEntryLoop at hj
    split at hj
    · have := List.mem_range.mp ((syncSearch_spec count entries e.ip).2.2 j hj)
      omega
    · cases hj

theorem sameEntries_iff {s : XdpState} :
    SameEntries count entries s ↔ count.toNat ≤ maxBlocklistIps := by
  constructor
  · intro h
    have hlen := congrArg List.length h.xdp
    rw [rebuildLoop_eq, xdpLoop_eq, List.length_range, List.length_range] at hlen
    omega
  · intro hcount
    have hmin : min count.toNat maxBlocklistIps = count.toNat := Nat.min_eq_left hcount
    constructor
    · rw [rebuildLoop_eq, xdpLoop_eq, hmin]
    · intro ip
      rw [rebuildLoop_eq, hmin]
      exact (syncSearch_spec count entries ip).1
    · intro ip
      rw [rebuildLoop_eq, hmin]
      exact (syncSearch_spec count entries ip).2.1

/-- **When a push stays inside its payload**: whatever the state and the entries,
the loops keep to the array and process the same entries exactly if the count
is at most `MAX_BLOCKLIST_IPS`. -/
theorem push_bounds_iff (count : BitVec 32) (entries : Nat → BlocklistEntry) (s : XdpState) :
    AccessesInside count entries s ∧ SameEntries count entries s
      ↔ count.toNat ≤ maxBlocklistIps := by
  rw [accessesInside_iff, sameEntries_iff, and_self]

/-- One entry too many: the map is filled from behind the array, and with an
entry that the blocklist does not get. -/
theorem push_leaves_payload :
    ¬ (AccessesInside 1025 (fun _ => ⟨0, 0⟩) XdpState.init ∧
      SameEntries 1025 (fun _ => ⟨0, 0⟩) XdpState.init) := by
  intro h
  exact absurd (accessesInside_iff.mp h.1) (by decide)

end Push

end Nullsploit
