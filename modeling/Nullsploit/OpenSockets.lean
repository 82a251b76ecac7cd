/-
Nullsploit/OpenSockets.lean

The limit on open sockets, over whole runs.  `count_open_connections` scans the
raw pool: it counts an entry by its address and flags alone, whatever port its
packets went to and however long ago.  So entries of other services, and of
connections that vanished without FIN or RST, count until a colliding flow
evicts them.

A block for too many sockets is justified (`SocketsJustified`) where every entry
that is counted is of a flow still at work on port 80 or 443
(`sockets_justified_of_current`).
-/
import Nullsploit.FlowPool

namespace Nullsploit

open Runs

/-! ### The last packet of a flow -/

/-- The clock and header of a packet of the flow. -/
def PoolCall.headerOf (f : TcpFlow) : PoolCall → Option (Clock × TcpHdr)
  | .packet clock iph tcph => if tcpFlowOf iph tcph = f then some (clock, tcph) else none
  | _ => none

/-- The flow's last packet. -/
def lastHeader (f : TcpFlow) (calls : List PoolCall) : Option (Clock × TcpHdr) :=
  (calls.filterMap (PoolCall.headerOf f)).getLast?

theorem lastHeader_snoc (f : TcpFlow) (calls : List PoolCall) (c : PoolCall) :
    lastHeader f (calls ++ [c]) = (c.headerOf f).or (lastHeader f calls) := by
  rw [lastHeader, List.filterMap_append, List.getLast?_append]
  cases h : c.headerOf f <;> simp [h, lastHeader]

theorem packet_mem_of_lastHeader {f : TcpFlow} {calls : List PoolCall} {clock : Clock}
    {tcph : TcpHdr} (h : lastHeader f calls = some (clock, tcph)) :
    ∃ iph, .packet clock iph tcph ∈ calls ∧ tcpFlowOf iph tcph = f := by
  obtain ⟨c, hc, hheader⟩ := List.mem_filterMap.mp (List.mem_of_getLast? h)
  cases c with
  | packet clock' iph tcph' =>
      rw [PoolCall.headerOf] at hheader
      split at hheader
      · rename_i hflow
        obtain ⟨rfl, rfl⟩ := Prod.mk.inj (Option.some.inj hheader)
        exact ⟨iph, hc, hflow⟩
      · cases hheader
  | headerSent ip port => cases hheader
  | complete ip port => cases hheader

/-! ### Justified blocks -/

/-- At the clock's moment the flow's last packet, which went to port 80 or 443, is
at most 60 s old. -/
def ActiveWeb (calls : List PoolCall) (clock : Clock) (f : TcpFlow) : Prop :=
  ∃ last tcph, lastHeader f calls = some (last, tcph) ∧ monitoredPort tcph = true ∧
    clock.millis.toNat ≤ last.millis.toNat + 60000

/-- The flow holds an entry whose request is not complete. -/
def HttpIncomplete (pool : ConnPool) (f : TcpFlow) : Prop :=
  (pool f.slot).ownedBy f = true ∧ (pool f.slot).isHttpComplete = false

/-- If the packet is dropped for too many sockets, more than 20 flows of its
address, this one included, are active on port 80 or 443 and incomplete. -/
def SocketsJustified (before : List PoolCall) (clock : Clock) (iph : IpHdr) (tcph : TcpHdr) : Prop :=
  let r := monitorTcpStats (poolAfter before) clock iph tcph
  r.judged = .maxSockets →
    ∃ flows : List TcpFlow, flows.Nodup ∧ 20 < flows.length ∧ ∀ f ∈ flows, f.ip = iph.saddr ∧
      HttpIncomplete r.pool f ∧ ActiveWeb (before ++ [.packet clock iph tcph]) clock f

/-- No stale entry is counted for the packet where more than 20 are: those of its
address in other slots than its own that are open are of flows active on port 80
or 443. -/
def EntriesCurrent (before : List PoolCall) (clock : Clock) (iph : IpHdr) (tcph : TcpHdr) : Prop :=
  ∀ n, openConns (poolAfter before) clock iph tcph = some n → 20 < n →
    ∀ i, i ≠ (tcpFlowOf iph tcph).slot → (poolAfter before i).isOpen iph.saddr = true →
      ActiveWeb before clock (poolAfter before i).flow

/-- What a packet of another flow adds to the history of a flow. -/
theorem ActiveWeb.other {before : List PoolCall} {clock now : Clock} {iph : IpHdr} {tcph : TcpHdr}
    {f : TcpFlow} (h : ActiveWeb before now f) (hne : tcpFlowOf iph tcph ≠ f) :
    ActiveWeb (before ++ [.packet clock iph tcph]) now f := by
  rw [ActiveWeb, lastHeader_snoc, PoolCall.headerOf, if_neg hne, Option.none_or]
  exact h

theorem activeWeb_self (before : List PoolCall) (clock : Clock) (iph : IpHdr) {tcph : TcpHdr}
    (hport : monitoredPort tcph = true) :
    ActiveWeb (before ++ [.packet clock iph tcph]) clock (tcpFlowOf iph tcph) := by
  refine ⟨clock, tcph, ?_, hport, Nat.le_add_right _ _⟩
  rw [lastHeader_snoc, PoolCall.headerOf, if_pos rfl, Option.some_or]

/-- What a packet dropped for too many sockets went through: the entry it went on
with, and the count. -/
theorem maxSockets_cases {pool : ConnPool} {clock : Clock} {iph : IpHdr} {tcph : TcpHdr}
    (h : (monitorTcpStats pool clock iph tcph).judged = .maxSockets) :
    ∃ c : ConnState, monitoredPort tcph = true ∧ c.ownedBy (tcpFlowOf iph tcph) = true ∧
      c.isHttpComplete = false ∧
      20 < countOpenConnections (Function.update pool (tcpFlowOf iph tcph).slot c) iph.saddr ∧
      (monitorTcpStats pool clock iph tcph).pool
        = Function.update pool (tcpFlowOf iph tcph).slot c.block := by
  have hdrop : (monitorTcpStats pool clock iph tcph).judged.drop = true := by
    rw [h]
    rfl
  obtain ⟨conn, hclaim, hjudged⟩ := judgedAs_of_drop hdrop
  have howned := ConnState.ownedBy_of_claim hclaim
  have hfollows := ConnState.Follows.seen_synFlood conn clock iph tcph
  generalize monitorTcpStats pool clock iph tcph = r at h hjudged
  cases hjudged with
  | blocked => cases h
  | clear => cases h
  | timeout => cases h
  | waiting => cases h
  | maxSockets hopen hport hwait hcount preview details =>
      have hstart := hfollows.startHttp
      refine ⟨_, hport, hstart.ownedBy howned, ?_, hcount, rfl⟩
      rw [hstart.isHttpComplete, ← hfollows.isHttpComplete]
      exact hwait

/-- An entry that counts, with the packet's own in its slot, is in the slot of its
flow. -/
theorem slot_of_isOpen {calls : List PoolCall} {f : TcpFlow} {c : ConnState} {ip : BitVec 32}
    (howned : c.ownedBy f = true) {i : Fin maxTrackedConns}
    (hopen : (Function.update (poolAfter calls) f.slot c i).isOpen ip = true) :
    (Function.update (poolAfter calls) f.slot c i).flow.slot = i := by
  by_cases hi : i = f.slot
  · subst hi
    rw [Function.update_self]
    exact congrArg TcpFlow.slot (ConnState.ownedBy_iff.mp howned)
  · rw [Function.update_of_ne hi] at hopen ⊢
    rw [ConnState.isOpen, decide_eq_true_iff] at hopen
    exact (tracked_poolAfter calls i hopen.2.1).1

/-- The flow of an entry that waits is incomplete, also when the entry is blocked. -/
theorem httpIncomplete_of_entry {pool : ConnPool} {conn : ConnState}
    (hentry : pool conn.flow.slot = conn ∨ pool conn.flow.slot = conn.block)
    (hwait : conn.isHttpComplete = false) : HttpIncomplete pool conn.flow := by
  rcases hentry with h | h
  · rw [HttpIncomplete, h]
    exact ⟨ConnState.ownedBy_iff.mpr rfl, hwait⟩
  · rw [HttpIncomplete, h]
    exact ⟨ConnState.ownedBy_iff.mpr rfl, hwait⟩

/-- One packet: the entries counted are of as many flows. -/
theorem SocketsJustified.of_current {before : List PoolCall} {clock : Clock} {iph : IpHdr}
    {tcph : TcpHdr} (hcurrent : EntriesCurrent before clock iph tcph) :
    SocketsJustified before clock iph tcph := by
  intro hjudged
  obtain ⟨n, hasked, hlimit⟩ := openConns_of_slowloris (Or.inl hjudged)
  obtain ⟨c, hport, howned, hwait, hcount, hpool⟩ := maxSockets_cases hjudged
  have hslotOf : ∀ i, (Function.update (poolAfter before) (tcpFlowOf iph tcph).slot c i).isOpen
      iph.saddr = true →
      (Function.update (poolAfter before) (tcpFlowOf iph tcph).slot c i).flow.slot = i :=
    fun i => slot_of_isOpen howned
  -- the pool as it was counted: the packet's own entry is open in it
  generalize hmid : Function.update (poolAfter before) (tcpFlowOf iph tcph).slot c = mid
    at hcount hslotOf
  refine ⟨((List.finRange maxTrackedConns).filter fun i => (mid i).isOpen iph.saddr).map
    fun i => (mid i).flow, ?_, ?_, ?_⟩
  · -- each is in the slot of its flow, so no flow has two
    refine List.Nodup.map_on ?_ ((List.nodup_finRange _).filter _)
    intro i hi j hj heq
    rw [← hslotOf i (List.mem_filter.mp hi).2, ← hslotOf j (List.mem_filter.mp hj).2, heq]
  · rw [List.length_map, ← List.countP_eq_length_filter]
    exact hcount
  · intro f hf
    obtain ⟨i, hi, rfl⟩ := List.mem_map.mp hf
    have hopen := (List.mem_filter.mp hi).2
    have hslot := hslotOf i hopen
    have hopen' := hopen
    rw [ConnState.isOpen, decide_eq_true_iff] at hopen'
    obtain ⟨hip, hused, hincomplete, -⟩ := hopen'
    refine ⟨hip, httpIncomplete_of_entry ?_ hincomplete, ?_⟩
    · rw [hslot, hpool, ← hmid]
      by_cases hi : i = (tcpFlowOf iph tcph).slot
      · subst hi
        rw [Function.update_self, Function.update_self]
        exact Or.inr rfl
      · rw [Function.update_of_ne hi, Function.update_of_ne hi]
        exact Or.inl rfl
    · by_cases hi : i = (tcpFlowOf iph tcph).slot
      · have hflow : (mid i).flow = tcpFlowOf iph tcph := by
          rw [← hmid, hi, Function.update_self]
          exact ConnState.ownedBy_iff.mp howned
        rw [hflow]
        exact activeWeb_self before clock iph hport
      · rw [← hmid, Function.update_of_ne hi] at hopen hslot ⊢
        apply (hcurrent n hasked (hlimit.mpr hjudged) i hi hopen).other
        intro heq
        exact hi (by rw [heq, hslot])

/-- **Blocks for too many sockets are justified** in a run that never counts a
stale entry. -/
theorem sockets_justified_of_current {calls : List PoolCall}
    (h : ∀ before clock iph tcph after, calls = before ++ .packet clock iph tcph :: after →
      EntriesCurrent before clock iph tcph) :
    ∀ before clock iph tcph after, calls = before ++ .packet clock iph tcph :: after →
      SocketsJustified before clock iph tcph := by
  intro before clock iph tcph after hcalls
  exact .of_current (h before clock iph tcph after hcalls)

theorem lastPacket_eq_lastHeader (f : TcpFlow) (calls : List PoolCall) :
    lastPacket f calls = (lastHeader f calls).map Prod.fst := by
  induction calls using List.reverseRecOn with
  | nil => rfl
  | append_singleton calls c ih =>
      have hclock : c.clockOf f = (c.headerOf f).map Prod.fst := by
        cases c with
        | packet clock iph tcph =>
            rw [PoolCall.clockOf, PoolCall.headerOf]
            split <;> rfl
        | headerSent ip port => rfl
        | complete ip port => rfl
      rw [lastPacket_snoc, lastHeader_snoc, hclock, ih]
      cases c.headerOf f <;> rfl

/-- Nothing is stale while all packets went to port 80 or 443 within the last 60 s. -/
theorem entriesCurrent_of_recent {before : List PoolCall} {now : Clock} (iph : IpHdr)
    (tcph : TcpHdr)
    (h : ∀ clock iph tcph, .packet clock iph tcph ∈ before → monitoredPort tcph = true ∧
      now.millis.toNat ≤ clock.millis.toNat + 60000) :
    EntriesCurrent before now iph tcph := by
  intro _ _ _ i _ hopen
  rw [ConnState.isOpen, decide_eq_true_iff] at hopen
  obtain ⟨-, clock, hlast, -⟩ := tracked_poolAfter before i hopen.2.1
  rw [lastPacket_eq_lastHeader, Option.map_eq_some_iff] at hlast
  obtain ⟨⟨last, tcph'⟩, hheader, rfl⟩ := hlast
  obtain ⟨iph', hmem, -⟩ := packet_mem_of_lastHeader hheader
  obtain ⟨hport, htime⟩ := h last iph' tcph' hmem
  exact ⟨last, tcph', hheader, hport, htime⟩

theorem mem_socketCalls {dest : BitVec 16} {clock : Clock} {iph : IpHdr} {tcph : TcpHdr}
    (h : .packet clock iph tcph ∈ socketCalls dest) : clock = ⟨1000, 1⟩ ∧ tcph.dest = dest := by
  obtain ⟨i, -, heq⟩ := List.mem_map.mp h
  obtain ⟨rfl, rfl, rfl⟩ := PoolCall.packet.inj heq
  exact ⟨rfl, rfl⟩

/-- A client with 21 requests under way at one moment. -/
theorem sockets_justified_web :
    (∀ before clock iph tcph after,
      socketCalls 0x5000 ++ [.packet ⟨1000, 1⟩ slowIp (socketTcp 0x5000 20)]
        = before ++ .packet clock iph tcph :: after → EntriesCurrent before clock iph tcph) ∧
      SocketsJustified (socketCalls 0x5000) ⟨1000, 1⟩ slowIp (socketTcp 0x5000 20) := by
  have hcurrent : ∀ before clock iph tcph after,
      socketCalls 0x5000 ++ [.packet ⟨1000, 1⟩ slowIp (socketTcp 0x5000 20)]
        = before ++ .packet clock iph tcph :: after → EntriesCurrent before clock iph tcph := by
    intro before clock iph tcph after hcalls
    have hmem : ∀ clock' iph' tcph', PoolCall.packet clock' iph' tcph' ∈
        socketCalls 0x5000 ++ [.packet ⟨1000, 1⟩ slowIp (socketTcp 0x5000 20)] →
        clock' = ⟨1000, 1⟩ ∧ tcph'.dest = 0x5000 := by
      intro clock' iph' tcph' h
      rcases List.mem_append.mp h with h | h
      · exact mem_socketCalls h
      · obtain ⟨rfl, -, rfl⟩ := PoolCall.packet.inj (List.mem_singleton.mp h)
        exact ⟨rfl, rfl⟩
    rw [hcalls] at hmem
    apply entriesCurrent_of_recent
    intro clock' iph' tcph' h
    obtain ⟨rfl, hdest⟩ := hmem clock' iph' tcph' (List.mem_append_left _ h)
    obtain ⟨rfl, -⟩ := hmem clock iph tcph (by simp)
    refine ⟨?_, by decide⟩
    rw [monitoredPort, hdest]
    decide
  exact ⟨hcurrent, sockets_justified_of_current hcurrent _ _ _ _ [] rfl⟩

/-- Distinct open slots count. -/
theorem length_le_countOpenConnections {pool : ConnPool} {ip : BitVec 32}
    {slots : List (Fin maxTrackedConns)} (hnodup : slots.Nodup)
    (hopen : ∀ i ∈ slots, (pool i).isOpen ip = true) :
    slots.length ≤ countOpenConnections pool ip := by
  rw [countOpenConnections, List.countP_eq_length_filter]
  apply (List.subperm_of_subset hnodup ?_).length_le
  intro i hi
  exact List.mem_filter.mpr ⟨List.mem_finRange i, hopen i hi⟩

theorem judge_maxSockets {pool : ConnPool} {conn : ConnState} {clock : Clock} {iph : IpHdr}
    {tcph : TcpHdr} (hport : monitoredPort tcph = true)
    (hopen : ((conn.seen clock.jiffies iph tcph).synFlood clock iph tcph).1.isBlocked = false)
    (hwait : ((conn.seen clock.jiffies iph tcph).synFlood clock iph tcph).1.isHttpComplete = false)
    (hcount : 20 < countOpenConnections (Function.update pool (tcpFlowOf iph tcph).slot
      (((conn.seen clock.jiffies iph tcph).synFlood clock iph tcph).1.startHttp clock.jiffies))
      iph.saddr) :
    (judge pool conn clock iph tcph).judged = .maxSockets := by
  have h := judge_judgedAs pool conn clock iph tcph
  generalize judge pool conn clock iph tcph = r at h
  cases h with
  | blocked hblocked =>
      rw [hopen] at hblocked
      cases hblocked
  | clear _ hdone =>
      rw [hdone hport] at hwait
      cases hwait
  | maxSockets => rfl
  | timeout _ _ _ hle => exact absurd hcount (Nat.not_lt_of_le hle)
  | waiting _ _ _ hle => exact absurd hcount (Nat.not_lt_of_le hle)

/-- After 20 connections to port 22, the first one to port 80 is dropped: it is the
only one there. -/
theorem ssh_sockets_counted :
    ¬ SocketsJustified (socketCalls 0x1600) ⟨1000, 1⟩ slowIp (socketTcp 0x5000 20) := by
  have hclaim : (poolAfter (socketCalls 0x1600) (tcpFlowOf slowIp (socketTcp 0x5000 20)).slot).claim
      (Clock.jiffies ⟨1000, 1⟩) slowIp (socketTcp 0x5000 20)
      = some (.fresh (Clock.jiffies ⟨1000, 1⟩) slowIp (socketTcp 0x5000 20)) := by
    decide +kernel
  have hjudged : (monitorTcpStats (poolAfter (socketCalls 0x1600)) ⟨1000, 1⟩ slowIp
      (socketTcp 0x5000 20)).judged = .maxSockets := by
    rw [monitorTcpStats_of_claim (by decide) hclaim]
    refine judge_maxSockets (by decide) (by decide) (by decide) ?_
    -- the 21 source ports hash to as many slots
    have hnodup : ((List.range 21).map fun i =>
        (tcpFlowOf slowIp (socketTcp 0x5000 i)).slot).Nodup := by
      decide +kernel
    apply length_le_countOpenConnections hnodup
    apply List.all_eq_true.mp
    decide +kernel
  intro h
  obtain ⟨flows, hnodup, hlength, hflows⟩ := h hjudged
  -- all of them are the flow of the one packet to port 80
  have hsame : ∀ f ∈ flows, f = tcpFlowOf slowIp (socketTcp 0x5000 20) := by
    intro f hf
    obtain ⟨-, -, last, tcph, hlast, hport, -⟩ := hflows f hf
    obtain ⟨iph, hmem, rfl⟩ := packet_mem_of_lastHeader hlast
    rcases List.mem_append.mp hmem with hmem | hmem
    · rw [monitoredPort, (mem_socketCalls hmem).2] at hport
      exact absurd hport (by decide)
    · obtain ⟨-, rfl, rfl⟩ := PoolCall.packet.inj (List.mem_singleton.mp hmem)
      rfl
  have hsubset : flows ⊆ [tcpFlowOf slowIp (socketTcp 0x5000 20)] :=
    fun f hf => List.mem_singleton.mpr (hsame f hf)
  have hle := (List.subperm_of_subset hnodup hsubset).length_le
  exact absurd (Nat.lt_of_lt_of_le hlength hle) (by decide)

end Nullsploit
