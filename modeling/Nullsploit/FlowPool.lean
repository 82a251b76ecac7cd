/-
Nullsploit/FlowPool.lean

Runs of the TCP monitor: packets of any flows interleaved with the two HTTP
callbacks, each packet with its own reading of the clock.

`Tracked` ties the pool to the history of the run: an entry in use sits in the
slot of its flow and carries the time of that flow's last packet.  From it
follow what a blocked flow can expect (`blocked_until_released`) and the limit
on incomplete requests (`incomplete_entries_le_twenty`).
-/
import Nullsploit.Runs
import Nullsploit.TcpMonitor

namespace Nullsploit

open Runs

/-- A call into the monitor. -/
inductive PoolCall
  | packet (clock : Clock) (iph : IpHdr) (tcph : TcpHdr)
  | headerSent (ip : BitVec 32) (port : BitVec 16)
  | complete (ip : BitVec 32) (port : BitVec 16)
  deriving DecidableEq, Repr

/-- A call, with how the packet was judged. -/
def poolStep (pool : ConnPool) : PoolCall → ConnPool × Option Judged
  | .packet clock iph tcph =>
      let r := monitorTcpStats pool clock iph tcph
      (r.pool, some r.judged)
  | .headerSent ip port => (registerHttpHeaderSent pool ip port, none)
  | .complete ip port => (registerHttpComplete pool ip port, none)

/-- The pool after the calls. -/
def poolAfter (calls : List PoolCall) : ConnPool := (exec poolStep initConnPool calls).1

@[simp] theorem poolAfter_nil : poolAfter [] = initConnPool := rfl

theorem poolAfter_snoc (calls : List PoolCall) (c : PoolCall) :
    poolAfter (calls ++ [c]) = (poolStep (poolAfter calls) c).1 :=
  exec_snoc _ calls c

theorem poolAfter_packet (calls : List PoolCall) (clock : Clock) (iph : IpHdr) (tcph : TcpHdr) :
    poolAfter (calls ++ [.packet clock iph tcph])
      = (monitorTcpStats (poolAfter calls) clock iph tcph).pool :=
  poolAfter_snoc calls _

/-- The clock at a packet of the flow. -/
def PoolCall.clockOf (f : TcpFlow) : PoolCall → Option Clock
  | .packet clock iph tcph => if tcpFlowOf iph tcph = f then some clock else none
  | _ => none

/-- The clock at the flow's last packet. -/
def lastPacket (f : TcpFlow) (calls : List PoolCall) : Option Clock :=
  (calls.filterMap (PoolCall.clockOf f)).getLast?

theorem lastPacket_snoc (f : TcpFlow) (calls : List PoolCall) (c : PoolCall) :
    lastPacket f (calls ++ [c]) = (c.clockOf f).or (lastPacket f calls) := by
  rw [lastPacket, List.filterMap_append, List.getLast?_append]
  cases h : c.clockOf f <;> simp [h, lastPacket]

/-! ### What each call leaves of an entry -/

/-- An entry as a callback leaves it. -/
structure ConnState.Noted (conn conn' : ConnState) : Prop where
  srcIp : conn'.srcIp = conn.srcIp
  srcPort : conn'.srcPort = conn.srcPort
  lastSeen : conn'.lastSeen = conn.lastSeen
  httpStartTime : conn'.httpStartTime = conn.httpStartTime
  isHttpComplete : conn.isHttpComplete = true → conn'.isHttpComplete = true
  isBlocked : conn'.isBlocked = conn.isBlocked

theorem ConnState.Noted.refl (conn : ConnState) : conn.Noted conn := ⟨rfl, rfl, rfl, rfl, id, rfl⟩

theorem ConnState.Noted.update {pool : ConnPool} {j : Fin maxTrackedConns} {conn : ConnState}
    (h : (pool j).Noted conn) (i : Fin maxTrackedConns) :
    (pool i).Noted (Function.update pool j conn i) := by
  revert i
  rw [Function.forall_update_iff pool fun i conn' => (pool i).Noted conn']
  exact ⟨h, fun i _ => .refl _⟩

theorem registerHttpHeaderSent_noted (pool : ConnPool) (ip : BitVec 32) (port : BitVec 16)
    (i : Fin maxTrackedConns) : (pool i).Noted (registerHttpHeaderSent pool ip port i) := by
  unfold registerHttpHeaderSent
  split
  · apply ConnState.Noted.update
    exact ⟨rfl, rfl, rfl, rfl, id, rfl⟩
  · exact .refl _

theorem registerHttpComplete_noted (pool : ConnPool) (ip : BitVec 32) (port : BitVec 16)
    (i : Fin maxTrackedConns) : (pool i).Noted (registerHttpComplete pool ip port i) := by
  unfold registerHttpComplete
  split
  · apply ConnState.Noted.update
    exact ⟨rfl, rfl, rfl, rfl, fun _ => rfl, rfl⟩
  · exact .refl _

/-- A packet changes no slot but its flow's. -/
theorem monitorTcpStats_frame (pool : ConnPool) (clock : Clock) (iph : IpHdr) (tcph : TcpHdr)
    {i : Fin maxTrackedConns} (hi : i ≠ (tcpFlowOf iph tcph).slot) :
    (monitorTcpStats pool clock iph tcph).pool i = pool i := by
  obtain ⟨-, -, hpool⟩ | ⟨-, -, -, hpool, -⟩ | ⟨-, -, conn, conn', -, -, hpool, -⟩ :=
    monitorTcpStats_cases pool clock iph tcph
  · rw [hpool]
    split
    · rw [Function.update_of_ne hi]
    · rfl
  · rw [hpool]
  · rw [hpool, Function.update_of_ne hi]

/-! ### The history of an entry -/

/-- The flow an entry is for. -/
def ConnState.flow (conn : ConnState) : TcpFlow := ⟨conn.srcIp, conn.srcPort⟩

/-- An entry in use sits in the slot of its flow and was last refreshed by that
flow's last packet. -/
def Tracked (calls : List PoolCall) (pool : ConnPool) : Prop :=
  ∀ i, (pool i).srcIp ≠ 0 → (pool i).flow.slot = i ∧
    ∃ clock, lastPacket (pool i).flow calls = some clock ∧ (pool i).lastSeen = clock.jiffies

/-- A callback keeps what is known of every entry. -/
theorem Tracked.noted {calls : List PoolCall} {pool pool' : ConnPool} {c : PoolCall}
    (h : Tracked calls pool) (hnoted : ∀ i, (pool i).Noted (pool' i))
    (hc : ∀ f, c.clockOf f = none) : Tracked (calls ++ [c]) pool' := by
  intro i hi
  have hflow : (pool' i).flow = (pool i).flow := by
    unfold ConnState.flow
    rw [(hnoted i).srcIp, (hnoted i).srcPort]
  rw [(hnoted i).srcIp] at hi
  rw [hflow, (hnoted i).lastSeen, lastPacket_snoc, hc]
  exact h i hi

/-- A packet of another flow does not touch what is known of an entry. -/
theorem lastPacket_snoc_packet_of_ne {f : TcpFlow} {clock : Clock} {iph : IpHdr} {tcph : TcpHdr}
    (calls : List PoolCall) (h : tcpFlowOf iph tcph ≠ f) :
    lastPacket f (calls ++ [.packet clock iph tcph]) = lastPacket f calls := by
  rw [lastPacket_snoc, PoolCall.clockOf, if_neg h, Option.none_or]

theorem lastPacket_snoc_packet (clock : Clock) (iph : IpHdr) (tcph : TcpHdr)
    (calls : List PoolCall) :
    lastPacket (tcpFlowOf iph tcph) (calls ++ [.packet clock iph tcph]) = some clock := by
  rw [lastPacket_snoc, PoolCall.clockOf, if_pos rfl, Option.some_or]

/-- The entry of another flow, left as it was. -/
theorem Tracked.unchanged {calls : List PoolCall} {pool : ConnPool} (h : Tracked calls pool)
    (clock : Clock) (iph : IpHdr) (tcph : TcpHdr) {i : Fin maxTrackedConns}
    (hi : (pool i).srcIp ≠ 0) (hne : (pool i).ownedBy (tcpFlowOf iph tcph) = false) :
    (pool i).flow.slot = i ∧
      ∃ t, lastPacket (pool i).flow (calls ++ [.packet clock iph tcph]) = some t ∧
        (pool i).lastSeen = t.jiffies := by
  rw [lastPacket_snoc_packet_of_ne]
  · exact h i hi
  · intro heq
    rw [Bool.eq_false_iff] at hne
    exact hne (ConnState.ownedBy_iff.mpr heq.symm)

theorem Tracked.packet {calls : List PoolCall} {pool : ConnPool} (h : Tracked calls pool)
    (clock : Clock) (iph : IpHdr) (tcph : TcpHdr) :
    Tracked (calls ++ [.packet clock iph tcph]) (monitorTcpStats pool clock iph tcph).pool := by
  intro i hi
  by_cases hslot : i = (tcpFlowOf iph tcph).slot
  · subst hslot
    obtain ⟨-, -, hpool⟩ | ⟨-, -, -, hpool, hclaim⟩ |
        ⟨-, -, conn, conn', hclaim, hfollows, hpool, -⟩ :=
      monitorTcpStats_cases pool clock iph tcph
    · rw [hpool] at hi ⊢
      split at hi
      · exact absurd (by rw [Function.update_self]; rfl) hi
      · rename_i howned
        rw [if_neg howned]
        exact h.unchanged clock iph tcph hi (Bool.eq_false_iff.mpr howned)
    · rw [hpool] at hi ⊢
      exact h.unchanged clock iph tcph hi (ConnState.claim_eq_none_iff.mp hclaim).1
    · -- the entry is the packet's own now
      have hflow : conn'.flow = tcpFlowOf iph tcph :=
        ConnState.ownedBy_iff.mp (hfollows.ownedBy (ConnState.ownedBy_of_claim hclaim))
      rw [hpool, Function.update_self, hflow, lastPacket_snoc_packet]
      exact ⟨rfl, clock, rfl, hfollows.lastSeen⟩
  · rw [monitorTcpStats_frame pool clock iph tcph hslot] at hi ⊢
    apply h.unchanged clock iph tcph hi
    refine Bool.eq_false_iff.mpr fun howned => hslot ?_
    rw [← ConnState.ownedBy_iff.mp howned]
    exact (h i hi).1.symm

theorem tracked_poolAfter (calls : List PoolCall) : Tracked calls (poolAfter calls) := by
  induction calls using List.reverseRecOn with
  | nil => exact fun i hi => absurd rfl hi
  | append_singleton calls c ih =>
      rw [poolAfter_snoc]
      cases c with
      | packet clock iph tcph => exact ih.packet clock iph tcph
      | headerSent ip port =>
          exact ih.noted (registerHttpHeaderSent_noted _ ip port) fun _ => rfl
      | complete ip port => exact ih.noted (registerHttpComplete_noted _ ip port) fun _ => rfl

/-! ### A blocked flow -/

/-- The flow owns its entry, and the entry is blocked. -/
def FlowBlocked (f : TcpFlow) (pool : ConnPool) : Prop :=
  (pool f.slot).ownedBy f = true ∧ (pool f.slot).isBlocked = true

instance (f : TcpFlow) (pool : ConnPool) : Decidable (FlowBlocked f pool) :=
  inferInstanceAs (Decidable (_ ∧ _))

/-- What ends a block, after the given calls: a FIN or RST of the flow itself,
or a packet of a different flow with the same hash, more than 5 s after the
blocked flow's last packet. -/
def PoolCall.Releases (f : TcpFlow) (calls : List PoolCall) : PoolCall → Prop
  | .packet clock iph tcph =>
      tcpFlowOf iph tcph = f ∧ (tcph.fin = true ∨ tcph.rst = true) ∨
      tcpFlowOf iph tcph ≠ f ∧ (tcpFlowOf iph tcph).slot = f.slot ∧
        ∃ t, lastPacket f calls = some t ∧ t.millis.toNat + 5000 < clock.millis.toNat
  | _ => False

theorem ConnState.not_ownedBy_of_ne {conn : ConnState} {f g : TcpFlow}
    (h : conn.ownedBy f = true) (hne : g ≠ f) : conn.ownedBy g = false := by
  refine Bool.eq_false_iff.mpr fun hg => hne ?_
  rw [← ConnState.ownedBy_iff.mp h, ← ConnState.ownedBy_iff.mp hg]

/-- An entry in use is taken over by another flow only 5 s after its last
packet: the timeout of 60 s adds nothing. -/
theorem ConnState.reclaimable_iff {conn : ConnState} {t clock : Clock} (hip : conn.srcIp ≠ 0)
    (hlast : conn.lastSeen = t.jiffies) :
    conn.reclaimable clock.jiffies = true ↔ t.jiffies.toNat + 500 < clock.jiffies.toNat := by
  have h60 := secondsAfter_iff (isMoment_jiffies clock) (isMoment_jiffies t) (Nat.le_refl 60)
  have h5 := secondsAfter_iff (isMoment_jiffies clock) (isMoment_jiffies t)
    (show 5 ≤ 60 by decide)
  rw [ConnState.reclaimable, decide_eq_true_iff, hlast, h60, h5]
  unfold hz
  constructor
  · rintro (h | h | h)
    · exact absurd h hip
    · omega
    · exact h
  · exact fun h => Or.inr (Or.inr h)

/-- A packet of the blocked flow is dropped, and the block stays. -/
theorem FlowBlocked.own_packet {f : TcpFlow} {pool : ConnPool} (h : FlowBlocked f pool)
    (clock : Clock) {iph : IpHdr} {tcph : TcpHdr} (hflow : tcpFlowOf iph tcph = f)
    (hfin : tcph.fin = false) (hrst : tcph.rst = false) :
    FlowBlocked f (monitorTcpStats pool clock iph tcph).pool ∧
      (monitorTcpStats pool clock iph tcph).judged.drop = true := by
  subst hflow
  have hown := ConnState.claim_of_ownedBy clock.jiffies h.1
  obtain ⟨hclose, -, -⟩ | ⟨-, -, -, -, hclaim⟩ |
      ⟨-, -, conn, conn', hclaim, hfollows, hpool, hverdict⟩ :=
    monitorTcpStats_cases pool clock iph tcph
  · rw [hfin, hrst] at hclose
    simp at hclose
  · rw [hown] at hclaim
    cases hclaim
  · rw [hown] at hclaim
    obtain rfl := Option.some.inj hclaim
    have hblocked := hfollows.isBlocked h.2
    refine ⟨⟨?_, ?_⟩, hverdict.drop.trans hblocked⟩
    · rw [hpool, Function.update_self]
      exact hfollows.ownedBy h.1
    · rw [hpool, Function.update_self]
      exact hblocked

/-- A packet of another flow that may not take the slot over leaves the entry
alone. -/
theorem monitorTcpStats_other_flow {f : TcpFlow} {pool : ConnPool}
    (h : (pool f.slot).ownedBy f = true) (clock : Clock) {iph : IpHdr} {tcph : TcpHdr} (hne : tcpFlowOf iph tcph ≠ f)
    (hkept : (tcpFlowOf iph tcph).slot = f.slot →
      (pool f.slot).reclaimable clock.jiffies = false) :
    (monitorTcpStats pool clock iph tcph).pool f.slot = pool f.slot := by
  by_cases hslot : (tcpFlowOf iph tcph).slot = f.slot
  · have hown := ConnState.not_ownedBy_of_ne h hne
    obtain ⟨-, -, hpool⟩ | ⟨-, -, -, hpool, -⟩ | ⟨-, -, conn, conn', hclaim, -, -, -⟩ :=
      monitorTcpStats_cases pool clock iph tcph
    · rw [hpool, hslot, hown, if_neg (by simp)]
    · rw [hpool]
    · rw [hslot, ConnState.claim, hown, if_neg (by simp), hkept hslot, if_neg (by simp)] at hclaim
      cases hclaim
  · exact monitorTcpStats_frame pool clock iph tcph (Ne.symm hslot)

theorem FlowBlocked.noted {f : TcpFlow} {pool pool' : ConnPool} (h : FlowBlocked f pool)
    (hnoted : ∀ i, (pool i).Noted (pool' i)) : FlowBlocked f pool' := by
  have hn := hnoted f.slot
  refine ⟨?_, hn.isBlocked.trans h.2⟩
  rw [ConnState.ownedBy_iff, hn.srcIp, hn.srcPort]
  exact ConnState.ownedBy_iff.mp h.1

/-- A call that does not release the flow keeps it blocked. -/
theorem FlowBlocked.step {f : TcpFlow} (hf : f.ip ≠ 0) {calls : List PoolCall} {c : PoolCall}
    (h : FlowBlocked f (poolAfter calls)) (hc : ¬ c.Releases f calls) :
    FlowBlocked f (poolAfter (calls ++ [c])) := by
  rw [poolAfter_snoc]
  cases c with
  | packet clock iph tcph =>
      by_cases hflow : tcpFlowOf iph tcph = f
      · refine (h.own_packet clock hflow ?_ ?_).1
        · exact Bool.eq_false_iff.mpr fun hfin => hc (Or.inl ⟨hflow, Or.inl hfin⟩)
        · exact Bool.eq_false_iff.mpr fun hrst => hc (Or.inl ⟨hflow, Or.inr hrst⟩)
      · have hentry : (monitorTcpStats (poolAfter calls) clock iph tcph).pool f.slot
            = poolAfter calls f.slot := by
          refine monitorTcpStats_other_flow h.1 clock hflow fun hslot => ?_
          refine Bool.eq_false_iff.mpr fun hreclaim => ?_
          have hfl : (poolAfter calls f.slot).flow = f := ConnState.ownedBy_iff.mp h.1
          have hip : (poolAfter calls f.slot).srcIp ≠ 0 := by
            rw [← hfl] at hf
            exact hf
          obtain ⟨-, t, hlast, hseen⟩ := tracked_poolAfter calls f.slot hip
          rw [ConnState.reclaimable_iff hip hseen, toNat_jiffies, toNat_jiffies] at hreclaim
          rw [hfl] at hlast
          exact hc (Or.inr ⟨hflow, hslot, t, hlast, by omega⟩)
        show FlowBlocked f (monitorTcpStats (poolAfter calls) clock iph tcph).pool
        rw [FlowBlocked, hentry]
        exact h
  | headerSent ip port => exact h.noted (registerHttpHeaderSent_noted _ ip port)
  | complete ip port => exact h.noted (registerHttpComplete_noted _ ip port)

theorem FlowBlocked.run {f : TcpFlow} (hf : f.ip ≠ 0) {before after : List PoolCall}
    (h : FlowBlocked f (poolAfter before))
    (hkept : ∀ d c rest, after = d ++ c :: rest → ¬ c.Releases f (before ++ d)) :
    FlowBlocked f (poolAfter (before ++ after)) := by
  induction after using List.reverseRecOn with
  | nil =>
      rw [List.append_nil]
      exact h
  | append_singleton after c ih =>
      rw [← List.append_assoc]
      apply FlowBlocked.step hf
      · apply ih
        intro d c' rest heq
        apply hkept d c' (rest ++ [c])
        rw [heq, List.append_assoc, List.cons_append]
      · exact hkept after c [] rfl

/-- **A blocked flow stays blocked.**  Until one of the calls releases it, every
packet of the flow without FIN or RST is dropped, whatever else arrives; and a
packet that hashes to another slot never changes the entry. -/
theorem blocked_until_released {f : TcpFlow} (hf : f.ip ≠ 0) {before after : List PoolCall}
    (h : FlowBlocked f (poolAfter before))
    (hkept : ∀ d c rest, after = d ++ c :: rest → ¬ c.Releases f (before ++ d)) :
    FlowBlocked f (poolAfter (before ++ after)) ∧
      (∀ clock iph tcph, tcpFlowOf iph tcph = f → tcph.fin = false → tcph.rst = false →
        (monitorTcpStats (poolAfter (before ++ after)) clock iph tcph).judged.drop = true) ∧
      ∀ clock iph tcph, (tcpFlowOf iph tcph).slot ≠ f.slot →
        (monitorTcpStats (poolAfter (before ++ after)) clock iph tcph).pool f.slot
          = poolAfter (before ++ after) f.slot := by
  have hrun := h.run hf hkept
  refine ⟨hrun, ?_, ?_⟩
  · intro clock iph tcph hflow hfin hrst
    exact (hrun.own_packet clock hflow hfin hrst).2
  · intro clock iph tcph hslot
    exact monitorTcpStats_frame _ clock iph tcph (Ne.symm hslot)

/-- A client that opens a connection to port 80, falls silent for 39 s and is
blocked by the slowloris timeout. -/
def slowIp : IpHdr := ⟨5, 0, ipprotoTcp, 0x0200000a, 0x0100000a⟩
def slowTcp : TcpHdr := ⟨0x3930, 0x5000, 5, false, false, false, true⟩
def slowCalls : List PoolCall :=
  [.packet ⟨1000, 1⟩ slowIp slowTcp, .packet ⟨40000, 40⟩ slowIp slowTcp]

/-- Its request completing comes too late. -/
theorem blocked_until_released_slowCalls :
    (tcpFlowOf slowIp slowTcp).ip ≠ 0 ∧
      FlowBlocked (tcpFlowOf slowIp slowTcp) (poolAfter slowCalls) ∧
      FlowBlocked (tcpFlowOf slowIp slowTcp)
        (poolAfter (slowCalls ++ [.complete slowIp.saddr slowTcp.source])) := by
  have hip : (tcpFlowOf slowIp slowTcp).ip ≠ 0 := by decide
  have hblocked : FlowBlocked (tcpFlowOf slowIp slowTcp) (poolAfter slowCalls) := by decide +kernel
  refine ⟨hip, hblocked, (blocked_until_released hip hblocked ?_).1⟩
  intro d c rest heq
  cases d with
  | nil =>
      obtain ⟨rfl, -⟩ := List.cons.inj heq
      exact id
  | cons b d => simp at heq

/-! ### The limit on incomplete requests -/

/-- Packets go to port 80 or 443. -/
def PoolCall.ToWeb : PoolCall → Prop
  | .packet _ _ tcph => monitoredPort tcph = true
  | _ => True

theorem countOpenConnections_mono {pool pool' : ConnPool} {ip : BitVec 32}
    (h : ∀ i, (pool' i).isOpen ip = true → (pool i).isOpen ip = true) :
    countOpenConnections pool' ip ≤ countOpenConnections pool ip :=
  List.countP_mono_left fun i _ => h i

/-- An entry that does not count may take any slot. -/
theorem countOpenConnections_update_le {pool : ConnPool} {j : Fin maxTrackedConns}
    {conn : ConnState} {ip : BitVec 32} (h : conn.isOpen ip = false) :
    countOpenConnections (Function.update pool j conn) ip ≤ countOpenConnections pool ip := by
  apply countOpenConnections_mono
  intro i hi
  by_cases hij : i = j
  · subst hij
    rw [Function.update_self, h] at hi
    cases hi
  · rw [Function.update_of_ne hij] at hi
    exact hi

theorem countOpenConnections_noted {pool pool' : ConnPool} (ip : BitVec 32)
    (hnoted : ∀ i, (pool i).Noted (pool' i)) :
    countOpenConnections pool' ip ≤ countOpenConnections pool ip := by
  apply countOpenConnections_mono
  intro i hi
  have hn := hnoted i
  simp only [ConnState.isOpen, decide_eq_true_iff] at hi ⊢
  refine ⟨hn.srcIp ▸ hi.1, hn.srcIp ▸ hi.2.1, ?_, hn.isBlocked ▸ hi.2.2.2⟩
  exact Bool.eq_false_iff.mpr fun hc => by simp [hn.isHttpComplete hc] at hi

/-- A packet to a monitored port does not push an address over the limit: its
own by the check it passed, another by not adding to its entries. -/
theorem countOpenConnections_packet (pool : ConnPool) (clock : Clock) (iph : IpHdr)
    {tcph : TcpHdr} (hport : monitoredPort tcph = true) (ip : BitVec 32) :
    countOpenConnections (monitorTcpStats pool clock iph tcph).pool ip ≤ 20 ∨
      countOpenConnections (monitorTcpStats pool clock iph tcph).pool ip
        ≤ countOpenConnections pool ip := by
  obtain ⟨-, -, hpool⟩ | ⟨-, -, -, hpool, -⟩ |
      ⟨-, -, conn, conn', hclaim, hfollows, hpool, hverdict⟩ :=
    monitorTcpStats_cases pool clock iph tcph
  · right
    rw [hpool]
    split
    · apply countOpenConnections_update_le
      simp [ConnState.isOpen, ConnState.zero]
    · exact Nat.le_refl _
  · right
    rw [hpool]
  · have hsrc : conn'.srcIp = iph.saddr := by
      have hown := ConnState.ownedBy_iff.mp (hfollows.ownedBy (ConnState.ownedBy_of_claim hclaim))
      exact congrArg TcpFlow.ip hown
    by_cases hopen : conn'.isOpen ip = true
    · left
      simp only [ConnState.isOpen, decide_eq_true_iff] at hopen
      obtain ⟨hip, -, hcomplete, hblocked⟩ := hopen
      rw [← hip, hsrc]
      exact hverdict.passed (hverdict.drop.trans hblocked) hport hcomplete
    · right
      rw [hpool]
      exact countOpenConnections_update_le (Bool.eq_false_iff.mpr hopen)

theorem countOpenConnections_run (calls : List PoolCall) (hweb : ∀ c ∈ calls, c.ToWeb)
    (ip : BitVec 32) : countOpenConnections (poolAfter calls) ip ≤ 20 := by
  induction calls using List.reverseRecOn with
  | nil =>
      have hnone : ∀ i, (initConnPool i).isOpen ip = false := by
        intro i
        simp [initConnPool, ConnState.isOpen, ConnState.zero]
      rw [poolAfter_nil, countOpenConnections, List.countP_eq_zero.mpr]
      · exact Nat.zero_le _
      · intro i _
        rw [hnone i]
        exact Bool.false_ne_true
  | append_singleton calls c ih =>
      have hbefore := ih fun c' hc' => hweb c' (List.mem_append_left _ hc')
      have hc : c.ToWeb := hweb c (by simp)
      rw [poolAfter_snoc]
      cases c with
      | packet clock iph tcph =>
          rcases countOpenConnections_packet (poolAfter calls) clock iph hc ip with h | h
          · exact h
          · exact h.trans hbefore
      | headerSent p q =>
          exact (countOpenConnections_noted ip (registerHttpHeaderSent_noted _ p q)).trans hbefore
      | complete p q =>
          exact (countOpenConnections_noted ip (registerHttpComplete_noted _ p q)).trans hbefore

/-- An entry of the address, its request incomplete and not blocked. -/
def ConnState.Incomplete (conn : ConnState) (ip : BitVec 32) : Prop :=
  conn.srcIp = ip ∧ conn.isHttpComplete = false ∧ conn.isBlocked = false

instance (conn : ConnState) (ip : BitVec 32) : Decidable (conn.Incomplete ip) :=
  inferInstanceAs (Decidable (_ ∧ _))

/-- **The limit holds after every step**: while all packets go to port 80 or 443,
no address but 0 has more than 20 entries that are neither complete nor
blocked. -/
theorem incomplete_entries_le_twenty (calls : List PoolCall) (hweb : ∀ c ∈ calls, c.ToWeb)
    (ip : BitVec 32) (hip : ip ≠ 0) :
    ((List.finRange maxTrackedConns).filter fun i => (poolAfter calls i).Incomplete ip).length
      ≤ 20 := by
  rw [← List.countP_eq_length_filter]
  refine Nat.le_trans (List.countP_mono_left fun i _ hi => ?_) (countOpenConnections_run calls hweb ip)
  rw [decide_eq_true_iff] at hi
  obtain ⟨hsrc, hcomplete, hblocked⟩ := hi
  simp only [ConnState.isOpen, decide_eq_true_iff]
  exact ⟨hsrc, hsrc ▸ hip, hcomplete, hblocked⟩

/-- A packet from the `i`-th source port, and those from the first 20 of them. -/
def socketTcp (dest : BitVec 16) (i : Nat) : TcpHdr :=
  ⟨BitVec.ofNat 16 (1024 + i), dest, 5, false, false, false, true⟩
def socketCalls (dest : BitVec 16) : List PoolCall :=
  (List.range 20).map fun i => .packet ⟨1000, 1⟩ slowIp (socketTcp dest i)

/-- A client that begins 21 requests at one moment. -/
theorem incomplete_entries_le_twenty_sockets :
    let calls := socketCalls 0x5000 ++ [.packet ⟨1000, 1⟩ slowIp (socketTcp 0x5000 20)]
    (∀ c ∈ calls, c.ToWeb) ∧ slowIp.saddr ≠ 0 ∧
      ((List.finRange maxTrackedConns).filter fun i =>
        (poolAfter calls i).Incomplete slowIp.saddr).length ≤ 20 := by
  intro calls
  have hweb : ∀ c ∈ calls, c.ToWeb := by
    have hport : ∀ {tcph : TcpHdr}, tcph.dest = 0x5000 → monitoredPort tcph = true := by
      intro tcph hdest
      rw [monitoredPort, hdest]
      decide
    intro c hc
    rcases List.mem_append.mp hc with hc | hc
    · obtain ⟨i, -, rfl⟩ := List.mem_map.mp hc
      exact hport rfl
    · obtain rfl := List.mem_singleton.mp hc
      exact hport rfl
  have hip : slowIp.saddr ≠ 0 := by decide
  exact ⟨hweb, hip, incomplete_entries_le_twenty calls hweb slowIp.saddr hip⟩

end Nullsploit
