/-
Nullsploit/HeaderCompletion.lean

Slowloris and segmentation.  A flow is blocked when its request header is not
complete 30 s after it began; completion is noticed by the HTTP inspector, in
one packet at a time, on port 80 only, and within the first 2048 bytes of a
payload.  So whether the flow's bytes, put together, hold the end of a header
is not what decides.

What does decide is `Spared`: some packet carried the end of the header by
itself and found the flow's entry, and the entry has not been given up since
(`FlowSettled` is the invariant it establishes); or no packet of the flow is
older than 30 s yet (`Started`).
-/
import Nullsploit.FlowPool
import Nullsploit.PacketPath

namespace Nullsploit

open Runs CText

/-! ### Runs of the daemon -/

/-- What happens to the daemon: the agent pushes, a packet is queued. -/
inductive NfqEvent
  | push (payload : BlocklistPayload)
  | packet (clock : Clock) (data : List UInt8)

section Daemon

variable (shl : BitVec 8 → BitVec 32) (host : Host) (det : Detectors)

/-- One event, with the branch by which a packet left the TCP monitor. -/
def nfqStep (s : PathState) : NfqEvent → PathState × Option Judged
  | .push payload => ({ s with firewall := updateIpBlocklist s.firewall payload }, none)
  | .packet clock data =>
      let r := fwNfqCallback shl host det clock s data
      (r.state, r.judged)

/-- The daemon after a run that began with an empty pool. -/
def nfqAfter (fw : Firewall) (run : List NfqEvent) : PathState :=
  (exec (nfqStep shl host det) ⟨fw, initConnPool⟩ run).1

end Daemon

/-! ### The packets of a flow -/

/-- A TCP packet with its headers. -/
def isTcp (data : List UInt8) : Bool :=
  ipHdrSize ≤ data.length ∧ (ipHdr data).protocol = ipprotoTcp ∧
    (ipHdr data).ihl.toNat * 4 + tcpHdrSize ≤ data.length

/-- The packet of an event, if it is one of the flow. -/
def NfqEvent.ofFlow (f : TcpFlow) : NfqEvent → Option (Clock × List UInt8)
  | .push _ => none
  | .packet clock data => if isTcp data ∧ dataFlow data = f then some (clock, data) else none

/-- The packets of a flow, in order. -/
def flowPackets (f : TcpFlow) (run : List NfqEvent) : List (Clock × List UInt8) :=
  run.filterMap (NfqEvent.ofFlow f)

/-- The payloads of a flow, put together. -/
def flowBytes (f : TcpFlow) (run : List NfqEvent) : List UInt8 :=
  (flowPackets f run).flatMap fun p => payloadOf p.2

/-- The flow's bytes come to hold the end of a header while all its packets are
within 30 s of the first. -/
def CompletedInTime (f : TcpFlow) (run : List NfqEvent) : Prop :=
  ∃ a, a <+: run ∧ headerEnd <:+: flowBytes f a ∧
    ∀ first ∈ (flowPackets f a).head?, ∀ p ∈ flowPackets f a,
      p.1.millis.toNat ≤ first.1.millis.toNat + 30000

/-- All packets of the flow go to port 80, or all to port 443. -/
def ToMonitoredPort (f : TcpFlow) (run : List NfqEvent) : Prop :=
  ∃ port : BitVec 16, (port = 80 ∨ port = 443) ∧
    ∀ p ∈ flowPackets f run, ntohs (tcpHdr p.2).dest = port

/-- Once the flow's header is complete in time, none of its packets leaves the
monitor by the timeout branch. -/
def HeaderSpares (shl : BitVec 8 → BitVec 32) (host : Host) (det : Detectors) (fw : Firewall)
    (f : TcpFlow) (run : List NfqEvent) : Prop :=
  ToMonitoredPort f run → ∀ before e after, run = before ++ e :: after →
    (e.ofFlow f).isSome = true → CompletedInTime f before →
    (nfqStep shl host det (nfqAfter shl host det fw before) e).2 ≠ some .timeout

/-! ### The daemon on the pool -/

/-- The packet gets to the TCP monitor. -/
def reachesMonitor (host : Host) (data : List UInt8) : Bool :=
  isTcp data ∧ isBypassedIp host (ipHdr data).saddr = false

section Daemon

variable {shl : BitVec 8 → BitVec 32} {host : Host} {det : Detectors}

/-- A packet that gets to the monitor changes the pool as `checkedPool` says. -/
theorem nfqStep_of_reaches {clock : Clock} {data : List UInt8}
    (h : reachesMonitor host data = true) (s : PathState) :
    (nfqStep shl host det s (.packet clock data)).1.pool = checkedPool s.pool clock data ∧
      (nfqStep shl host det s (.packet clock data)).2
        = some (monitorTcpStats s.pool clock (ipHdr data) (tcpHdr data)).judged := by
  simp only [reachesMonitor, isTcp, decide_eq_true_iff] at h
  obtain ⟨⟨hip, hproto, htcp⟩, hb⟩ := h
  obtain ⟨hpool, hjudged⟩ := tcpChecks_pool det clock s data
  unfold nfqStep fwNfqCallback
  dsimp only
  rw [if_neg (Nat.not_lt.mpr hip), hb, if_neg Bool.false_ne_true, if_pos ⟨hproto, htcp⟩]
  exact ⟨hpool, congrArg some hjudged⟩

theorem nfqAfter_snoc_pool (shl : BitVec 8 → BitVec 32) (host : Host) (det : Detectors)
    (fw : Firewall) (run : List NfqEvent) (clock : Clock) (data : List UInt8)
    (h : reachesMonitor host data = true) :
    (nfqAfter shl host det fw (run ++ [.packet clock data])).pool
      = checkedPool (nfqAfter shl host det fw run).pool clock data := by
  rw [nfqAfter, exec_snoc]
  exact (nfqStep_of_reaches h _).1

/-- Any other event leaves the pool alone. -/
theorem nfqStep_of_not_reaches {clock : Clock} {data : List UInt8}
    (h : reachesMonitor host data = false) (s : PathState) :
    (nfqStep shl host det s (.packet clock data)).1.pool = s.pool ∧
      (nfqStep shl host det s (.packet clock data)).2 = none := by
  have hcases : ¬ (isTcp data = true ∧ isBypassedIp host (ipHdr data).saddr = false) :=
    of_decide_eq_false h
  unfold nfqStep fwNfqCallback
  dsimp only
  split
  · exact ⟨rfl, rfl⟩
  · rename_i hlen
    split
    · exact ⟨rfl, rfl⟩
    · rename_i hb
      split
      · rename_i htcp
        refine absurd ⟨?_, Bool.eq_false_iff.mpr hb⟩ hcases
        exact decide_eq_true ⟨Nat.not_lt.mp hlen, htcp.1, htcp.2⟩
      · exact ⟨rfl, rfl⟩

end Daemon

/-! ### What the callbacks of the inspector keep -/

theorem ConnState.Noted.trans {a b c : ConnState} (h : a.Noted b) (h' : b.Noted c) : a.Noted c where
  srcIp := h'.srcIp.trans h.srcIp
  srcPort := h'.srcPort.trans h.srcPort
  lastSeen := h'.lastSeen.trans h.lastSeen
  httpStartTime := h'.httpStartTime.trans h.httpStartTime
  isHttpComplete hc := h'.isHttpComplete (h.isHttpComplete hc)
  isBlocked := h'.isBlocked.trans h.isBlocked

theorem registerHttp_noted (pool : ConnPool) (data : List UInt8) (i : Fin maxTrackedConns) :
    (pool i).Noted (registerHttp pool data i) := by
  unfold registerHttp
  split
  · exact (registerHttpHeaderSent_noted pool _ _ i).trans (registerHttpComplete_noted _ _ _ i)
  · exact registerHttpHeaderSent_noted pool _ _ i

theorem checkedPool_noted (pool : ConnPool) (clock : Clock) (data : List UInt8)
    (i : Fin maxTrackedConns) :
    ((monitorTcpStats pool clock (ipHdr data) (tcpHdr data)).pool i).Noted
      (checkedPool pool clock data i) := by
  unfold checkedPool
  split
  · exact registerHttp_noted _ data i
  · exact .refl _

theorem ConnState.Noted.flow {a b : ConnState} (h : a.Noted b) : b.flow = a.flow := by
  unfold ConnState.flow
  rw [h.srcIp, h.srcPort]

/-! ### When a request began -/

/-- The start time of an entry is that of a packet of its flow. -/
def Started (run : List NfqEvent) (pool : ConnPool) : Prop :=
  ∀ i, (pool i).httpStartTime = 0 ∨
    ∃ p ∈ flowPackets (pool i).flow run, (pool i).httpStartTime = p.1.jiffies

theorem flowPackets_snoc (f : TcpFlow) (run : List NfqEvent) (e : NfqEvent) :
    flowPackets f (run ++ [e]) = flowPackets f run ++ (e.ofFlow f).toList := by
  rw [flowPackets, List.filterMap_append]
  cases h : e.ofFlow f <;> simp [h, flowPackets]

theorem mem_flowPackets_snoc {f : TcpFlow} {run : List NfqEvent} {p : Clock × List UInt8}
    (e : NfqEvent) (h : p ∈ flowPackets f run) : p ∈ flowPackets f (run ++ [e]) := by
  rw [flowPackets_snoc]
  exact List.mem_append_left _ h

theorem Started.same {run : List NfqEvent} {pool pool' : ConnPool} (h : Started run pool)
    (e : NfqEvent) (hpool : pool' = pool) : Started (run ++ [e]) pool' := by
  subst hpool
  intro i
  rcases h i with hzero | ⟨p, hp, hstart⟩
  · exact Or.inl hzero
  · exact Or.inr ⟨p, mem_flowPackets_snoc e hp, hstart⟩

/-- The entry a packet goes on with is as old as the flow's, or new. -/
theorem ConnState.httpStartTime_of_claim {conn c : ConnState} {now : BitVec 64} {iph : IpHdr}
    {tcph : TcpHdr} (h : conn.claim now iph tcph = some c) :
    c.httpStartTime = 0 ∨ c = conn := by
  unfold ConnState.claim at h
  split at h
  · exact Or.inr (Option.some.inj h).symm
  · split at h
    · obtain rfl := Option.some.inj h
      exact Or.inl rfl
    · cases h

theorem Started.packet {run : List NfqEvent} {pool : ConnPool} (h : Started run pool)
    (clock : Clock) {data : List UInt8} (htcp : isTcp data = true) :
    Started (run ++ [.packet clock data])
      (monitorTcpStats pool clock (ipHdr data) (tcpHdr data)).pool := by
  intro i
  have hsame := h.same (.packet clock data) rfl i
  by_cases hslot : i = (dataFlow data).slot
  · subst hslot
    obtain ⟨-, -, hpool⟩ | ⟨-, -, -, hpool, -⟩ | ⟨-, -, conn, conn', hclaim, hfollows, hpool, -⟩ :=
      monitorTcpStats_cases pool clock (ipHdr data) (tcpHdr data)
    · rw [hpool]
      split
      · have hself : Function.update pool (tcpFlowOf (ipHdr data) (tcpHdr data)).slot
            ConnState.zero (dataFlow data).slot = .zero := Function.update_self ..
        rw [hself]
        exact Or.inl rfl
      · exact hsame
    · rw [hpool]
      exact hsame
    · have hself : Function.update pool (tcpFlowOf (ipHdr data) (tcpHdr data)).slot conn'
          (dataFlow data).slot = conn' := Function.update_self ..
      rw [hpool, hself]
      have hown := hfollows.ownedBy (ConnState.ownedBy_of_claim hclaim)
      have hflow : conn'.flow = dataFlow data := ConnState.ownedBy_iff.mp hown
      rw [hflow]
      rcases hfollows.httpStartTime with hold | ⟨-, hnew⟩
      · rcases ConnState.httpStartTime_of_claim hclaim with hzero | rfl
        · exact Or.inl (hold.trans hzero)
        · -- the entry was the flow's own before
          have hflow' := ConnState.ownedBy_iff.mp (ConnState.ownedBy_of_claim hclaim)
          rw [hold]
          change (pool (dataFlow data).slot).flow = dataFlow data at hflow'
          rw [hflow'] at hsame
          exact hsame
      · refine Or.inr ⟨(clock, data), ?_, hnew⟩
        rw [flowPackets_snoc]
        apply List.mem_append_right
        have hof : NfqEvent.ofFlow (dataFlow data) (.packet clock data) = some (clock, data) :=
          if_pos ⟨htcp, rfl⟩
        rw [hof]
        exact List.mem_singleton_self _
  · rw [monitorTcpStats_frame pool clock (ipHdr data) (tcpHdr data) hslot]
    exact hsame

theorem Started.noted {run : List NfqEvent} {pool pool' : ConnPool} (h : Started run pool)
    (hnoted : ∀ i, (pool i).Noted (pool' i)) : Started run pool' := by
  intro i
  rw [(hnoted i).httpStartTime, (hnoted i).flow]
  exact h i

/-! ### A flow the timeout cannot touch -/

/-- The flow owns its entry, and the entry is complete or already blocked. -/
def FlowSettled (f : TcpFlow) (pool : ConnPool) : Prop :=
  (pool f.slot).ownedBy f = true ∧
    ((pool f.slot).isHttpComplete = true ∨ (pool f.slot).isBlocked = true)

theorem FlowSettled.noted {f : TcpFlow} {pool pool' : ConnPool} (h : FlowSettled f pool)
    (hnoted : ∀ i, (pool i).Noted (pool' i)) : FlowSettled f pool' := by
  have hn := hnoted f.slot
  refine ⟨?_, h.2.imp hn.isHttpComplete hn.isBlocked.trans⟩
  rw [ConnState.ownedBy_iff, hn.srcIp, hn.srcPort]
  exact ConnState.ownedBy_iff.mp h.1

/-- Its own packets keep it so, unless they close it, and none times out. -/
theorem FlowSettled.own_packet {f : TcpFlow} {pool : ConnPool} (h : FlowSettled f pool)
    (clock : Clock) {iph : IpHdr} {tcph : TcpHdr} (hflow : tcpFlowOf iph tcph = f) :
    (monitorTcpStats pool clock iph tcph).judged ≠ .timeout ∧
      (tcph.fin = false → tcph.rst = false →
        FlowSettled f (monitorTcpStats pool clock iph tcph).pool) := by
  subst hflow
  have hown := ConnState.claim_of_ownedBy clock.jiffies h.1
  obtain ⟨hclose, hjudged, -⟩ | ⟨-, -, -, -, hclaim⟩ |
      ⟨-, -, conn, conn', hclaim, hfollows, hpool, hverdict⟩ :=
    monitorTcpStats_cases pool clock iph tcph
  · rw [hjudged]
    refine ⟨nofun, fun hfin hrst => ?_⟩
    rw [hfin, hrst] at hclose
    simp at hclose
  · rw [hown] at hclaim
    cases hclaim
  · rw [hown] at hclaim
    obtain rfl := Option.some.inj hclaim
    constructor
    · intro htimeout
      obtain ⟨hblocked, hcomplete, -⟩ := hverdict.timeout htimeout
      rcases h.2 with hc | hb
      · exact Bool.false_ne_true (hcomplete.symm.trans hc)
      · exact Bool.false_ne_true (hblocked.symm.trans hb)
    · intro _ _
      rw [FlowSettled, hpool, Function.update_self]
      exact ⟨hfollows.ownedBy h.1, h.2.imp hfollows.isHttpComplete.trans hfollows.isBlocked⟩

/-- The event carries the end of the header by itself, and finds the flow's
entry: the slot is its own, free, or idle. -/
def NfqEvent.Completes (host : Host) (f : TcpFlow) (pool : ConnPool) : NfqEvent → Prop
  | .push _ => False
  | .packet clock data =>
      reachesMonitor host data = true ∧ dataFlow data = f ∧
        (tcpHdr data).fin = false ∧ (tcpHdr data).rst = false ∧
        ntohs (tcpHdr data).dest = 80 ∧ headerEnd <:+: scannedPart data ∧
        ((pool f.slot).ownedBy f = true ∨ (pool f.slot).reclaimable clock.jiffies = true)

/-- The event gives the entry up: the flow closes, or another one takes the
slot over. -/
def NfqEvent.Evicts (host : Host) (f : TcpFlow) (pool : ConnPool) : NfqEvent → Prop
  | .push _ => False
  | .packet clock data =>
      reachesMonitor host data = true ∧
        (dataFlow data = f ∧ ((tcpHdr data).fin = true ∨ (tcpHdr data).rst = true) ∨
          dataFlow data ≠ f ∧ (dataFlow data).slot = f.slot ∧
            (pool f.slot).reclaimable clock.jiffies = true)

/-- A payload that holds something is not empty by its headers. -/
theorem payloadLen_pos_of_headerEnd {data : List UInt8} (h : headerEnd <:+: scannedPart data) :
    payloadLen (ipHdr data) (tcpHdr data) > 0 := by
  have hlen := h.length_le
  unfold scannedPart payloadOf at hlen
  simp only [List.length_take] at hlen
  have hfour : headerEnd.length = 4 := rfl
  omega

/-- Telling the monitor that the request is complete settles the flow. -/
theorem flowSettled_registerHttp {pool : ConnPool} {data : List UInt8}
    (hown : (pool (dataFlow data).slot).ownedBy (dataFlow data) = true)
    (h : headerEnd <:+: scannedPart data) : FlowSettled (dataFlow data) (registerHttp pool data) := by
  rw [FlowSettled, registerHttp_of_owned hown, Function.update_self]
  refine ⟨hown, Or.inl ?_⟩
  unfold ConnState.registered
  dsimp only
  rw [kStrstr_iff.mpr h, Bool.or_true]

section Daemon

variable {shl : BitVec 8 → BitVec 32} {host : Host} {det : Detectors} {f : TcpFlow}

/-- Such a packet settles its flow: either the monitor blocks it, or the
inspector gets to see it. -/
theorem NfqEvent.Completes.settles {s : PathState} {e : NfqEvent}
    (h : e.Completes host f s.pool) : FlowSettled f (nfqStep shl host det s e).1.pool := by
  cases e with
  | push payload => exact h.elim
  | packet clock data =>
      obtain ⟨hreach, rfl, hfin, hrst, hport, hend, hslot⟩ := h
      rw [(nfqStep_of_reaches hreach s).1]
      obtain ⟨hclose, -, -⟩ | ⟨-, -, -, -, hclaim⟩ |
          ⟨-, -, conn, conn', hclaim, hfollows, hpool, hverdict⟩ :=
        monitorTcpStats_cases s.pool clock (ipHdr data) (tcpHdr data)
      · rw [hfin, hrst] at hclose
        simp at hclose
      · change (s.pool (dataFlow data).slot).claim clock.jiffies (ipHdr data) (tcpHdr data)
          = none at hclaim
        rcases hslot with hown | hreclaim
        · rw [ConnState.claim_of_ownedBy clock.jiffies hown] at hclaim
          cases hclaim
        · rw [ConnState.claim, hreclaim, if_pos rfl] at hclaim
          split at hclaim <;> cases hclaim
      · have hentry : (monitorTcpStats s.pool clock (ipHdr data) (tcpHdr data)).pool
            (dataFlow data).slot = conn' := by
          rw [hpool]
          exact Function.update_self ..
        have hown : ((monitorTcpStats s.pool clock (ipHdr data) (tcpHdr data)).pool
            (dataFlow data).slot).ownedBy (dataFlow data) = true := by
          rw [hentry]
          exact hfollows.ownedBy (ConnState.ownedBy_of_claim hclaim)
        by_cases hdrop : (monitorTcpStats s.pool clock (ipHdr data) (tcpHdr data)).judged.drop = true
        · have hblocked : FlowSettled (dataFlow data)
              (monitorTcpStats s.pool clock (ipHdr data) (tcpHdr data)).pool := by
            refine ⟨hown, Or.inr ?_⟩
            rw [hentry, ← hverdict.drop]
            exact hdrop
          exact hblocked.noted (checkedPool_noted s.pool clock data)
        · have hchecked : checkedPool s.pool clock data = registerHttp
              (monitorTcpStats s.pool clock (ipHdr data) (tcpHdr data)).pool data :=
            if_pos ⟨Bool.eq_false_iff.mpr hdrop, hport, payloadLen_pos_of_headerEnd hend⟩
          rw [hchecked]
          exact flowSettled_registerHttp hown hend

/-- An event that does not give the entry up keeps the flow settled. -/
theorem FlowSettled.step {s : PathState} {e : NfqEvent} (h : FlowSettled f s.pool)
    (he : ¬ e.Evicts host f s.pool) : FlowSettled f (nfqStep shl host det s e).1.pool := by
  cases e with
  | push payload => exact h
  | packet clock data =>
      by_cases hreach : reachesMonitor host data = true
      · rw [(nfqStep_of_reaches hreach s).1]
        apply FlowSettled.noted _ (checkedPool_noted s.pool clock data)
        by_cases hflow : dataFlow data = f
        · refine (h.own_packet clock hflow).2 ?_ ?_
          · exact Bool.eq_false_iff.mpr fun hfin => he ⟨hreach, Or.inl ⟨hflow, Or.inl hfin⟩⟩
          · exact Bool.eq_false_iff.mpr fun hrst => he ⟨hreach, Or.inl ⟨hflow, Or.inr hrst⟩⟩
        · have hentry := monitorTcpStats_other_flow h.1 clock hflow fun hslot =>
            Bool.eq_false_iff.mpr fun hreclaim => he ⟨hreach, Or.inr ⟨hflow, hslot, hreclaim⟩⟩
          rw [FlowSettled, hentry]
          exact h
      · rw [(nfqStep_of_not_reaches (Bool.eq_false_iff.mpr hreach) s).1]
        exact h

theorem FlowSettled.run {s : PathState} {run : List NfqEvent} (h : FlowSettled f s.pool)
    (hrun : Along (nfqStep shl host det) (fun s e => ¬ e.Evicts host f s.pool) s run) :
    FlowSettled f (exec (nfqStep shl host det) s run).1.pool :=
  Along.invariant (fun s => FlowSettled f s.pool) (fun _ _ hs he => hs.step he) h hrun

theorem started_nfqAfter (fw : Firewall) (run : List NfqEvent) :
    Started run (nfqAfter shl host det fw run).pool := by
  induction run using List.reverseRecOn with
  | nil => exact fun _ => Or.inl rfl
  | append_singleton run e ih =>
      have hafter : nfqAfter shl host det fw (run ++ [e])
          = (nfqStep shl host det (nfqAfter shl host det fw run) e).1 := exec_snoc _ run e
      rw [hafter]
      cases e with
      | push payload => exact ih.same _ rfl
      | packet clock data =>
          by_cases hreach : reachesMonitor host data = true
          · rw [(nfqStep_of_reaches hreach _).1]
            exact (ih.packet clock (of_decide_eq_true hreach).1).noted (checkedPool_noted _ _ _)
          · exact ih.same _ (nfqStep_of_not_reaches (Bool.eq_false_iff.mpr hreach) _).1

/-- While no packet of the flow is older than 30 s, none times out. -/
theorem not_timeout_of_young {run : List NfqEvent} {pool : ConnPool} (h : Started run pool)
    {clock : Clock} {data : List UInt8}
    (hyoung : ∀ p ∈ flowPackets (dataFlow data) run,
      clock.millis.toNat ≤ p.1.millis.toNat + 30000) :
    (monitorTcpStats pool clock (ipHdr data) (tcpHdr data)).judged ≠ .timeout := by
  intro htimeout
  obtain ⟨-, hjudged, -⟩ | ⟨-, -, hjudged, -, -⟩ |
      ⟨-, -, conn, conn', hclaim, hfollows, -, hverdict⟩ :=
    monitorTcpStats_cases pool clock (ipHdr data) (tcpHdr data)
  · cases hjudged.symm.trans htimeout
  · cases hjudged.symm.trans htimeout
  · obtain ⟨-, -, hstarted, hlate⟩ := hverdict.timeout htimeout
    have hnow := isMoment_jiffies clock
    -- a start at `t` is 30 s ago
    have hfrom : ∀ {t : BitVec 64}, conn'.httpStartTime = t → IsMoment t →
        t.toNat + 3000 < clock.jiffies.toNat := by
      intro t ht hmoment
      rw [ht] at hlate
      exact (secondsAfter_iff hnow hmoment (by decide)).mp hlate
    rcases hfollows.httpStartTime with hold | ⟨-, hnew⟩
    · have hset : conn.httpStartTime ≠ 0 := by
        intro hzero
        have hlate0 := hfrom (hold.trans hzero) isMoment_zero
        rw [hstarted (hold.trans hzero)] at hlate0
        exact absurd hlate0 (Nat.not_lt_zero _)
      rcases ConnState.httpStartTime_of_claim hclaim with hzero | rfl
      · exact absurd hzero hset
      · rcases h (tcpFlowOf (ipHdr data) (tcpHdr data)).slot with hzero | ⟨p, hp, hstart⟩
        · exact absurd hzero hset
        · have hflow := ConnState.ownedBy_iff.mp (ConnState.ownedBy_of_claim hclaim)
          change ConnState.flow _ = dataFlow data at hflow
          rw [hflow] at hp
          have hp' := hfrom (hold.trans hstart) (isMoment_jiffies p.1)
          rw [toNat_jiffies, toNat_jiffies] at hp'
          have := hyoung p hp
          omega
    · have := hfrom hnew hnow
      omega

end Daemon

/-! ### When the header spares a flow -/

section Daemon

variable (shl : BitVec 8 → BitVec 32) (host : Host) (det : Detectors) (fw : Firewall)

/-- Before a packet of the flow: either no earlier one is older than 30 s, or
one of them carried the end of the header by itself, and the entry has not been
given up since. -/
def Spared (f : TcpFlow) (before : List NfqEvent) (clock : Clock) : Prop :=
  (∀ p ∈ flowPackets f before, clock.millis.toNat ≤ p.1.millis.toNat + 30000) ∨
    ∃ a e b, before = a ++ e :: b ∧ e.Completes host f (nfqAfter shl host det fw a).pool ∧
      Along (nfqStep shl host det) (fun s e => ¬ e.Evicts host f s.pool)
        (nfqAfter shl host det fw (a ++ [e])) b

variable {shl host det fw}

theorem Spared.not_timeout {f : TcpFlow} {before : List NfqEvent} {clock : Clock}
    {data : List UInt8} (h : Spared shl host det fw f before clock)
    (hreach : reachesMonitor host data = true) (hflow : dataFlow data = f) :
    (nfqStep shl host det (nfqAfter shl host det fw before) (.packet clock data)).2
      ≠ some .timeout := by
  rw [(nfqStep_of_reaches hreach _).2]
  intro htimeout
  apply absurd (Option.some.inj htimeout)
  rcases h with hyoung | ⟨a, e, b, rfl, hcompletes, hkept⟩
  · subst hflow
    exact not_timeout_of_young (started_nfqAfter fw before) hyoung
  · have hsettled : FlowSettled f (nfqAfter shl host det fw (a ++ [e])).pool := by
      rw [nfqAfter, exec_snoc]
      exact hcompletes.settles
    have hrun := hsettled.run hkept
    have hafter : nfqAfter shl host det fw (a ++ e :: b)
        = (exec (nfqStep shl host det) (nfqAfter shl host det fw (a ++ [e])) b).1 := by
      rw [List.append_cons, nfqAfter, exec_append]
      rfl
    rw [← hafter] at hrun
    exact (hrun.own_packet clock hflow).1

/-- **A complete header spares its flow** in every run in which each packet of
the flow that gets to the monitor after the completion, and does not close the
flow, meets `Spared`. -/
theorem headerSpares_of_spared (f : TcpFlow) (run : List NfqEvent)
    (h : ∀ before clock data after, run = before ++ .packet clock data :: after →
      reachesMonitor host data = true → (tcpHdr data).fin = false → (tcpHdr data).rst = false →
      dataFlow data = f → CompletedInTime f before → Spared shl host det fw f before clock) :
    HeaderSpares shl host det fw f run := by
  intro _ before e after hrun he hcompleted
  cases e with
  | push payload => exact nofun
  | packet clock data =>
      have hof : isTcp data = true ∧ dataFlow data = f := by
        by_contra hno
        rw [NfqEvent.ofFlow, if_neg hno] at he
        cases he
      by_cases hreach : reachesMonitor host data = true
      · by_cases hclose : (tcpHdr data).fin = true ∨ (tcpHdr data).rst = true
        · rw [(nfqStep_of_reaches hreach _).2, monitorTcpStats_of_closing hclose]
          exact nofun
        · have hfin := Bool.eq_false_iff.mpr fun h => hclose (Or.inl h)
          have hrst := Bool.eq_false_iff.mpr fun h => hclose (Or.inr h)
          exact (h before clock data after hrun hreach hfin hrst hof.2 hcompleted).not_timeout
            hreach hof.2
      · rw [(nfqStep_of_not_reaches (Bool.eq_false_iff.mpr hreach) _).2]
        exact nofun

end Daemon

/-- A segment of a connection from 8.8.8.8 to port 80. -/
def httpPacket (payload : List UInt8) : List UInt8 :=
  [0x45, 0, 0, UInt8.ofNat (40 + payload.length), 0, 0, 0, 0, 64, 6, 0, 0,
    8, 8, 8, 8, 10, 0, 0, 1] ++
  [0x30, 0x39, 0, 80, 0, 0, 0, 1, 0, 0, 0, 0, 0x50, 0x10, 0x20, 0, 0, 0, 0, 0] ++ payload

/-- A request in one segment, and an empty one 39 s later. -/
def wholeRequest : List NfqEvent :=
  [.packet ⟨1000, 1⟩ (httpPacket (str "GET / HTTP/1.1\r\n\r\n")), .packet ⟨40000, 40⟩ (httpPacket [])]

/-- The same request, cut before its last byte. -/
def splitRequest : List NfqEvent :=
  [.packet ⟨1000, 1⟩ (httpPacket (str "GET / HTTP/1.1\r\n\r")),
    .packet ⟨1100, 1⟩ (httpPacket (str "\n")), .packet ⟨40000, 40⟩ (httpPacket [])]

def httpFlow : TcpFlow := dataFlow (httpPacket [])

/-- In one piece, the request spares its flow. -/
theorem headerSpares_wholeRequest :
    HeaderSpares (fun _ => 0) ⟨false, 0⟩ noDetectors Firewall.init httpFlow wholeRequest := by
  apply headerSpares_of_spared
  intro before clock data after hrun _ _ _ _ _
  rcases before with _ | ⟨e, _ | ⟨e', before⟩⟩
  · exact Or.inl nofun
  · obtain ⟨rfl, -⟩ := List.cons.inj hrun
    refine Or.inr ⟨[], _, [], rfl, ?_, trivial⟩
    refine ⟨by decide, by decide, by decide, by decide, by decide, by decide, Or.inr ?_⟩
    decide
  · have hlen := congrArg List.length hrun
    simp [wholeRequest] at hlen

/-- Cut before its last byte, it does not, whatever the detectors: the header
is complete after 0.1 s, and the flow is blocked by the timeout. -/
theorem split_header_times_out :
    ¬ ∃ det, HeaderSpares (fun _ => 0) ⟨false, 0⟩ det Firewall.init httpFlow splitRequest := by
  rintro ⟨det, h⟩
  have hport : ToMonitoredPort httpFlow splitRequest := by
    refine ⟨80, Or.inl rfl, ?_⟩
    decide
  have hcompleted : CompletedInTime httpFlow (splitRequest.take 2) := by
    refine ⟨splitRequest.take 2, List.prefix_rfl, by decide, by decide⟩
  refine h hport (splitRequest.take 2) (.packet ⟨40000, 40⟩ (httpPacket [])) [] rfl (by decide)
    hcompleted ?_
  have hpool : (nfqAfter (fun _ => 0) ⟨false, 0⟩ det Firewall.init (splitRequest.take 2)).pool
      = checkedPool (checkedPool initConnPool ⟨1000, 1⟩
          (httpPacket (str "GET / HTTP/1.1\r\n\r"))) ⟨1100, 1⟩ (httpPacket (str "\n")) := by
    have hrun : splitRequest.take 2
        = [] ++ [.packet ⟨1000, 1⟩ (httpPacket (str "GET / HTTP/1.1\r\n\r"))] ++
          [.packet ⟨1100, 1⟩ (httpPacket (str "\n"))] := rfl
    rw [hrun, nfqAfter_snoc_pool, nfqAfter_snoc_pool]
    · rfl
    · decide
    · decide
  have hreach : reachesMonitor ⟨false, 0⟩ (httpPacket []) = true := by decide
  rw [(nfqStep_of_reaches hreach _).2, hpool]
  decide +kernel

end Nullsploit
