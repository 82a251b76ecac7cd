/-
Nullsploit/SynFlood.lean

SYN floods, over whole runs of the monitor.  The entry of a flow is a counter in
tumbling windows: `ConnState.Shows` ties `syn_window_start`, `syn_count` and
`is_blocked` to the `Meter` of the flow's packets, and one packet feeds both
alike (`synFlood_shows`).

A flow that shares its slot with no other one is therefore accounted exactly
(`syn_accounting`): its packets are dropped from the window on that holds more
than a hundred SYNs, with one event for each such window.
-/
import Nullsploit.FlowPool
import Nullsploit.TumblingWindow

namespace Nullsploit

open Runs CText TumblingWindow

/-! ### The events of a run -/

/-- A call, with the events it sends. -/
def alertStep (pool : ConnPool) : PoolCall → ConnPool × List FwEvent
  | .packet clock iph tcph =>
      let r := monitorTcpStats pool clock iph tcph
      (r.pool, r.events)
  | .headerSent ip port => (registerHttpHeaderSent pool ip port, [])
  | .complete ip port => (registerHttpComplete pool ip port, [])

/-- The events of a run that began with an empty pool. -/
def alertsOf (calls : List PoolCall) : List FwEvent :=
  (exec alertStep initConnPool calls).2.flatten

theorem alertStep_fst (pool : ConnPool) (c : PoolCall) :
    (alertStep pool c).1 = (poolStep pool c).1 := by
  cases c <;> rfl

theorem exec_alertStep (calls : List PoolCall) :
    (exec alertStep initConnPool calls).1 = poolAfter calls := by
  induction calls using List.reverseRecOn with
  | nil => rfl
  | append_singleton calls c ih => rw [exec_snoc, poolAfter_snoc, ih, alertStep_fst]

theorem alertsOf_snoc (calls : List PoolCall) (c : PoolCall) :
    alertsOf (calls ++ [c]) = alertsOf calls ++ (alertStep (poolAfter calls) c).2 := by
  rw [alertsOf, exec_append, exec_alertStep, List.flatten_append]
  show alertsOf calls ++ [(alertStep (poolAfter calls) c).2].flatten = _
  rw [List.flatten_singleton]

/-- The event is a SYN flood of the flow. -/
def FwEvent.isFloodOf (f : TcpFlow) (e : FwEvent) : Bool :=
  e.threatType = threatSynFlood ∧ e.srcIp = f.ip ∧ e.srcPort = f.port

/-- How many SYN floods of the flow were reported. -/
def floodAlerts (f : TcpFlow) (calls : List PoolCall) : Nat :=
  (alertsOf calls).countP (FwEvent.isFloodOf f)

theorem floodAlerts_snoc (f : TcpFlow) (calls : List PoolCall) (c : PoolCall) :
    floodAlerts f (calls ++ [c])
      = floodAlerts f calls + (alertStep (poolAfter calls) c).2.countP (FwEvent.isFloodOf f) := by
  rw [floodAlerts, alertsOf_snoc, List.countP_append]
  rfl

/-- The event of a packet names the packet's flow. -/
theorem isFloodOf_monitorEvent (f : TcpFlow) (clock : Clock) (iph : IpHdr) (tcph : TcpHdr)
    (threatType severity : UInt8) (preview details : List UInt8) :
    (monitorEvent clock iph tcph threatType severity preview details).isFloodOf f
      = decide (threatType = threatSynFlood ∧ tcpFlowOf iph tcph = f) := by
  obtain ⟨ip, port⟩ := f
  simp [FwEvent.isFloodOf, monitorEvent, tcpFlowOf]

/-- A packet of another flow reports nothing of this one. -/
theorem floods_of_ne {f : TcpFlow} (pool : ConnPool) (clock : Clock) {iph : IpHdr} {tcph : TcpHdr}
    (hne : tcpFlowOf iph tcph ≠ f) :
    (monitorTcpStats pool clock iph tcph).events.countP (FwEvent.isFloodOf f) = 0 := by
  have hother : ∀ threatType severity preview details,
      (monitorEvent clock iph tcph threatType severity preview details).isFloodOf f = false := by
    intro threatType severity preview details
    rw [isFloodOf_monitorEvent, decide_eq_false_iff_not]
    exact fun h => hne h.2
  have hsyn : ∀ conn : ConnState,
      (conn.synFlood clock iph tcph).2.countP (FwEvent.isFloodOf f) = 0 := by
    intro conn
    rw [ConnState.synFlood]
    split
    · split
      · rfl
      · dsimp only
        split
        · split
          · rw [List.countP_singleton, hother]
            rfl
          · rfl
        · rfl
    · rfl
  by_cases hclose : tcph.fin = true ∨ tcph.rst = true
  · rw [monitorTcpStats_of_closing hclose]
    rfl
  rcases hclaim : (pool (tcpFlowOf iph tcph).slot).claim clock.jiffies iph tcph with _ | conn
  · rw [monitorTcpStats_of_collision hclose hclaim]
    rfl
  rw [monitorTcpStats_of_claim hclose hclaim]
  have hjudged := judge_judgedAs pool conn clock iph tcph
  generalize judge pool conn clock iph tcph = r at hjudged
  cases hjudged with
  | blocked => exact hsyn _
  | clear => exact hsyn _
  | maxSockets =>
      rw [List.countP_append, hsyn, List.countP_singleton, hother]
      rfl
  | timeout =>
      rw [List.countP_append, hsyn]
      split
      · rw [List.countP_singleton, hother]
        rfl
      · rfl
  | waiting => exact hsyn _

/-! ### A packet in the counter -/

/-- A packet as the SYN counter sees it. -/
def arrivalOf (clock : Clock) (tcph : TcpHdr) : Arrival :=
  ⟨clock.jiffies.toNat, tcph.syn && !tcph.ack⟩

/-- The packets of a flow. -/
def PoolCall.arrival (f : TcpFlow) : PoolCall → Option Arrival
  | .packet clock iph tcph => if tcpFlowOf iph tcph = f then some (arrivalOf clock tcph) else none
  | _ => none

def arrivals (f : TcpFlow) (calls : List PoolCall) : List Arrival :=
  calls.filterMap (PoolCall.arrival f)

theorem PoolCall.arrival_eq_some {f : TcpFlow} {c : PoolCall} {a : Arrival} :
    c.arrival f = some a ↔ ∃ clock iph tcph, c = .packet clock iph tcph ∧ tcpFlowOf iph tcph = f ∧
      a = arrivalOf clock tcph := by
  cases c with
  | packet clock iph tcph =>
      show (if tcpFlowOf iph tcph = f then some (arrivalOf clock tcph) else none) = some a ↔ _
      split
      · rename_i hflow
        constructor
        · intro h
          exact ⟨clock, iph, tcph, rfl, hflow, (Option.some.inj h).symm⟩
        · rintro ⟨clock', iph', tcph', heq, -, rfl⟩
          obtain ⟨rfl, rfl, rfl⟩ := PoolCall.packet.inj heq
          rfl
      · rename_i hflow
        refine iff_of_false nofun ?_
        rintro ⟨clock', iph', tcph', heq, hflow', -⟩
        obtain ⟨rfl, rfl, rfl⟩ := PoolCall.packet.inj heq
        exact hflow hflow'
  | headerSent ip port => exact iff_of_false nofun nofun
  | complete ip port => exact iff_of_false nofun nofun

theorem arrivals_snoc (f : TcpFlow) (calls : List PoolCall) (c : PoolCall) :
    arrivals f (calls ++ [c]) = arrivals f calls ++ (c.arrival f).toList := by
  rw [arrivals, List.filterMap_append]
  cases h : c.arrival f <;> simp [h, arrivals]

/-- An entry whose flow and SYN counter stay. -/
structure ConnState.CountsAs (conn conn' : ConnState) : Prop where
  srcIp : conn'.srcIp = conn.srcIp
  srcPort : conn'.srcPort = conn.srcPort
  synWindowStart : conn'.synWindowStart = conn.synWindowStart
  synCount : conn'.synCount = conn.synCount
  isBlocked : conn'.isBlocked = conn.isBlocked

theorem ConnState.CountsAs.refl (conn : ConnState) : conn.CountsAs conn :=
  ⟨rfl, rfl, rfl, rfl, rfl⟩

theorem ConnState.CountsAs.update {pool : ConnPool} {j : Fin maxTrackedConns} {conn : ConnState}
    (h : (pool j).CountsAs conn) (i : Fin maxTrackedConns) :
    (pool i).CountsAs (Function.update pool j conn i) := by
  revert i
  rw [Function.forall_update_iff pool fun i conn' => (pool i).CountsAs conn']
  exact ⟨h, fun i _ => .refl _⟩

theorem ConnState.seen_countsAs (conn : ConnState) (now : BitVec 64) (iph : IpHdr) (tcph : TcpHdr) :
    conn.CountsAs (conn.seen now iph tcph) := by
  rw [ConnState.seen]
  split
  · exact ⟨rfl, rfl, rfl, rfl, rfl⟩
  · exact ⟨rfl, rfl, rfl, rfl, rfl⟩

/-- The entry shows the counter. -/
structure ConnState.Shows (m : Meter) (conn : ConnState) : Prop where
  moment : IsMoment conn.synWindowStart
  start : conn.synWindowStart.toNat = m.start
  count : conn.synCount.toNat = m.count
  tripped : conn.isBlocked = m.tripped

theorem ConnState.Shows.countsAs {m : Meter} {conn conn' : ConnState} (h : conn.Shows m)
    (hsame : conn.CountsAs conn') : conn'.Shows m where
  moment := hsame.synWindowStart ▸ h.moment
  start := hsame.synWindowStart ▸ h.start
  count := hsame.synCount ▸ h.count
  tripped := hsame.isBlocked ▸ h.tripped

theorem ConnState.shows_fresh (clock : Clock) (iph : IpHdr) (tcph : TcpHdr) :
    (ConnState.fresh clock.jiffies iph tcph).Shows (.start0 clock.jiffies.toNat) :=
  ⟨isMoment_jiffies clock, rfl, rfl, rfl⟩

/-- **One packet feeds entry and counter alike**, and is reported when the counter
raises an alarm. -/
theorem synFlood_shows {m : Meter} {conn : ConnState} (h : conn.Shows m) (clock : Clock)
    (iph : IpHdr) (tcph : TcpHdr) (hroom : m.count + 1 < 2 ^ 32) :
    (conn.synFlood clock iph tcph).1.Shows
        (m.feed hz synFloodThreshold (arrivalOf clock tcph)) ∧
      m.alarms + (conn.synFlood clock iph tcph).2.countP (FwEvent.isFloodOf (tcpFlowOf iph tcph))
        = (m.feed hz synFloodThreshold (arrivalOf clock tcph)).alarms := by
  have hcounted : (arrivalOf clock tcph).counted = true ↔ tcph.syn = true ∧ tcph.ack = false := by
    show (tcph.syn && !tcph.ack) = true ↔ _
    rw [Bool.and_eq_true, Bool.not_eq_true']
  have hlate : secondsAfter 1 clock.jiffies conn.synWindowStart = true
      ↔ m.start + hz < (arrivalOf clock tcph).time := by
    rw [secondsAfter_iff (isMoment_jiffies clock) h.moment (by decide), h.start]
    rfl
  -- no wrap of the 32 bit counter
  have hnext : (conn.synCount + 1).toNat = m.count + 1 := by
    rw [BitVec.toNat_add, h.count]
    exact Nat.mod_eq_of_lt hroom
  rw [ConnState.synFlood, Meter.feed]
  by_cases hsyn : tcph.syn = true ∧ tcph.ack = false
  · rw [if_pos hsyn, if_pos (hcounted.mpr hsyn)]
    by_cases hwindow : secondsAfter 1 clock.jiffies conn.synWindowStart = true
    · rw [if_pos hwindow, if_pos (hlate.mp hwindow)]
      exact ⟨⟨isMoment_jiffies clock, rfl, rfl, h.tripped⟩, rfl⟩
    · rw [if_neg hwindow, if_neg fun hl => hwindow (hlate.mpr hl)]
      dsimp only
      rw [hnext]
      by_cases hexceeds : synFloodThreshold < m.count + 1
      · rw [if_pos hexceeds, if_pos hexceeds]
        refine ⟨⟨h.moment, h.start, hnext, rfl⟩, ?_⟩
        -- `syn_count == SYN_FLOOD_THRESHOLD + 1` holds once in a window
        show _ = if m.count = synFloodThreshold then m.alarms + 1 else m.alarms
        by_cases hfirst : m.count = synFloodThreshold
        · rw [if_pos hfirst, if_pos (congrArg (· + 1) hfirst), List.countP_singleton,
            isFloodOf_monitorEvent, if_pos (decide_eq_true ⟨rfl, rfl⟩)]
        · rw [if_neg hfirst, if_neg fun heq => hfirst (Nat.succ.inj heq)]
          rfl
      · rw [if_neg hexceeds, if_neg hexceeds]
        exact ⟨⟨h.moment, h.start, hnext, h.tripped⟩, rfl⟩
  · rw [if_neg hsyn, if_neg fun hc => hsyn (hcounted.mp hc)]
    exact ⟨h, rfl⟩

/-! ### A slot of its own -/

/-- Away from ports 80 and 443 a packet is only counted. -/
theorem judge_of_unmonitored (pool : ConnPool) (conn : ConnState) (clock : Clock) (iph : IpHdr)
    {tcph : TcpHdr} (hport : monitoredPort tcph = false) :
    judge pool conn clock iph tcph
      = ⟨Function.update pool (tcpFlowOf iph tcph).slot
          ((conn.seen clock.jiffies iph tcph).synFlood clock iph tcph).1,
          if ((conn.seen clock.jiffies iph tcph).synFlood clock iph tcph).1.isBlocked then .blocked
          else .passed,
          ((conn.seen clock.jiffies iph tcph).synFlood clock iph tcph).2⟩ := by
  rw [judge]
  generalize (conn.seen clock.jiffies iph tcph).synFlood clock iph tcph = r
  obtain ⟨c, events⟩ := r
  dsimp only
  split
  · rfl
  · rw [if_neg fun h => Bool.false_ne_true (hport.symm.trans h.1)]
    rfl

/-- The flow has its slot for itself: its own packets go to other ports than 80
and 443 and close nothing, those of other flows hash elsewhere. -/
def PoolCall.Apart (f : TcpFlow) : PoolCall → Prop
  | .packet _ iph tcph =>
      if tcpFlowOf iph tcph = f then
        monitoredPort tcph = false ∧ tcph.fin = false ∧ tcph.rst = false
      else (tcpFlowOf iph tcph).slot ≠ f.slot
  | _ => True

/-- Entry, events and counter of the flow agree; before its first packet the slot
is free. -/
def Accounted (f : TcpFlow) (calls : List PoolCall) : Option Meter → Prop
  | none => (poolAfter calls f.slot).srcIp = 0 ∧ floodAlerts f calls = 0
  | some m => (poolAfter calls f.slot).ownedBy f = true ∧ (poolAfter calls f.slot).Shows m ∧
      floodAlerts f calls = m.alarms

/-- The entry that a packet of the flow goes on with shows the counter. -/
theorem Accounted.claim {calls : List PoolCall} {m : Option Meter} (clock : Clock) {iph : IpHdr}
    {tcph : TcpHdr} (hip : (tcpFlowOf iph tcph).ip ≠ 0)
    (h : Accounted (tcpFlowOf iph tcph) calls m) :
    ∃ conn, (poolAfter calls (tcpFlowOf iph tcph).slot).claim clock.jiffies iph tcph = some conn ∧
      conn.Shows (m.getD (.start0 clock.jiffies.toNat)) ∧
      floodAlerts (tcpFlowOf iph tcph) calls = (m.getD (.start0 clock.jiffies.toNat)).alarms := by
  cases m with
  | none =>
      obtain ⟨hfree, halerts⟩ := h
      refine ⟨_, ?_, ConnState.shows_fresh clock iph tcph, halerts⟩
      -- a free slot belongs to address 0, so it is not the flow's
      have hother : (poolAfter calls (tcpFlowOf iph tcph).slot).ownedBy (tcpFlowOf iph tcph)
          = false := by
        refine Bool.eq_false_iff.mpr fun howned => hip ?_
        rw [← ConnState.ownedBy_iff.mp howned]
        exact hfree
      have hreclaim : (poolAfter calls (tcpFlowOf iph tcph).slot).reclaimable clock.jiffies
          = true := decide_eq_true (Or.inl hfree)
      rw [ConnState.claim, hother, hreclaim, if_neg Bool.false_ne_true, if_pos rfl]
  | some m =>
      obtain ⟨howned, hshows, halerts⟩ := h
      exact ⟨_, ConnState.claim_of_ownedBy _ howned, hshows, halerts⟩

/-- A packet of the flow: it is dropped if the counter is over the limit with it. -/
theorem Accounted.own_packet {calls : List PoolCall} {m : Option Meter} (clock : Clock)
    {iph : IpHdr} {tcph : TcpHdr} (hip : (tcpFlowOf iph tcph).ip ≠ 0)
    (h : Accounted (tcpFlowOf iph tcph) calls m)
    (hquiet : monitoredPort tcph = false ∧ tcph.fin = false ∧ tcph.rst = false)
    (hroom : (m.getD (.start0 clock.jiffies.toNat)).count + 1 < 2 ^ 32) :
    Accounted (tcpFlowOf iph tcph) (calls ++ [.packet clock iph tcph])
        (some ((m.getD (.start0 clock.jiffies.toNat)).feed hz synFloodThreshold
          (arrivalOf clock tcph))) ∧
      (monitorTcpStats (poolAfter calls) clock iph tcph).judged.drop
        = ((m.getD (.start0 clock.jiffies.toNat)).feed hz synFloodThreshold
          (arrivalOf clock tcph)).tripped := by
  obtain ⟨hport, hfin, hrst⟩ := hquiet
  obtain ⟨conn, hclaim, hshows, halerts⟩ := h.claim clock hip
  -- from here on a first packet is like any other
  generalize m.getD (.start0 clock.jiffies.toNat) = m at hroom hshows halerts
  have hclose : ¬ (tcph.fin = true ∨ tcph.rst = true) := by
    rw [hfin, hrst]
    simp
  obtain ⟨hshows', hevents⟩ :=
    synFlood_shows (hshows.countsAs (conn.seen_countsAs clock.jiffies iph tcph)) clock iph tcph hroom
  have howned := ConnState.Follows.ownedBy (.seen_synFlood conn clock iph tcph)
    (ConnState.ownedBy_of_claim hclaim)
  have hcall := (monitorTcpStats_of_claim hclose hclaim).trans
    (judge_of_unmonitored (poolAfter calls) conn clock iph hport)
  rw [Accounted, floodAlerts_snoc, poolAfter_snoc, alertStep, poolStep, hcall, halerts]
  dsimp only
  rw [Function.update_self, ← hshows'.tripped]
  refine ⟨⟨howned, hshows', hevents⟩, ?_⟩
  cases ((conn.seen clock.jiffies iph tcph).synFlood clock iph tcph).1.isBlocked <;> rfl

theorem registerHttpHeaderSent_countsAs (pool : ConnPool) (ip : BitVec 32) (port : BitVec 16)
    (i : Fin maxTrackedConns) : (pool i).CountsAs (registerHttpHeaderSent pool ip port i) := by
  rw [registerHttpHeaderSent]
  split
  · apply ConnState.CountsAs.update
    exact ⟨rfl, rfl, rfl, rfl, rfl⟩
  · exact .refl _

theorem registerHttpComplete_countsAs (pool : ConnPool) (ip : BitVec 32) (port : BitVec 16)
    (i : Fin maxTrackedConns) : (pool i).CountsAs (registerHttpComplete pool ip port i) := by
  rw [registerHttpComplete]
  split
  · apply ConnState.CountsAs.update
    exact ⟨rfl, rfl, rfl, rfl, rfl⟩
  · exact .refl _

theorem Accounted.countsAs {f : TcpFlow} {calls : List PoolCall} {c : PoolCall} {m : Option Meter}
    (h : Accounted f calls m)
    (hsame : (poolAfter calls f.slot).CountsAs (poolAfter (calls ++ [c]) f.slot))
    (hevents : floodAlerts f (calls ++ [c]) = floodAlerts f calls) :
    Accounted f (calls ++ [c]) m := by
  cases m with
  | none => exact ⟨hsame.srcIp.trans h.1, hevents.trans h.2⟩
  | some m =>
      obtain ⟨howned, hshows, halerts⟩ := h
      refine ⟨?_, hshows.countsAs hsame, hevents.trans halerts⟩
      rw [ConnState.ownedBy_iff, hsame.srcIp, hsame.srcPort]
      exact ConnState.ownedBy_iff.mp howned

/-- Other calls leave the flow's entry as the SYN counter sees it. -/
theorem Accounted.other {f : TcpFlow} {calls : List PoolCall} {c : PoolCall} {m : Option Meter}
    (hapart : c.Apart f) (hother : c.arrival f = none) (h : Accounted f calls m) :
    Accounted f (calls ++ [c]) m := by
  cases c with
  | packet clock iph tcph =>
      have hne : tcpFlowOf iph tcph ≠ f := by
        intro heq
        rw [PoolCall.arrival, if_pos heq] at hother
        cases hother
      rw [PoolCall.Apart, if_neg hne] at hapart
      have hentry : poolAfter (calls ++ [.packet clock iph tcph]) f.slot = poolAfter calls f.slot := by
        rw [poolAfter_snoc]
        exact monitorTcpStats_frame _ clock iph tcph (Ne.symm hapart)
      apply h.countsAs
      · rw [hentry]
        exact .refl _
      · rw [floodAlerts_snoc]
        show _ + (monitorTcpStats (poolAfter calls) clock iph tcph).events.countP _ = _
        rw [floods_of_ne _ clock hne, Nat.add_zero]
  | headerSent ip port =>
      apply h.countsAs
      · rw [poolAfter_snoc]
        exact registerHttpHeaderSent_countsAs _ ip port _
      · exact floodAlerts_snoc f calls _
  | complete ip port =>
      apply h.countsAs
      · rw [poolAfter_snoc]
        exact registerHttpComplete_countsAs _ ip port _
      · exact floodAlerts_snoc f calls _

/-- Counter and entry have room for one more packet. -/
theorem meter_room {as : List Arrival} (h : as.length + 1 < 2 ^ 32) (t : Nat) :
    ((meter hz synFloodThreshold as).getD (.start0 t)).count + 1 < 2 ^ 32 := by
  rcases hm : meter hz synFloodThreshold as with _ | m
  · show 0 + 1 < 2 ^ 32
    decide
  · have hcount := meter_count_le hm
    show m.count + 1 < 2 ^ 32
    omega

/-- Entry, events and counter agree after any run. -/
theorem accounted_poolAfter {f : TcpFlow} (hip : f.ip ≠ 0) (calls : List PoolCall)
    (hapart : ∀ c ∈ calls, c.Apart f) (hroom : (arrivals f calls).length < 2 ^ 32) :
    Accounted f calls (meter hz synFloodThreshold (arrivals f calls)) := by
  induction calls using List.reverseRecOn with
  | nil => exact ⟨rfl, rfl⟩
  | append_singleton calls c ih =>
      have hc : c.Apart f := hapart c (by simp)
      rw [arrivals_snoc] at hroom ⊢
      have hbefore := ih (fun c' hc' => hapart c' (List.mem_append_left _ hc'))
        (by rw [List.length_append] at hroom; omega)
      rcases harrival : c.arrival f with _ | a
      · show Accounted f (calls ++ [c]) (meter hz synFloodThreshold (arrivals f calls ++ []))
        rw [List.append_nil]
        exact hbefore.other hc harrival
      · rw [harrival] at hroom
        obtain ⟨clock, iph, tcph, rfl, hflow, rfl⟩ := PoolCall.arrival_eq_some.mp harrival
        subst hflow
        rw [PoolCall.Apart, if_pos rfl] at hc
        show Accounted _ _ (meter hz synFloodThreshold (arrivals _ calls ++ [arrivalOf clock tcph]))
        rw [meter_snoc]
        exact (hbefore.own_packet clock hip hc (meter_room (by simpa using hroom) _)).1

/-- A packet of the flow is dropped from the window on that exceeds the limit. -/
theorem dropped_iff_window {calls : List PoolCall} (clock : Clock) {iph : IpHdr} {tcph : TcpHdr}
    (hip : (tcpFlowOf iph tcph).ip ≠ 0)
    (hapart : ∀ c ∈ calls ++ [.packet clock iph tcph], c.Apart (tcpFlowOf iph tcph))
    (hroom : (arrivals (tcpFlowOf iph tcph) (calls ++ [.packet clock iph tcph])).length < 2 ^ 32) :
    (monitorTcpStats (poolAfter calls) clock iph tcph).judged.drop = true
      ↔ ∃ w ∈ windows hz (arrivals (tcpFlowOf iph tcph) (calls ++ [.packet clock iph tcph])),
        synFloodThreshold < w.marks := by
  have hc := hapart (.packet clock iph tcph) (by simp)
  rw [PoolCall.Apart, if_pos rfl] at hc
  have harrivals : arrivals (tcpFlowOf iph tcph) (calls ++ [.packet clock iph tcph])
      = arrivals (tcpFlowOf iph tcph) calls ++ [arrivalOf clock tcph] := by
    rw [arrivals_snoc, PoolCall.arrival, if_pos rfl]
    rfl
  rw [harrivals] at hroom ⊢
  rw [List.length_append] at hroom
  have hbefore := accounted_poolAfter hip calls
    (fun c' hc' => hapart c' (List.mem_append_left _ hc')) (by omega)
  rw [(hbefore.own_packet clock hip hc (meter_room hroom _)).2]
  exact (meter_spec (by decide) (meter_snoc _ _ _ _)).1

/-- **Exact SYN accounting.**  Of a flow that shares its slot with no other one, a
packet is dropped iff some window up to it holds more than a hundred SYNs, and
the run reports as many SYN floods as there are such windows. -/
theorem syn_accounting {f : TcpFlow} (hip : f.ip ≠ 0) {calls : List PoolCall}
    (hapart : ∀ c ∈ calls, c.Apart f) (hroom : (arrivals f calls).length < 2 ^ 32) :
    (∀ before clock iph tcph after, calls = before ++ .packet clock iph tcph :: after →
      tcpFlowOf iph tcph = f →
      ((monitorTcpStats (poolAfter before) clock iph tcph).judged.drop = true
        ↔ ∃ w ∈ windows hz (arrivals f (before ++ [.packet clock iph tcph])), 100 < w.marks)) ∧
    floodAlerts f calls = (windows hz (arrivals f calls)).countP fun w => decide (100 < w.marks) := by
  constructor
  · rintro before clock iph tcph after hcalls rfl
    have hsplit : calls = (before ++ [.packet clock iph tcph]) ++ after := by
      rw [hcalls, List.append_assoc]
      rfl
    apply dropped_iff_window clock hip
    · intro c hc
      apply hapart c
      rw [hsplit]
      exact List.mem_append_left _ hc
    · rw [hsplit, arrivals, List.filterMap_append, List.length_append] at hroom
      exact Nat.lt_of_le_of_lt (Nat.le_add_right _ _) hroom
  · have h := accounted_poolAfter hip calls hapart hroom
    obtain ⟨hm, hws⟩ | ⟨m, w, ws, hm, -, -⟩ :=
      meter_reads (show 0 < synFloodThreshold by decide) hz (arrivals f calls)
    · rw [hm] at h
      rw [hws]
      exact h.2
    · rw [hm] at h
      exact h.2.2.trans (meter_spec (by decide) hm).2

/-- A client that sends 101 SYNs to port 22 at one moment. -/
def floodTcp : TcpHdr := ⟨0x3930, 0x1600, 5, false, true, false, false⟩
def floodCalls : List PoolCall := List.replicate 101 (.packet ⟨1000, 1⟩ slowIp floodTcp)

theorem syn_accounting_floodCalls :
    (∀ c ∈ floodCalls, c.Apart (tcpFlowOf slowIp floodTcp)) ∧
      floodAlerts (tcpFlowOf slowIp floodTcp) floodCalls = 1 := by
  have hapart : ∀ c ∈ floodCalls, c.Apart (tcpFlowOf slowIp floodTcp) := by
    intro c hc
    rw [List.eq_of_mem_replicate hc, PoolCall.Apart, if_pos rfl]
    decide
  have hroom : (arrivals (tcpFlowOf slowIp floodTcp) floodCalls).length < 2 ^ 32 := by
    refine Nat.lt_of_le_of_lt (List.length_filterMap_le _ _) ?_
    rw [floodCalls, List.length_replicate]
    decide
  refine ⟨hapart, (syn_accounting (by decide) hapart hroom).2.trans ?_⟩
  decide +kernel

/-! ### Floods of an address

What the pool counts are the SYNs of a flow, not of an address, and only while
the flow holds its slot and within a window that began at some earlier packet. -/

/-- A packet of the address with SYN set and ACK clear. -/
def PoolCall.isSynFrom (ip : BitVec 32) : PoolCall → Bool
  | .packet _ iph tcph => iph.saddr = ip ∧ tcph.syn ∧ tcph.ack = false
  | _ => false

/-- A packet of the address with FIN or RST. -/
def PoolCall.closesFrom (ip : BitVec 32) : PoolCall → Bool
  | .packet _ iph tcph => iph.saddr = ip ∧ (tcph.fin ∨ tcph.rst)
  | _ => false

/-- The call falls in the second that begins at `t` (in milliseconds). -/
def PoolCall.InSecond (t : Nat) : PoolCall → Prop
  | .packet clock _ _ => t ≤ clock.millis.toNat ∧ clock.millis.toNat ≤ t + 1000
  | _ => True

/-- A SYN of the address that is dropped. -/
def SynDropped (ip : BitVec 32) (pool : ConnPool) (c : PoolCall) : Prop :=
  c.isSynFrom ip = true ∧ (poolStep pool c).2.any Judged.drop = true

/-- If the calls of one second hold more than a hundred SYNs of the address and
no FIN or RST of it, one of these SYNs is dropped. -/
def FloodCaught (ip : BitVec 32) (before second : List PoolCall) : Prop :=
  (∃ t, ∀ c ∈ second, c.InSecond t) → (∀ c ∈ second, c.closesFrom ip = false) →
    100 < second.countP (PoolCall.isSynFrom ip) →
    Once poolStep (SynDropped ip) (poolAfter before) second

/-- The window in which an entry counts a SYN, and the SYNs already in it. -/
def ConnState.windowAt (conn : ConnState) (now : BitVec 64) : Nat × Nat :=
  if secondsAfter 1 now conn.synWindowStart then (now.toNat, 0)
  else (conn.synWindowStart.toNat, conn.synCount.toNat)

/-- Other flows' packets hash elsewhere. -/
def PoolCall.Elsewhere (f : TcpFlow) : PoolCall → Prop
  | .packet _ iph tcph => tcpFlowOf iph tcph ≠ f → (tcpFlowOf iph tcph).slot ≠ f.slot
  | _ => True

/-- The SYN gets an entry, and it and the SYNs of the same flow that follow fill
the window it is counted in; the slot of a flow of address 0, which counts as
free, must not be taken meanwhile. -/
def FillsWindow (pool : ConnPool) (clock : Clock) (iph : IpHdr) (tcph : TcpHdr)
    (rest : List PoolCall) : Prop :=
  let f := tcpFlowOf iph tcph
  ∃ conn, (pool f.slot).claim clock.jiffies iph tcph = some conn ∧
    (∀ a ∈ arrivals f rest, a.counted = true → a.time ≤ (conn.windowAt clock.jiffies).1 + hz) ∧
    100 < (conn.windowAt clock.jiffies).2 + 1 + (arrivals f rest).countP Arrival.counted ∧
    (f.ip = 0 → ∀ c ∈ rest, c.Elsewhere f)

/-- One flow of the address sends the flood: some SYN of the second finds its flow
blocked, or begins to fill a window. -/
def Concentrated (ip : BitVec 32) (before second : List PoolCall) : Prop :=
  ∃ d clock iph tcph rest after, second = d ++ .packet clock iph tcph :: (rest ++ after) ∧
    iph.saddr = ip ∧ tcph.syn = true ∧ tcph.ack = false ∧
    (FlowBlocked (tcpFlowOf iph tcph) (poolAfter (before ++ d)) ∨
      FillsWindow (poolAfter (before ++ d)) clock iph tcph rest)

/-! What an entry counts, it counts from a moment on, and up to the limit unless
it is blocked. -/

def ConnState.CountOk (conn : ConnState) : Prop :=
  IsMoment conn.synWindowStart ∧
    (conn.isBlocked = false → conn.synCount.toNat ≤ synFloodThreshold)

theorem ConnState.countOk_zero : ConnState.zero.CountOk := ⟨isMoment_zero, fun _ => by decide⟩

theorem ConnState.countOk_fresh (clock : Clock) (iph : IpHdr) (tcph : TcpHdr) :
    (ConnState.fresh clock.jiffies iph tcph).CountOk :=
  ⟨isMoment_jiffies clock, fun _ => Nat.zero_le _⟩

theorem ConnState.CountOk.claim {conn c : ConnState} {clock : Clock} {iph : IpHdr} {tcph : TcpHdr}
    (h : conn.CountOk) (hclaim : conn.claim clock.jiffies iph tcph = some c) : c.CountOk := by
  rw [ConnState.claim] at hclaim
  split at hclaim
  · obtain rfl := Option.some.inj hclaim
    exact h
  · split at hclaim
    · obtain rfl := Option.some.inj hclaim
      exact ConnState.countOk_fresh clock iph tcph
    · cases hclaim

theorem ConnState.CountOk.countsAs {conn conn' : ConnState} (h : conn.CountOk)
    (hsame : conn.CountsAs conn') : conn'.CountOk := by
  rw [ConnState.CountOk, hsame.synWindowStart, hsame.isBlocked, hsame.synCount]
  exact h

/-- The entry has counted `n` SYNs since `start`. -/
structure ConnState.Counts (start n : Nat) (conn : ConnState) : Prop where
  start : conn.synWindowStart.toNat = start
  count : conn.synCount.toNat = n

theorem ConnState.Counts.countsAs {start n : Nat} {conn conn' : ConnState}
    (h : conn.Counts start n) (hsame : conn.CountsAs conn') : conn'.Counts start n where
  start := hsame.synWindowStart ▸ h.start
  count := hsame.synCount ▸ h.count

/-- A count that goes over the limit blocks the entry, and a blocked entry may
count on. -/
theorem ConnState.CountOk.synFlood {conn : ConnState} (h : conn.CountOk) (clock : Clock)
    (iph : IpHdr) (tcph : TcpHdr) : (conn.synFlood clock iph tcph).1.CountOk := by
  by_cases hsyn : tcph.syn = true ∧ tcph.ack = false
  · rw [ConnState.synFlood, if_pos hsyn]
    split
    · refine ⟨isMoment_jiffies clock, fun _ => ?_⟩
      show 1 ≤ 100
      decide
    · dsimp only
      split
      · refine ⟨h.1, fun hopen => ?_⟩
        cases hopen
      · rename_i hroom
        exact ⟨h.1, fun _ => Nat.le_of_not_lt hroom⟩
  · rw [ConnState.synFlood, if_neg hsyn]
    exact h

/-- A SYN on an entry that is not blocked is one more in the window of the
moment. -/
theorem synFlood_counts {conn : ConnState} (h : conn.CountOk) (hopen : conn.isBlocked = false)
    (clock : Clock) (iph : IpHdr) {tcph : TcpHdr} (hsyn : tcph.syn = true ∧ tcph.ack = false) :
    (conn.synFlood clock iph tcph).1.Counts (conn.windowAt clock.jiffies).1
      ((conn.windowAt clock.jiffies).2 + 1) := by
  have hcount : (conn.synCount + 1).toNat = conn.synCount.toNat + 1 := by
    have hle := h.2 hopen
    rw [BitVec.toNat_add]
    apply Nat.mod_eq_of_lt
    show conn.synCount.toNat + 1 < 2 ^ 32
    rw [synFloodThreshold] at hle
    omega
  rw [ConnState.synFlood, if_pos hsyn, ConnState.windowAt]
  split
  · exact ⟨rfl, rfl⟩
  · dsimp only
    split
    · exact ⟨rfl, hcount⟩
    · exact ⟨rfl, hcount⟩

/-- The rest of the checks leaves the counter alone and may block the entry. -/
theorem JudgedAs.counter {pool : ConnPool} {c : ConnState} {events : List FwEvent} {clock : Clock}
    {iph : IpHdr} {tcph : TcpHdr} {r : Monitored} (h : JudgedAs pool c events clock iph tcph r) :
    (r.pool (tcpFlowOf iph tcph).slot).synWindowStart = c.synWindowStart ∧
      (r.pool (tcpFlowOf iph tcph).slot).synCount = c.synCount ∧
      r.judged.drop = (r.pool (tcpFlowOf iph tcph).slot).isBlocked ∧
      (c.isBlocked = true → r.judged.drop = true) := by
  have hstart : (c.startHttp clock.jiffies).synWindowStart = c.synWindowStart ∧
      (c.startHttp clock.jiffies).synCount = c.synCount := by
    rw [ConnState.startHttp]
    split
    · exact ⟨rfl, rfl⟩
    · exact ⟨rfl, rfl⟩
  have hblocked : c.isBlocked = true → r.judged.drop = true := by
    intro hb
    cases h with
    | blocked => rfl
    | clear hopen => rw [hopen] at hb; cases hb
    | maxSockets => rfl
    | timeout => rfl
    | waiting hopen => rw [hopen] at hb; cases hb
  obtain ⟨c', hpool, hdrop, rfl | ⟨-, rfl | rfl⟩⟩ := h.entry
  · rw [hpool, Function.update_self]
    exact ⟨rfl, rfl, hdrop, hblocked⟩
  · rw [hpool, Function.update_self]
    exact ⟨hstart.1, hstart.2, hdrop, hblocked⟩
  · rw [hpool, Function.update_self]
    exact ⟨hstart.1, hstart.2, hdrop, hblocked⟩

/-- The entry a judged packet leaves still counts as it should. -/
theorem judge_countOk (pool : ConnPool) {conn : ConnState} (h : conn.CountOk) (clock : Clock)
    (iph : IpHdr) (tcph : TcpHdr) :
    ((judge pool conn clock iph tcph).pool (tcpFlowOf iph tcph).slot).CountOk := by
  obtain ⟨hstart, hcount, hdrop, hblocked⟩ := (judge_judgedAs pool conn clock iph tcph).counter
  have hok := (h.countsAs (conn.seen_countsAs clock.jiffies iph tcph)).synFlood clock iph tcph
  rw [ConnState.CountOk, hstart, hcount, ← hdrop]
  refine ⟨hok.1, fun hpassed => hok.2 (Bool.eq_false_iff.mpr fun hb => ?_)⟩
  rw [hblocked hb] at hpassed
  cases hpassed

theorem monitorTcpStats_countOk {pool : ConnPool} (h : ∀ i, (pool i).CountOk) (clock : Clock)
    (iph : IpHdr) (tcph : TcpHdr) (i : Fin maxTrackedConns) :
    ((monitorTcpStats pool clock iph tcph).pool i).CountOk := by
  by_cases hi : i = (tcpFlowOf iph tcph).slot
  · subst hi
    by_cases hclose : tcph.fin = true ∨ tcph.rst = true
    · rw [monitorTcpStats_of_closing hclose]
      dsimp only
      split
      · rw [Function.update_self]
        exact ConnState.countOk_zero
      · exact h _
    rcases hclaim : (pool (tcpFlowOf iph tcph).slot).claim clock.jiffies iph tcph with _ | conn
    · rw [monitorTcpStats_of_collision hclose hclaim]
      exact h _
    · rw [monitorTcpStats_of_claim hclose hclaim]
      exact judge_countOk pool ((h _).claim hclaim) clock iph tcph
  · rw [monitorTcpStats_frame pool clock iph tcph hi]
    exact h i

theorem poolStep_countOk {pool : ConnPool} (h : ∀ i, (pool i).CountOk) (c : PoolCall)
    (i : Fin maxTrackedConns) : ((poolStep pool c).1 i).CountOk := by
  cases c with
  | packet clock iph tcph => exact monitorTcpStats_countOk h clock iph tcph i
  | headerSent ip port => exact (h i).countsAs (registerHttpHeaderSent_countsAs pool ip port i)
  | complete ip port => exact (h i).countsAs (registerHttpComplete_countsAs pool ip port i)

theorem countOk_poolAfter (calls : List PoolCall) (i : Fin maxTrackedConns) :
    (poolAfter calls i).CountOk := by
  induction calls using List.reverseRecOn generalizing i with
  | nil => exact ConnState.countOk_zero
  | append_singleton calls c ih =>
      rw [poolAfter_snoc]
      exact poolStep_countOk ih c i

/-! A window that fills up. -/

/-- The flow holds its slot since the second that begins at `t`, and has `n` SYNs
in the window from `start` on, or is blocked. -/
structure Filling (f : TcpFlow) (t start n : Nat) (pool : ConnPool) : Prop where
  owned : (pool f.slot).ownedBy f = true
  recent : ∃ clock : Clock, (pool f.slot).lastSeen = clock.jiffies ∧ t ≤ clock.millis.toNat
  room : n ≤ synFloodThreshold
  counts : (pool f.slot).isBlocked = true ∨ (pool f.slot).Counts start n

/-- The SYN is dropped, or counted. -/
theorem filling_of_syn {pool : ConnPool} (hok : ∀ i, (pool i).CountOk) {t : Nat} {clock : Clock}
    {iph : IpHdr} {tcph : TcpHdr} {conn : ConnState} (ht : t ≤ clock.millis.toNat)
    (hclose : ¬ (tcph.fin = true ∨ tcph.rst = true)) (hsyn : tcph.syn = true ∧ tcph.ack = false)
    (hclaim : (pool (tcpFlowOf iph tcph).slot).claim clock.jiffies iph tcph = some conn) :
    (monitorTcpStats pool clock iph tcph).judged.drop = true ∨
      Filling (tcpFlowOf iph tcph) t (conn.windowAt clock.jiffies).1
        ((conn.windowAt clock.jiffies).2 + 1) (monitorTcpStats pool clock iph tcph).pool := by
  rw [monitorTcpStats_of_claim hclose hclaim]
  obtain ⟨conn', hfollows, hpool, hverdict⟩ := judge_spec pool conn clock iph tcph
  obtain ⟨hstart, hcount, hdrop, hblocked⟩ := (judge_judgedAs pool conn clock iph tcph).counter
  cases hpassed : (judge pool conn clock iph tcph).judged.drop
  · right
    have hconn : conn.CountOk := (hok _).claim hclaim
    have hseen := conn.seen_countsAs clock.jiffies iph tcph
    -- a blocked entry would have dropped the packet
    have hopen : conn.isBlocked = false := by
      refine Bool.eq_false_iff.mpr fun hb => ?_
      rw [hverdict.drop, hfollows.isBlocked hb] at hpassed
      cases hpassed
    have hcounts :=
      synFlood_counts (hconn.countsAs hseen) (hseen.isBlocked.trans hopen) clock iph hsyn
    have hwindow : (conn.seen clock.jiffies iph tcph).windowAt clock.jiffies
        = conn.windowAt clock.jiffies := by
      rw [ConnState.windowAt, hseen.synWindowStart, hseen.synCount]
      rfl
    rw [hwindow] at hcounts
    have hcounts' : ((judge pool conn clock iph tcph).pool (tcpFlowOf iph tcph).slot).Counts
        (conn.windowAt clock.jiffies).1 ((conn.windowAt clock.jiffies).2 + 1) :=
      ⟨hstart ▸ hcounts.start, hcount ▸ hcounts.count⟩
    refine ⟨?_, ⟨clock, ?_, ht⟩, ?_, Or.inr hcounts'⟩
    · rw [hpool, Function.update_self]
      exact hfollows.ownedBy (ConnState.ownedBy_of_claim hclaim)
    · rw [hpool, Function.update_self]
      exact hfollows.lastSeen
    · -- and so would a count over the limit
      rw [← hcounts'.count]
      exact (judge_countOk pool hconn clock iph tcph).2 (hdrop.symm.trans hpassed)
  · exact Or.inl rfl

namespace Filling

variable {f : TcpFlow} {t start n : Nat} {pool : ConnPool} {clock : Clock} {iph : IpHdr}
  {tcph : TcpHdr}

/-- A further SYN in the window. -/
theorem syn (h : Filling (tcpFlowOf iph tcph) t start n pool) (hok : ∀ i, (pool i).CountOk)
    (ht : t ≤ clock.millis.toNat) (hclose : ¬ (tcph.fin = true ∨ tcph.rst = true))
    (hsyn : tcph.syn = true ∧ tcph.ack = false) (htime : clock.jiffies.toNat ≤ start + hz) :
    (monitorTcpStats pool clock iph tcph).judged.drop = true ∨
      Filling (tcpFlowOf iph tcph) t start (n + 1) (monitorTcpStats pool clock iph tcph).pool := by
  rcases h.counts with hblocked | hcounts
  · left
    exact (FlowBlocked.own_packet ⟨h.owned, hblocked⟩ clock rfl
      (Bool.eq_false_iff.mpr fun hf => hclose (Or.inl hf))
      (Bool.eq_false_iff.mpr fun hr => hclose (Or.inr hr))).2
  · have hwindow : (pool (tcpFlowOf iph tcph).slot).windowAt clock.jiffies = (start, n) := by
      have hearly : ¬ secondsAfter 1 clock.jiffies
          (pool (tcpFlowOf iph tcph).slot).synWindowStart = true := by
        rw [secondsAfter_iff (isMoment_jiffies clock) (hok _).1 (by decide), hcounts.start]
        omega
      rw [ConnState.windowAt, if_neg hearly, hcounts.start, hcounts.count]
    have hstep := filling_of_syn hok ht hclose hsyn
      (ConnState.claim_of_ownedBy clock.jiffies h.owned)
    rw [hwindow] at hstep
    exact hstep

/-- Any other packet of the flow. -/
theorem own_packet (h : Filling (tcpFlowOf iph tcph) t start n pool) (ht : t ≤ clock.millis.toNat)
    (hclose : ¬ (tcph.fin = true ∨ tcph.rst = true)) (hsyn : ¬ (tcph.syn = true ∧ tcph.ack = false)) :
    Filling (tcpFlowOf iph tcph) t start n (monitorTcpStats pool clock iph tcph).pool := by
  rw [monitorTcpStats_of_claim hclose (ConnState.claim_of_ownedBy clock.jiffies h.owned)]
  generalize hconn : pool (tcpFlowOf iph tcph).slot = conn
  obtain ⟨conn', hfollows, hpool, -⟩ := judge_spec pool conn clock iph tcph
  obtain ⟨hstart, hcount, -, -⟩ := (judge_judgedAs pool conn clock iph tcph).counter
  have hseen := conn.seen_countsAs clock.jiffies iph tcph
  rw [ConnState.synFlood, if_neg hsyn] at hstart hcount
  refine ⟨?_, ⟨clock, ?_, ht⟩, h.room, ?_⟩
  · rw [hpool, Function.update_self]
    exact hfollows.ownedBy (hconn ▸ h.owned)
  · rw [hpool, Function.update_self]
    exact hfollows.lastSeen
  · rcases h.counts with hblocked | hcounts
    · left
      rw [hpool, Function.update_self]
      exact hfollows.isBlocked (hconn ▸ hblocked)
    · right
      rw [hconn] at hcounts
      exact ⟨hstart ▸ hseen.synWindowStart ▸ hcounts.start,
        hcount ▸ hseen.synCount ▸ hcounts.count⟩

/-- What leaves the entry and the time of its last packet alone. -/
theorem same {pool' : ConnPool} (h : Filling f t start n pool)
    (hsame : (pool f.slot).CountsAs (pool' f.slot))
    (hlast : (pool' f.slot).lastSeen = (pool f.slot).lastSeen) : Filling f t start n pool' := by
  refine ⟨?_, ?_, h.room, ?_⟩
  · rw [ConnState.ownedBy_iff, hsame.srcIp, hsame.srcPort]
    exact ConnState.ownedBy_iff.mp h.owned
  · rw [hlast]
    exact h.recent
  · rw [hsame.isBlocked]
    exact h.counts.imp id fun hcounts => hcounts.countsAs hsame

/-- A packet of another flow: within the second it cannot take the slot. -/
theorem other_packet (h : Filling f t start n pool) (ht : clock.millis.toNat ≤ t + 1000)
    (hne : tcpFlowOf iph tcph ≠ f) (hzero : f.ip = 0 → (tcpFlowOf iph tcph).slot ≠ f.slot) :
    Filling f t start n (monitorTcpStats pool clock iph tcph).pool := by
  have hentry : (monitorTcpStats pool clock iph tcph).pool f.slot = pool f.slot := by
    apply monitorTcpStats_other_flow h.owned clock hne
    intro hslot
    refine Bool.eq_false_iff.mpr fun hreclaim => ?_
    obtain ⟨last, hlast, hrecent⟩ := h.recent
    -- the entry is not free, and 5 s have not passed
    have hip : (pool f.slot).srcIp ≠ 0 := by
      intro hfree
      refine hzero ?_ hslot
      rw [← ConnState.ownedBy_iff.mp h.owned]
      exact hfree
    rw [ConnState.reclaimable_iff hip hlast, toNat_jiffies, toNat_jiffies] at hreclaim
    omega
  apply h.same
  · rw [hentry]
    exact .refl _
  · rw [hentry]

end Filling

/-- What the calls of the second may be, for the flow to fill its window. -/
def PoolCall.Fills (f : TcpFlow) (t start : Nat) : PoolCall → Prop
  | .packet clock iph tcph =>
      (t ≤ clock.millis.toNat ∧ clock.millis.toNat ≤ t + 1000) ∧
      (tcpFlowOf iph tcph = f → ¬ (tcph.fin = true ∨ tcph.rst = true)) ∧
      (tcpFlowOf iph tcph = f → tcph.syn = true ∧ tcph.ack = false →
        clock.jiffies.toNat ≤ start + hz) ∧
      (tcpFlowOf iph tcph ≠ f → f.ip = 0 → (tcpFlowOf iph tcph).slot ≠ f.slot)
  | _ => True

theorem Filling.step {f : TcpFlow} {t start n : Nat} {pool : ConnPool} {c : PoolCall}
    (h : Filling f t start n pool) (hok : ∀ i, (pool i).CountOk) (hc : c.Fills f t start) :
    SynDropped f.ip pool c ∨
      Filling f t start (n + (c.arrival f).toList.countP Arrival.counted) (poolStep pool c).1 := by
  cases c with
  | packet clock iph tcph =>
      obtain ⟨⟨hfrom, hto⟩, hclose, htime, hzero⟩ := hc
      by_cases hflow : tcpFlowOf iph tcph = f
      · subst hflow
        rw [PoolCall.arrival, if_pos rfl, Option.toList_some, List.countP_singleton]
        by_cases hsyn : tcph.syn = true ∧ tcph.ack = false
        · have hcounted : (arrivalOf clock tcph).counted = true := by
            show (tcph.syn && !tcph.ack) = true
            rw [hsyn.1, hsyn.2]
            rfl
          rw [if_pos hcounted]
          refine (h.syn hok hfrom (hclose rfl) hsyn (htime rfl hsyn)).imp ?_ id
          intro hdrop
          exact ⟨decide_eq_true ⟨rfl, hsyn⟩, hdrop⟩
        · have hcounted : ¬ (arrivalOf clock tcph).counted = true := by
            show ¬ (tcph.syn && !tcph.ack) = true
            rw [Bool.and_eq_true, Bool.not_eq_true']
            exact hsyn
          rw [if_neg hcounted]
          exact Or.inr (h.own_packet hfrom (hclose rfl) hsyn)
      · rw [PoolCall.arrival, if_neg hflow]
        exact Or.inr (h.other_packet hto hflow (hzero hflow))
  | headerSent ip port =>
      exact Or.inr (h.same (registerHttpHeaderSent_countsAs pool ip port _)
        (registerHttpHeaderSent_noted pool ip port _).lastSeen)
  | complete ip port =>
      exact Or.inr (h.same (registerHttpComplete_countsAs pool ip port _)
        (registerHttpComplete_noted pool ip port _).lastSeen)

/-- A window that would hold more than the limit drops one of its SYNs. -/
theorem Filling.run {f : TcpFlow} {t start : Nat} {rest : List PoolCall} :
    ∀ {n : Nat} {pool : ConnPool}, Filling f t start n pool → (∀ i, (pool i).CountOk) →
      (∀ c ∈ rest, c.Fills f t start) →
      synFloodThreshold < n + (arrivals f rest).countP Arrival.counted →
      Once poolStep (SynDropped f.ip) pool rest := by
  induction rest with
  | nil => exact fun h _ _ hexceeds => absurd h.room (Nat.not_le_of_lt hexceeds)
  | cons c rest ih =>
      intro n pool h hok hfills hexceeds
      rcases h.step hok (hfills c List.mem_cons_self) with hdrop | hnext
      · exact Or.inl hdrop
      · have harrivals : arrivals f (c :: rest) = (c.arrival f).toList ++ arrivals f rest := by
          rw [arrivals, List.filterMap_cons]
          cases c.arrival f <;> rfl
        rw [harrivals, List.countP_append, ← Nat.add_assoc] at hexceeds
        exact Or.inr (ih hnext (poolStep_countOk hok c)
          (fun c' hc' => hfills c' (List.mem_cons_of_mem _ hc')) hexceeds)

/-- **Floods are caught flow by flow**: if one flow of the address sends enough of
the SYNs of the second, one of them is dropped. -/
theorem flood_caught_of_concentrated {ip : BitVec 32} {before second : List PoolCall}
    (h : Concentrated ip before second) : FloodCaught ip before second := by
  obtain ⟨d, clock, iph, tcph, rest, after, rfl, rfl, hsyn, hack, hflow⟩ := h
  rintro ⟨t, hin⟩ hopen -
  have hclose : ¬ (tcph.fin = true ∨ tcph.rst = true) := by
    intro hc
    have hno := hopen (.packet clock iph tcph) (by simp)
    exact of_decide_eq_false hno ⟨rfl, by simpa using hc⟩
  obtain ⟨hfrom, -⟩ : t ≤ clock.millis.toNat ∧ _ := hin (.packet clock iph tcph) (by simp)
  have hpool : (exec poolStep (poolAfter before) d).1 = poolAfter (before ++ d) := by
    rw [poolAfter, poolAfter, exec_append]
  rw [once_append, hpool]
  right
  have hsynFrom : PoolCall.isSynFrom iph.saddr (.packet clock iph tcph) = true :=
    decide_eq_true ⟨rfl, hsyn, hack⟩
  rcases hflow with hblocked | ⟨conn, hclaim, htimes, hexceeds, hzero⟩
  · -- the SYN itself is dropped
    left
    refine ⟨hsynFrom, (hblocked.own_packet clock rfl ?_ ?_).2⟩
    · exact Bool.eq_false_iff.mpr fun hf => hclose (Or.inl hf)
    · exact Bool.eq_false_iff.mpr fun hr => hclose (Or.inr hr)
  · rcases filling_of_syn (countOk_poolAfter _) hfrom hclose ⟨hsyn, hack⟩ hclaim with hdrop | hfilling
    · exact Or.inl ⟨hsynFrom, hdrop⟩
    · -- or it is counted, and the window fills up with the calls that follow
      right
      rw [once_append]
      left
      refine hfilling.run (poolStep_countOk (countOk_poolAfter _) (.packet clock iph tcph)) ?_ hexceeds
      intro c hc
      cases c with
      | packet clock' iph' tcph' =>
          have hmem : PoolCall.packet clock' iph' tcph'
              ∈ d ++ .packet clock iph tcph :: (rest ++ after) := by
            simp [hc]
          refine ⟨hin _ hmem, ?_, ?_, ?_⟩
          · intro hflow hc'
            refine of_decide_eq_false (hopen _ hmem) ⟨?_, by simpa using hc'⟩
            exact congrArg TcpFlow.ip hflow
          · intro hflow hsyn'
            apply htimes (arrivalOf clock' tcph')
            · exact List.mem_filterMap.mpr ⟨_, hc, if_pos hflow⟩
            · show (tcph'.syn && !tcph'.ack) = true
              rw [hsyn'.1, hsyn'.2]
              rfl
          · intro hne hz
            exact hzero hz _ hc hne
      | headerSent => exact trivial
      | complete => exact trivial

/-- The client of `floodCalls` is caught. -/
theorem flood_caught_floodCalls :
    Concentrated slowIp.saddr [] floodCalls ∧ FloodCaught slowIp.saddr [] floodCalls := by
  have h : Concentrated slowIp.saddr [] floodCalls := by
    refine ⟨[], ⟨1000, 1⟩, slowIp, floodTcp,
      List.replicate 100 (.packet ⟨1000, 1⟩ slowIp floodTcp), [], ?_, rfl, rfl, rfl, Or.inr ?_⟩
    · rw [List.append_nil]
      rfl
    · have harrivals : arrivals (tcpFlowOf slowIp floodTcp)
          (List.replicate 100 (.packet ⟨1000, 1⟩ slowIp floodTcp))
          = List.replicate 100 (arrivalOf ⟨1000, 1⟩ floodTcp) := by
        decide +kernel
      rw [FillsWindow, harrivals]
      refine ⟨_, rfl, ?_, ?_, nofun⟩
      · intro a ha _
        rw [List.eq_of_mem_replicate ha]
        decide +kernel
      · decide +kernel
  exact ⟨h, flood_caught_of_concentrated h⟩

/-- A client that sends its 101 SYNs from as many source ports. -/
def spreadCalls : List PoolCall :=
  (List.range 101).map fun i =>
    .packet ⟨1000, 1⟩ slowIp { floodTcp with source := BitVec.ofNat 16 (1024 + i) }

/-- None of them is dropped. -/
theorem spread_flood_passes : ¬ FloodCaught slowIp.saddr [] spreadCalls := by
  intro h
  have honce := h ⟨1000, ?_⟩ ?_ ?_
  · have houtputs : ((exec poolStep initConnPool spreadCalls).2.any fun o => o.any Judged.drop)
        = false := by
      decide +kernel
    obtain ⟨o, ho, hdrop⟩ := (honce.imp fun pool c hc => hc.2).exists_output
      (P := fun o => o.any Judged.drop = true)
    exact List.any_eq_false.mp houtputs o ho hdrop
  · intro c hc
    obtain ⟨i, -, rfl⟩ := List.mem_map.mp hc
    exact ⟨by decide, by decide⟩
  · intro c hc
    obtain ⟨i, -, rfl⟩ := List.mem_map.mp hc
    rfl
  · decide +kernel

end Nullsploit
