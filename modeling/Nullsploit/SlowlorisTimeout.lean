/-
Nullsploit/SlowlorisTimeout.lean

The slowloris timeout, against what was sent on an entry.  `entryLog` is ghost
state next to the pool: for each slot, the calls that the entry now in it has
processed.  `Logged` reads the two fields of the timeout off it: the wait began
at some packet to port 80 or 443, and `http_header_count` is the number of calls
that feed it, modulo 256.

The timeout does not ask whether anything was sent, and the event does, but by
the wrapped counter.  So idle connections are blocked too
(`idle_spared_of_short`, `idle_probe_blocked`), and a block goes without its
event when the count is a multiple of 256 (`timeout_reported_of_count`,
`wrapped_count_silent`).
-/
import Nullsploit.FlowPool

namespace Nullsploit

open Runs

/-! ### The log of an entry -/

/-- For each slot, the calls processed on its entry. -/
abbrev EntryLogs := Fin maxTrackedConns → List PoolCall

/-- A call in the logs.  An entry that is cleared or taken over loses its log; a
packet that passes on a collision leaves no trace. -/
def noted (pool : ConnPool) (log : EntryLogs) : PoolCall → EntryLogs
  | .packet clock iph tcph =>
      let f := tcpFlowOf iph tcph
      if tcph.fin ∨ tcph.rst then
        if (pool f.slot).ownedBy f then Function.update log f.slot [] else log
      else if (pool f.slot).ownedBy f then
        Function.update log f.slot (log f.slot ++ [.packet clock iph tcph])
      else if (pool f.slot).reclaimable clock.jiffies then
        Function.update log f.slot [.packet clock iph tcph]
      else log
  | .headerSent ip port =>
      if (pool (connHash ip port)).ownedBy ⟨ip, port⟩ then
        Function.update log (connHash ip port) (log (connHash ip port) ++ [.headerSent ip port])
      else log
  | .complete _ _ => log

def loggedStep (s : ConnPool × EntryLogs) (c : PoolCall) : (ConnPool × EntryLogs) × Option Judged :=
  (((poolStep s.1 c).1, noted s.1 s.2 c), (poolStep s.1 c).2)

/-- The logs after the calls. -/
def entryLog (calls : List PoolCall) : EntryLogs :=
  (exec loggedStep (initConnPool, fun _ => []) calls).1.2

theorem exec_loggedStep (calls : List PoolCall) :
    (exec loggedStep (initConnPool, fun _ => []) calls).1 = (poolAfter calls, entryLog calls) := by
  have hpool : (exec loggedStep (initConnPool, fun _ => []) calls).1.1 = poolAfter calls := by
    induction calls using List.reverseRecOn with
    | nil => rfl
    | append_singleton calls c ih =>
        rw [exec_snoc, poolAfter_snoc, ← ih]
        rfl
  exact Prod.ext hpool rfl

theorem entryLog_snoc (calls : List PoolCall) (c : PoolCall) :
    entryLog (calls ++ [c]) = noted (poolAfter calls) (entryLog calls) c := by
  rw [entryLog, exec_snoc, exec_loggedStep]
  rfl

theorem noted_of_ownedBy {pool : ConnPool} {clock : Clock} {iph : IpHdr} {tcph : TcpHdr}
    (log : EntryLogs) (hclose : ¬ (tcph.fin = true ∨ tcph.rst = true))
    (howned : (pool (tcpFlowOf iph tcph).slot).ownedBy (tcpFlowOf iph tcph) = true) :
    noted pool log (.packet clock iph tcph) (tcpFlowOf iph tcph).slot
      = log (tcpFlowOf iph tcph).slot ++ [.packet clock iph tcph] := by
  rw [noted, if_neg hclose, if_pos howned, Function.update_self]

/-! ### What an entry shows of its log -/

/-- The calls that feed `http_header_count`. -/
def PoolCall.feeds : PoolCall → Bool
  | .packet _ iph tcph => monitoredPort tcph ∧ payloadLen iph tcph > 0
  | .headerSent _ _ => true
  | .complete _ _ => false

structure ConnState.Logged (conn : ConnState) (log : List PoolCall) : Prop where
  start : conn.httpStartTime = 0 ∨ ∃ clock iph tcph, .packet clock iph tcph ∈ log ∧
    monitoredPort tcph = true ∧ conn.httpStartTime = clock.jiffies
  count : conn.httpHeaderCount.toNat = log.countP PoolCall.feeds % 256

theorem ConnState.logged_zero : ConnState.zero.Logged [] := ⟨Or.inl rfl, rfl⟩

theorem ConnState.logged_fresh (now : BitVec 64) (iph : IpHdr) (tcph : TcpHdr) :
    (ConnState.fresh now iph tcph).Logged [] := ⟨Or.inl rfl, rfl⟩

/-- The wait begins at a packet to a monitored port. -/
theorem JudgedAs.httpStartTime {pool : ConnPool} {c : ConnState} {events : List FwEvent}
    {clock : Clock} {iph : IpHdr} {tcph : TcpHdr} {r : Monitored}
    (h : JudgedAs pool c events clock iph tcph r) :
    (r.pool (tcpFlowOf iph tcph).slot).httpStartTime = c.httpStartTime ∨
      monitoredPort tcph = true ∧
        (r.pool (tcpFlowOf iph tcph).slot).httpStartTime = clock.jiffies := by
  have hstart : (c.startHttp clock.jiffies).httpStartTime = c.httpStartTime ∨
      (c.startHttp clock.jiffies).httpStartTime = clock.jiffies := by
    rw [ConnState.startHttp]
    split
    · exact Or.inr rfl
    · exact Or.inl rfl
  obtain ⟨c', hpool, -, rfl | ⟨hport, rfl | rfl⟩⟩ := h.entry
  · rw [hpool, Function.update_self]
    exact Or.inl rfl
  · rw [hpool, Function.update_self]
    exact hstart.imp id fun hnow => ⟨hport, hnow⟩
  · rw [hpool, Function.update_self]
    exact hstart.imp id fun hnow => ⟨hport, hnow⟩

/-- The checks before it leave the wait alone. -/
theorem seen_synFlood_httpStartTime (conn : ConnState) (clock : Clock) (iph : IpHdr)
    (tcph : TcpHdr) :
    ((conn.seen clock.jiffies iph tcph).synFlood clock iph tcph).1.httpStartTime
      = conn.httpStartTime := by
  have hseen : (conn.seen clock.jiffies iph tcph).httpStartTime = conn.httpStartTime := by
    rw [ConnState.seen]
    split <;> rfl
  rw [← hseen, ConnState.synFlood]
  split
  · split
    · rfl
    · dsimp only
      split <;> rfl
  · rfl

/-- A further call that feeds the counter. -/
theorem ConnState.Logged.count_succ {conn : ConnState} {log : List PoolCall} (h : conn.Logged log) :
    (conn.httpHeaderCount + 1).toNat = (log.countP PoolCall.feeds + 1) % 256 := by
  rw [BitVec.toNat_add, h.count]
  show (log.countP PoolCall.feeds % 256 + 1) % 256 = _
  omega

theorem judge_logged {conn : ConnState} {log : List PoolCall} (h : conn.Logged log)
    (pool : ConnPool) (clock : Clock) (iph : IpHdr) (tcph : TcpHdr) :
    ((judge pool conn clock iph tcph).pool (tcpFlowOf iph tcph).slot).Logged
      (log ++ [.packet clock iph tcph]) := by
  constructor
  · rcases (judge_judgedAs pool conn clock iph tcph).httpStartTime with hstart | ⟨hport, hnow⟩
    · rw [hstart, seen_synFlood_httpStartTime]
      refine h.start.imp id ?_
      rintro ⟨clock', iph', tcph', hmem, hport, htime⟩
      exact ⟨clock', iph', tcph', List.mem_append_left _ hmem, hport, htime⟩
    · exact Or.inr ⟨clock, iph, tcph, by simp, hport, hnow⟩
  · rw [judge_httpHeaderCount, List.countP_append, List.countP_singleton]
    by_cases hpay : monitoredPort tcph = true ∧ payloadLen iph tcph > 0
    · have hfeeds : PoolCall.feeds (.packet clock iph tcph) = true := decide_eq_true hpay
      rw [if_pos hpay, if_pos hfeeds]
      exact h.count_succ
    · have hfeeds : ¬ PoolCall.feeds (.packet clock iph tcph) = true :=
        fun hf => hpay (of_decide_eq_true hf)
      rw [if_neg hpay, if_neg hfeeds]
      exact h.count

theorem ConnState.Logged.update {pool : ConnPool} {log : EntryLogs}
    (h : ∀ i, (pool i).Logged (log i)) {j : Fin maxTrackedConns} {conn : ConnState}
    {entries : List PoolCall} (hj : conn.Logged entries) (i : Fin maxTrackedConns) :
    (Function.update pool j conn i).Logged (Function.update log j entries i) := by
  by_cases hi : i = j
  · subst hi
    rw [Function.update_self, Function.update_self]
    exact hj
  · rw [Function.update_of_ne hi, Function.update_of_ne hi]
    exact h i

/-- A packet that goes on with an entry: it is judged, and the entry is logged with
the packet. -/
theorem logged_of_claim {pool : ConnPool} {log : EntryLogs} (h : ∀ i, (pool i).Logged (log i))
    {clock : Clock} {iph : IpHdr} {tcph : TcpHdr} (hclose : ¬ (tcph.fin = true ∨ tcph.rst = true))
    {conn : ConnState} {entries : List PoolCall} (hconn : conn.Logged entries)
    (hclaim : (pool (tcpFlowOf iph tcph).slot).claim clock.jiffies iph tcph = some conn)
    (i : Fin maxTrackedConns) :
    ((monitorTcpStats pool clock iph tcph).pool i).Logged
      (Function.update log (tcpFlowOf iph tcph).slot (entries ++ [.packet clock iph tcph]) i) := by
  rw [monitorTcpStats_of_claim hclose hclaim]
  have hentry := judge_logged hconn pool clock iph tcph
  obtain ⟨conn', -, hpool, -⟩ := judge_spec pool conn clock iph tcph
  rw [hpool, Function.update_self] at hentry
  rw [hpool]
  exact .update h hentry i

theorem logged_packet {pool : ConnPool} {log : EntryLogs} (h : ∀ i, (pool i).Logged (log i))
    (clock : Clock) (iph : IpHdr) (tcph : TcpHdr) (i : Fin maxTrackedConns) :
    ((monitorTcpStats pool clock iph tcph).pool i).Logged
      (noted pool log (.packet clock iph tcph) i) := by
  rw [noted]
  by_cases hclose : tcph.fin = true ∨ tcph.rst = true
  · rw [if_pos hclose, monitorTcpStats_of_closing hclose]
    dsimp only
    split
    · exact .update h ConnState.logged_zero i
    · exact h i
  rw [if_neg hclose]
  by_cases howned : (pool (tcpFlowOf iph tcph).slot).ownedBy (tcpFlowOf iph tcph) = true
  · rw [if_pos howned]
    exact logged_of_claim h hclose (h _) (ConnState.claim_of_ownedBy _ howned) i
  rw [if_neg howned]
  by_cases hreclaim : (pool (tcpFlowOf iph tcph).slot).reclaimable clock.jiffies = true
  · have hclaim : (pool (tcpFlowOf iph tcph).slot).claim clock.jiffies iph tcph
        = some (.fresh clock.jiffies iph tcph) := by
      rw [ConnState.claim, if_neg howned, if_pos hreclaim]
    rw [if_pos hreclaim]
    exact logged_of_claim h hclose (ConnState.logged_fresh _ iph tcph) hclaim i
  · have hclaim := ConnState.claim_eq_none_iff.mpr
      ⟨Bool.eq_false_iff.mpr howned, Bool.eq_false_iff.mpr hreclaim⟩
    rw [if_neg hreclaim, monitorTcpStats_of_collision hclose hclaim]
    exact h i

/-- One call keeps every entry and its log together. -/
theorem logged_poolStep {pool : ConnPool} {log : EntryLogs} (h : ∀ i, (pool i).Logged (log i))
    (c : PoolCall) (i : Fin maxTrackedConns) : ((poolStep pool c).1 i).Logged (noted pool log c i) := by
  cases c with
  | packet clock iph tcph => exact logged_packet h clock iph tcph i
  | headerSent ip port =>
      show (registerHttpHeaderSent pool ip port i).Logged _
      rw [registerHttpHeaderSent, noted]
      split
      · have hconn := h (connHash ip port)
        refine .update h ⟨?_, ?_⟩ i
        · refine hconn.start.imp id ?_
          rintro ⟨clock, iph, tcph, hmem, hrest⟩
          exact ⟨clock, iph, tcph, List.mem_append_left _ hmem, hrest⟩
        · rw [List.countP_append]
          exact hconn.count_succ
      · exact h i
  | complete ip port =>
      show (registerHttpComplete pool ip port i).Logged (log i)
      rw [registerHttpComplete]
      split
      · by_cases hi : i = connHash ip port
        · subst hi
          rw [Function.update_self]
          exact ⟨(h _).start, (h _).count⟩
        · rw [Function.update_of_ne hi]
          exact h i
      · exact h i

theorem logged_poolAfter (calls : List PoolCall) (i : Fin maxTrackedConns) :
    (poolAfter calls i).Logged (entryLog calls i) := by
  induction calls using List.reverseRecOn generalizing i with
  | nil => exact ConnState.logged_zero
  | append_singleton calls c ih =>
      rw [poolAfter_snoc, entryLog_snoc]
      exact logged_poolStep ih c i

/-! ### What the timeout looks at -/

/-- The flow holds its entry and is still to complete its request. -/
def AwaitsHeader (pool : ConnPool) (f : TcpFlow) : Prop :=
  (pool f.slot).ownedBy f = true ∧ (pool f.slot).isHttpComplete = false ∧
    (pool f.slot).isBlocked = false

/-- The packet gets to the test of the timeout: no more than 20 connections of its
address are open. -/
def TimeoutTested (pool : ConnPool) (clock : Clock) (iph : IpHdr) (tcph : TcpHdr) : Prop :=
  ∃ n, openConns pool clock iph tcph = some n ∧ n ≤ 20

/-- A packet that leaves by the timeout. -/
structure TimedOut (pool : ConnPool) (clock : Clock) (iph : IpHdr) (tcph : TcpHdr)
    (r : Monitored) : Prop where
  tested : TimeoutTested pool clock iph tcph
  awaits : AwaitsHeader pool (tcpFlowOf iph tcph)
  begun : (r.pool (tcpFlowOf iph tcph).slot).httpStartTime = 0 → clock.jiffies = 0
  late : secondsAfter slowlorisTimeout clock.jiffies
    (r.pool (tcpFlowOf iph tcph).slot).httpStartTime = true
  event : 0 < (r.pool (tcpFlowOf iph tcph).slot).httpHeaderCount.toNat →
    ∃ e ∈ r.events, e.threatType = threatSlowloris

/-- No moment is 30 s after itself. -/
theorem not_late_self (clock : Clock) :
    ¬ secondsAfter slowlorisTimeout clock.jiffies clock.jiffies = true := by
  rw [secondsAfter_iff (isMoment_jiffies clock) (isMoment_jiffies clock) (by decide)]
  omega

theorem timedOut_of_timeout {pool : ConnPool} {clock : Clock} {iph : IpHdr} {tcph : TcpHdr}
    (h : (monitorTcpStats pool clock iph tcph).judged = .timeout) :
    TimedOut pool clock iph tcph (monitorTcpStats pool clock iph tcph) := by
  have hdrop : (monitorTcpStats pool clock iph tcph).judged.drop = true := by
    rw [h]
    rfl
  obtain ⟨conn, hclaim, hjudged⟩ := judgedAs_of_drop hdrop
  have hfollows := ConnState.Follows.seen_synFlood conn clock iph tcph
  have hstart := seen_synFlood_httpStartTime conn clock iph tcph
  have htested : TimeoutTested pool clock iph tcph := by
    obtain ⟨n, hasked, hlimit⟩ := openConns_of_slowloris (Or.inr h)
    refine ⟨n, hasked, Nat.le_of_not_lt fun hover => ?_⟩
    rw [hlimit.mp hover] at h
    cases h
  generalize monitorTcpStats pool clock iph tcph = r at h hjudged
  cases hjudged with
  | blocked => cases h
  | clear => cases h
  | maxSockets => cases h
  | waiting => cases h
  | timeout hopen hport hwait hcount htime preview details =>
      generalize ((conn.seen clock.jiffies iph tcph).synFlood clock iph tcph).1 = c
        at hfollows hstart hopen hwait htime
      refine ⟨htested, ?_, ?_, ?_, ?_⟩
      · have howned : (pool (tcpFlowOf iph tcph).slot).ownedBy (tcpFlowOf iph tcph) = true := by
          -- on a fresh entry the wait begins with this packet
          by_contra hnot
          rw [ConnState.claim, if_neg hnot] at hclaim
          split at hclaim
          · obtain rfl := Option.some.inj hclaim
            have hzero : c.httpStartTime = 0 := hstart
            rw [ConnState.startHttp, if_pos hzero] at htime
            exact not_late_self clock htime
          · cases hclaim
        rw [ConnState.claim_of_ownedBy _ howned] at hclaim
        refine ⟨howned, ?_⟩
        rw [Option.some.inj hclaim]
        constructor
        · exact hfollows.isHttpComplete.symm.trans hwait
        · exact Bool.eq_false_iff.mpr fun hb => Bool.eq_false_iff.mp hopen (hfollows.isBlocked hb)
      · dsimp only
        rw [Function.update_self]
        exact c.startHttp_httpStartTime clock.jiffies
      · dsimp only
        rw [Function.update_self]
        exact htime
      · dsimp only
        rw [Function.update_self]
        intro hpos
        have hsent : (c.startHttp clock.jiffies).httpHeaderCount.toNat > 0 := hpos
        refine ⟨monitorEvent clock iph tcph threatSlowloris severityWarning preview details,
          List.mem_append_right _ ?_, FwEvent.make_threatType ..⟩
        rw [if_pos hsent]
        exact List.mem_singleton_self _

/-- The log of a packet's entry, with the packet in it. -/
def logWith (before : List PoolCall) (clock : Clock) (iph : IpHdr) (tcph : TcpHdr) : List PoolCall :=
  entryLog (before ++ [.packet clock iph tcph]) (tcpFlowOf iph tcph).slot

/-- A packet to port 80 or 443 in the log is more than 30 s old. -/
def Overdue (now : Clock) (log : List PoolCall) : Prop :=
  ∃ clock iph tcph, .packet clock iph tcph ∈ log ∧ monitoredPort tcph = true ∧
    clock.jiffies.toNat + hz * slowlorisTimeout < now.jiffies.toNat

/-- The wait that the timeout ends began at such a packet. -/
theorem TimedOut.overdue {before : List PoolCall} {clock : Clock} {iph : IpHdr} {tcph : TcpHdr}
    (h : TimedOut (poolAfter before) clock iph tcph
      (monitorTcpStats (poolAfter before) clock iph tcph)) :
    Overdue clock (logWith before clock iph tcph) := by
  have hlogged := logged_poolAfter (before ++ [.packet clock iph tcph]) (tcpFlowOf iph tcph).slot
  rw [poolAfter_packet] at hlogged
  have hlate := h.late
  rcases hlogged.start with hzero | ⟨clock', iph', tcph', hmem, hport, hstart⟩
  · -- a start at tick 0 was set by this packet, or there is none
    have hnow := h.begun hzero
    rw [hzero, ← hnow] at hlate
    exact absurd hlate (not_late_self clock)
  · refine ⟨clock', iph', tcph', hmem, hport, ?_⟩
    rw [hstart] at hlate
    exact (secondsAfter_iff (isMoment_jiffies clock) (isMoment_jiffies clock') (by decide)).mp hlate

/-! ### Idle connections -/

/-- A packet with TCP payload. -/
def PoolCall.hasPayload : PoolCall → Bool
  | .packet _ iph tcph => payloadLen iph tcph > 0
  | _ => false

/-- A packet that leaves by the timeout is on an entry that has carried payload. -/
def IdleSpared (before : List PoolCall) (clock : Clock) (iph : IpHdr) (tcph : TcpHdr) : Prop :=
  (monitorTcpStats (poolAfter before) clock iph tcph).judged = .timeout →
    ∃ c ∈ logWith before clock iph tcph, c.hasPayload = true

/-- An entry that waits without having carried payload gets no packet that is tested
for the timeout more than 30 s after one to port 80 or 443. -/
def IdleShort (before : List PoolCall) (clock : Clock) (iph : IpHdr) (tcph : TcpHdr) : Prop :=
  TimeoutTested (poolAfter before) clock iph tcph →
    AwaitsHeader (poolAfter before) (tcpFlowOf iph tcph) →
    (∀ c ∈ logWith before clock iph tcph, c.hasPayload = false) →
    ¬ Overdue clock (logWith before clock iph tcph)

/-- **Idle connections are spared** in a run where none lasts longer than 30 s. -/
theorem idle_spared_of_short {calls : List PoolCall}
    (h : ∀ before clock iph tcph after, calls = before ++ .packet clock iph tcph :: after →
      IdleShort before clock iph tcph) :
    ∀ before clock iph tcph after, calls = before ++ .packet clock iph tcph :: after →
      IdleSpared before clock iph tcph := by
  intro before clock iph tcph after hcalls htimeout
  have htimed := timedOut_of_timeout htimeout
  by_contra hidle
  refine h before clock iph tcph after hcalls htimed.tested htimed.awaits ?_ htimed.overdue
  intro c hc
  exact Bool.eq_false_iff.mpr fun hpay => hidle ⟨c, hc, hpay⟩

/-- A client that sends part of a request, and then nothing for 39 s. -/
def payloadIp : IpHdr := { slowIp with totLen := 0x3c00 }
def partialCalls : List PoolCall :=
  [.packet ⟨1000, 1⟩ payloadIp slowTcp, .packet ⟨40000, 40⟩ slowIp slowTcp]

/-- The two packets of `partialCalls`, each with the calls before it. -/
theorem partialCalls_split {before after : List PoolCall} {clock : Clock} {iph : IpHdr}
    {tcph : TcpHdr} (h : partialCalls = before ++ .packet clock iph tcph :: after) :
    before = [] ∧ clock = ⟨1000, 1⟩ ∧ iph = payloadIp ∧ tcph = slowTcp ∨
      before = [.packet ⟨1000, 1⟩ payloadIp slowTcp] ∧ clock = ⟨40000, 40⟩ ∧ iph = slowIp ∧
        tcph = slowTcp := by
  cases before with
  | nil =>
      obtain ⟨hc, -⟩ := List.cons.inj h
      obtain ⟨rfl, rfl, rfl⟩ := PoolCall.packet.inj hc
      exact Or.inl ⟨rfl, rfl, rfl, rfl⟩
  | cons b before =>
      obtain ⟨rfl, htail⟩ := List.cons.inj h
      cases before with
      | nil =>
          obtain ⟨hc, -⟩ := List.cons.inj htail
          obtain ⟨rfl, rfl, rfl⟩ := PoolCall.packet.inj hc
          exact Or.inr ⟨rfl, rfl, rfl, rfl⟩
      | cons b' before => simp at htail

theorem logWith_partialCalls :
    logWith [.packet ⟨1000, 1⟩ payloadIp slowTcp] ⟨40000, 40⟩ slowIp slowTcp = partialCalls := by
  decide +kernel

theorem idle_spared_partialCalls :
    (∀ before clock iph tcph after, partialCalls = before ++ .packet clock iph tcph :: after →
      IdleShort before clock iph tcph) ∧
    IdleSpared [.packet ⟨1000, 1⟩ payloadIp slowTcp] ⟨40000, 40⟩ slowIp slowTcp := by
  have hshort : ∀ before clock iph tcph after,
      partialCalls = before ++ .packet clock iph tcph :: after →
      IdleShort before clock iph tcph := by
    intro before clock iph tcph after hcalls _ hawaits hidle
    obtain ⟨rfl, rfl, rfl, rfl⟩ | ⟨rfl, rfl, rfl, rfl⟩ := partialCalls_split hcalls
    · exact absurd hawaits.1 (by decide)
    · rw [logWith_partialCalls] at hidle
      exact absurd (hidle _ List.mem_cons_self) (by decide)
  exact ⟨hshort, idle_spared_of_short hshort _ _ _ _ [] rfl⟩

/-- A health check that opens a connection and never sends anything is blocked
after 39 s. -/
theorem idle_probe_blocked :
    ¬ IdleSpared [.packet ⟨1000, 1⟩ slowIp slowTcp] ⟨40000, 40⟩ slowIp slowTcp := by
  have hjudged : (monitorTcpStats (poolAfter [.packet ⟨1000, 1⟩ slowIp slowTcp]) ⟨40000, 40⟩
      slowIp slowTcp).judged = .timeout := by
    decide +kernel
  have hidle : (logWith [.packet ⟨1000, 1⟩ slowIp slowTcp] ⟨40000, 40⟩ slowIp slowTcp).any
      PoolCall.hasPayload = false := by
    decide +kernel
  intro h
  obtain ⟨c, hc, hpay⟩ := h hjudged
  exact List.any_eq_false.mp hidle c hc hpay

/-! ### The event of the timeout -/

/-- If the packet leaves by the timeout and its entry has carried payload, the
block is reported. -/
def TimeoutReported (before : List PoolCall) (clock : Clock) (iph : IpHdr) (tcph : TcpHdr) : Prop :=
  (monitorTcpStats (poolAfter before) clock iph tcph).judged = .timeout →
    (∃ c ∈ logWith before clock iph tcph, c.hasPayload = true) →
    ∃ e ∈ (monitorTcpStats (poolAfter before) clock iph tcph).events,
      e.threatType = threatSlowloris

/-- Of an entry that waits, has carried payload and gets a packet that is tested for
the timeout more than 30 s after one to port 80 or 443, the counter is not back
at 0. -/
def CountShows (before : List PoolCall) (clock : Clock) (iph : IpHdr) (tcph : TcpHdr) : Prop :=
  TimeoutTested (poolAfter before) clock iph tcph →
    AwaitsHeader (poolAfter before) (tcpFlowOf iph tcph) →
    Overdue clock (logWith before clock iph tcph) →
    (∃ c ∈ logWith before clock iph tcph, c.hasPayload = true) →
    ¬ 256 ∣ (logWith before clock iph tcph).countP PoolCall.feeds

/-- **A timeout is reported** in a run where the counter never shows 0 for an entry
that has carried payload. -/
theorem timeout_reported_of_count {calls : List PoolCall}
    (h : ∀ before clock iph tcph after, calls = before ++ .packet clock iph tcph :: after →
      CountShows before clock iph tcph) :
    ∀ before clock iph tcph after, calls = before ++ .packet clock iph tcph :: after →
      TimeoutReported before clock iph tcph := by
  intro before clock iph tcph after hcalls htimeout hpay
  have htimed := timedOut_of_timeout htimeout
  have hcount := h before clock iph tcph after hcalls htimed.tested htimed.awaits htimed.overdue hpay
  have hlogged := logged_poolAfter (before ++ [.packet clock iph tcph]) (tcpFlowOf iph tcph).slot
  rw [poolAfter_packet] at hlogged
  apply htimed.event
  rw [hlogged.count]
  exact Nat.pos_of_ne_zero fun hzero => hcount (Nat.dvd_of_mod_eq_zero hzero)

theorem timeout_reported_partialCalls :
    (∀ before clock iph tcph after, partialCalls = before ++ .packet clock iph tcph :: after →
      CountShows before clock iph tcph) ∧
    TimeoutReported [.packet ⟨1000, 1⟩ payloadIp slowTcp] ⟨40000, 40⟩ slowIp slowTcp := by
  have hshows : ∀ before clock iph tcph after,
      partialCalls = before ++ .packet clock iph tcph :: after →
      CountShows before clock iph tcph := by
    intro before clock iph tcph after hcalls _ hawaits _ _
    obtain ⟨rfl, rfl, rfl, rfl⟩ | ⟨rfl, rfl, rfl, rfl⟩ := partialCalls_split hcalls
    · exact absurd hawaits.1 (by decide)
    · rw [logWith_partialCalls]
      decide
  exact ⟨hshows, timeout_reported_of_count hshows _ _ _ _ [] rfl⟩

/-! A client that sends a request to port 443 in `n` packets, alone in the pool. -/

def busyTcp : TcpHdr := { slowTcp with dest := 0xbb01 }
def busyFlow : TcpFlow := tcpFlowOf payloadIp busyTcp
def busyCalls (n : Nat) : List PoolCall := List.replicate n (.packet ⟨1000, 1⟩ payloadIp busyTcp)

/-- Its entry after them. -/
def busyEntry (n : Nat) : ConnState :=
  { ConnState.fresh 100 payloadIp busyTcp with
    httpStartTime := 100
    httpHeaderCount := BitVec.ofNat 8 n }

theorem countOpenConnections_single (j : Fin maxTrackedConns) (conn : ConnState) (ip : BitVec 32) :
    countOpenConnections (Function.update initConnPool j conn) ip ≤ 1 := by
  have hzero : ConnState.zero.isOpen ip = false :=
    decide_eq_false fun h => h.2.1 rfl
  refine Nat.le_trans (List.countP_mono_left fun i _ hi => ?_)
    (List.nodup_iff_count_le_one.mp (List.nodup_finRange maxTrackedConns) j)
  by_cases hij : i = j
  · exact beq_iff_eq.mpr hij
  · rw [Function.update_of_ne hij, initConnPool, hzero] at hi
    cases hi

/-- One packet of the request, on a new entry or that of the packets before it. -/
theorem busy_checked {conn : ConnState} {n : Nat}
    (hconn : conn = .fresh 100 payloadIp busyTcp ∧ n = 0 ∨ conn = busyEntry n) :
    (conn.seen (Clock.jiffies ⟨1000, 1⟩) payloadIp busyTcp).synFlood ⟨1000, 1⟩ payloadIp busyTcp
      = ({ busyEntry (n + 1) with httpStartTime := conn.httpStartTime }, []) := by
  have hpay : monitoredPort busyTcp = true ∧ payloadLen payloadIp busyTcp > 0 := by decide
  have hsyn : ¬ (busyTcp.syn = true ∧ busyTcp.ack = false) := by decide
  rw [ConnState.seen, if_pos hpay, ConnState.synFlood, if_neg hsyn]
  obtain ⟨rfl, rfl⟩ | rfl := hconn
  · rfl
  · have hnext : BitVec.ofNat 8 n + 1 = BitVec.ofNat 8 (n + 1) := (BitVec.ofNat_add n 1).symm
    rw [busyEntry, busyEntry, ← hnext]
    rfl

theorem busy_started {conn : ConnState} {n : Nat}
    (hconn : conn = .fresh 100 payloadIp busyTcp ∧ n = 0 ∨ conn = busyEntry n) :
    ({ busyEntry (n + 1) with httpStartTime := conn.httpStartTime } : ConnState).startHttp
      (Clock.jiffies ⟨1000, 1⟩) = busyEntry (n + 1) := by
  obtain ⟨rfl, rfl⟩ | rfl := hconn
  · rfl
  · rfl

theorem judge_busy {pool : ConnPool} {conn : ConnState} {n : Nat}
    (hpool : ∀ c, Function.update pool busyFlow.slot c
      = Function.update initConnPool busyFlow.slot c)
    (hconn : conn = .fresh 100 payloadIp busyTcp ∧ n = 0 ∨ conn = busyEntry n) :
    (judge pool conn ⟨1000, 1⟩ payloadIp busyTcp).pool
      = Function.update initConnPool busyFlow.slot (busyEntry (n + 1)) := by
  have h := judge_judgedAs pool conn ⟨1000, 1⟩ payloadIp busyTcp
  have hstarted := busy_started hconn
  rw [busy_checked hconn] at h
  generalize judge pool conn ⟨1000, 1⟩ payloadIp busyTcp = r at h
  cases h with
  | blocked hblocked => cases hblocked
  | clear hopen hdone => cases hdone (by decide)
  | maxSockets hopen hport hwait hcount =>
      -- there is one entry in the pool
      rw [hstarted] at hcount
      have hle := countOpenConnections_single busyFlow.slot (busyEntry (n + 1)) payloadIp.saddr
      rw [← hpool] at hle
      exact absurd (Nat.lt_of_lt_of_le hcount hle) (by decide)
  | timeout hopen hport hwait hcount htime =>
      rw [hstarted] at htime
      exact absurd htime (not_late_self ⟨1000, 1⟩)
  | waiting =>
      dsimp only
      rw [hstarted]
      exact hpool _

theorem poolAfter_busyCalls (n : Nat) :
    poolAfter (busyCalls (n + 1)) = Function.update initConnPool busyFlow.slot (busyEntry (n + 1)) := by
  induction n with
  | zero =>
      have hone : busyCalls (0 + 1) = [] ++ [.packet ⟨1000, 1⟩ payloadIp busyTcp] := rfl
      have hclaim : (initConnPool busyFlow.slot).claim (Clock.jiffies ⟨1000, 1⟩) payloadIp busyTcp
          = some (.fresh 100 payloadIp busyTcp) := by
        decide
      rw [hone, poolAfter_packet, poolAfter_nil, monitorTcpStats_of_claim (by decide) hclaim]
      exact judge_busy (fun _ => rfl) (Or.inl ⟨rfl, rfl⟩)
  | succ n ih =>
      have howned : (Function.update initConnPool busyFlow.slot (busyEntry (n + 1))
          busyFlow.slot).ownedBy busyFlow = true := by
        rw [Function.update_self]
        rfl
      rw [busyCalls, List.replicate_succ', ← busyCalls, poolAfter_packet, ih,
        monitorTcpStats_of_claim (by decide) (ConnState.claim_of_ownedBy _ howned)]
      apply judge_busy
      · intro c
        exact Function.update_idem _ _ _
      · right
        exact Function.update_self _ _ _

theorem entryLog_busyCalls (n : Nat) : entryLog (busyCalls (n + 1)) busyFlow.slot = busyCalls (n + 1) := by
  induction n with
  | zero => decide
  | succ n ih =>
      have howned : (poolAfter (busyCalls (n + 1)) busyFlow.slot).ownedBy busyFlow = true := by
        rw [poolAfter_busyCalls, Function.update_self]
        rfl
      have hopen : ¬ (busyTcp.fin = true ∨ busyTcp.rst = true) := by decide
      rw [busyCalls, List.replicate_succ', entryLog_snoc]
      exact (noted_of_ownedBy _ hopen howned).trans (congrArg (· ++ _) ih)

/-- After 256 packets the counter is back at 0: the block of the next packet,
which comes too late, is not reported. -/
theorem wrapped_count_silent :
    ¬ TimeoutReported (busyCalls 256) ⟨40000, 40⟩ slowIp busyTcp := by
  -- 256 is 0 in the entry, so this needs no run of 256 calls
  have hcall : (monitorTcpStats (Function.update initConnPool busyFlow.slot (busyEntry 256))
      ⟨40000, 40⟩ slowIp busyTcp).judged = .timeout ∧
      (monitorTcpStats (Function.update initConnPool busyFlow.slot (busyEntry 256))
        ⟨40000, 40⟩ slowIp busyTcp).events = [] := by
    decide +kernel
  rw [← poolAfter_busyCalls 255] at hcall
  have hflow : tcpFlowOf slowIp busyTcp = busyFlow := rfl
  have howned : (poolAfter (busyCalls 256) (tcpFlowOf slowIp busyTcp).slot).ownedBy
      (tcpFlowOf slowIp busyTcp) = true := by
    rw [hflow, poolAfter_busyCalls 255, Function.update_self]
    rfl
  have hlog : logWith (busyCalls 256) ⟨40000, 40⟩ slowIp busyTcp
      = busyCalls 256 ++ [.packet ⟨40000, 40⟩ slowIp busyTcp] := by
    rw [logWith, entryLog_snoc, noted_of_ownedBy _ (by decide) howned, hflow,
      entryLog_busyCalls 255]
  intro h
  obtain ⟨e, he, -⟩ := h hcall.1 (by
    refine ⟨.packet ⟨1000, 1⟩ payloadIp busyTcp, ?_, by decide⟩
    rw [hlog]
    exact List.mem_append_left _ (List.mem_replicate.mpr ⟨by decide, rfl⟩))
  rw [hcall.2] at he
  cases he

end Nullsploit
