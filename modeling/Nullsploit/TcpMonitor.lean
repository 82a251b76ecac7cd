/-
Nullsploit/TcpMonitor.lean

The TCP monitor, kernel/tcp_monitor.c: a pool of 4096 connection states, one
slot for each value of `conn_hash`, and the checks for SYN floods and
slowloris that every packet goes through.

`monitorTcpStats` says by which branch a packet leaves it (`Judged`), and with
it whether it is dropped.  `monitorTcpStats_cases` lists all a call can do to
the pool; the modules about flows and limits use nothing else.
`monitorTcpStats_pool_eq_iff` says when a call leaves the pool as it was.

Time is the userspace build's (userspace_compat.h): `jiffies` is the
millisecond clock divided by ten, so it stays far below the sign bit of
`time_after`, and comparing two moments is comparing numbers
(`timeAfter_add_iff`).
-/
import Mathlib.Data.List.FinRange
import Mathlib.Logic.Function.Basic
import Nullsploit.FwInspect
import Nullsploit.Packet

namespace Nullsploit

open CText

/-! ### Time -/

/-- What the code reads of the clock: `get_millis` and
`ktime_get_real_seconds`. -/
structure Clock where
  millis : BitVec 64
  seconds : Nat
  deriving DecidableEq, Repr

/-- `HZ`. -/
def hz : Nat := 100

/-- `get_millis() / 10`. -/
def Clock.jiffies (clock : Clock) : BitVec 64 := clock.millis / 10#64

/-- `time_after(a, b)`, that is `(long)b - (long)a < 0`. -/
def timeAfter (a b : BitVec 64) : Bool := (b - a).slt 0

/-- `time_after(now, t + HZ * secs)`. -/
def secondsAfter (secs : Nat) (now t : BitVec 64) : Bool :=
  timeAfter now (t + BitVec.ofNat 64 (hz * secs))

/-! ### The pool -/

/-- `MAX_TRACKED_CONNS`. -/
def maxTrackedConns : Nat := 4096

/-- `SYN_FLOOD_THRESHOLD`. -/
def synFloodThreshold : Nat := 100

/-- `SLOWLORIS_TIMEOUT`. -/
def slowlorisTimeout : Nat := 30

/-- `struct conn_state`; the two flags are only ever 0 or 1. -/
structure ConnState where
  srcIp : BitVec 32
  srcPort : BitVec 16
  destPort : BitVec 16
  lastSeen : BitVec 64
  synWindowStart : BitVec 64
  synCount : BitVec 32
  httpStartTime : BitVec 64
  httpHeaderCount : BitVec 8
  isHttpComplete : Bool
  isBlocked : Bool
  deriving DecidableEq, Repr

/-- The state after `memset(conn, 0, sizeof(struct conn_state))`. -/
def ConnState.zero : ConnState := ⟨0, 0, 0, 0, 0, 0, 0, 0, false, false⟩

/-- `conn_pool`. -/
abbrev ConnPool := Fin maxTrackedConns → ConnState

/-- `init_conn_pool`. -/
def initConnPool : ConnPool := fun _ => .zero

/-- `conn_hash`. -/
def connHash (ip : BitVec 32) (port : BitVec 16) : Fin maxTrackedConns :=
  let hash := ip
  let hash := hash + (hash <<< 10)
  let hash := hash ^^^ (hash >>> 6)
  let hash := hash + port.setWidth 32
  let hash := hash + (hash <<< 3)
  let hash := hash ^^^ (hash >>> 11)
  let hash := hash + (hash <<< 15)
  ⟨hash.toNat % maxTrackedConns, Nat.mod_lt _ (by decide)⟩

/-- The slot of a flow. -/
def TcpFlow.slot (f : TcpFlow) : Fin maxTrackedConns := connHash f.ip f.port

/-- `conn->src_ip == ip && conn->src_port == port`. -/
def ConnState.ownedBy (conn : ConnState) (f : TcpFlow) : Bool :=
  conn.srcIp = f.ip ∧ conn.srcPort = f.port

/-- An entry that `count_open_connections` counts for an address. -/
def ConnState.isOpen (conn : ConnState) (ip : BitVec 32) : Bool :=
  conn.srcIp = ip ∧ conn.srcIp ≠ 0 ∧ conn.isHttpComplete = false ∧ conn.isBlocked = false

/-- `count_open_connections`. -/
def countOpenConnections (pool : ConnPool) (ip : BitVec 32) : Nat :=
  (List.finRange maxTrackedConns).countP fun i => (pool i).isOpen ip

/-- `register_http_header_sent`. -/
def registerHttpHeaderSent (pool : ConnPool) (ip : BitVec 32) (port : BitVec 16) : ConnPool :=
  let conn := pool (connHash ip port)
  if conn.ownedBy ⟨ip, port⟩ then
    Function.update pool (connHash ip port)
      { conn with httpHeaderCount := conn.httpHeaderCount + 1 }
  else pool

/-- `register_http_complete`. -/
def registerHttpComplete (pool : ConnPool) (ip : BitVec 32) (port : BitVec 16) : ConnPool :=
  let conn := pool (connHash ip port)
  if conn.ownedBy ⟨ip, port⟩ then
    Function.update pool (connHash ip port) { conn with isHttpComplete := true }
  else pool

/-! ### A packet in the monitor -/

/-- The branch by which a packet leaves `monitor_tcp_stats`. -/
inductive Judged
  | closing
  | collision
  | blocked
  | passed
  | maxSockets
  | timeout
  deriving DecidableEq, Repr

/-- The value returned: 1 drops the packet. -/
def Judged.drop : Judged → Bool
  | .blocked => true
  | .maxSockets => true
  | .timeout => true
  | _ => false

/-- What a call leaves behind. -/
structure Monitored where
  pool : ConnPool
  judged : Judged
  events : List FwEvent

/-- A reclaimed entry. -/
def ConnState.fresh (now : BitVec 64) (iph : IpHdr) (tcph : TcpHdr) : ConnState :=
  { ConnState.zero with
    srcIp := iph.saddr
    srcPort := tcph.source
    destPort := tcph.dest
    synWindowStart := now
    lastSeen := now }

/-- May a packet of another flow take the entry? -/
def ConnState.reclaimable (conn : ConnState) (now : BitVec 64) : Bool :=
  conn.srcIp = 0 ∨ secondsAfter 60 now conn.lastSeen ∨ secondsAfter 5 now conn.lastSeen

/-- The entry a packet goes on with: its own or a reclaimed one; `none` lets it
pass on a collision. -/
def ConnState.claim (conn : ConnState) (now : BitVec 64) (iph : IpHdr) (tcph : TcpHdr) :
    Option ConnState :=
  if conn.ownedBy (tcpFlowOf iph tcph) then some conn
  else if conn.reclaimable now then some (.fresh now iph tcph)
  else none

/-- `dport == 80 || dport == 443`. -/
def monitoredPort (tcph : TcpHdr) : Bool := ntohs tcph.dest = 80 ∨ ntohs tcph.dest = 443

/-- `last_seen`, and the count of packets with payload. -/
def ConnState.seen (conn : ConnState) (now : BitVec 64) (iph : IpHdr) (tcph : TcpHdr) : ConnState :=
  let conn := { conn with lastSeen := now }
  if monitoredPort tcph ∧ payloadLen iph tcph > 0 then
    { conn with httpHeaderCount := conn.httpHeaderCount + 1 }
  else conn

/-- The event of the monitor for a packet. -/
def monitorEvent (clock : Clock) (iph : IpHdr) (tcph : TcpHdr) (threatType severity : UInt8)
    (preview details : List UInt8) : FwEvent :=
  .make clock.seconds iph.saddr iph.daddr tcph.source tcph.dest threatType severity preview details

/-- 1. SYN flood detection. -/
def ConnState.synFlood (conn : ConnState) (clock : Clock) (iph : IpHdr) (tcph : TcpHdr) :
    ConnState × List FwEvent :=
  if tcph.syn ∧ tcph.ack = false then
    if secondsAfter 1 clock.jiffies conn.synWindowStart then
      ({ conn with synCount := 1, synWindowStart := clock.jiffies }, [])
    else
      let conn := { conn with synCount := conn.synCount + 1 }
      if conn.synCount.toNat > synFloodThreshold then
        ({ conn with isBlocked := true },
          -- one event for each window
          if conn.synCount.toNat = synFloodThreshold + 1 then
            [monitorEvent clock iph tcph threatSynFlood severityCritical (str "SYN Flood Detected")
              (str "SYN Rate: " ++ decimal conn.synCount.toNat ++ str "/sec (Threshold: " ++
                decimal synFloodThreshold ++ str ")")]
          else [])
      else (conn, [])
  else (conn, [])

/-- `http_start_time` is set by the first packet that gets that far. -/
def ConnState.startHttp (conn : ConnState) (now : BitVec 64) : ConnState :=
  if conn.httpStartTime = 0 then { conn with httpStartTime := now } else conn

/-- 2. Slowloris detection, on the entry of an incomplete request. -/
def slowloris (pool : ConnPool) (conn : ConnState) (clock : Clock) (iph : IpHdr) (tcph : TcpHdr) :
    Monitored :=
  let index := connHash iph.saddr tcph.source
  let conn := conn.startHttp clock.jiffies
  let pool := Function.update pool index conn
  let openConns := countOpenConnections pool iph.saddr
  let blocked := Function.update pool index { conn with isBlocked := true }
  if openConns > 20 then
    ⟨blocked, .maxSockets,
      [monitorEvent clock iph tcph threatSlowloris severityCritical
        (str "Slowloris (Max Sockets Exceeded)")
        (str "IP has " ++ decimal openConns ++
          str " concurrent incomplete HTTP connections (Limit: 20)")]⟩
  else if secondsAfter slowlorisTimeout clock.jiffies conn.httpStartTime then
    ⟨blocked, .timeout,
      -- no event if nothing was ever sent on the connection
      if conn.httpHeaderCount.toNat > 0 then
        [monitorEvent clock iph tcph threatSlowloris severityWarning (str "Slowloris Timeout")
          (str "HTTP request headers took longer than " ++ decimal slowlorisTimeout ++
            str " seconds to complete")]
      else []⟩
  else ⟨pool, .passed, []⟩

/-- The checks on the entry a packet goes on with. -/
def judge (pool : ConnPool) (conn : ConnState) (clock : Clock) (iph : IpHdr) (tcph : TcpHdr) :
    Monitored :=
  let index := connHash iph.saddr tcph.source
  let (conn, events) := (conn.seen clock.jiffies iph tcph).synFlood clock iph tcph
  if conn.isBlocked then ⟨Function.update pool index conn, .blocked, events⟩
  else if monitoredPort tcph ∧ conn.isHttpComplete = false then
    let r := slowloris pool conn clock iph tcph
    { r with events := events ++ r.events }
  else ⟨Function.update pool index conn, .passed, events⟩

/-- `monitor_tcp_stats`. -/
def monitorTcpStats (pool : ConnPool) (clock : Clock) (iph : IpHdr) (tcph : TcpHdr) : Monitored :=
  let index := connHash iph.saddr tcph.source
  let conn := pool index
  if tcph.fin ∨ tcph.rst then
    ⟨if conn.ownedBy (tcpFlowOf iph tcph) then Function.update pool index .zero else pool,
      .closing, []⟩
  else
    match conn.claim clock.jiffies iph tcph with
    | none => ⟨pool, .collision, []⟩
    | some conn => judge pool conn clock iph tcph

/-! ### Comparing moments -/

theorem toNat_jiffies (clock : Clock) : clock.jiffies.toNat = clock.millis.toNat / 10 := by
  simp [Clock.jiffies, BitVec.toNat_udiv]

/-- A moment `jiffies` can yield, or 0. -/
def IsMoment (t : BitVec 64) : Prop := t.toNat < 2 ^ 61

theorem isMoment_zero : IsMoment 0 := by
  show 0 < 2 ^ 61
  decide

theorem isMoment_jiffies (clock : Clock) : IsMoment clock.jiffies := by
  show clock.jiffies.toNat < 2 ^ 61
  rw [toNat_jiffies]
  have := clock.millis.isLt
  omega

/-- Among moments, `time_after` compares numbers. -/
theorem timeAfter_add_iff {now t : BitVec 64} (hnow : IsMoment now) (ht : IsMoment t) {d : Nat}
    (hd : d < 2 ^ 61) : timeAfter now (t + BitVec.ofNat 64 d) = true ↔ t.toNat + d < now.toNat := by
  unfold IsMoment at hnow ht
  have hsum : (t + BitVec.ofNat 64 d).toNat = t.toNat + d := by
    rw [BitVec.toNat_add, BitVec.toNat_ofNat, Nat.mod_eq_of_lt (a := d) (by omega),
      Nat.mod_eq_of_lt (by omega)]
  have hsub : (t + BitVec.ofNat 64 d - now).toNat
      = (2 ^ 64 - now.toNat + (t.toNat + d)) % 2 ^ 64 := by
    rw [BitVec.toNat_sub, hsum]
  show (t + BitVec.ofNat 64 d - now).slt 0#64 = true ↔ _
  rw [BitVec.slt_zero_eq_msb, BitVec.msb_eq_decide, hsub, decide_eq_true_iff]
  omega

theorem secondsAfter_iff {now t : BitVec 64} (hnow : IsMoment now) (ht : IsMoment t) {secs : Nat}
    (hs : secs ≤ 60) : secondsAfter secs now t = true ↔ t.toNat + hz * secs < now.toNat :=
  timeAfter_add_iff hnow ht (by unfold hz; omega)

/-! ### Whose entry -/

theorem ConnState.ownedBy_iff {conn : ConnState} {f : TcpFlow} :
    conn.ownedBy f = true ↔ TcpFlow.mk conn.srcIp conn.srcPort = f := by
  obtain ⟨ip, port⟩ := f
  simp [ConnState.ownedBy]

/-- The entry a packet goes on with is its flow's. -/
theorem ConnState.ownedBy_of_claim {conn c : ConnState} {now : BitVec 64} {iph : IpHdr}
    {tcph : TcpHdr} (h : conn.claim now iph tcph = some c) :
    c.ownedBy (tcpFlowOf iph tcph) = true := by
  unfold ConnState.claim at h
  split at h
  · rename_i howned
    obtain rfl := Option.some.inj h
    exact howned
  · split at h
    · obtain rfl := Option.some.inj h
      exact ConnState.ownedBy_iff.mpr rfl
    · cases h

theorem ConnState.claim_of_ownedBy {conn : ConnState} {iph : IpHdr} {tcph : TcpHdr}
    (now : BitVec 64) (h : conn.ownedBy (tcpFlowOf iph tcph) = true) :
    conn.claim now iph tcph = some conn := if_pos h

/-- A collision: the slot is held by another active flow. -/
theorem ConnState.claim_eq_none_iff {conn : ConnState} {now : BitVec 64} {iph : IpHdr}
    {tcph : TcpHdr} :
    conn.claim now iph tcph = none
      ↔ conn.ownedBy (tcpFlowOf iph tcph) = false ∧ conn.reclaimable now = false := by
  unfold ConnState.claim
  split
  · rename_i howned
    simp [howned]
  · rename_i howned
    split
    · rename_i hreclaim
      simp [hreclaim]
    · rename_i hreclaim
      simp [howned, hreclaim]

/-! ### What a call can do -/

/-- The entry, blocked. -/
def ConnState.block (conn : ConnState) : ConnState := { conn with isBlocked := true }

@[simp] theorem ConnState.block_isBlocked (conn : ConnState) : conn.block.isBlocked = true := rfl

/-- An entry as a packet of its flow leaves it. -/
structure ConnState.Follows (now : BitVec 64) (conn conn' : ConnState) : Prop where
  srcIp : conn'.srcIp = conn.srcIp
  srcPort : conn'.srcPort = conn.srcPort
  lastSeen : conn'.lastSeen = now
  isHttpComplete : conn'.isHttpComplete = conn.isHttpComplete
  isBlocked : conn.isBlocked = true → conn'.isBlocked = true
  httpStartTime : conn'.httpStartTime = conn.httpStartTime ∨
    conn.httpStartTime = 0 ∧ conn'.httpStartTime = now

namespace ConnState.Follows

variable {now : BitVec 64} {conn conn' : ConnState}

theorem block (h : Follows now conn conn') : Follows now conn conn'.block :=
  { h with isBlocked := fun _ => rfl }

theorem startHttp (h : Follows now conn conn') : Follows now conn (conn'.startHttp now) := by
  unfold ConnState.startHttp
  split
  · rename_i h0
    refine { h with httpStartTime := ?_ }
    -- set now, so it was not set before
    rcases h.httpStartTime with hsame | ⟨hzero, _⟩
    · exact Or.inr ⟨hsame ▸ h0, rfl⟩
    · exact Or.inr ⟨hzero, rfl⟩
  · exact h

theorem seen_synFlood (conn : ConnState) (clock : Clock) (iph : IpHdr) (tcph : TcpHdr) :
    Follows clock.jiffies conn ((conn.seen clock.jiffies iph tcph).synFlood clock iph tcph).1 := by
  have hseen : Follows clock.jiffies conn (conn.seen clock.jiffies iph tcph) := by
    unfold ConnState.seen
    dsimp only
    split
    · exact ⟨rfl, rfl, rfl, rfl, id, Or.inl rfl⟩
    · exact ⟨rfl, rfl, rfl, rfl, id, Or.inl rfl⟩
  unfold ConnState.synFlood
  split
  · split
    · exact { hseen with }
    · dsimp only
      split
      · exact { hseen with isBlocked := fun _ => rfl }
      · exact { hseen with }
  · exact hseen

theorem ownedBy {f : TcpFlow} (h : Follows now conn conn') (howned : conn.ownedBy f = true) :
    conn'.ownedBy f = true := by
  rw [ConnState.ownedBy_iff] at howned ⊢
  rw [h.srcIp, h.srcPort, howned]

end ConnState.Follows

/-- How a packet with an entry left the monitor, by the entry before and after
it and the pool after it. -/
structure Verdicted (clock : Clock) (iph : IpHdr) (tcph : TcpHdr) (conn conn' : ConnState)
    (pool' : ConnPool) (judged : Judged) : Prop where
  drop : judged.drop = conn'.isBlocked
  passed : judged.drop = false → monitoredPort tcph = true → conn'.isHttpComplete = false →
    countOpenConnections pool' iph.saddr ≤ 20
  timeout : judged = .timeout → conn.isBlocked = false ∧ conn.isHttpComplete = false ∧
    (conn'.httpStartTime = 0 → clock.jiffies = 0) ∧
    secondsAfter slowlorisTimeout clock.jiffies conn'.httpStartTime = true

/-- The ways an entry with which a packet goes on is judged: the entry after the
SYN check and the events so far, and what the call leaves behind. -/
inductive JudgedAs (pool : ConnPool) (c : ConnState) (events : List FwEvent) (clock : Clock)
    (iph : IpHdr) (tcph : TcpHdr) : Monitored → Prop
  | blocked (hblocked : c.isBlocked = true) :
      JudgedAs pool c events clock iph tcph
        ⟨Function.update pool (tcpFlowOf iph tcph).slot c, .blocked, events⟩
  | clear (hopen : c.isBlocked = false)
      (hdone : monitoredPort tcph = true → c.isHttpComplete = true) :
      JudgedAs pool c events clock iph tcph
        ⟨Function.update pool (tcpFlowOf iph tcph).slot c, .passed, events⟩
  | maxSockets (hopen : c.isBlocked = false) (hport : monitoredPort tcph = true)
      (hwait : c.isHttpComplete = false)
      (hcount : 20 < countOpenConnections (Function.update pool (tcpFlowOf iph tcph).slot
        (c.startHttp clock.jiffies)) iph.saddr) (preview details : List UInt8) :
      JudgedAs pool c events clock iph tcph
        ⟨Function.update pool (tcpFlowOf iph tcph).slot
          (c.startHttp clock.jiffies).block, .maxSockets,
          events ++ [monitorEvent clock iph tcph threatSlowloris severityCritical preview details]⟩
  | timeout (hopen : c.isBlocked = false) (hport : monitoredPort tcph = true)
      (hwait : c.isHttpComplete = false)
      (hcount : countOpenConnections (Function.update pool (tcpFlowOf iph tcph).slot
        (c.startHttp clock.jiffies)) iph.saddr ≤ 20)
      (htime : secondsAfter slowlorisTimeout clock.jiffies
        (c.startHttp clock.jiffies).httpStartTime = true) (preview details : List UInt8) :
      JudgedAs pool c events clock iph tcph
        ⟨Function.update pool (tcpFlowOf iph tcph).slot
          (c.startHttp clock.jiffies).block, .timeout,
          events ++ if (c.startHttp clock.jiffies).httpHeaderCount.toNat > 0 then
            [monitorEvent clock iph tcph threatSlowloris severityWarning preview details]
          else []⟩
  | waiting (hopen : c.isBlocked = false) (hport : monitoredPort tcph = true)
      (hwait : c.isHttpComplete = false)
      (hcount : countOpenConnections (Function.update pool (tcpFlowOf iph tcph).slot
        (c.startHttp clock.jiffies)) iph.saddr ≤ 20)
      (htime : secondsAfter slowlorisTimeout clock.jiffies
        (c.startHttp clock.jiffies).httpStartTime = false) :
      JudgedAs pool c events clock iph tcph
        ⟨Function.update pool (tcpFlowOf iph tcph).slot (c.startHttp clock.jiffies), .passed,
          events⟩

@[simp] theorem ConnState.startHttp_isBlocked (conn : ConnState) (now : BitVec 64) :
    (conn.startHttp now).isBlocked = conn.isBlocked := by
  unfold ConnState.startHttp
  split <;> rfl

@[simp] theorem ConnState.startHttp_httpHeaderCount (conn : ConnState) (now : BitVec 64) :
    (conn.startHttp now).httpHeaderCount = conn.httpHeaderCount := by
  unfold ConnState.startHttp
  split <;> rfl

/-- Only at moment 0 does a started wait look like none. -/
theorem ConnState.startHttp_httpStartTime (conn : ConnState) (now : BitVec 64)
    (h : (conn.startHttp now).httpStartTime = 0) : now = 0 := by
  unfold ConnState.startHttp at h
  split at h
  · exact h
  · rename_i hne
    exact absurd h hne

theorem judge_judgedAs (pool : ConnPool) (conn : ConnState) (clock : Clock) (iph : IpHdr)
    (tcph : TcpHdr) :
    JudgedAs pool ((conn.seen clock.jiffies iph tcph).synFlood clock iph tcph).1
      ((conn.seen clock.jiffies iph tcph).synFlood clock iph tcph).2 clock iph tcph
      (judge pool conn clock iph tcph) := by
  have hslot : connHash iph.saddr tcph.source = (tcpFlowOf iph tcph).slot := rfl
  unfold judge
  generalize (conn.seen clock.jiffies iph tcph).synFlood clock iph tcph = r
  obtain ⟨c, events⟩ := r
  dsimp only
  rw [hslot]
  split
  · rename_i hblocked
    exact .blocked hblocked
  · rename_i hopen
    replace hopen := Bool.eq_false_iff.mpr hopen
    split
    · rename_i hweb
      obtain ⟨hport, hwait⟩ := hweb
      unfold slowloris
      dsimp only
      rw [hslot, Function.update_idem]
      by_cases hcount : countOpenConnections (Function.update pool (tcpFlowOf iph tcph).slot
          (c.startHttp clock.jiffies)) iph.saddr > 20
      · rw [if_pos hcount]
        dsimp only
        generalize str "Slowloris (Max Sockets Exceeded)" = preview
        generalize str "IP has " ++ decimal _ ++ _ = details
        exact JudgedAs.maxSockets hopen hport hwait hcount preview details
      · rw [if_neg hcount]
        by_cases htime : secondsAfter slowlorisTimeout clock.jiffies
            (c.startHttp clock.jiffies).httpStartTime = true
        · rw [if_pos htime]
          dsimp only
          generalize str "Slowloris Timeout" = preview
          generalize str "HTTP request headers took longer than " ++ _ ++ _ = details
          exact JudgedAs.timeout hopen hport hwait (Nat.le_of_not_lt hcount) htime preview details
        · rw [if_neg htime]
          dsimp only
          rw [List.append_nil]
          exact .waiting hopen hport hwait (Nat.le_of_not_lt hcount)
            (Bool.eq_false_iff.mpr htime)
    · rename_i hweb
      refine .clear hopen fun hport => ?_
      exact Bool.eq_true_of_not_eq_false fun hwait => hweb ⟨hport, hwait⟩

/-- The entry is left as the SYN check did, or waiting for its request, or blocked
for that. -/
theorem JudgedAs.entry {pool : ConnPool} {c : ConnState} {events : List FwEvent} {clock : Clock}
    {iph : IpHdr} {tcph : TcpHdr} {r : Monitored} (h : JudgedAs pool c events clock iph tcph r) :
    ∃ c', r.pool = Function.update pool (tcpFlowOf iph tcph).slot c' ∧ r.judged.drop = c'.isBlocked ∧
      (c' = c ∨ monitoredPort tcph = true ∧
        (c' = c.startHttp clock.jiffies ∨ c' = (c.startHttp clock.jiffies).block)) := by
  cases h with
  | blocked hblocked => exact ⟨c, rfl, hblocked.symm, Or.inl rfl⟩
  | clear hopen => exact ⟨c, rfl, hopen.symm, Or.inl rfl⟩
  | maxSockets _ hport =>
      refine ⟨(c.startHttp clock.jiffies).block, rfl, (ConnState.block_isBlocked _).symm, ?_⟩
      exact Or.inr ⟨hport, Or.inr rfl⟩
  | timeout _ hport =>
      refine ⟨(c.startHttp clock.jiffies).block, rfl, (ConnState.block_isBlocked _).symm, ?_⟩
      exact Or.inr ⟨hport, Or.inr rfl⟩
  | waiting hopen hport =>
      refine ⟨c.startHttp clock.jiffies, rfl, ?_, Or.inr ⟨hport, Or.inl rfl⟩⟩
      rw [c.startHttp_isBlocked]
      exact hopen.symm

theorem JudgedAs.verdicted {pool : ConnPool} {conn c : ConnState} {events : List FwEvent}
    {clock : Clock} {iph : IpHdr} {tcph : TcpHdr} {r : Monitored}
    (h : JudgedAs pool c events clock iph tcph r) (hf : conn.Follows clock.jiffies c) :
    ∃ conn', conn.Follows clock.jiffies conn' ∧
      r.pool = Function.update pool (tcpFlowOf iph tcph).slot conn' ∧
      Verdicted clock iph tcph conn conn' r.pool r.judged := by
  have hs := hf.startHttp
  cases h with
  | blocked hblocked => exact ⟨c, hf, rfl, ⟨hblocked.symm, nofun, nofun⟩⟩
  | clear hopen hdone =>
      refine ⟨c, hf, rfl, ⟨hopen.symm, ?_, nofun⟩⟩
      intro _ hport hwait
      rw [hdone hport] at hwait
      cases hwait
  | maxSockets hopen hport hwait hcount preview details =>
      exact ⟨_, hs.block, rfl, ⟨rfl, nofun, nofun⟩⟩
  | timeout hopen hport hwait hcount htime preview details =>
      have hbefore : conn.isBlocked = false :=
        Bool.eq_false_iff.mpr fun h => Bool.eq_false_iff.mp hopen (hf.isBlocked h)
      exact ⟨_, hs.block, rfl, ⟨rfl, nofun, fun _ => ⟨hbefore,
        hf.isHttpComplete.symm.trans hwait, c.startHttp_httpStartTime _, htime⟩⟩⟩
  | waiting hopen hport hwait hcount htime =>
      refine ⟨_, hs, rfl, ⟨?_, fun _ _ _ => hcount, nofun⟩⟩
      exact hopen.symm.trans (c.startHttp_isBlocked _).symm

theorem judge_spec (pool : ConnPool) (conn : ConnState) (clock : Clock) (iph : IpHdr)
    (tcph : TcpHdr) :
    ∃ conn', conn.Follows clock.jiffies conn' ∧
      (judge pool conn clock iph tcph).pool
        = Function.update pool (tcpFlowOf iph tcph).slot conn' ∧
      Verdicted clock iph tcph conn conn' (judge pool conn clock iph tcph).pool
        (judge pool conn clock iph tcph).judged :=
  (judge_judgedAs pool conn clock iph tcph).verdicted (.seen_synFlood conn clock iph tcph)

/-! The three ways through `monitor_tcp_stats`. -/

section Branches

variable {pool : ConnPool} {clock : Clock} {iph : IpHdr} {tcph : TcpHdr}

theorem monitorTcpStats_of_closing (hclose : tcph.fin = true ∨ tcph.rst = true) :
    monitorTcpStats pool clock iph tcph
      = ⟨if (pool (tcpFlowOf iph tcph).slot).ownedBy (tcpFlowOf iph tcph) then
          Function.update pool (tcpFlowOf iph tcph).slot .zero else pool, .closing, []⟩ :=
  if_pos hclose

theorem monitorTcpStats_of_collision (hclose : ¬ (tcph.fin = true ∨ tcph.rst = true))
    (hclaim : (pool (tcpFlowOf iph tcph).slot).claim clock.jiffies iph tcph = none) :
    monitorTcpStats pool clock iph tcph = ⟨pool, .collision, []⟩ := by
  have hslot : connHash iph.saddr tcph.source = (tcpFlowOf iph tcph).slot := rfl
  unfold monitorTcpStats
  dsimp only
  rw [if_neg hclose, hslot, hclaim]

theorem monitorTcpStats_of_claim {conn : ConnState} (hclose : ¬ (tcph.fin = true ∨ tcph.rst = true))
    (hclaim : (pool (tcpFlowOf iph tcph).slot).claim clock.jiffies iph tcph = some conn) :
    monitorTcpStats pool clock iph tcph = judge pool conn clock iph tcph := by
  have hslot : connHash iph.saddr tcph.source = (tcpFlowOf iph tcph).slot := rfl
  unfold monitorTcpStats
  dsimp only
  rw [if_neg hclose, hslot, hclaim]

/-- A packet that is dropped went on with an entry. -/
theorem judgedAs_of_drop (h : (monitorTcpStats pool clock iph tcph).judged.drop = true) :
    ∃ conn : ConnState,
      (pool (tcpFlowOf iph tcph).slot).claim clock.jiffies iph tcph = some conn ∧
      JudgedAs pool ((conn.seen clock.jiffies iph tcph).synFlood clock iph tcph).1
        ((conn.seen clock.jiffies iph tcph).synFlood clock iph tcph).2 clock iph tcph
        (monitorTcpStats pool clock iph tcph) := by
  by_cases hclose : tcph.fin = true ∨ tcph.rst = true
  · rw [monitorTcpStats_of_closing hclose] at h
    cases h
  rcases hclaim : (pool (tcpFlowOf iph tcph).slot).claim clock.jiffies iph tcph with _ | conn
  · rw [monitorTcpStats_of_collision hclose hclaim] at h
    cases h
  rw [monitorTcpStats_of_claim hclose hclaim]
  exact ⟨conn, rfl, judge_judgedAs pool conn clock iph tcph⟩

/-- The number of open connections that is compared with the limit, where a packet
gets that far: without FIN or RST, to a monitored port, and on an entry that is
neither blocked nor complete behind the SYN check. -/
def openConns (pool : ConnPool) (clock : Clock) (iph : IpHdr) (tcph : TcpHdr) : Option Nat :=
  if tcph.fin ∨ tcph.rst then none
  else
    match (pool (tcpFlowOf iph tcph).slot).claim clock.jiffies iph tcph with
    | none => none
    | some conn =>
        let c := ((conn.seen clock.jiffies iph tcph).synFlood clock iph tcph).1
        if c.isBlocked = false ∧ monitoredPort tcph ∧ c.isHttpComplete = false then
          some (countOpenConnections
            (Function.update pool (tcpFlowOf iph tcph).slot (c.startHttp clock.jiffies)) iph.saddr)
        else none

theorem openConns_of_claim {conn c : ConnState} (hclose : ¬ (tcph.fin = true ∨ tcph.rst = true))
    (hclaim : (pool (tcpFlowOf iph tcph).slot).claim clock.jiffies iph tcph = some conn)
    (hc : ((conn.seen clock.jiffies iph tcph).synFlood clock iph tcph).1 = c)
    (hweb : c.isBlocked = false ∧ monitoredPort tcph = true ∧ c.isHttpComplete = false) :
    openConns pool clock iph tcph = some (countOpenConnections
      (Function.update pool (tcpFlowOf iph tcph).slot (c.startHttp clock.jiffies)) iph.saddr) := by
  rw [openConns, if_neg hclose, hclaim]
  dsimp only
  rw [hc, if_pos hweb]

/-- The two limits are tested one after the other, on the same number. -/
theorem openConns_of_slowloris
    (h : (monitorTcpStats pool clock iph tcph).judged = .maxSockets ∨
      (monitorTcpStats pool clock iph tcph).judged = .timeout) :
    ∃ n, openConns pool clock iph tcph = some n ∧
      (20 < n ↔ (monitorTcpStats pool clock iph tcph).judged = .maxSockets) := by
  have hdrop : (monitorTcpStats pool clock iph tcph).judged.drop = true := by
    rcases h with h | h
    · rw [h]
      rfl
    · rw [h]
      rfl
  have hclose : ¬ (tcph.fin = true ∨ tcph.rst = true) := by
    intro hclose
    rw [monitorTcpStats_of_closing hclose] at hdrop
    cases hdrop
  obtain ⟨conn, hclaim, hjudged⟩ := judgedAs_of_drop hdrop
  have hnumber : ∀ {c : ConnState},
      ((conn.seen clock.jiffies iph tcph).synFlood clock iph tcph).1 = c →
      c.isBlocked = false ∧ monitoredPort tcph = true ∧ c.isHttpComplete = false →
      openConns pool clock iph tcph = some (countOpenConnections
        (Function.update pool (tcpFlowOf iph tcph).slot (c.startHttp clock.jiffies)) iph.saddr) :=
    openConns_of_claim hclose hclaim
  generalize monitorTcpStats pool clock iph tcph = r at h hjudged
  cases hjudged with
  | blocked => rcases h with h | h <;> cases h
  | clear => rcases h with h | h <;> cases h
  | waiting => rcases h with h | h <;> cases h
  | maxSockets hopen hport hwait hcount =>
      exact ⟨_, hnumber rfl ⟨hopen, hport, hwait⟩, iff_of_true hcount rfl⟩
  | timeout hopen hport hwait hcount =>
      exact ⟨_, hnumber rfl ⟨hopen, hport, hwait⟩, iff_of_false (Nat.not_lt_of_le hcount) nofun⟩

end Branches

/-- **All a call can do.**  A FIN or RST clears the flow's own entry; a packet
that finds its slot held by another active flow changes nothing; any other one
refreshes the entry it goes on with, and that one only. -/
theorem monitorTcpStats_cases (pool : ConnPool) (clock : Clock) (iph : IpHdr) (tcph : TcpHdr) :
    let f := tcpFlowOf iph tcph
    let r := monitorTcpStats pool clock iph tcph
    ((tcph.fin = true ∨ tcph.rst = true) ∧ r.judged = .closing ∧
      r.pool = if (pool f.slot).ownedBy f then Function.update pool f.slot .zero else pool) ∨
    (tcph.fin = false ∧ tcph.rst = false ∧ r.judged = .collision ∧ r.pool = pool ∧
      (pool f.slot).claim clock.jiffies iph tcph = none) ∨
    (tcph.fin = false ∧ tcph.rst = false ∧ ∃ conn conn',
      (pool f.slot).claim clock.jiffies iph tcph = some conn ∧
      conn.Follows clock.jiffies conn' ∧
      r.pool = Function.update pool f.slot conn' ∧
      Verdicted clock iph tcph conn conn' r.pool r.judged) := by
  intro f r
  by_cases hclose : tcph.fin = true ∨ tcph.rst = true
  · have hr : r = ⟨_, .closing, []⟩ := monitorTcpStats_of_closing hclose
    exact Or.inl ⟨hclose, congrArg Monitored.judged hr, congrArg Monitored.pool hr⟩
  · have hfin : tcph.fin = false := Bool.eq_false_iff.mpr fun h => hclose (Or.inl h)
    have hrst : tcph.rst = false := Bool.eq_false_iff.mpr fun h => hclose (Or.inr h)
    rcases hclaim : (pool f.slot).claim clock.jiffies iph tcph with _ | conn
    · have hr := monitorTcpStats_of_collision hclose hclaim
      exact Or.inr (Or.inl
        ⟨hfin, hrst, congrArg Monitored.judged hr, congrArg Monitored.pool hr, rfl⟩)
    · obtain ⟨conn', hfollows, hpool, hverdict⟩ := judge_spec pool conn clock iph tcph
      rw [← monitorTcpStats_of_claim hclose hclaim] at hpool hverdict
      exact Or.inr (Or.inr ⟨hfin, hrst, conn, conn', rfl, hfollows, hpool, hverdict⟩)

/-! ### What leaves the pool as it was -/

/-- No moment is a second after itself. -/
theorem secondsAfter_one_self (t : BitVec 64) : secondsAfter 1 t t = false := by
  have hsub : t + BitVec.ofNat 64 (hz * 1) - t = BitVec.ofNat 64 (hz * 1) := by
    rw [BitVec.add_comm, BitVec.add_sub_cancel]
  unfold secondsAfter timeAfter
  rw [hsub]
  decide

/-- A SYN is counted, or begins a new window. -/
theorem ConnState.synFlood_ne (conn : ConnState) (clock : Clock) (iph : IpHdr) {tcph : TcpHdr}
    (hsyn : tcph.syn = true ∧ tcph.ack = false) :
    (conn.synFlood clock iph tcph).1.synCount ≠ conn.synCount ∨
      (conn.synFlood clock iph tcph).1.synWindowStart ≠ conn.synWindowStart := by
  have hnext : conn.synCount + 1 ≠ conn.synCount := by simp
  unfold ConnState.synFlood
  rw [if_pos hsyn]
  split
  · rename_i hwindow
    refine Or.inr fun hsame => ?_
    rw [← hsame, secondsAfter_one_self] at hwindow
    cases hwindow
  · dsimp only
    split
    · exact Or.inl hnext
    · exact Or.inl hnext

theorem ConnState.synFlood_httpHeaderCount (conn : ConnState) (clock : Clock) (iph : IpHdr)
    (tcph : TcpHdr) : (conn.synFlood clock iph tcph).1.httpHeaderCount = conn.httpHeaderCount := by
  unfold ConnState.synFlood
  split
  · split
    · rfl
    · dsimp only
      split <;> rfl
  · rfl

/-- The packet is one that the entry does not count: no payload for a monitored
port, no SYN that asks for a connection. -/
def Uncounted (iph : IpHdr) (tcph : TcpHdr) : Prop :=
  ¬ (monitoredPort tcph = true ∧ payloadLen iph tcph > 0) ∧ ¬ (tcph.syn = true ∧ tcph.ack = false)

theorem ConnState.seen_synFlood_eq_iff (conn : ConnState) (clock : Clock) (iph : IpHdr)
    (tcph : TcpHdr) :
    ((conn.seen clock.jiffies iph tcph).synFlood clock iph tcph).1 = conn
      ↔ conn.lastSeen = clock.jiffies ∧ Uncounted iph tcph := by
  constructor
  · intro h
    have hlast := (ConnState.Follows.seen_synFlood conn clock iph tcph).lastSeen
    rw [h] at hlast
    refine ⟨hlast, fun hpay => ?_, fun hsyn => ?_⟩
    · have hcount := congrArg ConnState.httpHeaderCount h
      rw [ConnState.synFlood_httpHeaderCount, ConnState.seen, if_pos hpay] at hcount
      simp at hcount
    · have hsame : (conn.seen clock.jiffies iph tcph).synCount = conn.synCount ∧
          (conn.seen clock.jiffies iph tcph).synWindowStart = conn.synWindowStart := by
        unfold ConnState.seen
        dsimp only
        split
        · exact ⟨rfl, rfl⟩
        · exact ⟨rfl, rfl⟩
      have hne := ConnState.synFlood_ne (conn.seen clock.jiffies iph tcph) clock iph hsyn
      rw [h, hsame.1, hsame.2] at hne
      exact hne.elim (fun hc => hc rfl) fun hw => hw rfl
  · rintro ⟨hlast, hpay, hsyn⟩
    have hseen : conn.seen clock.jiffies iph tcph = conn := by
      unfold ConnState.seen
      rw [if_neg hpay, ← hlast]
    rw [hseen, ConnState.synFlood, if_neg hsyn]

theorem ConnState.startHttp_eq_iff (conn : ConnState) (now : BitVec 64) :
    conn.startHttp now = conn ↔ (conn.httpStartTime = 0 → now = 0) := by
  unfold ConnState.startHttp
  split
  · rename_i hzero
    constructor
    · intro h _
      have hstart := congrArg ConnState.httpStartTime h
      exact hstart.trans hzero
    · intro h
      rw [h hzero, ← hzero]
  · rename_i hne
    exact ⟨fun _ h => absurd h hne, fun _ => rfl⟩

/-- The wait for the request header of an open entry goes on: it has begun, and
neither of the two limits is reached. -/
structure StillWaiting (pool : ConnPool) (conn : ConnState) (clock : Clock) (iph : IpHdr) : Prop where
  begun : conn.httpStartTime = 0 → clock.jiffies = 0
  sockets : countOpenConnections pool iph.saddr ≤ 20
  time : secondsAfter slowlorisTimeout clock.jiffies conn.httpStartTime = false

theorem slowloris_pool_eq_iff {pool : ConnPool} {conn : ConnState} {clock : Clock} {iph : IpHdr}
    {tcph : TcpHdr} (hconn : pool (connHash iph.saddr tcph.source) = conn)
    (hopen : conn.isBlocked = false) :
    (slowloris pool conn clock iph tcph).pool = pool ↔ StillWaiting pool conn clock iph := by
  have hblocked : ∀ c : ConnState, Function.update (Function.update pool
      (connHash iph.saddr tcph.source) c) (connHash iph.saddr tcph.source)
      { c with isBlocked := true } ≠ pool := by
    intro c h
    rw [Function.update_idem, Function.update_eq_self_iff, hconn] at h
    rw [← h] at hopen
    cases hopen
  have hsame : (conn.httpStartTime = 0 → clock.jiffies = 0) →
      conn.startHttp clock.jiffies = conn ∧
        Function.update pool (connHash iph.saddr tcph.source) conn = pool := by
    intro hbegun
    refine ⟨(conn.startHttp_eq_iff clock.jiffies).mpr hbegun, ?_⟩
    rw [← hconn, Function.update_eq_self]
  unfold slowloris
  dsimp only
  split
  · rename_i hcount
    dsimp only
    refine iff_of_false (hblocked _) fun h => ?_
    rw [(hsame h.begun).1, (hsame h.begun).2] at hcount
    exact absurd h.sockets (Nat.not_le_of_gt hcount)
  · rename_i hcount
    split
    · rename_i htimeout
      dsimp only
      refine iff_of_false (hblocked _) fun h => ?_
      rw [(hsame h.begun).1, h.time] at htimeout
      cases htimeout
    · rename_i htimeout
      dsimp only
      constructor
      · intro h
        rw [Function.update_eq_self_iff, hconn] at h
        have hbegun := (conn.startHttp_eq_iff clock.jiffies).mp h
        rw [h, (hsame hbegun).2] at hcount
        rw [h] at htimeout
        exact ⟨hbegun, Nat.le_of_not_lt hcount, Bool.eq_false_iff.mpr htimeout⟩
      · intro h
        rw [(hsame h.begun).1]
        exact (hsame h.begun).2

/-- An entry that the packet has changed so far is not put back. -/
theorem slowloris_pool_ne {pool : ConnPool} {conn c : ConnState} {clock : Clock} {iph : IpHdr}
    {tcph : TcpHdr} (hconn : pool (connHash iph.saddr tcph.source) = conn)
    (hfollows : conn.Follows clock.jiffies c) (hopen : c.isBlocked = false) (hne : c ≠ conn) :
    (slowloris pool c clock iph tcph).pool ≠ pool := by
  have hblocked : Function.update (Function.update pool (connHash iph.saddr tcph.source)
      (c.startHttp clock.jiffies)) (connHash iph.saddr tcph.source)
      { c.startHttp clock.jiffies with isBlocked := true } ≠ pool := by
    intro h
    rw [Function.update_idem, Function.update_eq_self_iff, hconn] at h
    have hwas : conn.isBlocked = true := by rw [← h]
    rw [hfollows.isBlocked hwas] at hopen
    cases hopen
  unfold slowloris
  dsimp only
  split
  · dsimp only
    exact hblocked
  · split
    · dsimp only
      exact hblocked
    · dsimp only
      intro h
      rw [Function.update_eq_self_iff, hconn] at h
      -- set to the value it had, or not at all
      have hbegun : c.httpStartTime = 0 → clock.jiffies = 0 := by
        intro hzero
        rw [ConnState.startHttp, if_pos hzero] at h
        have hnow : conn.httpStartTime = clock.jiffies := by rw [← h]
        rcases hfollows.httpStartTime with hsame | ⟨hzero', -⟩
        · rw [← hnow, ← hsame, hzero]
        · rw [← hnow, hzero']
      rw [(c.startHttp_eq_iff clock.jiffies).mpr hbegun] at h
      exact hne h

theorem judge_pool_eq_iff {pool : ConnPool} {conn : ConnState} {clock : Clock} {iph : IpHdr}
    {tcph : TcpHdr} (hconn : pool (connHash iph.saddr tcph.source) = conn) :
    (judge pool conn clock iph tcph).pool = pool
      ↔ conn.lastSeen = clock.jiffies ∧ Uncounted iph tcph ∧
        (conn.isBlocked = false → monitoredPort tcph = true → conn.isHttpComplete = false →
          StillWaiting pool conn clock iph) := by
  have hfollows := ConnState.Follows.seen_synFlood conn clock iph tcph
  rw [← and_assoc, ← conn.seen_synFlood_eq_iff clock iph tcph]
  unfold judge
  generalize (conn.seen clock.jiffies iph tcph).synFlood clock iph tcph = r at hfollows
  obtain ⟨c, events⟩ := r
  dsimp only at hfollows ⊢
  by_cases hc : c = conn
  · subst hc
    rw [and_iff_right rfl]
    split
    · rename_i hblocked
      dsimp only
      refine iff_of_true ?_ fun hopen => ?_
      · rw [← hconn, Function.update_eq_self]
      · rw [hblocked] at hopen
        cases hopen
    · rename_i hopen
      replace hopen := Bool.eq_false_iff.mpr hopen
      split
      · rename_i hwait
        dsimp only
        rw [slowloris_pool_eq_iff hconn hopen]
        exact ⟨fun h _ _ _ => h, fun h => h hopen hwait.1 hwait.2⟩
      · rename_i hwait
        dsimp only
        refine iff_of_true ?_ fun _ hport hcomplete => absurd ⟨hport, hcomplete⟩ hwait
        rw [← hconn, Function.update_eq_self]
  · refine iff_of_false ?_ fun h => hc h.1
    split
    · dsimp only
      rw [Function.update_eq_self_iff, hconn]
      exact hc
    · rename_i hopen
      split
      · dsimp only
        exact slowloris_pool_ne hconn hfollows (Bool.eq_false_iff.mpr hopen) hc
      · dsimp only
        rw [Function.update_eq_self_iff, hconn]
        exact hc

theorem JudgedAs.httpHeaderCount {pool : ConnPool} {c : ConnState} {events : List FwEvent}
    {clock : Clock} {iph : IpHdr} {tcph : TcpHdr} {r : Monitored}
    (h : JudgedAs pool c events clock iph tcph r) :
    (r.pool (tcpFlowOf iph tcph).slot).httpHeaderCount = c.httpHeaderCount := by
  obtain ⟨c', hpool, -, rfl | ⟨-, rfl | rfl⟩⟩ := h.entry
  · rw [hpool, Function.update_self]
  · rw [hpool, Function.update_self, ConnState.startHttp_httpHeaderCount]
  · rw [hpool, Function.update_self]
    exact c.startHttp_httpHeaderCount clock.jiffies

/-- Payload on a monitored port is counted, whatever else happens to the entry. -/
theorem judge_httpHeaderCount (pool : ConnPool) (conn : ConnState) (clock : Clock) (iph : IpHdr)
    (tcph : TcpHdr) :
    ((judge pool conn clock iph tcph).pool (tcpFlowOf iph tcph).slot).httpHeaderCount
      = if monitoredPort tcph = true ∧ payloadLen iph tcph > 0 then conn.httpHeaderCount + 1
        else conn.httpHeaderCount := by
  rw [(judge_judgedAs pool conn clock iph tcph).httpHeaderCount, ConnState.synFlood_httpHeaderCount,
    ConnState.seen]
  split <;> rfl

/-- The call finds the pool as it would leave it.  A FIN or RST comes from a flow
without an entry; another packet finds its own entry, last seen at this moment,
with nothing to count and no limit reached, or else the slot held by another
active flow. -/
def LeavesPool (pool : ConnPool) (clock : Clock) (iph : IpHdr) (tcph : TcpHdr) : Prop :=
  let f := tcpFlowOf iph tcph
  let conn := pool f.slot
  if tcph.fin ∨ tcph.rst then conn.ownedBy f = true → conn = .zero
  else if conn.ownedBy f then
    conn.lastSeen = clock.jiffies ∧ Uncounted iph tcph ∧
      (conn.isBlocked = false → monitoredPort tcph = true → conn.isHttpComplete = false →
        StillWaiting pool conn clock iph)
  else conn.reclaimable clock.jiffies = false

theorem monitorTcpStats_pool_eq_iff (pool : ConnPool) (clock : Clock) (iph : IpHdr) (tcph : TcpHdr) :
    (monitorTcpStats pool clock iph tcph).pool = pool ↔ LeavesPool pool clock iph tcph := by
  unfold LeavesPool
  dsimp only
  by_cases hclose : tcph.fin = true ∨ tcph.rst = true
  · rw [if_pos hclose, monitorTcpStats_of_closing hclose]
    dsimp only
    by_cases howned : (pool (tcpFlowOf iph tcph).slot).ownedBy (tcpFlowOf iph tcph) = true
    · rw [if_pos howned, Function.update_eq_self_iff]
      exact ⟨fun h _ => h.symm, fun h => (h howned).symm⟩
    · rw [if_neg howned]
      exact iff_of_true rfl fun h => absurd h howned
  rw [if_neg hclose]
  by_cases howned : (pool (tcpFlowOf iph tcph).slot).ownedBy (tcpFlowOf iph tcph) = true
  · rw [if_pos howned,
      monitorTcpStats_of_claim hclose (ConnState.claim_of_ownedBy clock.jiffies howned)]
    exact judge_pool_eq_iff rfl
  rw [if_neg howned]
  rcases hclaim : (pool (tcpFlowOf iph tcph).slot).claim clock.jiffies iph tcph with _ | conn
  · rw [monitorTcpStats_of_collision hclose hclaim]
    exact iff_of_true rfl (ConnState.claim_eq_none_iff.mp hclaim).2
  · -- the entry becomes the flow's, which it was not
    obtain ⟨conn', hfollows, hpool, -⟩ := judge_spec pool conn clock iph tcph
    rw [monitorTcpStats_of_claim hclose hclaim, hpool, Function.update_eq_self_iff]
    refine iff_of_false (fun hsame => howned ?_) fun hreclaim => ?_
    · rw [← hsame]
      exact hfollows.ownedBy (ConnState.ownedBy_of_claim hclaim)
    · rw [ConnState.claim_eq_none_iff.mpr ⟨Bool.eq_false_iff.mpr howned, hreclaim⟩] at hclaim
      cases hclaim

end Nullsploit
