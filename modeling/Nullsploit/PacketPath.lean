/-
Nullsploit/PacketPath.lean

The two entry points of the firewall: `fw_nfq_callback` of the userspace
daemon (kernel/fw_nfq.c) and `fw_hook_fn` of the kernel module
(kernel/fw_inspect.c), each from a packet to a verdict and a new state.

They call the same checks in different chains.  The module stops at a
blocklist match and never looks at the reputation; the daemon looks at both
and runs the TCP checks regardless.  `firewalls_agree_iff` says what is left of
their agreement; for it, `tcpChecks_state_eq_iff` says when the checks leave
the state as it was.
-/
import Nullsploit.HttpInspect

namespace Nullsploit

open CText Inet

/-! ### Addresses -/

/-- The octets of an address, as both files compute them. -/
def hostOctet (ip : BitVec 32) (shift : Nat) : BitVec 8 := (ntohl ip >>> shift).setWidth 8

/-- `is_local_ip`. -/
def isLocalIp (ip : BitVec 32) : Bool :=
  let o1 := hostOctet ip 24
  let o2 := hostOctet ip 16
  o1 = 127 ∨ o1 = 10 ∨ (o1 = 172 ∧ o2 ≥ 16 ∧ o2 ≤ 31) ∨ (o1 = 192 ∧ o2 = 168)

/-- What `is_bypassed_ip` finds out about its host, once: whether it runs in a
container, and the default gateway, 0 if there is none. -/
structure Host where
  inDocker : Bool
  defaultGw : BitVec 32
  deriving DecidableEq, Repr

/-- `is_bypassed_ip`. -/
def isBypassedIp (host : Host) (ip : BitVec 32) : Bool :=
  let o1 := hostOctet ip 24
  let o2 := hostOctet ip 16
  let o3 := hostOctet ip 8
  o1 = 127 ∨ (host.inDocker ∧ o1 = 192 ∧ o2 = 168 ∧ o3 = 65) ∨
    (host.defaultGw ≠ 0 ∧ ip = host.defaultGw)

/-! ### Verdicts -/

/-- `NF_ACCEPT` and `NF_DROP`. -/
inductive Verdict
  | accept
  | drop
  deriving DecidableEq, Repr

/-- What a packet leaves behind, with the branch by which it left the TCP
monitor if it got there. -/
structure Filtered where
  state : PathState
  verdict : Verdict
  judged : Option Judged
  events : List FwEvent

/-- An alert about an address: no ports. -/
def addressEvent (clock : Clock) (iph : IpHdr) (threatType severity : UInt8)
    (preview details : List UInt8) : FwEvent :=
  .make clock.seconds iph.saddr iph.daddr 0 0 threatType severity preview details

def blocklistEvent (clock : Clock) (iph : IpHdr) : FwEvent :=
  addressEvent clock iph threatBlocklist severityWarning (str "IP Blocklisted")
    (str "Inbound connection blocked from blocklisted IP address")

/-- The `%d` of a score; the dash of the text is its three UTF-8 bytes. -/
def reputationEvent (clock : Clock) (iph : IpHdr) (score : Int) : FwEvent :=
  addressEvent clock iph threatReputation severityCritical
    (str "IP Reputation: " ++ (if score < 0 then str "-" else []) ++ decimal score.natAbs)
    (str "Low reputation score " ++ [0xe2, 0x80, 0x94] ++ str " blocking IP (score <= 20)")

/-- The local bypass at the end of both chains. -/
def applyLocalBypass (s : PathState) (saddr : BitVec 32) (drop : Bool) : Verdict :=
  if drop then
    if isLocalIp saddr ∧ s.firewall.gBlockLocalIps = 0 then .accept else .drop
  else .accept

/-! ### The checks of a TCP packet -/

/-- `monitor_tcp_stats`, then for port 80 `inspect_http_payload`. -/
def tcpChecks (det : Detectors) (mayPull : Nat → Bool) (clock : Clock) (s : PathState)
    (data : List UInt8) : Checked × Judged :=
  let r := monitorTcpStats s.pool clock (ipHdr data) (tcpHdr data)
  let s := { s with pool := r.pool }
  if r.judged.drop then (⟨s, true, r.events⟩, r.judged)
  else if ntohs (tcpHdr data).dest = 80 then
    let c := inspectHttpPayload det mayPull clock s data
    ({ c with events := r.events ++ c.events }, r.judged)
  else (⟨s, false, r.events⟩, r.judged)

/-! ### The two chains -/

variable (shl : BitVec 8 → BitVec 32) (host : Host) (det : Detectors)

/-- `fw_nfq_callback` on a queued packet. -/
def fwNfqCallback (clock : Clock) (s : PathState) (data : List UInt8) : Filtered :=
  let iph := ipHdr data
  if data.length < ipHdrSize then ⟨s, .accept, none, []⟩
  else if isBypassedIp host iph.saddr then ⟨s, .accept, none, []⟩
  else
    let repScore := getIpReputation s.firewall.reputation iph.saddr
    let lowScore := decide (repScore ≤ 20)
    let listed := inspectIpBlocklist shl s.firewall iph.saddr
    let events := (if lowScore then [reputationEvent clock iph repScore] else []) ++
      if listed then [blocklistEvent clock iph] else []
    -- TCP traffic is checked independently of the two
    if iph.protocol = ipprotoTcp ∧ data.length ≥ iph.ihl.toNat * 4 + tcpHdrSize then
      let (c, judged) := tcpChecks det (fun _ => true) clock s data
      ⟨c.state, applyLocalBypass c.state iph.saddr (lowScore || listed || c.drop), some judged,
        events ++ c.events⟩
    else ⟨s, applyLocalBypass s iph.saddr (lowScore || listed), none, events⟩

/-- `fw_hook_fn` on a packet in one piece: `pskb_may_pull` succeeds within it. -/
def fwHookFn (clock : Clock) (s : PathState) (data : List UInt8) : Filtered :=
  let iph := ipHdr data
  if inspectIpBlocklist shl s.firewall iph.saddr then
    ⟨s, applyLocalBypass s iph.saddr true, none, [blocklistEvent clock iph]⟩
  else if iph.protocol = ipprotoTcp then
    let (c, judged) := tcpChecks det (fun n => n ≤ data.length) clock s data
    ⟨c.state, applyLocalBypass c.state iph.saddr c.drop, some judged, c.events⟩
  else ⟨s, .accept, none, []⟩

/-! ### What the checks keep -/

/-- The checks change reputation and connections, never the blocklist or the
switch for local addresses. -/
theorem inspectHttpPayload_firewall (mayPull : Nat → Bool) (clock : Clock) (s : PathState)
    (data : List UInt8) :
    (inspectHttpPayload det mayPull clock s data).state.firewall.blocklist = s.firewall.blocklist ∧
      (inspectHttpPayload det mayPull clock s data).state.firewall.gBlockLocalIps
        = s.firewall.gBlockLocalIps := by
  unfold inspectHttpPayload
  dsimp only
  split
  · exact ⟨rfl, rfl⟩
  · split
    · exact ⟨rfl, rfl⟩
    · split
      · exact ⟨rfl, rfl⟩
      · exact ⟨rfl, rfl⟩

theorem tcpChecks_firewall (mayPull : Nat → Bool) (clock : Clock) (s : PathState)
    (data : List UInt8) :
    (tcpChecks det mayPull clock s data).1.state.firewall.blocklist = s.firewall.blocklist ∧
      (tcpChecks det mayPull clock s data).1.state.firewall.gBlockLocalIps
        = s.firewall.gBlockLocalIps := by
  unfold tcpChecks
  dsimp only
  split
  · exact ⟨rfl, rfl⟩
  · split
    · exact inspectHttpPayload_firewall det mayPull clock _ data
    · exact ⟨rfl, rfl⟩

theorem applyLocalBypass_tcpChecks (mayPull : Nat → Bool) (clock : Clock) (s : PathState)
    (data : List UInt8) (saddr : BitVec 32) (drop : Bool) :
    applyLocalBypass (tcpChecks det mayPull clock s data).1.state saddr drop
      = applyLocalBypass s saddr drop := by
  unfold applyLocalBypass
  rw [(tcpChecks_firewall det mayPull clock s data).2]

/-! ### What the checks change -/

/-- Payload for port 80, which the inspector looks at. -/
def isInspected (data : List UInt8) : Bool :=
  ntohs (tcpHdr data).dest = 80 ∧ payloadLen (ipHdr data) (tcpHdr data) > 0

/-- The pool after the checks of a TCP packet. -/
def checkedPool (pool : ConnPool) (clock : Clock) (data : List UInt8) : ConnPool :=
  let r := monitorTcpStats pool clock (ipHdr data) (tcpHdr data)
  if r.judged.drop = false ∧ ntohs (tcpHdr data).dest = 80 ∧
      payloadLen (ipHdr data) (tcpHdr data) > 0 then registerHttp r.pool data
  else r.pool

theorem inspectHttpPayload_pool (clock : Clock) (s : PathState) (data : List UInt8) :
    (inspectHttpPayload det (fun _ => true) clock s data).state.pool
      = if payloadLen (ipHdr data) (tcpHdr data) > 0 then registerHttp s.pool data else s.pool := by
  unfold inspectHttpPayload
  dsimp only
  by_cases hlen : payloadLen (ipHdr data) (tcpHdr data) ≤ 0
  · rw [if_pos hlen, if_neg (by omega)]
  · rw [if_neg hlen, if_neg (by simp), if_pos (by omega)]
    split
    · rfl
    · rfl

theorem tcpChecks_pool (clock : Clock) (s : PathState) (data : List UInt8) :
    (tcpChecks det (fun _ => true) clock s data).1.state.pool = checkedPool s.pool clock data ∧
      (tcpChecks det (fun _ => true) clock s data).2
        = (monitorTcpStats s.pool clock (ipHdr data) (tcpHdr data)).judged := by
  unfold tcpChecks checkedPool
  dsimp only
  by_cases hdrop : (monitorTcpStats s.pool clock (ipHdr data) (tcpHdr data)).judged.drop = true
  · rw [if_pos hdrop, if_neg (by simp [hdrop])]
    exact ⟨rfl, rfl⟩
  · rw [if_neg hdrop]
    replace hdrop := Bool.eq_false_iff.mpr hdrop
    by_cases hport : ntohs (tcpHdr data).dest = 80
    · rw [if_pos hport]
      dsimp only
      rw [inspectHttpPayload_pool]
      simp [hdrop, hport]
    · rw [if_neg hport, if_neg fun hcond => hport hcond.2.1]
      exact ⟨rfl, rfl⟩

/-! ### What drops a packet -/

/-- The monitor drops the packet, or the inspector finds something in it. -/
def DroppedByChecks (det : Detectors) (clock : Clock) (s : PathState) (data : List UInt8) : Prop :=
  (monitorTcpStats s.pool clock (ipHdr data) (tcpHdr data)).judged.drop = true ∨
    (isInspected data = true ∧ (det.scan (urlDecode 4095 (scannedPart data))).isSome = true)

theorem inspectHttpPayload_drop (clock : Clock) (s : PathState) (data : List UInt8) :
    (inspectHttpPayload det (fun _ => true) clock s data).drop = true ↔
      payloadLen (ipHdr data) (tcpHdr data) > 0 ∧
        (det.scan (urlDecode 4095 (scannedPart data))).isSome = true := by
  unfold inspectHttpPayload
  dsimp only
  by_cases hlen : payloadLen (ipHdr data) (tcpHdr data) ≤ 0
  · rw [if_pos hlen]
    exact iff_of_false Bool.false_ne_true fun h => Int.not_le.mpr h.1 hlen
  · rw [if_neg hlen, if_neg (by simp), and_iff_right (Int.not_le.mp hlen)]
    cases det.scan (urlDecode 4095 (scannedPart data)) with
    | none => exact Iff.rfl
    | some finding => exact Iff.rfl

theorem tcpChecks_drop_iff (clock : Clock) (s : PathState) (data : List UInt8) :
    (tcpChecks det (fun _ => true) clock s data).1.drop = true ↔
      DroppedByChecks det clock s data := by
  have hinspected : isInspected data = true ↔ ntohs (tcpHdr data).dest = 80 ∧
      payloadLen (ipHdr data) (tcpHdr data) > 0 := decide_eq_true_iff
  unfold tcpChecks DroppedByChecks
  dsimp only
  by_cases hdrop : (monitorTcpStats s.pool clock (ipHdr data) (tcpHdr data)).judged.drop = true
  · rw [if_pos hdrop]
    exact iff_of_true rfl (Or.inl hdrop)
  · rw [if_neg hdrop, or_iff_right hdrop]
    by_cases hport : ntohs (tcpHdr data).dest = 80
    · rw [if_pos hport]
      dsimp only
      rw [inspectHttpPayload_drop, hinspected, and_iff_right hport]
    · rw [if_neg hport]
      exact iff_of_false Bool.false_ne_true fun h => hport (hinspected.mp h.1).1

/-! ### What leaves the state as it was -/

/-- Payload on port 80 finds the pool as its checks would leave it.  It is
counted in any entry of the flow, so there is none, and none to be had.  A FIN
or RST clears the entry first, and owns it still only as the flow of address
and port 0. -/
def LeavesPoolInspected (pool : ConnPool) (clock : Clock) (data : List UInt8) : Prop :=
  let conn := pool (dataFlow data).slot
  if (tcpHdr data).fin ∨ (tcpHdr data).rst then
    conn.ownedBy (dataFlow data) = true → conn = ConnState.zero.registered data
  else conn.ownedBy (dataFlow data) = false ∧ conn.reclaimable clock.jiffies = false

theorem monitoredPort_of_inspected {data : List UInt8} (h : isInspected data = true) :
    monitoredPort (tcpHdr data) = true ∧ payloadLen (ipHdr data) (tcpHdr data) > 0 := by
  obtain ⟨hport, hpay⟩ := of_decide_eq_true h
  exact ⟨decide_eq_true (Or.inl hport), hpay⟩

theorem checkedPool_of_inspected {pool : ConnPool} {clock : Clock} {data : List UInt8}
    (h : isInspected data = true)
    (hpass : (monitorTcpStats pool clock (ipHdr data) (tcpHdr data)).judged.drop = false) :
    checkedPool pool clock data
      = registerHttp (monitorTcpStats pool clock (ipHdr data) (tcpHdr data)).pool data :=
  if_pos ⟨hpass, of_decide_eq_true h⟩

theorem checkedPool_of_not_inspected {pool : ConnPool} {clock : Clock} {data : List UInt8}
    (h : isInspected data = false) :
    checkedPool pool clock data = (monitorTcpStats pool clock (ipHdr data) (tcpHdr data)).pool :=
  if_neg fun hcond => of_decide_eq_false h hcond.2

theorem checkedPool_of_drop {pool : ConnPool} {clock : Clock} {data : List UInt8}
    (hdrop : (monitorTcpStats pool clock (ipHdr data) (tcpHdr data)).judged.drop = true) :
    checkedPool pool clock data = (monitorTcpStats pool clock (ipHdr data) (tcpHdr data)).pool := by
  refine if_neg fun hcond => ?_
  rw [hdrop] at hcond
  cases hcond.1

theorem checkedPool_eq_iff_of_closing {pool : ConnPool} {clock : Clock} {data : List UInt8}
    (h : isInspected data = true) (hclose : (tcpHdr data).fin = true ∨ (tcpHdr data).rst = true) :
    checkedPool pool clock data = pool ↔
      ((pool (dataFlow data).slot).ownedBy (dataFlow data) = true →
        pool (dataFlow data).slot = ConnState.zero.registered data) := by
  have hmon : monitorTcpStats pool clock (ipHdr data) (tcpHdr data)
      = ⟨if (pool (dataFlow data).slot).ownedBy (dataFlow data) then
          Function.update pool (dataFlow data).slot .zero else pool, .closing, []⟩ :=
    monitorTcpStats_of_closing hclose
  rw [checkedPool_of_inspected h (by rw [hmon]; rfl), hmon]
  dsimp only
  by_cases howned : (pool (dataFlow data).slot).ownedBy (dataFlow data) = true
  · rw [if_pos howned]
    by_cases hzero : ConnState.zero.ownedBy (dataFlow data) = true
    · rw [registerHttp_of_owned (by rwa [Function.update_self]), Function.update_self,
        Function.update_idem, Function.update_eq_self_iff]
      exact ⟨fun hsame _ => hsame.symm, fun hsame => (hsame howned).symm⟩
    · rw [registerHttp_of_not_owned (by rwa [Function.update_self, ← Bool.not_eq_true]),
        Function.update_eq_self_iff]
      refine iff_of_false (fun hsame => hzero (hsame ▸ howned)) fun hsame => hzero ?_
      rw [hsame howned] at howned
      exact howned
  · rw [if_neg howned, registerHttp_of_not_owned (Bool.eq_false_iff.mpr howned)]
    exact iff_of_true rfl fun h => absurd h howned

/-- A packet with an entry is counted in it once, or twice if it passes the
monitor. -/
theorem checkedPool_ne_of_claim {pool : ConnPool} {clock : Clock} {data : List UInt8}
    {conn : ConnState} (h : isInspected data = true)
    (hopen : ¬ ((tcpHdr data).fin = true ∨ (tcpHdr data).rst = true))
    (hclaim : (pool (dataFlow data).slot).claim clock.jiffies (ipHdr data) (tcpHdr data)
      = some conn) :
    checkedPool pool clock data ≠ pool := by
  have hmon : monitorTcpStats pool clock (ipHdr data) (tcpHdr data)
      = judge pool conn clock (ipHdr data) (tcpHdr data) := monitorTcpStats_of_claim hopen hclaim
  obtain ⟨conn', hfollows, hpool, -⟩ := judge_spec pool conn clock (ipHdr data) (tcpHdr data)
  replace hpool : (judge pool conn clock (ipHdr data) (tcpHdr data)).pool
      = Function.update pool (dataFlow data).slot conn' := hpool
  have howned : conn'.ownedBy (dataFlow data) = true :=
    hfollows.ownedBy (ConnState.ownedBy_of_claim hclaim)
  have hcount : conn'.httpHeaderCount = conn.httpHeaderCount + 1 := by
    have hslot := judge_httpHeaderCount pool conn clock (ipHdr data) (tcpHdr data)
    rwa [if_pos (monitoredPort_of_inspected h), hpool,
      show tcpFlowOf (ipHdr data) (tcpHdr data) = dataFlow data from rfl,
      Function.update_self] at hslot
  -- the flow's entry was there before if it is now
  have hsame : ∀ c : ConnState, c.ownedBy (dataFlow data) = true →
      Function.update pool (dataFlow data).slot c = pool → c = conn := by
    intro c hc heq
    rw [Function.update_eq_self_iff] at heq
    rw [← heq, ConnState.claim_of_ownedBy clock.jiffies hc] at hclaim
    exact Option.some.inj hclaim
  intro heq
  cases hdrop : (monitorTcpStats pool clock (ipHdr data) (tcpHdr data)).judged.drop
  · rw [checkedPool_of_inspected h hdrop, hmon, hpool,
      registerHttp_of_owned (by rwa [Function.update_self]), Function.update_self,
      Function.update_idem] at heq
    have htwice : conn'.httpHeaderCount + 1 = conn.httpHeaderCount :=
      congrArg ConnState.httpHeaderCount (hsame (conn'.registered data) howned heq)
    rw [hcount] at htwice
    exact absurd htwice (by bv_omega)
  · rw [checkedPool_of_drop hdrop, hmon, hpool] at heq
    rw [hsame conn' howned heq] at hcount
    simp at hcount

theorem checkedPool_eq_iff_of_inspected {pool : ConnPool} {clock : Clock} {data : List UInt8}
    (h : isInspected data = true) :
    checkedPool pool clock data = pool ↔ LeavesPoolInspected pool clock data := by
  unfold LeavesPoolInspected
  dsimp only
  by_cases hclose : (tcpHdr data).fin = true ∨ (tcpHdr data).rst = true
  · rw [if_pos hclose]
    exact checkedPool_eq_iff_of_closing h hclose
  rw [if_neg hclose]
  rcases hclaim : (pool (dataFlow data).slot).claim clock.jiffies (ipHdr data) (tcpHdr data)
    with - | conn
  · have hmon := monitorTcpStats_of_collision hclose hclaim
    have hfree := ConnState.claim_eq_none_iff.mp hclaim
    refine iff_of_true ?_ hfree
    rw [checkedPool_of_inspected h (by rw [hmon]; rfl), hmon]
    exact registerHttp_of_not_owned hfree.1
  · refine iff_of_false (checkedPool_ne_of_claim h hclose hclaim) fun hfree => ?_
    rw [ConnState.claim_eq_none_iff.mpr hfree] at hclaim
    cases hclaim

/-- Such a packet passes the monitor. -/
theorem LeavesPoolInspected.passes {pool : ConnPool} {clock : Clock} {data : List UInt8}
    (h : LeavesPoolInspected pool clock data) :
    (monitorTcpStats pool clock (ipHdr data) (tcpHdr data)).judged.drop = false := by
  unfold LeavesPoolInspected at h
  dsimp only at h
  by_cases hclose : (tcpHdr data).fin = true ∨ (tcpHdr data).rst = true
  · rw [monitorTcpStats_of_closing hclose]
    rfl
  · rw [if_neg hclose] at h
    rw [monitorTcpStats_of_collision hclose (ConnState.claim_eq_none_iff.mpr h)]
    rfl

/-- The checks of a packet find nothing to record that is not there. -/
def NothingToRecord (det : Detectors) (clock : Clock) (s : PathState) (data : List UInt8) : Prop :=
  if isInspected data then
    LeavesPoolInspected s.pool clock data ∧
      ∀ finding ∈ det.scan (urlDecode 4095 (scannedPart data)),
        AlreadyHit s.firewall.reputation (ipHdr data).saddr finding.damage
          finding.threatType.toNat clock.seconds
  else LeavesPool s.pool clock (ipHdr data) (tcpHdr data)

theorem tcpChecks_firewall_of_not_inspected {data : List UInt8} (h : isInspected data = false)
    (clock : Clock) (s : PathState) :
    (tcpChecks det (fun _ => true) clock s data).1.state.firewall = s.firewall := by
  unfold tcpChecks
  dsimp only
  split
  · rfl
  · split
    · rename_i hport
      have hpay : payloadLen (ipHdr data) (tcpHdr data) ≤ 0 :=
        Int.not_lt.mp fun hpos => of_decide_eq_false h ⟨hport, hpos⟩
      dsimp only
      rw [inspectHttpPayload, if_pos hpay]
    · rfl

theorem tcpChecks_firewall_of_inspected {data : List UInt8} (h : isInspected data = true)
    {clock : Clock} {s : PathState}
    (hpass : (monitorTcpStats s.pool clock (ipHdr data) (tcpHdr data)).judged.drop = false) :
    (tcpChecks det (fun _ => true) clock s data).1.state.firewall = s.firewall ↔
      ∀ finding ∈ det.scan (urlDecode 4095 (scannedPart data)),
        AlreadyHit s.firewall.reputation (ipHdr data).saddr finding.damage
          finding.threatType.toNat clock.seconds := by
  obtain ⟨hport, hpay⟩ := of_decide_eq_true h
  unfold tcpChecks inspectHttpPayload
  dsimp only
  rw [hpass, if_neg Bool.false_ne_true, if_pos hport]
  dsimp only
  rw [if_neg (Int.not_le.mpr hpay), if_neg (by simp)]
  rcases hscan : det.scan (urlDecode 4095 (scannedPart data)) with - | finding
  · simp
  · dsimp only [Finding.report]
    constructor
    · intro hsame f hf
      obtain rfl := Option.mem_some.mp hf
      exact (updateIpReputation_eq_iff _ _ _ _ _).mp (congrArg Firewall.reputation hsame)
    · intro hhit
      rw [(updateIpReputation_eq_iff _ _ _ _ _).mpr (hhit finding rfl)]

/-- **When the checks change nothing.** -/
theorem tcpChecks_state_eq_iff (clock : Clock) (s : PathState) (data : List UInt8) :
    (tcpChecks det (fun _ => true) clock s data).1.state = s ↔ NothingToRecord det clock s data := by
  have hpool := (tcpChecks_pool det clock s data).1
  have hext : ∀ s' : PathState, s' = s ↔ s'.pool = s.pool ∧ s'.firewall = s.firewall := by
    intro s'
    cases s'
    cases s
    simp [and_comm]
  rw [hext, hpool]
  unfold NothingToRecord
  cases h : isInspected data
  · rw [if_neg Bool.false_ne_true, tcpChecks_firewall_of_not_inspected det h,
      checkedPool_of_not_inspected h, monitorTcpStats_pool_eq_iff, and_iff_left rfl]
  · rw [if_pos rfl, checkedPool_eq_iff_of_inspected h]
    constructor
    · rintro ⟨hleaves, hsame⟩
      exact ⟨hleaves, (tcpChecks_firewall_of_inspected det h hleaves.passes).mp hsame⟩
    · rintro ⟨hleaves, hhit⟩
      exact ⟨hleaves, (tcpChecks_firewall_of_inspected det h hleaves.passes).mpr hhit⟩

/-! ### Do the two agree? -/

/-- A TCP packet with all the bytes its headers speak of. -/
structure CompleteTcp (data : List UInt8) : Prop where
  ipHeader : ipHdrSize ≤ data.length
  protocol : (ipHdr data).protocol = ipprotoTcp
  tcpHeader : (ipHdr data).ihl.toNat * 4 + tcpHdrSize ≤ data.length
  totLen : (ntohs (ipHdr data).totLen).toNat ≤ data.length

/-- In a complete packet there is nothing that could not be pulled. -/
theorem tcpChecks_mayPull {data : List UInt8} (h : CompleteTcp data) (clock : Clock)
    (s : PathState) :
    tcpChecks det (fun n => n ≤ data.length) clock s data
      = tcpChecks det (fun _ => true) clock s data := by
  have hinspect : ∀ s, inspectHttpPayload det (fun n => n ≤ data.length) clock s data
      = inspectHttpPayload det (fun _ => true) clock s data := by
    intro s
    unfold inspectHttpPayload
    dsimp only
    split
    · rfl
    · rename_i hpos
      have hpull : payloadOffset (ipHdr data) (tcpHdr data)
          + min 1024 (payloadLen (ipHdr data) (tcpHdr data)).toNat ≤ data.length := by
        have htot := h.totLen
        unfold payloadLen at hpos ⊢
        omega
      rw [if_neg (by simpa using hpull), if_neg (by simp)]
  unfold tcpChecks
  simp only [hinspect]

/-- The two implementations reach the same verdict and the same state. -/
def Agree (clock : Clock) (s : PathState) (data : List UInt8) : Prop :=
  (fwHookFn shl det clock s data).verdict = (fwNfqCallback shl host det clock s data).verdict ∧
    (fwHookFn shl det clock s data).state = (fwNfqCallback shl host det clock s data).state

/-- Local addresses are let through. -/
def BypassedLocally (s : PathState) (saddr : BitVec 32) : Prop :=
  isLocalIp saddr = true ∧ s.firewall.gBlockLocalIps = 0

theorem fwNfqCallback_of_complete {data : List UInt8} (h : CompleteTcp data) (clock : Clock)
    (s : PathState) (hb : isBypassedIp host (ipHdr data).saddr = false) :
    (fwNfqCallback shl host det clock s data).state
        = (tcpChecks det (fun _ => true) clock s data).1.state ∧
      (fwNfqCallback shl host det clock s data).verdict
        = applyLocalBypass s (ipHdr data).saddr
            (decide (getIpReputation s.firewall.reputation (ipHdr data).saddr ≤ 20) ||
              inspectIpBlocklist shl s.firewall (ipHdr data).saddr ||
              (tcpChecks det (fun _ => true) clock s data).1.drop) := by
  have hlen : ¬ data.length < ipHdrSize := Nat.not_lt.mpr h.ipHeader
  have htcp : (ipHdr data).protocol = ipprotoTcp ∧
      data.length ≥ (ipHdr data).ihl.toNat * 4 + tcpHdrSize := ⟨h.protocol, h.tcpHeader⟩
  unfold fwNfqCallback
  dsimp only
  rw [if_neg hlen, hb, if_neg Bool.false_ne_true, if_pos htcp]
  exact ⟨rfl, applyLocalBypass_tcpChecks det _ clock s data _ _⟩

/-- The module on a blocklisted source. -/
theorem fwHookFn_of_listed {data : List UInt8} (clock : Clock) (s : PathState)
    (hlisted : inspectIpBlocklist shl s.firewall (ipHdr data).saddr = true) :
    (fwHookFn shl det clock s data).state = s ∧
      (fwHookFn shl det clock s data).verdict = applyLocalBypass s (ipHdr data).saddr true := by
  unfold fwHookFn
  dsimp only
  rw [if_pos hlisted]
  exact ⟨rfl, rfl⟩

/-- The module on any other source. -/
theorem fwHookFn_of_not_listed {data : List UInt8} (h : CompleteTcp data) (clock : Clock)
    (s : PathState) (hlisted : inspectIpBlocklist shl s.firewall (ipHdr data).saddr = false) :
    (fwHookFn shl det clock s data).state
        = (tcpChecks det (fun _ => true) clock s data).1.state ∧
      (fwHookFn shl det clock s data).verdict
        = applyLocalBypass s (ipHdr data).saddr
            (tcpChecks det (fun _ => true) clock s data).1.drop := by
  unfold fwHookFn
  dsimp only
  rw [hlisted, if_neg Bool.false_ne_true, if_pos h.protocol, tcpChecks_mayPull det h]
  exact ⟨rfl, applyLocalBypass_tcpChecks det _ clock s data _ _⟩

/-- Two causes to drop make a difference unless local addresses are let
through. -/
theorem applyLocalBypass_eq_iff (s : PathState) (saddr : BitVec 32) (a b : Bool) :
    applyLocalBypass s saddr a = applyLocalBypass s saddr b ↔ a = b ∨ BypassedLocally s saddr := by
  unfold applyLocalBypass BypassedLocally
  by_cases hlocal : isLocalIp saddr = true ∧ s.firewall.gBlockLocalIps = 0
  · simp only [if_pos hlocal, ite_self]
    exact ⟨fun _ => Or.inr hlocal, fun _ => trivial⟩
  · simp only [if_neg hlocal]
    rw [or_iff_left hlocal]
    cases a <;> cases b <;> simp

/-- **When the two implementations agree** on a complete packet of a source the
daemon does not bypass.  For a blocklisted source, the daemon's TCP checks must
find nothing to record, since the module makes none; for any other source with
a score of 20 or less, which only the daemon looks at, there must be a second
reason for the verdict. -/
theorem firewalls_agree_iff {data : List UInt8} (h : CompleteTcp data) (clock : Clock)
    (s : PathState) (hb : isBypassedIp host (ipHdr data).saddr = false) :
    Agree shl host det clock s data ↔
      (inspectIpBlocklist shl s.firewall (ipHdr data).saddr = true →
        NothingToRecord det clock s data) ∧
      (inspectIpBlocklist shl s.firewall (ipHdr data).saddr = false →
        getIpReputation s.firewall.reputation (ipHdr data).saddr ≤ 20 →
        DroppedByChecks det clock s data ∨ BypassedLocally s (ipHdr data).saddr) := by
  obtain ⟨hnfqState, hnfqVerdict⟩ := fwNfqCallback_of_complete shl host det h clock s hb
  rw [← tcpChecks_state_eq_iff, ← tcpChecks_drop_iff]
  unfold Agree
  rw [hnfqState, hnfqVerdict]
  by_cases hlisted : inspectIpBlocklist shl s.firewall (ipHdr data).saddr = true
  · obtain ⟨hstate, hverdict⟩ := fwHookFn_of_listed shl det clock s hlisted
    rw [hstate, hverdict, hlisted, Bool.or_true, Bool.true_or]
    constructor
    · rintro ⟨-, hsame⟩
      exact ⟨fun _ => hsame.symm, nofun⟩
    · rintro ⟨hsame, -⟩
      exact ⟨rfl, (hsame rfl).symm⟩
  · replace hlisted := Bool.eq_false_iff.mpr hlisted
    obtain ⟨hstate, hverdict⟩ := fwHookFn_of_not_listed shl det h clock s hlisted
    rw [hstate, hverdict, hlisted, applyLocalBypass_eq_iff]
    by_cases hlow : getIpReputation s.firewall.reputation (ipHdr data).saddr ≤ 20
    · cases (tcpChecks det (fun _ => true) clock s data).1.drop <;> simp [hlow]
    · simp [hlow]

/-- A bare SYN from 8.8.8.8 to port 22. -/
def plainSyn : List UInt8 :=
  [0x45, 0, 0, 40, 0, 0, 0, 0, 64, 6, 0, 0, 8, 8, 8, 8, 10, 0, 0, 1,
    0x30, 0x39, 0, 22, 0, 0, 0, 1, 0, 0, 0, 0, 0x50, 2, 0x20, 0, 0, 0, 0, 0]

theorem completeTcp_plainSyn : CompleteTcp plainSyn := by
  constructor <;> decide

/-- Detectors that find nothing. -/
def noDetectors : Detectors where
  detectSqli _ := ⟨0, [], []⟩
  detectCmdi _ := ⟨0, [], []⟩
  detectPathTraversal _ := ⟨0, [], []⟩
  detectBot _ := ⟨0, [], []⟩
  scanMemYara _ := none

/-- At start-up the two agree on it. -/
theorem firewalls_agree_plainSyn :
    CompleteTcp plainSyn ∧ isBypassedIp ⟨false, 0⟩ (ipHdr plainSyn).saddr = false ∧
      Agree (fun _ => 0) ⟨false, 0⟩ noDetectors ⟨1000, 1⟩ ⟨Firewall.init, initConnPool⟩
        plainSyn := by
  have hb : isBypassedIp ⟨false, 0⟩ (ipHdr plainSyn).saddr = false := by decide
  refine ⟨completeTcp_plainSyn, hb, ?_⟩
  rw [firewalls_agree_iff (fun _ => 0) ⟨false, 0⟩ noDetectors completeTcp_plainSyn _ _ hb]
  have hscore : getIpReputation initIpReputation (ipHdr plainSyn).saddr = 100 := rfl
  have hlisted := inspectIpBlocklist_of_empty (fun _ => 0) Firewall.init rfl
    (ipHdr plainSyn).saddr
  refine ⟨fun h => absurd (hlisted.symm.trans h) Bool.false_ne_true, fun _ hlow => ?_⟩
  have hlow' : getIpReputation initIpReputation (ipHdr plainSyn).saddr ≤ 20 := hlow
  rw [hscore] at hlow'
  exact absurd hlow' (by decide)

/-- The firewall after attacks that cost 8.8.8.8 most of its score. -/
def attackedFirewall : Firewall :=
  { Firewall.init with
    reputation := (updateIpReputation initIpReputation 0x08080808 85 threatSqli.toNat 1).1 }

/-- Whatever the detectors: the daemon drops its next packet, the module lets
it through. -/
theorem low_score_splits_verdicts :
    ¬ ∃ det, Agree (fun _ => 0) ⟨false, 0⟩ det ⟨1000, 1⟩ ⟨attackedFirewall, initConnPool⟩
      plainSyn := by
  rintro ⟨det, hverdict, -⟩
  have hb : isBypassedIp ⟨false, 0⟩ (ipHdr plainSyn).saddr = false := by decide
  have hlisted := inspectIpBlocklist_of_empty (fun _ => 0) attackedFirewall rfl
    (ipHdr plainSyn).saddr
  have hlow : getIpReputation attackedFirewall.reputation (ipHdr plainSyn).saddr ≤ 20 := by
    decide +kernel
  have hjudged : (monitorTcpStats initConnPool ⟨1000, 1⟩ (ipHdr plainSyn)
      (tcpHdr plainSyn)).judged.drop = false := by
    decide +kernel
  have hdrop : (tcpChecks det (fun _ => true) ⟨1000, 1⟩ ⟨attackedFirewall, initConnPool⟩
      plainSyn).1.drop = false := by
    rw [← Bool.not_eq_true, tcpChecks_drop_iff]
    rintro (h | h)
    · exact Bool.eq_false_iff.mp hjudged h
    · exact absurd h.1 (by decide)
  have hhook := (fwHookFn_of_not_listed _ det completeTcp_plainSyn ⟨1000, 1⟩
    ⟨attackedFirewall, initConnPool⟩ hlisted).2
  have hnfq := (fwNfqCallback_of_complete (fun _ => 0) ⟨false, 0⟩ det completeTcp_plainSyn
    ⟨1000, 1⟩ ⟨attackedFirewall, initConnPool⟩ hb).2
  rw [hhook, hnfq, hdrop, decide_eq_true hlow, applyLocalBypass_eq_iff] at hverdict
  rcases hverdict with h | h
  · cases h
  · exact absurd h.1 (by decide)

end Nullsploit
