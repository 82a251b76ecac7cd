/-
Nullsploit/InspectorCalls.lean

The calls `inspect_http_payload` makes, in order and stage by stage as
kernel/http_inspect.c writes them: each of the seven stages builds its own event
and passes its own arguments to `update_ip_reputation`.

What the calls do to the state is what the inspector of HttpInspect does
(`inspectHttpPayload_eq_run`).  A packet is reported in one way or not at all
(`inspectCalls_cases`), so one detection is one event and one penalty of the same
kind (`one_event_one_penalty`).
-/
import Nullsploit.HttpInspect

namespace Nullsploit

open CText

/-! ### The calls -/

/-- A call of the inspector to another component. -/
inductive InspectorCall
  | registerHttpHeaderSent (ip : BitVec 32) (port : BitVec 16)
  | registerHttpComplete (ip : BitVec 32) (port : BitVec 16)
  | sendFwEvent (event : FwEvent)
  | updateIpReputation (ip : BitVec 32) (damage : Int) (threatType : UInt8)

/-- The two calls into the TCP monitor. -/
def registerCalls (data : List UInt8) : List InspectorCall :=
  let saddr := (ipHdr data).saddr
  let source := (tcpHdr data).source
  .registerHttpHeaderSent saddr source ::
    if kStrstr (scannedPart data) headerEnd then [.registerHttpComplete saddr source] else []

/-- A signature loop: the calls made at the first signature found, or `none`
past the end. -/
def signatureLoop (found : List UInt8 → Bool) (report : List UInt8 → List InspectorCall) :
    List (List UInt8) → Option (List InspectorCall)
  | [] => none
  | sig :: signatures =>
      if found sig then some (report sig) else signatureLoop found report signatures

/-- The event of a packet, as each stage fills it in. -/
def packetEvent (now : Nat) (data : List UInt8) (threatType severity : UInt8)
    (payloadPreview details : List UInt8) : FwEvent :=
  .make now (ipHdr data).saddr (ipHdr data).daddr (tcpHdr data).source (tcpHdr data).dest threatType
    severity payloadPreview details

/-- The stages of the scan on the decoded payload: the calls of the first one
that finds something. -/
def stageCalls (det : Detectors) (now : Nat) (data payload : List UInt8) :
    Option (List InspectorCall) :=
  let event := packetEvent now data
  let saddr := (ipHdr data).saddr
  let sqli := det.detectSqli payload
  let cmdi := det.detectCmdi payload
  let path := det.detectPathTraversal payload
  let bot := det.detectBot payload
  if sqli.score ≥ 40 then
    some [.sendFwEvent (event threatSqli severityCritical sqli.pattern sqli.details),
      .updateIpReputation saddr 20 threatSqli]
  else if cmdi.score ≥ 40 then
    some [.sendFwEvent (event threatCmdi severityCritical cmdi.pattern cmdi.details),
      .updateIpReputation saddr 20 threatCmdi]
  else if path.score ≥ 40 then
    -- the type is rewritten in the event and read back from it
    let threatType :=
      if strstr path.pattern (str "RFI") then threatRfi
      else if strstr path.pattern (str "LFI") then threatLfi
      else threatPathTrav
    let pathEvent := event threatType severityCritical path.pattern path.details
    some [.sendFwEvent pathEvent, .updateIpReputation saddr 20 pathEvent.threatType]
  else if bot.score ≥ 40 then
    some [.sendFwEvent (event threatBot severityInfo bot.pattern bot.details),
      .updateIpReputation saddr 15 threatBot]
  else
    let phpReport sig :=
      [.sendFwEvent (event threatPhpShell severityCritical (str "PHP Shell: " ++ sig.take 100) payload),
        .updateIpReputation saddr 25 threatPhpShell]
    let xssReport sig :=
      [.sendFwEvent (event threatXss severityWarning (str "XSS Detected: " ++ sig.take 100) payload),
        .updateIpReputation saddr 10 threatXss]
    match signatureLoop (kStrstr payload) phpReport phpSignatures with
    | some calls => some calls
    | none =>
        match signatureLoop (kStristr payload) xssReport xssSignatures with
        | some calls => some calls
        | none =>
            match det.scanMemYara payload with
            | some rule =>
                some [.sendFwEvent (event threatYara severityCritical
                    (str "YARA matched: " ++ rule.take 100)
                    (str "HTTP payload triggered inline YARA rule " ++ rule.take 100)),
                  .updateIpReputation saddr 30 threatYara]
            | none => none

/-- The return value of `inspect_http_payload` and its calls in order. -/
def inspectCalls (det : Detectors) (mayPull : Nat → Bool) (now : Nat) (data : List UInt8) :
    Bool × List InspectorCall :=
  let payloadLen := payloadLen (ipHdr data) (tcpHdr data)
  if payloadLen ≤ 0 then (false, [])
  else if mayPull (payloadOffset (ipHdr data) (tcpHdr data) + min 1024 payloadLen.toNat) = false then
    (false, [])
  else
    match stageCalls det now data (urlDecode 4095 (scannedPart data)) with
    | some calls => (true, registerCalls data ++ calls)
    | none => (false, registerCalls data)

/-! ### What the calls do -/

/-- One call on the state of the firewall. -/
def InspectorCall.run (now : Nat) (s : PathState) : InspectorCall → PathState
  | .registerHttpHeaderSent ip port => { s with pool := Nullsploit.registerHttpHeaderSent s.pool ip port }
  | .registerHttpComplete ip port => { s with pool := Nullsploit.registerHttpComplete s.pool ip port }
  | .sendFwEvent _ => s
  | .updateIpReputation ip damage threatType =>
      { s with
        firewall :=
          { s.firewall with
            reputation :=
              (Nullsploit.updateIpReputation s.firewall.reputation ip damage threatType.toNat now).1 } }

/-- The event a call sends. -/
def InspectorCall.event : InspectorCall → Option FwEvent
  | .sendFwEvent event => some event
  | _ => none

/-- The penalty a call imposes: address, damage and type. -/
def InspectorCall.penalty : InspectorCall → Option (BitVec 32 × Int × UInt8)
  | .updateIpReputation ip damage threatType => some (ip, damage, threatType)
  | _ => none

/-- All calls in turn. -/
def runInspectorCalls (now : Nat) (s : PathState) (calls : List InspectorCall) : PathState :=
  calls.foldl (InspectorCall.run now) s

/-- The two calls into the monitor are neither events nor penalties. -/
theorem registerCalls_quiet (data : List UInt8) :
    (registerCalls data).filterMap InspectorCall.event = [] ∧
      (registerCalls data).filterMap InspectorCall.penalty = [] := by
  unfold registerCalls
  dsimp only
  split <;> exact ⟨rfl, rfl⟩

theorem runInspectorCalls_registerCalls (now : Nat) (s : PathState) (data : List UInt8) :
    runInspectorCalls now s (registerCalls data) = { s with pool := registerHttp s.pool data } := by
  unfold registerCalls registerHttp
  dsimp only
  split <;> rfl

theorem signatureLoop_eq (found : List UInt8 → Bool) (report : List UInt8 → List InspectorCall)
    (signatures : List (List UInt8)) :
    signatureLoop found report signatures = (signatures.find? found).map report := by
  induction signatures with
  | nil => rfl
  | cons sig signatures ih =>
      rw [signatureLoop]
      by_cases h : found sig = true
      · rw [if_pos h, List.find?_cons_of_pos h]
        rfl
      · rw [if_neg h, List.find?_cons_of_neg h, ih]

/-- A finding as the calls that report it. -/
def Finding.calls (f : Finding) (now : Nat) (data : List UInt8) : List InspectorCall :=
  [.sendFwEvent (packetEvent now data f.threatType f.severity f.payloadPreview f.details),
    .updateIpReputation (ipHdr data).saddr f.damage f.threatType]

/-- A stage that scores. -/
theorem scored_calls (threatType severity : UInt8) (damage : Int) (d : Detection) (now : Nat)
    (data : List UInt8) (rest : Option Finding) :
    (scored threatType severity damage d <|> rest).map (Finding.calls · now data)
      = if d.score ≥ 40 then
          some [.sendFwEvent (packetEvent now data threatType severity d.pattern d.details),
            .updateIpReputation (ipHdr data).saddr damage threatType]
        else rest.map (Finding.calls · now data) := by
  unfold scored
  split <;> rfl

/-- The stages report what `Detectors.scan` finds. -/
theorem stageCalls_eq (det : Detectors) (now : Nat) (data payload : List UInt8) :
    stageCalls det now data payload = (det.scan payload).map (Finding.calls · now data) := by
  unfold Detectors.scan
  rw [scored_calls, scored_calls, scored_calls, scored_calls]
  unfold stageCalls
  dsimp only
  have htype : ∀ threatType severity preview details,
      (packetEvent now data threatType severity preview details).threatType = threatType :=
    fun _ _ _ _ => FwEvent.make_threatType ..
  rw [htype, signatureLoop_eq, signatureLoop_eq]
  unfold signature
  rcases phpSignatures.find? (kStrstr payload) with - | sig
  · rcases xssSignatures.find? (kStristr payload) with - | sig
    · rcases det.scanMemYara payload with - | rule
      · rfl
      · rfl
    · rfl
  · rfl

/-- The calls carry out the inspector. -/
theorem inspectHttpPayload_eq_run (det : Detectors) (mayPull : Nat → Bool) (clock : Clock)
    (s : PathState) (data : List UInt8) :
    inspectHttpPayload det mayPull clock s data
      = ⟨runInspectorCalls clock.seconds s (inspectCalls det mayPull clock.seconds data).2,
          (inspectCalls det mayPull clock.seconds data).1,
          (inspectCalls det mayPull clock.seconds data).2.filterMap InspectorCall.event⟩ := by
  have hregister := (registerCalls_quiet data).1
  unfold inspectHttpPayload inspectCalls
  dsimp only
  split
  · rfl
  split
  · rfl
  rw [stageCalls_eq]
  rcases det.scan (urlDecode 4095 (scannedPart data)) with - | f
  · rw [Option.map_none]
    dsimp only
    rw [runInspectorCalls_registerCalls, hregister]
  · rw [Option.map_some]
    dsimp only
    have hrun := runInspectorCalls_registerCalls clock.seconds s data
    unfold runInspectorCalls at hrun ⊢
    rw [List.foldl_append, hrun, List.filterMap_append, hregister]
    rfl

/-! ### One detection, one event, one penalty -/

theorem scored_damage {threatType severity : UInt8} {damage : Int} {d : Detection} {f : Finding}
    (h : scored threatType severity damage d = some f) : f.damage = damage := by
  unfold scored at h
  split at h
  · obtain rfl := Option.some.inj h
    rfl
  · cases h

theorem signature_damage {search : List UInt8 → List UInt8 → Bool} {signatures : List (List UInt8)}
    {threatType severity : UInt8} {title : List UInt8} {damage : Int} {payload : List UInt8}
    {f : Finding} (h : signature search signatures threatType severity title damage payload = some f) :
    f.damage = damage := by
  obtain ⟨sig, -, rfl⟩ := Option.map_eq_some_iff.mp h
  rfl

/-- Every finding costs reputation. -/
theorem scan_damage_pos {det : Detectors} {payload : List UInt8} {f : Finding}
    (h : det.scan payload = some f) : 0 < f.damage := by
  unfold Detectors.scan at h
  simp only [Option.orElse_eq_orElse, Option.orElse_eq_or, Option.or_eq_some_iff] at h
  rcases h with h | ⟨-, h | ⟨-, h | ⟨-, h | ⟨-, h | ⟨-, h | ⟨-, h⟩⟩⟩⟩⟩⟩
  · rw [scored_damage h]; decide
  · rw [scored_damage h]; decide
  · rw [scored_damage h]; decide
  · rw [scored_damage h]; decide
  · rw [signature_damage h]; decide
  · rw [signature_damage h]; decide
  · obtain ⟨rule, -, rfl⟩ := Option.map_eq_some_iff.mp h
    show (0 : Int) < 30
    decide

/-- Everything an inspection can do: nothing is reported, or one finding is. -/
theorem inspectCalls_cases (det : Detectors) (mayPull : Nat → Bool) (now : Nat) (data : List UInt8) :
    (∃ calls, inspectCalls det mayPull now data = (false, calls) ∧
        (calls = [] ∨ calls = registerCalls data)) ∨
      ∃ f : Finding, 0 < f.damage ∧
        inspectCalls det mayPull now data = (true, registerCalls data ++ f.calls now data) := by
  unfold inspectCalls
  dsimp only
  split
  · exact Or.inl ⟨[], rfl, Or.inl rfl⟩
  split
  · exact Or.inl ⟨[], rfl, Or.inl rfl⟩
  rw [stageCalls_eq]
  rcases hscan : det.scan (urlDecode 4095 (scannedPart data)) with - | f
  · exact Or.inl ⟨_, rfl, Or.inr rfl⟩
  · exact Or.inr ⟨f, scan_damage_pos hscan, rfl⟩

/-- **One detection, one event, one penalty.**  An inspection returns 0, sends
nothing and changes no score; or it returns 1, sends one event with the addresses
and ports of the packet, and makes one call of `update_ip_reputation`, for the
source, with a positive damage and the type of the event, so that no other
address changes its score. -/
theorem one_event_one_penalty (det : Detectors) (mayPull : Nat → Bool) (clock : Clock)
    (s : PathState) (data : List UInt8) :
    let r := inspectHttpPayload det mayPull clock s data
    let penalties :=
      (inspectCalls det mayPull clock.seconds data).2.filterMap InspectorCall.penalty
    (r.drop = false ∧ r.events = [] ∧ penalties = [] ∧
        ∀ ip, getIpReputation r.state.firewall.reputation ip
          = getIpReputation s.firewall.reputation ip) ∨
      r.drop = true ∧ ∃ event damage, r.events = [event] ∧
        penalties = [((ipHdr data).saddr, damage, event.threatType)] ∧ 0 < damage ∧
        event.srcIp = (ipHdr data).saddr ∧ event.destIp = (ipHdr data).daddr ∧
        event.srcPort = (tcpHdr data).source ∧ event.destPort = (tcpHdr data).dest ∧
        ∀ ip, ip ≠ (ipHdr data).saddr →
          getIpReputation r.state.firewall.reputation ip
            = getIpReputation s.firewall.reputation ip := by
  intro r penalties
  have hr : r = _ := inspectHttpPayload_eq_run det mayPull clock s data
  obtain ⟨hevents, hpenalties⟩ := registerCalls_quiet data
  rcases inspectCalls_cases det mayPull clock.seconds data with ⟨calls, hcalls, hquiet⟩ |
    ⟨f, hdamage, hcalls⟩
  · left
    rw [hr, show penalties = _ from congrArg (fun c => c.2.filterMap InspectorCall.penalty) hcalls,
      hcalls]
    rcases hquiet with rfl | rfl
    · exact ⟨rfl, rfl, rfl, fun _ => rfl⟩
    · refine ⟨rfl, hevents, hpenalties, fun ip => ?_⟩
      dsimp only
      rw [runInspectorCalls_registerCalls]
  · right
    rw [hr, show penalties = _ from congrArg (fun c => c.2.filterMap InspectorCall.penalty) hcalls,
      hcalls]
    have hrun := runInspectorCalls_registerCalls clock.seconds s data
    dsimp only [runInspectorCalls] at hrun ⊢
    rw [List.filterMap_append, List.filterMap_append, hevents, hpenalties, List.foldl_append, hrun]
    refine ⟨rfl, packetEvent clock.seconds data f.threatType f.severity f.payloadPreview f.details,
      f.damage, rfl, ?_, hdamage, FwEvent.make_srcIp .., FwEvent.make_destIp ..,
      FwEvent.make_srcPort .., FwEvent.make_destPort .., ?_⟩
    · rw [packetEvent, FwEvent.make_threatType]
      rfl
    · intro ip hip
      exact getIpReputation_updateIpReputation_of_ne _ hip _ _ _

end Nullsploit
