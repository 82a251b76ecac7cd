/-
Nullsploit/AgentLoop.lean

The main loop of the agent (agent/fw_agent.c): reload, reconnect, commands
from the SOC, events from the firewall, the batch timer.

One iteration is `loopTurn`; what the environment decides in it (times, what
`select` reports and the reads return, whether a connection or a write
succeeds) is a `Turn`.  The state carries a log of what the agent has done, for
the statements about whole runs: which events it received, which frames it
wrote to which connection and how far.

An event has three ways: an alert is sent at once; a repeated alert and an
informational event wait in the buffer for the timer.  `events_balance`
accounts for every event on every run.  Nothing is unaccounted for but alerts
whose send fails: the agent neither looks at the result nor buffers them, so
`no_event_lost_iff` is about those.
-/
import Mathlib.Algebra.Order.Group.Multiset
import Nullsploit.FwInspect
import Nullsploit.AgentCommands
import Nullsploit.Runs

namespace Nullsploit

open Bytes

/-! ### Repeated alerts -/

/-- `struct dedup_entry`. -/
structure DedupEntry where
  srcIp : BitVec 32
  threatType : UInt8
  lastSentTime : Nat
  deriving DecidableEq, Repr

/-- `DEDUPLICATION_CACHE_SIZE`. -/
def dedupCacheSize : Nat := 32

/-- `DEDUPLICATION_WINDOW_SECS`. -/
def dedupWindowSecs : Nat := 10

/-- The cache and the slot that is overwritten next. -/
structure DedupCache where
  entries : List DedupEntry
  next : Nat
  deriving DecidableEq, Repr

/-- The zero-initialised cache. -/
def DedupCache.init : DedupCache := ⟨List.replicate dedupCacheSize ⟨0, 0, 0⟩, 0⟩

/-- `is_duplicate_alert`. -/
def isDuplicateAlert (cache : DedupCache) (event : FwEvent) : Bool × DedupCache :=
  let now := event.timestamp
  if cache.entries.any fun c =>
      decide (c.srcIp = event.srcIp ∧ c.threatType = event.threatType ∧ c.lastSentTime ≤ now ∧
        now - c.lastSentTime < dedupWindowSecs) then (true, cache)
  else
    (false, ⟨cache.entries.set cache.next ⟨event.srcIp, event.threatType, now⟩,
      (cache.next + 1) % dedupCacheSize⟩)

/-! ### The agent -/

/-- `EVENT_BUFFER_SIZE`. -/
def eventBufferSize : Nat := 512

/-- A frame written to the SOC connection, the number of its bytes that were
written, and the events it carries. -/
structure Sent where
  frame : Frame
  written : Nat
  events : List FwEvent

/-- What the agent has done, in the order it did it. -/
inductive AgentLog
  | push (payload : BlocklistPayload)
  | rules (yara : List UInt8)
  | opened
  | sent (s : Sent)
  | closed
  | received (e : FwEvent)
  | dropped (e : FwEvent)
  | alertFailed (e : FwEvent)

/-- The variables of the agent that outlive an iteration, and its log. -/
structure Agent where
  agentUuid : List UInt8
  uuid_length : agentUuid.length = 16
  blocklist : List UInt8
  socConnected : Bool
  fwConnected : Bool
  eventBuffer : List FwEvent
  dedupCache : DedupCache
  lastFlush : Nat
  lastHealthCheck : Nat
  log : List AgentLog

/-- Note something in the log. -/
def Agent.note (a : Agent) (l : List AgentLog) : Agent := { a with log := a.log ++ l }

/-! ### Sending -/

/-- What happens to one call of `send_to_soc`: whether a connection can be made
if there is none, whether the encryption succeeds and with which vector, and
after how many bytes the write of the header or of the payload fails, if it
does. -/
structure SendEnv where
  connect : Bool
  encrypt : Bool
  iv : AesBlock
  header : Option Nat
  payload : Option Nat

/-- The number of bytes written when a write of the frame fails. -/
def SendEnv.failure (env : SendEnv) (f : Frame) : Option Nat :=
  match env.header with
  | some k => some (min k (hdrSize - 1))
  | none =>
      if f.payload = [] then none
      else env.payload.map fun k => hdrSize + min k (f.payload.length - 1)

/-- `connect_to_soc`, succeeding. -/
def Agent.openSoc (a : Agent) : Agent := { a with socConnected := true }.note [.opened]

/-- `close(soc_fd); soc_fd = -1`. -/
def Agent.closeSoc (a : Agent) : Agent := { a with socConnected := false }.note [.closed]

/-- `send_to_soc` with the events in `data`; the result is whether it
returned 0. -/
def sendToSoc (E : Equiv.Perm AesBlock) (a : Agent) (msgType : UInt8) (data : List UInt8)
    (events : List FwEvent) (env : SendEnv) : Agent × Bool :=
  if a.socConnected = false ∧ env.connect = false then (a, false)
  else
    let a := if a.socConnected then a else a.openSoc
    if data ≠ [] ∧ env.encrypt = false then (a, false)
    else
      let payload := if data = [] then [] else aesEncrypt E env.iv data
      let frame : Frame := ⟨a.agentUuid, msgType, payload, a.uuid_length⟩
      match env.failure frame with
      | some k => ((a.note [.sent ⟨frame, k, events⟩]).closeSoc, false)
      | none => (a.note [.sent ⟨frame, frame.bytes.length, events⟩], true)

/-- `send_health_ping`. -/
def sendHealthPing (E : Equiv.Perm AesBlock) (a : Agent) (health : Fin 24 → UInt8)
    (env : SendEnv) : Agent :=
  (sendToSoc E a msgTypePing (List.ofFn health) [] env).1

/-- `load_and_push_blocklist`; without a firewall nothing is pushed. -/
def Agent.pushBlocklist (a : Agent) : Agent :=
  if a.fwConnected then a.note [.push (loadAndPushBlocklist a.blocklist)] else a

/-! ### One iteration -/

/-- What a read from the firewall returns: it fails and the socket is reset,
it has to be repeated, it yields no whole event, or an event. -/
inductive FwRead
  | reset
  | again
  | short
  | event (e : FwEvent)

/-- What the environment decides in one iteration. -/
structure Turn where
  reload : Bool
  fwConnect : Bool
  ready : Bool
  now : Nat
  reconnect : Bool
  health : Fin 24 → UInt8
  healthEnv : SendEnv
  downstream : Option (List UInt8)
  firewall : Option FwRead
  alertEnv : SendEnv
  later : Nat
  flushEnv : SendEnv

/-- `reload_requested`, then the reconnection to the firewall. -/
def reloadPhase (a : Agent) (t : Turn) : Agent :=
  let a := if t.reload then a.pushBlocklist else a
  if a.fwConnected then a
  else if t.fwConnect then { a with fwConnected := true }.pushBlocklist
  else a

/-- The health check: a lost SOC connection is renewed. -/
def healthPhase (E : Equiv.Perm AesBlock) (a : Agent) (t : Turn) : Agent :=
  if a.lastHealthCheck + 5 < t.now then
    let a := { a with lastHealthCheck := t.now }
    if a.socConnected = false ∧ t.reconnect = true then
      (sendHealthPing E a.openSoc t.health t.healthEnv).pushBlocklist
    else a
  else a

/-- Where a phase leaves the iteration: at its end (`continue`), or at the next
phase. -/
inductive Flow
  | next (a : Agent)
  | go (a : Agent)

/-- 1. Commands from the SOC. -/
def downstreamPhase (E : Equiv.Perm AesBlock) (a : Agent) (t : Turn) : Flow :=
  match a.socConnected, t.downstream with
  | true, some stream =>
      match readCommand E stream with
      | .reset => .next a.closeSoc
      | .ignored _ => .go a
      | .command msgType decrypted _ =>
          let effect := handleCommand a.blocklist msgType decrypted
          let a := { a with blocklist := effect.file }
          let a := if effect.push then a.pushBlocklist else a
          .go (match effect.yara with
            | some yara => a.note [.rules yara]
            | none => a)
  | _, _ => .go a

/-- Put an event into the buffer, if there is room. -/
def Agent.buffer (a : Agent) (e : FwEvent) : Agent :=
  if a.eventBuffer.length < eventBufferSize then { a with eventBuffer := a.eventBuffer ++ [e] }
  else a.note [.dropped e]

/-- Does the event call for an instant alert? -/
def FwEvent.isAlert (e : FwEvent) : Bool :=
  e.severity = severityCritical ∨ e.severity = severityWarning

/-- A valid event. -/
def handleEvent (E : Equiv.Perm AesBlock) (a : Agent) (e : FwEvent) (env : SendEnv) : Agent :=
  let a := a.note [.received e]
  if e.isAlert then
    let (duplicate, cache) := isDuplicateAlert a.dedupCache e
    let a := { a with dedupCache := cache }
    if duplicate then a.buffer e
    else
      match sendToSoc E a msgTypeAlert (eventBytes [e]) [e] env with
      | (a, true) => a
      | (a, false) => a.note [.alertFailed e]
  else a.buffer e

/-- 2. Events from the firewall. -/
def eventPhase (E : Equiv.Perm AesBlock) (a : Agent) (t : Turn) : Flow :=
  match a.fwConnected, t.firewall with
  | true, some r =>
      match r with
      | .reset => .next { a with fwConnected := false }
      | .again => .next a
      | .short => .go a
      | .event e => .go (handleEvent E a e t.alertEnv)
  | _, _ => .go a

/-- `flush_interval`. -/
def flushInterval : Nat := 10

/-- 3. The batch timer. -/
def timerPhase (E : Equiv.Perm AesBlock) (a : Agent) (t : Turn) : Agent :=
  if a.lastFlush + flushInterval ≤ t.later then
    let a :=
      if a.eventBuffer ≠ [] then
        match sendToSoc E a msgTypeBatch (eventBytes a.eventBuffer) a.eventBuffer t.flushEnv with
        | (a, true) => { a with eventBuffer := [] }
        | (a, false) => a
      else sendHealthPing E a t.health t.flushEnv
    { a with lastFlush := t.later }
  else a

/-- The second half of an iteration. -/
def eventsAndTimer (E : Equiv.Perm AesBlock) (a : Agent) (t : Turn) : Agent :=
  match eventPhase E a t with
  | .next a => a
  | .go a => timerPhase E a t

/-- One iteration of the main loop. -/
def loopTurn (E : Equiv.Perm AesBlock) (a : Agent) (t : Turn) : Agent :=
  let a := reloadPhase a t
  if t.ready then
    match downstreamPhase E (healthPhase E a t) t with
    | .next a => a
    | .go a => eventsAndTimer E a t
  else a

/-- The loop as a machine driven by its environment. -/
def agentStep (E : Equiv.Perm AesBlock) (a : Agent) (t : Turn) : Agent × Unit :=
  (loopTurn E a t, ())

/-- What the environment decides before the loop. -/
structure Startup where
  fwConnect : Bool
  socConnect : Bool
  health : Fin 24 → UInt8
  healthEnv : SendEnv
  now : Nat

/-- The agent before it does anything. -/
def Agent.blank (uuid : Fin 16 → UInt8) (blocklist : List UInt8) : Agent where
  agentUuid := List.ofFn uuid
  uuid_length := List.length_ofFn
  blocklist := blocklist
  socConnected := false
  fwConnected := false
  eventBuffer := []
  dedupCache := .init
  lastFlush := 0
  lastHealthCheck := 0
  log := []

/-- `main` up to the loop. -/
def agentStart (E : Equiv.Perm AesBlock) (uuid : Fin 16 → UInt8) (blocklist : List UInt8)
    (s : Startup) : Agent :=
  let a := { Agent.blank uuid blocklist with fwConnected := s.fwConnect, lastFlush := s.now }
  let a := if s.socConnect then sendHealthPing E a.openSoc s.health s.healthEnv else a
  a.pushBlocklist

/-! ### What a send does -/

/-- The agent once it has a connection. -/
def Agent.connected (a : Agent) : Agent := if a.socConnected then a else a.openSoc

/-- The SOC can be reached and takes the message. -/
structure SendOk (a : Agent) (env : SendEnv) : Prop where
  connect : a.socConnected = true ∨ env.connect = true
  encrypt : env.encrypt = true
  header : env.header = none
  payload : env.payload = none

theorem SendEnv.failure_lt {env : SendEnv} {f : Frame} {k : Nat} (h : env.failure f = some k) :
    k < f.bytes.length := by
  rw [f.length_bytes]
  have hpos : 0 < hdrSize := by decide
  unfold SendEnv.failure at h
  rcases hh : env.header with - | k'
  · rw [hh] at h
    dsimp only at h
    split at h
    · cases h
    · rename_i hne
      have hlen := List.length_pos_of_ne_nil hne
      obtain ⟨k', -, rfl⟩ := Option.map_eq_some_iff.mp h
      omega
  · rw [hh] at h
    obtain rfl := Option.some.inj h
    omega

/-- A call of `send_to_soc` with data returns without a connection, returns
because the encryption fails, writes part of a frame and closes, or writes a
whole frame. -/
theorem sendToSoc_cases (E : Equiv.Perm AesBlock) (a : Agent) (msgType : UInt8)
    {data : List UInt8} (hdata : data ≠ []) (events : List FwEvent) (env : SendEnv) :
    (a.socConnected = false ∧ env.connect = false ∧
        sendToSoc E a msgType data events env = (a, false)) ∨
      (a.socConnected = true ∨ env.connect = true) ∧
        (env.encrypt = false ∧ sendToSoc E a msgType data events env = (a.connected, false) ∨
          env.encrypt = true ∧ ∃ f : Frame, f.msgType = msgType ∧
            f.payload = aesEncrypt E env.iv data ∧
            ((∃ k, env.failure f = some k ∧ k < f.bytes.length ∧
                sendToSoc E a msgType data events env
                  = ((a.connected.note [.sent ⟨f, k, events⟩]).closeSoc, false)) ∨
              env.failure f = none ∧
                sendToSoc E a msgType data events env
                  = (a.connected.note [.sent ⟨f, f.bytes.length, events⟩], true))) := by
  by_cases hconn : a.socConnected = false ∧ env.connect = false
  · -- `connect_to_soc` fails and `send_to_soc` returns at once
    refine Or.inl ⟨hconn.1, hconn.2, ?_⟩
    rw [sendToSoc, if_pos hconn]
  · refine Or.inr ⟨?_, ?_⟩
    · rcases hs : a.socConnected with - | -
      · exact Or.inr (by simpa [hs] using hconn)
      · exact Or.inl rfl
    · rw [sendToSoc, if_neg hconn]
      rcases henc : env.encrypt with - | -
      · exact Or.inl ⟨rfl, if_pos ⟨hdata, rfl⟩⟩
      · refine Or.inr ⟨rfl, ⟨a.connected.agentUuid, msgType, aesEncrypt E env.iv data,
          a.connected.uuid_length⟩, rfl, rfl, ?_⟩
        simp only [hdata, if_false, ne_eq, not_false_eq_true, true_and, Bool.true_eq_false]
        rcases hfail : env.failure ⟨a.connected.agentUuid, msgType, aesEncrypt E env.iv data,
            a.connected.uuid_length⟩ with - | k
        · refine Or.inr ⟨rfl, ?_⟩
          show (match env.failure ⟨a.connected.agentUuid, msgType, aesEncrypt E env.iv data,
            a.connected.uuid_length⟩ with | some k => _ | none => _) = _
          rw [hfail]
          rfl
        · refine Or.inl ⟨k, rfl, SendEnv.failure_lt hfail, ?_⟩
          show (match env.failure ⟨a.connected.agentUuid, msgType, aesEncrypt E env.iv data,
            a.connected.uuid_length⟩ with | some k => _ | none => _) = _
          rw [hfail]
          rfl

/-- Data is sent exactly when the SOC can be reached and takes it. -/
theorem sendToSoc_eq_true_iff (E : Equiv.Perm AesBlock) (a : Agent) (msgType : UInt8)
    {data : List UInt8} (hdata : data ≠ []) (events : List FwEvent) (env : SendEnv) :
    (sendToSoc E a msgType data events env).2 = true ↔ SendOk a env := by
  have hfailure : ∀ f : Frame, f.payload = aesEncrypt E env.iv data →
      (env.failure f = none ↔ env.header = none ∧ env.payload = none) := by
    intro f hf
    -- an encrypted payload is never empty, so its write is attempted
    have hne : f.payload ≠ [] := by
      apply List.ne_nil_of_length_pos
      rw [hf, length_aesEncrypt]
      omega
    unfold SendEnv.failure
    rcases env.header with - | k
    · simp [hne]
    · simp
  rcases sendToSoc_cases E a msgType hdata events env with
    ⟨hs, hc, h⟩ | ⟨hconn, ⟨henc, h⟩ | ⟨henc, f, -, hf, ⟨k, hk, -, h⟩ | ⟨hk, h⟩⟩⟩
  · -- no connection, and none can be made
    rw [h]
    refine ⟨fun e => absurd e (by simp), fun ok => ?_⟩
    rcases ok.connect with e | e
    · rw [hs] at e; cases e
    · rw [hc] at e; cases e
  · rw [h]
    refine ⟨fun e => absurd e (by simp), fun ok => ?_⟩
    have e := ok.encrypt
    rw [henc] at e; cases e
  · rw [h]
    refine ⟨fun e => absurd e (by simp), fun ok => ?_⟩
    rw [(hfailure f hf).mpr ⟨ok.header, ok.payload⟩] at hk
    cases hk
  · rw [h]
    obtain ⟨hh, hp⟩ := (hfailure f hf).mp hk
    exact ⟨fun _ => ⟨hconn, henc, hh, hp⟩, fun _ => rfl⟩

/-! ### Phases that handle no event -/

/-- The agent a phase leaves, whichever way it goes. -/
def Flow.agent : Flow → Agent
  | .next a => a
  | .go a => a

/-- The state in which the events of an iteration are handled, if it gets
there. -/
def beforeEvents (E : Equiv.Perm AesBlock) (a : Agent) (t : Turn) : Option Agent :=
  if t.ready then
    match downstreamPhase E (healthPhase E (reloadPhase a t) t) t with
    | .next _ => none
    | .go a => some a
  else none

/-- A relation between agents that everything but the handling and flushing
of events keeps: it composes, and it holds across changes of the other
variables, pushes, opening and closing the SOC connection, and pings. -/
structure QuietRel (E : Equiv.Perm AesBlock) (R : Agent → Agent → Prop) : Prop where
  trans : ∀ {a b c}, R a b → R b c → R a c
  same : ∀ {a a'}, a'.log = a.log → a'.socConnected = a.socConnected →
    a'.eventBuffer = a.eventBuffer → R a a'
  push : ∀ a payload, R a (a.note [.push payload])
  rules : ∀ a yara, R a (a.note [.rules yara])
  openSoc : ∀ a, a.socConnected = false → R a a.openSoc
  closeSoc : ∀ a, a.socConnected = true → R a a.closeSoc
  ping : ∀ a health env, R a (sendHealthPing E a health env)

namespace QuietRel

variable {E : Equiv.Perm AesBlock} {R : Agent → Agent → Prop} (hR : QuietRel E R)

include hR

theorem refl (a : Agent) : R a a := hR.same rfl rfl rfl

theorem pushBlocklist (a : Agent) : R a a.pushBlocklist := by
  unfold Agent.pushBlocklist
  split
  · exact hR.push a _
  · exact hR.refl a

theorem reloadPhase (a : Agent) (t : Turn) : R a (reloadPhase a t) := by
  have hfirst : R a (if t.reload then a.pushBlocklist else a) := by
    split
    · exact hR.pushBlocklist a
    · exact hR.refl a
  unfold Nullsploit.reloadPhase
  generalize (if t.reload then a.pushBlocklist else a) = b at hfirst
  dsimp only
  split
  · exact hfirst
  · split
    · have hconn : R b { b with fwConnected := true } := hR.same rfl rfl rfl
      exact hR.trans (hR.trans hfirst hconn) (hR.pushBlocklist _)
    · exact hfirst

theorem healthPhase (a : Agent) (t : Turn) : R a (healthPhase E a t) := by
  have hcheck : R a { a with lastHealthCheck := t.now } := hR.same rfl rfl rfl
  unfold Nullsploit.healthPhase
  split
  · dsimp only
    split
    · rename_i hdown
      apply hR.trans hcheck
      apply hR.trans (hR.openSoc { a with lastHealthCheck := t.now } hdown.1)
      apply hR.trans (hR.ping _ t.health t.healthEnv)
      exact hR.pushBlocklist _
    · exact hcheck
  · exact hR.refl a

theorem downstreamPhase (a : Agent) (t : Turn) : R a (downstreamPhase E a t).agent := by
  unfold Nullsploit.downstreamPhase
  split
  · rename_i hconn _
    split
    · exact hR.closeSoc a hconn
    · exact hR.refl a
    · rename_i msgType decrypted rest _
      have hfile : R a { a with blocklist := (handleCommand a.blocklist msgType decrypted).file } :=
        hR.same rfl rfl rfl
      dsimp only
      generalize hcmd : handleCommand a.blocklist msgType decrypted = effect at hfile ⊢
      generalize ({ a with blocklist := effect.file } : Agent) = b at hfile ⊢
      have hpush : R a (if effect.push then b.pushBlocklist else b) := by
        split
        · exact hR.trans hfile (hR.pushBlocklist b)
        · exact hfile
      generalize (if effect.push then b.pushBlocklist else b) = c at hpush ⊢
      show R a (match effect.yara with
        | some yara => c.note [.rules yara]
        | none => c)
      split
      · exact hR.trans hpush (hR.rules c _)
      · exact hpush
  · exact hR.refl a

/-- The first half of an iteration, and what is left to do after it. -/
theorem beforeEvents (a : Agent) (t : Turn) :
    (∃ b, beforeEvents E a t = some b ∧ R a b ∧ loopTurn E a t = eventsAndTimer E b t) ∨
      beforeEvents E a t = none ∧ R a (loopTurn E a t) := by
  have hreload := hR.reloadPhase a t
  unfold Nullsploit.beforeEvents loopTurn
  dsimp only
  split
  · have hdown := hR.trans (hR.trans hreload (hR.healthPhase _ t))
      (hR.downstreamPhase (Nullsploit.healthPhase E (Nullsploit.reloadPhase a t) t) t)
    rcases hd : Nullsploit.downstreamPhase E
      (Nullsploit.healthPhase E (Nullsploit.reloadPhase a t) t) t with b | b
    · rw [hd] at hdown
      exact Or.inr ⟨rfl, hdown⟩
    · rw [hd] at hdown
      exact Or.inl ⟨b, rfl, hdown, rfl⟩
  · exact Or.inr ⟨rfl, hreload⟩

theorem agentStart (uuid : Fin 16 → UInt8) (blocklist : List UInt8) (s : Startup) :
    R (.blank uuid blocklist) (agentStart E uuid blocklist s) := by
  have hinit : R (.blank uuid blocklist)
      { Agent.blank uuid blocklist with fwConnected := s.fwConnect, lastFlush := s.now } :=
    hR.same rfl rfl rfl
  have hping : R (.blank uuid blocklist)
      (if s.socConnect then
        sendHealthPing E { Agent.blank uuid blocklist with
          fwConnected := s.fwConnect, lastFlush := s.now }.openSoc s.health s.healthEnv
      else { Agent.blank uuid blocklist with fwConnected := s.fwConnect, lastFlush := s.now }) := by
    split
    · exact hR.trans (hR.trans hinit (hR.openSoc _ rfl)) (hR.ping _ _ _)
    · exact hinit
  exact hR.trans hping (hR.pushBlocklist _)

end QuietRel

/-! ### The account of events -/

/-- The events received. -/
def received (log : List AgentLog) : List FwEvent :=
  log.filterMap fun | .received e => some e | _ => none

/-- The events dropped because the buffer was full. -/
def dropped (log : List AgentLog) : List FwEvent :=
  log.filterMap fun | .dropped e => some e | _ => none

/-- The alerts whose send failed. -/
def failedAlerts (log : List AgentLog) : List FwEvent :=
  log.filterMap fun | .alertFailed e => some e | _ => none

/-- The events of a frame if all of it was written. -/
def Sent.delivered (s : Sent) : List FwEvent :=
  if s.written = s.frame.bytes.length then s.events else []

/-- The events delivered by a call of `send_to_soc` that returned 0. -/
def delivered (log : List AgentLog) : List FwEvent :=
  log.flatMap fun | .sent s => s.delivered | _ => []

section
variable (l m : List AgentLog)

@[simp] theorem received_append : received (l ++ m) = received l ++ received m :=
  List.filterMap_append

@[simp] theorem dropped_append : dropped (l ++ m) = dropped l ++ dropped m :=
  List.filterMap_append

@[simp] theorem failedAlerts_append : failedAlerts (l ++ m) = failedAlerts l ++ failedAlerts m :=
  List.filterMap_append

@[simp] theorem delivered_append : delivered (l ++ m) = delivered l ++ delivered m :=
  List.flatMap_append

theorem delivered_sent (s : Sent) : delivered (.sent s :: m) = s.delivered ++ delivered m := rfl

end

/-- Entries that receive no event and lose none. -/
structure Eventless (l : List AgentLog) : Prop where
  received : received l = []
  dropped : dropped l = []
  failed : failedAlerts l = []

theorem Eventless.append {l m : List AgentLog} (hl : Eventless l) (hm : Eventless m) :
    Eventless (l ++ m) where
  received := by rw [received_append, hl.received, hm.received]; rfl
  dropped := by rw [dropped_append, hl.dropped, hm.dropped]; rfl
  failed := by rw [failedAlerts_append, hl.failed, hm.failed]; rfl

/-- From `a` to `a'`, every event received or waiting is delivered, waiting,
dropped, or one of the alerts that failed. -/
def Accounts (a : Agent) (failed : List FwEvent) (a' : Agent) : Prop :=
  ∃ l, a'.log = a.log ++ l ∧ failedAlerts l = failed ∧
    (received l : Multiset FwEvent) + a.eventBuffer
      = delivered l + a'.eventBuffer + dropped l + failed

theorem Accounts.refl (a : Agent) : Accounts a [] a :=
  ⟨[], (List.append_nil _).symm, rfl, by simp [received, delivered, dropped]⟩

theorem Accounts.trans {a b c : Agent} {f g : List FwEvent} (hab : Accounts a f b)
    (hbc : Accounts b g c) : Accounts a (f ++ g) c := by
  obtain ⟨l, hlog, rfl, hl⟩ := hab
  obtain ⟨m, hlog', rfl, hm⟩ := hbc
  refine ⟨l ++ m, by rw [hlog', hlog, List.append_assoc], failedAlerts_append l m, ?_⟩
  simp only [received_append, delivered_append, dropped_append, ← Multiset.coe_add]
  -- add the two accounts and cancel the buffer of `b`
  have hsum := congrArg₂ (· + ·) hl hm
  apply add_right_cancel (b := (b.eventBuffer : Multiset FwEvent))
  calc _ = _ := by ac_rfl
    _ = _ := hsum
    _ = _ := by ac_rfl

/-- Entries of the log that carry no event. -/
theorem accounts_quiet {a a' : Agent} (l : List AgentLog) (hlog : a'.log = a.log ++ l)
    (hbuffer : a'.eventBuffer = a.eventBuffer) (hless : Eventless l)
    (hdelivered : delivered l = []) : Accounts a [] a' :=
  ⟨l, hlog, hless.failed, by rw [hless.received, hdelivered, hless.dropped, hbuffer]; simp⟩

theorem accounts_same {a a' : Agent} (hlog : a'.log = a.log)
    (hbuffer : a'.eventBuffer = a.eventBuffer) : Accounts a [] a' :=
  accounts_quiet [] (hlog.trans (List.append_nil _).symm) hbuffer ⟨rfl, rfl, rfl⟩ rfl

theorem connected_log (a : Agent) :
    ∃ l, a.connected.log = a.log ++ l ∧ (l = [] ∨ l = [.opened]) := by
  unfold Agent.connected
  split
  · exact ⟨[], (List.append_nil _).symm, Or.inl rfl⟩
  · exact ⟨[.opened], rfl, Or.inr rfl⟩

theorem connected_eventBuffer (a : Agent) : a.connected.eventBuffer = a.eventBuffer := by
  unfold Agent.connected
  split <;> rfl

/-- A send delivers its events if it returns 0, and leaves the buffer alone. -/
theorem sendToSoc_log (E : Equiv.Perm AesBlock) (a : Agent) (msgType : UInt8)
    {data : List UInt8} (hdata : data ≠ []) (events : List FwEvent) (env : SendEnv) :
    (sendToSoc E a msgType data events env).1.eventBuffer = a.eventBuffer ∧
      ∃ l, (sendToSoc E a msgType data events env).1.log = a.log ++ l ∧ Eventless l ∧
        delivered l = if (sendToSoc E a msgType data events env).2 then events else [] := by
  obtain ⟨l, hlog, hl⟩ := connected_log a
  have hless : Eventless l := by rcases hl with rfl | rfl <;> exact ⟨rfl, rfl, rfl⟩
  have hv : delivered l = [] := by rcases hl with rfl | rfl <;> rfl
  have hbuffer := connected_eventBuffer a
  rcases sendToSoc_cases E a msgType hdata events env with
    ⟨-, -, h⟩ | ⟨-, ⟨-, h⟩ | ⟨-, f, -, -, ⟨k, -, hk, h⟩ | ⟨-, h⟩⟩⟩
  · rw [h]
    exact ⟨rfl, [], (List.append_nil _).symm, ⟨rfl, rfl, rfl⟩, rfl⟩
  · rw [h]
    exact ⟨hbuffer, l, hlog, hless, hv⟩
  · -- part of the frame is written, and nothing counts as delivered
    rw [h]
    have hpart : Sent.delivered ⟨f, k, events⟩ = [] := if_neg hk.ne
    refine ⟨hbuffer, l ++ [.sent ⟨f, k, events⟩, .closed], ?_, hless.append ⟨rfl, rfl, rfl⟩, ?_⟩
    · show (a.connected.log ++ [_]) ++ [_] = _
      rw [hlog, List.append_assoc, List.append_assoc]
      rfl
    · rw [delivered_append, hv, delivered_sent, hpart]; rfl
  · rw [h]
    have hwhole : Sent.delivered ⟨f, f.bytes.length, events⟩ = events := if_pos rfl
    refine ⟨hbuffer, l ++ [.sent ⟨f, f.bytes.length, events⟩], ?_, hless.append ⟨rfl, rfl, rfl⟩, ?_⟩
    · show a.connected.log ++ [_] = _
      rw [hlog, List.append_assoc]
    · rw [delivered_append, hv, delivered_sent, hwhole]
      exact List.append_nil events

theorem accounts_sendHealthPing (E : Equiv.Perm AesBlock) (a : Agent) (health : Fin 24 → UInt8)
    (env : SendEnv) : Accounts a [] (sendHealthPing E a health env) := by
  obtain ⟨hbuffer, l, hlog, hless, hv⟩ :=
    sendToSoc_log E a msgTypePing (show List.ofFn health ≠ [] by simp) [] env
  exact accounts_quiet l hlog hbuffer hless (hv.trans (by simp))

/-- An event that is buffered, or dropped for want of room. -/
theorem accounts_buffer (a : Agent) (cache : DedupCache) (e : FwEvent) :
    Accounts a [] (({ a.note [.received e] with dedupCache := cache } : Agent).buffer e) := by
  unfold Agent.buffer
  split
  · refine ⟨[.received e], rfl, rfl, ?_⟩
    show (([e] : List FwEvent) : Multiset FwEvent) + a.eventBuffer
      = ([] : List FwEvent) + (a.eventBuffer ++ [e] : List FwEvent) + ([] : List FwEvent)
        + ([] : List FwEvent)
    simp [← Multiset.coe_add, add_comm]
  · refine ⟨[.received e, .dropped e], (List.append_assoc a.log [_] [_]), rfl, ?_⟩
    show (([e] : List FwEvent) : Multiset FwEvent) + a.eventBuffer
      = ([] : List FwEvent) + a.eventBuffer + ([e] : List FwEvent) + ([] : List FwEvent)
    simp [add_comm]

/-- An event received and delivered. -/
theorem accounts_delivered {a a' : Agent} {l : List AgentLog} {e : FwEvent}
    (hlog : a'.log = a.log ++ (.received e :: l)) (hbuffer : a'.eventBuffer = a.eventBuffer)
    (hless : Eventless l) (hv : delivered l = [e]) : Accounts a [] a' := by
  have hreceived : received (.received e :: l) = e :: received l := rfl
  refine ⟨.received e :: l, hlog, hless.failed, ?_⟩
  rw [hreceived, hless.received, hbuffer]
  show ([e] : List FwEvent) + (a.eventBuffer : Multiset FwEvent)
    = (delivered l : Multiset FwEvent) + a.eventBuffer + (dropped l : Multiset FwEvent)
      + ([] : List FwEvent)
  rw [hv, hless.dropped]
  simp

/-- An event received whose send fails: it is neither delivered nor buffered. -/
theorem accounts_failed {a a' : Agent} {l : List AgentLog} {e : FwEvent}
    (hlog : a'.log = a.log ++ (.received e :: l)) (hbuffer : a'.eventBuffer = a.eventBuffer)
    (hless : Eventless l) (hv : delivered l = []) : Accounts a [e] (a'.note [.alertFailed e]) := by
  have hreceived : received (.received e :: l ++ [.alertFailed e]) = e :: (received l ++ []) :=
    congrArg (e :: ·) (received_append l _)
  have hdropped : dropped (.received e :: l ++ [.alertFailed e]) = dropped l ++ [] :=
    dropped_append l _
  have hdelivered : delivered (.received e :: l ++ [.alertFailed e]) = delivered l ++ [] :=
    delivered_append l _
  have hfailed : failedAlerts (.received e :: l ++ [.alertFailed e]) = failedAlerts l ++ [e] :=
    failedAlerts_append l _
  refine ⟨.received e :: l ++ [.alertFailed e], ?_, ?_, ?_⟩
  · show a'.log ++ [_] = _
    rw [hlog, List.append_assoc]
  · rw [hfailed, hless.failed, List.nil_append]
  · rw [hreceived, hdropped, hdelivered, hless.received, hless.dropped, hv]
    show ([e] : List FwEvent) + (a.eventBuffer : Multiset FwEvent)
      = ([] : List FwEvent) + (a'.eventBuffer : Multiset FwEvent) + ([] : List FwEvent) + [e]
    rw [hbuffer]
    simp [add_comm]

/-- The send of an instant alert: it is delivered, or it is missing. -/
theorem accounts_sendAlert (E : Equiv.Perm AesBlock) (a : Agent) (cache : DedupCache) (e : FwEvent)
    (env : SendEnv) :
    ∃ failed, Accounts a failed
        (match sendToSoc E { a.note [.received e] with dedupCache := cache } msgTypeAlert
            (eventBytes [e]) [e] env with
          | (a, true) => a
          | (a, false) => a.note [.alertFailed e]) ∧
      (failed = [] ↔ SendOk a env) := by
  set b : Agent := { a.note [.received e] with dedupCache := cache } with hb
  have hdata : eventBytes [e] ≠ [] := eventBytes_ne_nil (by simp)
  obtain ⟨hbuffer, l, hlog, hless, hv⟩ := sendToSoc_log E b msgTypeAlert hdata [e] env
  have hok : (sendToSoc E b msgTypeAlert (eventBytes [e]) [e] env).2 = true ↔ SendOk a env := by
    rw [sendToSoc_eq_true_iff E b msgTypeAlert hdata [e] env]
    exact ⟨fun ⟨h₁, h₂, h₃, h₄⟩ => ⟨h₁, h₂, h₃, h₄⟩, fun ⟨h₁, h₂, h₃, h₄⟩ => ⟨h₁, h₂, h₃, h₄⟩⟩
  have hlog' : (sendToSoc E b msgTypeAlert (eventBytes [e]) [e] env).1.log
      = a.log ++ (.received e :: l) := by
    rw [hlog, hb]
    exact List.append_assoc a.log [_] l
  -- the result of the send decides; `main` does nothing with it
  rcases hsend : sendToSoc E b msgTypeAlert (eventBytes [e]) [e] env with ⟨a', - | -⟩
  · rw [hsend] at hbuffer hlog' hv hok
    exact ⟨[e], accounts_failed hlog' hbuffer hless hv, by rw [← hok]; simp⟩
  · rw [hsend] at hbuffer hlog' hv hok
    exact ⟨[], accounts_delivered hlog' hbuffer hless hv, iff_of_true rfl (hok.mp rfl)⟩

/-- Does the event go out as an alert at once? -/
def InstantAlert (a : Agent) (e : FwEvent) : Prop :=
  e.isAlert = true ∧ (isDuplicateAlert a.dedupCache e).1 = false

/-- Handling an event keeps the account; the only event that can be missing is
an instant alert that could not be sent. -/
theorem accounts_handleEvent (E : Equiv.Perm AesBlock) (a : Agent) (e : FwEvent) (env : SendEnv) :
    ∃ failed, Accounts a failed (handleEvent E a e env) ∧
      (failed = [] ↔ (InstantAlert a e → SendOk a env)) := by
  rcases halert : e.isAlert with - | -
  · -- an informational event waits for the timer
    have h : handleEvent E a e env = (a.note [.received e]).buffer e := by
      rw [handleEvent]
      simp [halert]
    rw [h]
    exact ⟨[], accounts_buffer a a.dedupCache e, by simp [InstantAlert, halert]⟩
  · rcases hdup : isDuplicateAlert a.dedupCache e with ⟨- | -, cache⟩
    · -- the first alert of its kind: the cache is written before the send
      have hinstant : InstantAlert a e := ⟨halert, by rw [hdup]⟩
      obtain ⟨failed, hacc, hiff⟩ := accounts_sendAlert E a cache e env
      refine ⟨failed, ?_, by simp [hiff, hinstant]⟩
      rw [handleEvent]
      simpa [halert, hdup, Agent.note] using hacc
    · -- a repeated alert waits for the timer too
      have h : handleEvent E a e env
          = ({ a.note [.received e] with dedupCache := cache } : Agent).buffer e := by
        rw [handleEvent]
        simp [halert, hdup, Agent.note]
      rw [h]
      exact ⟨[], accounts_buffer a cache e, by simp [InstantAlert, hdup]⟩

/-! ### The account of an iteration -/

/-- The phases that handle no event keep the account. -/
theorem accounts_quietRel (E : Equiv.Perm AesBlock) : QuietRel E fun a a' => Accounts a [] a' where
  trans hab hbc := hab.trans hbc
  same hlog _ hbuffer := accounts_same hlog hbuffer
  push _ _ := accounts_quiet [_] rfl rfl ⟨rfl, rfl, rfl⟩ rfl
  rules _ _ := accounts_quiet [_] rfl rfl ⟨rfl, rfl, rfl⟩ rfl
  openSoc _ _ := accounts_quiet [_] rfl rfl ⟨rfl, rfl, rfl⟩ rfl
  closeSoc _ _ := accounts_quiet [_] rfl rfl ⟨rfl, rfl, rfl⟩ rfl
  ping a health env := accounts_sendHealthPing E a health env

theorem accounts_flush (E : Equiv.Perm AesBlock) (a : Agent) (hne : a.eventBuffer ≠ [])
    (env : SendEnv) :
    Accounts a []
      (match sendToSoc E a msgTypeBatch (eventBytes a.eventBuffer) a.eventBuffer env with
      | (a, true) => { a with eventBuffer := [] }
      | (a, false) => a) := by
  obtain ⟨hbuffer, l, hlog, hless, hv⟩ :=
    sendToSoc_log E a msgTypeBatch (eventBytes_ne_nil hne) a.eventBuffer env
  rcases hsend : sendToSoc E a msgTypeBatch (eventBytes a.eventBuffer) a.eventBuffer env
    with ⟨a', - | -⟩
  · rw [hsend] at hbuffer hlog hv
    exact accounts_quiet l hlog hbuffer hless hv
  · -- the whole buffer is delivered
    rw [hsend] at hlog hv
    refine ⟨l, hlog, hless.failed, ?_⟩
    rw [hless.received, hless.dropped, hv]
    show ([] : List FwEvent) + (a.eventBuffer : Multiset FwEvent)
      = (a.eventBuffer : Multiset FwEvent) + ([] : List FwEvent) + ([] : List FwEvent)
        + ([] : List FwEvent)
    simp

theorem accounts_timerPhase (E : Equiv.Perm AesBlock) (a : Agent) (t : Turn) :
    Accounts a [] (timerPhase E a t) := by
  have hsend : Accounts a []
      (if a.eventBuffer ≠ [] then
        match sendToSoc E a msgTypeBatch (eventBytes a.eventBuffer) a.eventBuffer t.flushEnv with
        | (a, true) => { a with eventBuffer := [] }
        | (a, false) => a
      else sendHealthPing E a t.health t.flushEnv) := by
    split
    · rename_i hne
      exact accounts_flush E a hne t.flushEnv
    · exact accounts_sendHealthPing E a _ _
  unfold timerPhase
  split
  · exact hsend.trans (accounts_same rfl rfl)
  · exact .refl a

/-- In this iteration, an event that goes out as an alert finds the SOC
reachable. -/
def AlertsGoThrough (E : Equiv.Perm AesBlock) (a : Agent) (t : Turn) : Prop :=
  ∀ b e, beforeEvents E a t = some b → b.fwConnected = true → t.firewall = some (.event e) →
    InstantAlert b e → SendOk b t.alertEnv

theorem accounts_eventPhase (E : Equiv.Perm AesBlock) (a : Agent) (t : Turn) :
    ∃ failed, Accounts a failed (eventPhase E a t).agent ∧
      (failed = [] ↔ ∀ e, a.fwConnected = true → t.firewall = some (.event e) →
        InstantAlert a e → SendOk a t.alertEnv) := by
  unfold eventPhase
  split
  · rename_i r hfw hread
    rcases r with - | - | - | e
    · exact ⟨[], accounts_same rfl rfl, by simp [hread]⟩
    · exact ⟨[], .refl a, by simp [hread]⟩
    · exact ⟨[], .refl a, by simp [hread]⟩
    · obtain ⟨failed, hacc, hiff⟩ := accounts_handleEvent E a e t.alertEnv
      refine ⟨failed, hacc, hiff.trans ?_⟩
      simp [hread, hfw]
  · rename_i hno
    refine ⟨[], .refl a, ?_⟩
    simp only [true_iff]
    intro e hfw hread
    exact absurd hread (hno _ hfw)

/-- One iteration keeps the account. -/
theorem accounts_loopTurn (E : Equiv.Perm AesBlock) (a : Agent) (t : Turn) :
    ∃ failed, Accounts a failed (loopTurn E a t) ∧ (failed = [] ↔ AlertsGoThrough E a t) := by
  unfold AlertsGoThrough
  rcases (accounts_quietRel E).beforeEvents a t with ⟨b, hb, hfirst, hloop⟩ | ⟨hb, hfirst⟩
  · obtain ⟨failed, hevent, hiff⟩ := accounts_eventPhase E b t
    refine ⟨failed, ?_, hiff.trans ?_⟩
    · have hall : Accounts a failed (eventPhase E b t).agent := hfirst.trans hevent
      rw [hloop, eventsAndTimer]
      rcases he : eventPhase E b t with c | c
      · rw [he] at hall
        exact hall
      · rw [he] at hall
        have htimer := hall.trans (accounts_timerPhase E c t)
        rwa [List.append_nil] at htimer
    · rw [hb]
      constructor
      · intro h b' e hb'
        obtain rfl := Option.some.inj hb'
        exact h e
      · intro h e
        exact h b e rfl
  · -- the iteration ends before any event is handled
    exact ⟨[], hfirst, by simp [hb]⟩

/-! ### The account of a run -/

open Runs

/-- Every run keeps the account, and nothing is missing from it exactly when
every instant alert went through. -/
theorem accounts_exec (E : Equiv.Perm AesBlock) (a : Agent) (turns : List Turn) :
    ∃ failed, Accounts a failed (exec (agentStep E) a turns).1 ∧
      (failed = [] ↔ Along (agentStep E) (AlertsGoThrough E) a turns) := by
  induction turns generalizing a with
  | nil => exact ⟨[], .refl a, iff_of_true rfl trivial⟩
  | cons t turns ih =>
      obtain ⟨f, hturn, hf⟩ := accounts_loopTurn E a t
      obtain ⟨g, hrest, hg⟩ := ih (loopTurn E a t)
      exact ⟨f ++ g, hturn.trans hrest, List.append_eq_nil_iff.trans (and_congr hf hg)⟩

/-- Every event of a run from start-up: delivered, waiting, dropped for want of
room, or an alert that could not be sent. -/
theorem events_balance (E : Equiv.Perm AesBlock) (uuid : Fin 16 → UInt8) (blocklist : List UInt8)
    (s : Startup) (turns : List Turn) :
    ∃ failed : List FwEvent,
      (received (exec (agentStep E) (agentStart E uuid blocklist s) turns).1.log : Multiset FwEvent)
          = delivered (exec (agentStep E) (agentStart E uuid blocklist s) turns).1.log
            + (exec (agentStep E) (agentStart E uuid blocklist s) turns).1.eventBuffer
            + dropped (exec (agentStep E) (agentStart E uuid blocklist s) turns).1.log + failed ∧
        (failed = [] ↔
          Along (agentStep E) (AlertsGoThrough E) (agentStart E uuid blocklist s) turns) := by
  obtain ⟨f, hrun, hf⟩ := accounts_exec E (agentStart E uuid blocklist s) turns
  obtain ⟨l, hlog, -, hl⟩ := ((accounts_quietRel E).agentStart uuid blocklist s).trans hrun
  refine ⟨f, ?_, hf⟩
  have hlog' : (exec (agentStep E) (agentStart E uuid blocklist s) turns).1.log = l := hlog
  rw [hlog']
  have hempty : (Agent.blank uuid blocklist).eventBuffer = [] := rfl
  rw [hempty, Multiset.coe_nil, add_zero] at hl
  exact hl

/-- **When the agent loses no event.**  On every run, the events received are
those delivered by a send that returned 0, those in the buffer and those
dropped because it was full, if and only if every event that goes out as an
instant alert finds the SOC reachable. -/
theorem no_event_lost_iff (E : Equiv.Perm AesBlock) (uuid : Fin 16 → UInt8) (blocklist : List UInt8)
    (s : Startup) (turns : List Turn) :
    let a := (exec (agentStep E) (agentStart E uuid blocklist s) turns).1
    (received a.log : Multiset FwEvent) = delivered a.log + a.eventBuffer + dropped a.log
      ↔ Along (agentStep E) (AlertsGoThrough E) (agentStart E uuid blocklist s) turns := by
  intro a
  obtain ⟨failed, hbalance, hiff⟩ := events_balance E uuid blocklist s turns
  rw [← hiff, hbalance, add_eq_left, Multiset.coe_eq_zero]

/-- A SYN flood, say, from 10.0.0.5. -/
def criticalEvent : FwEvent where
  bytes := List.replicate 8 0 ++ [10, 0, 0, 5] ++ List.replicate 8 0 ++ [3, 2] ++
    List.replicate 386 0
  length_eq := by simp only [List.length_append, List.length_replicate, List.length_cons,
    List.length_nil, eventSize]

/-- The SOC cannot be reached. -/
def socDown : SendEnv := ⟨false, true, fun _ => 0, none, none⟩

/-- An iteration in which the firewall reports an event and the SOC is down. -/
def eventWhileDown (e : FwEvent) : Turn where
  reload := false
  fwConnect := true
  ready := true
  now := 1
  reconnect := false
  health := fun _ => 0
  healthEnv := socDown
  downstream := none
  firewall := some (.event e)
  alertEnv := socDown
  later := 1
  flushEnv := socDown

/-- The first alert of an attack, received while the SOC is down, is neither
delivered nor buffered nor dropped for want of room. -/
theorem first_alert_lost_while_soc_down :
    let a := (exec (agentStep (Equiv.refl _)) (agentStart (Equiv.refl _) (fun _ => 7) []
      ⟨true, false, fun _ => 0, socDown, 0⟩) [eventWhileDown criticalEvent]).1
    (received a.log : Multiset FwEvent) ≠ delivered a.log + a.eventBuffer + dropped a.log := by
  intro a
  have hreceived : received a.log = [criticalEvent] := rfl
  have hdelivered : delivered a.log = [] := rfl
  have hdropped : dropped a.log = [] := rfl
  have hbuffer : a.eventBuffer = [] := rfl
  rw [hreceived, hdelivered, hdropped, hbuffer]
  simp

end Nullsploit
