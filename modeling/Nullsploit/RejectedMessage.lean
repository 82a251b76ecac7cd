/-
Nullsploit/RejectedMessage.lean

A message whose payload does not decrypt, `process_agent_message` in
soc-server/soc_receiver.c, with the tables it writes (soc-server/db.c).

The calls of the message are those of Ingest and the registry is that of Receiver;
here both act on one state, the server with its database
(`processMessage_receiver`).  The message is rejected only when the clean-up is
done and the agent's row is written, for the agent its header names.  So it
changes nothing but the log exactly if there was nothing to clean up and the row
is what would be written (`rejected_message_unchanged_iff`), and never what belongs to
another agent (`rejected_message_frame`).
-/
import Nullsploit.Connections

namespace Nullsploit

open CText

/-! ### The tables -/

/-- A row of `agents`.  `config` is a JSONB value. -/
structure AgentRow (Config : Type) where
  hostname : List UInt8
  ip : List UInt8
  lastSeen : Nat
  status : List UInt8
  config : Config
  registeredAt : Nat

/-- What PostgreSQL knows of JSONB: `'{}'`, and `config || ...` with the health of
an agent as `db_update_agent_health` prints it. -/
structure JsonConfig (Config : Type) where
  empty : Config
  merge : Config → List UInt8 → Config

/-- The table `agents`, with the UUID as its primary key. -/
abbrev AgentsTable (Config : Type) := List UInt8 → Option (AgentRow Config)

/-- A row of `agent_logs`. -/
structure AgentLogRow where
  uuid : List UInt8
  logType : List UInt8
  message : List UInt8
  srcIp : List UInt8
  deriving DecidableEq, Repr

/-- The receiver and the tables it writes for its agents. -/
structure Server (Config : Type) where
  receiver : Receiver
  agents : AgentsTable Config
  events : List (List UInt8 × FwEvent)
  logs : List AgentLogRow

section Tables

variable {Config : Type} (json : JsonConfig Config) (now : Nat)

/-- The row of `db_register_agent`, given the one that is there. -/
def registeredRow (hostname ip : List UInt8) : Option (AgentRow Config) → AgentRow Config
  | none => ⟨hostname, ip, now, str "active", json.empty, now⟩
  | some row => { row with hostname := hostname, ip := ip, lastSeen := now, status := str "active" }

/-- `db_register_agent`, the statement succeeding. -/
def dbRegisterAgent (agents : AgentsTable Config) (uuid hostname ip : List UInt8) :
    AgentsTable Config :=
  Function.update agents uuid (some (registeredRow json now hostname ip (agents uuid)))

/-- `db_update_agent_last_seen`. -/
def dbUpdateAgentLastSeen (agents : AgentsTable Config) (uuid ip : List UInt8) : AgentsTable Config :=
  dbRegisterAgent json now agents uuid (str "Nullsploit-Agent") ip

/-- `db_update_agent_health`. -/
def dbUpdateAgentHealth (agents : AgentsTable Config) (uuid health : List UInt8) :
    AgentsTable Config :=
  Function.update agents uuid ((agents uuid).map fun row =>
    { row with config := json.merge row.config health, lastSeen := now, status := str "active" })

/-- One call of `process_agent_message`. -/
def Server.call (writeFails : Nat → Bool) (s : Server Config) : IngestCall → Server Config
  | .updateAgentLastSeen uuid clientIp =>
      { s with agents := dbUpdateAgentLastSeen json now s.agents uuid clientIp }
  | .insertEvent uuid event => { s with events := s.events ++ [(uuid, event)] }
  | .insertAgentLog uuid kind message clientIp =>
      { s with logs := s.logs ++ [⟨uuid, kind, message, clientIp⟩] }
  | .updateAgentHealth uuid health =>
      { s with agents := dbUpdateAgentHealth json now s.agents uuid health }
  | .sseBroadcast _ _ => { s with receiver := (sseBroadcast writeFails s.receiver).1 }

/-- `process_agent_message` on the server: the clean-up, then the calls. -/
def Server.processMessage (cfg : ReceiverConfig) (conn : AgentConnection) (writeFails : Nat → Bool)
    (s : Server Config) (m : Message) : Server Config :=
  (processAgentMessage cfg.key conn.clientIp m).foldl (Server.call json now writeFails)
    { s with receiver := s.receiver.cleanUp conn.fd (hdrUuid m.hdr) }

/-! ### The registry -/

theorem foldl_call_receiver (writeFails : Nat → Bool) (calls : List IngestCall) :
    ∀ s : Server Config, (calls.foldl (Server.call json now writeFails) s).receiver
      = (runCalls writeFails s.receiver calls).1 := by
  induction calls with
  | nil => exact fun _ => rfl
  | cons call calls ih =>
      intro s
      rw [List.foldl_cons, ih]
      cases call <;> rfl

/-- The registry is the one of the event loop. -/
theorem processMessage_receiver (cfg : ReceiverConfig) (conn : AgentConnection)
    (writeFails : Nat → Bool) (s : Server Config) (m : Message) :
    (s.processMessage json now cfg conn writeFails m).receiver
      = (processMessages cfg conn writeFails s.receiver [m]).1 :=
  foldl_call_receiver json now writeFails _ _

/-! ### A row that is written -/

/-- The row is what `db_update_agent_last_seen` writes. -/
def AgentRow.Current (row : AgentRow Config) (ip : List UInt8) : Prop :=
  row.hostname = str "Nullsploit-Agent" ∧ row.ip = ip ∧ row.lastSeen = now ∧
    row.status = str "active"

theorem dbUpdateAgentLastSeen_of_ne (agents : AgentsTable Config) {uuid other : List UInt8}
    (h : other ≠ uuid) (ip : List UInt8) :
    dbUpdateAgentLastSeen json now agents uuid ip other = agents other :=
  Function.update_of_ne h _ _

/-- Nothing is written exactly if the row is there and current. -/
theorem dbUpdateAgentLastSeen_eq_self_iff (agents : AgentsTable Config) (uuid ip : List UInt8) :
    dbUpdateAgentLastSeen json now agents uuid ip = agents
      ↔ ∃ row, agents uuid = some row ∧ row.Current now ip := by
  unfold dbUpdateAgentLastSeen dbRegisterAgent
  rw [Function.update_eq_self_iff]
  constructor
  · intro h
    rcases hrow : agents uuid with - | row
    · rw [hrow] at h
      cases h
    · rw [hrow, registeredRow, Option.some_inj] at h
      refine ⟨row, rfl, ?_⟩
      rw [← h]
      exact ⟨rfl, rfl, rfl, rfl⟩
  · rintro ⟨row, hrow, hhost, hip, hseen, hstatus⟩
    rw [hrow, registeredRow, ← hhost, ← hip, ← hseen, ← hstatus]

/-! ### A message that is rejected -/

/-- The log entry of a message that does not decrypt. -/
def rejectedLog (uuid clientIp : List UInt8) : AgentLogRow :=
  ⟨uuid, str "error", str "AES decryption failed", clientIp⟩

/-- A rejected message is cleaned up for, registers its agent and is logged. -/
theorem processMessage_of_rejected {cfg : ReceiverConfig} {m : Message}
    (hpayload : 0 < m.payload.length) (hreject : aesDecrypt cfg.key m.payload = none)
    (conn : AgentConnection) (writeFails : Nat → Bool) (s : Server Config) :
    s.processMessage json now cfg conn writeFails m
      = { s with
          receiver := s.receiver.cleanUp conn.fd (hdrUuid m.hdr)
          agents := dbUpdateAgentLastSeen json now s.agents (hdrUuid m.hdr) conn.clientIp
          logs := s.logs ++ [rejectedLog (hdrUuid m.hdr) conn.clientIp] } := by
  unfold Server.processMessage processAgentMessage
  dsimp only
  rw [if_pos hpayload, hreject]
  rfl

/-- **When a rejected message changes nothing**: nothing but the log is changed
exactly if no other registered connection has the UUID of its header, and the
row of that agent is already what is written. -/
theorem rejected_message_unchanged_iff {cfg : ReceiverConfig} {m : Message}
    (hpayload : 0 < m.payload.length) (hreject : aesDecrypt cfg.key m.payload = none)
    (conn : AgentConnection) (writeFails : Nat → Bool) (s : Server Config) :
    s.processMessage json now cfg conn writeFails m
        = { s with logs := s.logs ++ [rejectedLog (hdrUuid m.hdr) conn.clientIp] }
      ↔ (∀ ptr ∈ s.receiver.connectedAgents.reduceOption, ∀ old,
          s.receiver.heap ptr = some (.agent old) → old.uuid = hdrUuid m.hdr → old.fd = conn.fd) ∧
        ∃ row, s.agents (hdrUuid m.hdr) = some row ∧ row.Current now conn.clientIp := by
  obtain ⟨hiff, hall⟩ := cleanUp_eq_self_iff s.receiver conn.fd (hdrUuid m.hdr)
  have hstale : (∀ ptr ∈ s.receiver.connectedAgents.reduceOption,
        isStale s.receiver.heap conn.fd (hdrUuid m.hdr) ptr = false) ↔
      ∀ ptr ∈ s.receiver.connectedAgents.reduceOption, ∀ old,
        s.receiver.heap ptr = some (.agent old) → old.uuid = hdrUuid m.hdr → old.fd = conn.fd := by
    refine forall₂_congr fun ptr _ => ?_
    rw [Bool.eq_false_iff, Ne, isStale_iff]
    constructor
    · intro h old hobj huuid
      by_contra hfd
      exact h ⟨old, hobj, hfd, huuid⟩
    · rintro h ⟨old, hobj, hfd, huuid⟩
      exact hfd (h old hobj huuid)
  rw [processMessage_of_rejected json now hpayload hreject, ← hstale, ← hiff,
    ← dbUpdateAgentLastSeen_eq_self_iff json]
  constructor
  · intro h
    exact ⟨congrArg (fun s => s.receiver.connectedAgents) h, congrArg Server.agents h⟩
  · rintro ⟨hagents, hrow⟩
    rw [hall hagents, hrow]

/-- **A rejected message spares other agents**: whatever it changes, another agent's
row and, in a state the loop can be in, its connections stay. -/
theorem rejected_message_frame {cfg : ReceiverConfig} {m : Message}
    (hpayload : 0 < m.payload.length) (hreject : aesDecrypt cfg.key m.payload = none)
    (conn : AgentConnection) (writeFails : Nat → Bool) {s : Server Config}
    (hinv : s.receiver.AgentInv) {other : List UInt8} (hother : other ≠ hdrUuid m.hdr) :
    (s.processMessage json now cfg conn writeFails m).agents other = s.agents other ∧
      ∀ ptr ∈ s.receiver.connectedAgents.reduceOption, ∀ c,
        s.receiver.heap ptr = some (.agent c) → c.uuid = other →
        let r := (s.processMessage json now cfg conn writeFails m).receiver
        ptr ∈ r.connectedAgents.reduceOption ∧ r.heap ptr = some (.agent c) := by
  rw [processMessage_of_rejected json now hpayload hreject]
  refine ⟨dbUpdateAgentLastSeen_of_ne json now _ hother _, ?_⟩
  intro ptr hptr c hobj huuid
  have hspec := cleanUp_spec hinv conn.fd (hdrUuid m.hdr)
  have hkept : isStale s.receiver.heap conn.fd (hdrUuid m.hdr) ptr = false := by
    rw [Bool.eq_false_iff, Ne, isStale_iff]
    rintro ⟨old, hold, -, hold'⟩
    obtain rfl : c = old := ConnObject.agent.inj (Option.some.inj (hobj.symm.trans hold))
    exact hother (huuid.symm.trans hold')
  refine ⟨(hspec.agents_iff ptr).mpr ⟨hptr, hkept⟩, (hspec.kept ptr ?_).trans hobj⟩
  exact fun h => Bool.eq_false_iff.mp hkept h.2

end Tables

/-- A frame that names agent `b` and carries one byte, which no key decrypts. -/
def junkFrame (b : UInt8) : Frame := { pingFrame b with payload := str "x" }

def junkMessage (b : UInt8) : Message := ⟨(junkFrame b).header, (junkFrame b).payload⟩

/-- A database without health data, in which every agent was seen at 1000. -/
def plainJson : JsonConfig Unit := ⟨(), fun _ _ => ()⟩

def seenRow (ip : List UInt8) : AgentRow Unit := ⟨str "Nullsploit-Agent", ip, 1000, str "active", (), 0⟩

/-- The server after a run of the loop. -/
def serverAfter (events : List ReceiverEvent) : Server Unit where
  receiver := (Runs.exec (receiverStep openConfig) (.start (· < 8)) events).1
  agents _ := some (seenRow (Inet.inetNtop 0))
  events := []
  logs := []

/-- The only connection, from an agent seen in the same instant: the junk is
logged, and that is all. -/
theorem rejected_message_only_logged :
    0 < (junkMessage 7).payload.length ∧ aesDecrypt openConfig.key (junkMessage 7).payload = none ∧
      (serverAfter [.acceptAgent 8 0]).processMessage plainJson 1000 openConfig
          (.accepted 8 (Inet.inetNtop 0)) (fun _ => false) (junkMessage 7)
        = { serverAfter [.acceptAgent 8 0] with
            logs := [rejectedLog (hdrUuid (junkMessage 7).hdr) (Inet.inetNtop 0)] } := by
  have hpayload : 0 < (junkMessage 7).payload.length := by decide
  have hreject : aesDecrypt openConfig.key (junkMessage 7).payload = none := rfl
  refine ⟨hpayload, hreject, ?_⟩
  refine (rejected_message_unchanged_iff plainJson 1000 hpayload hreject _ _ _).mpr ⟨?_, ?_⟩
  · intro ptr hptr old hobj _
    obtain rfl : ptr = 0 := by
      have hreg : (serverAfter [.acceptAgent 8 0]).receiver.connectedAgents.reduceOption = [0] := by
        decide +kernel
      rw [hreg] at hptr
      exact List.mem_singleton.mp hptr
    cases hobj
    rfl
  · exact ⟨_, rfl, rfl, rfl, rfl, rfl⟩

set_option maxRecDepth 2048 in
/-- Agent 7 is connected, and somebody else sends junk in the name of agent 5: agent
7 stays connected. -/
theorem rejected_message_frame_seven :
    let s := serverAfter [.acceptAgent 8 0, .readable 0 (pingReady 7), .acceptAgent 9 0]
    let r := (s.processMessage plainJson 1000 openConfig (.accepted 9 (Inet.inetNtop 0))
      (fun _ => false) (junkMessage 5)).receiver
    0 ∈ r.connectedAgents.reduceOption ∧ r.heap 0 = s.receiver.heap 0 := by
  intro s r
  have hagents : ∀ e ∈ [.acceptAgent 8 0, .readable 0 (pingReady 7), .acceptAgent 9 0],
      ReceiverEvent.AgentSide e := by
    simp [ReceiverEvent.AgentSide]
  have hinv : s.receiver.AgentInv :=
    (agentInv_of_run openConfig (· < 8) _
      (spared_of_good (start_inv _) (good_of_agentSide openConfig (· < 8) hagents))).1
  have hother : List.replicate 16 (7 : UInt8) ≠ hdrUuid (junkMessage 5).hdr := by decide
  obtain ⟨c, hobj, huuid⟩ : ∃ c, s.receiver.heap 0 = some (.agent c) ∧
      c.uuid = List.replicate 16 (7 : UInt8) := ⟨_, rfl, rfl⟩
  have hptr : 0 ∈ s.receiver.connectedAgents.reduceOption := by decide +kernel
  have hspared := (rejected_message_frame plainJson 1000 (show 0 < (junkMessage 5).payload.length
    by decide) (show aesDecrypt openConfig.key (junkMessage 5).payload = none from rfl)
    (.accepted 9 (Inet.inetNtop 0)) (fun _ => false) hinv hother).2 0 hptr c hobj huuid
  exact ⟨hspared.1, hspared.2.trans hobj.symm⟩

set_option maxRecDepth 2048 in
/-- Agent 7 is connected, and somebody else sends junk in its name: the
connection of the agent is closed and its object freed. -/
theorem junk_closes_connection :
    let s := serverAfter [.acceptAgent 8 0, .readable 0 (pingReady 7), .acceptAgent 9 0]
    let s' := s.processMessage plainJson 1000 openConfig (.accepted 9 (Inet.inetNtop 0))
      (fun _ => false) (junkMessage 7)
    0 < (junkMessage 7).payload.length ∧ aesDecrypt openConfig.key (junkMessage 7).payload = none ∧
      s.receiver.heap 0 ≠ none ∧ s'.receiver.heap 0 = none ∧
      s' ≠ { s with logs := s.logs ++ [rejectedLog (hdrUuid (junkMessage 7).hdr) (Inet.inetNtop 0)] } := by
  intro s s'
  have hbefore : s.receiver.heap 0 ≠ none := by
    intro h
    cases h
  have hafter : s'.receiver.heap 0 = none := rfl
  refine ⟨by decide, rfl, hbefore, hafter, ?_⟩
  intro h
  rw [h] at hafter
  exact hbefore hafter

end Nullsploit
