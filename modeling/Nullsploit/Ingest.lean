/-
Nullsploit/Ingest.lean

What the receiver does with a message from an agent: `process_agent_message`
in soc-server/soc_receiver.c, its database calls and broadcasts in order.  (The
clean-up of stale connections at its start belongs to the registry.)

`insertedEvents` are the events a message adds to the database; for an alert
or a batch as an agent sends it they are the events it was made from
(`insertedEvents_alert`, `insertedEvents_batch`).
-/
import Nullsploit.FwInspect
import Nullsploit.AgentFraming
import Nullsploit.AesWrapper
import Nullsploit.Inet

namespace Nullsploit

open CText Inet Bytes

/-- A call of `process_agent_message` to the database or to the SSE clients. -/
inductive IngestCall
  | updateAgentLastSeen (uuid clientIp : List UInt8)
  | insertEvent (uuid : List UInt8) (event : FwEvent)
  | insertAgentLog (uuid kind message clientIp : List UInt8)
  | updateAgentHealth (uuid health : List UInt8)
  | sseBroadcast (uuid : List UInt8) (event : FwEvent)
  deriving DecidableEq, Repr

/-- `sizeof(struct agent_health_payload)`. -/
def healthSize : Nat := 24

/-- The log line of an alert, as far as `char log_msg[256]` goes. -/
def alertLog (event : FwEvent) : List UInt8 :=
  (str "ALERT threat_type=" ++ decimal event.threatType.toNat ++ str " severity=" ++
    decimal event.severity.toNat ++ str " src=" ++ inetNtop event.srcIp ++ str " -> " ++
    inetNtop event.destIp).take 255

/-- The log line of a batch. -/
def batchLog (numEvents : Nat) : List UInt8 :=
  str "BATCH received, " ++ decimal numEvents ++ str " events processed"

/-- The decrypted part of `process_agent_message`. -/
def processPayload (uuid clientIp : List UInt8) (msgType : UInt8) (decrypted : List UInt8) :
    List IngestCall :=
  if msgType = msgTypeAlert then
    if decrypted.length = eventSize then
      (eventsOf 1 decrypted).flatMap fun event =>
        [.insertEvent uuid event, .sseBroadcast uuid event,
          .insertAgentLog uuid (str "alert") (alertLog event) clientIp]
    else []
  else if msgType = msgTypeBatch then
    let numEvents := decrypted.length / eventSize
    (eventsOf numEvents decrypted).map (.insertEvent uuid) ++
      [.insertAgentLog uuid (str "batch") (batchLog numEvents) clientIp]
  else if msgType = msgTypePing then
    if decrypted.length = healthSize then [.updateAgentHealth uuid decrypted] else []
  else []

/-- `process_agent_message`. -/
def processAgentMessage (E : Equiv.Perm AesBlock) (clientIp : List UInt8) (m : Message) :
    List IngestCall :=
  let uuid := hdrUuid m.hdr
  .updateAgentLastSeen uuid clientIp ::
    if 0 < m.payload.length then
      match aesDecrypt E m.payload with
      | none => [.insertAgentLog uuid (str "error") (str "AES decryption failed") clientIp]
      | some decrypted => processPayload uuid clientIp (hdrMsgType m.hdr) decrypted
    else [.insertAgentLog uuid (str "heartbeat") (str "Heartbeat ping received") clientIp]

/-- The events a call inserts. -/
def IngestCall.event : IngestCall → Option FwEvent
  | .insertEvent _ event => some event
  | _ => none

/-- The events inserted for a message. -/
def insertedEvents (E : Equiv.Perm AesBlock) (clientIp : List UInt8) (m : Message) : List FwEvent :=
  (processAgentMessage E clientIp m).filterMap IngestCall.event

/-! ### Messages as agents send them -/

variable (E : Equiv.Perm AesBlock) (clientIp : List UInt8)

/-- A message whose payload is the encryption of some data. -/
theorem insertedEvents_encrypted (f : Frame) (iv : AesBlock) {data : List UInt8}
    (h : f.payload = aesEncrypt E iv data) :
    insertedEvents E clientIp f.message
      = (processPayload f.agentUuid clientIp f.msgType data).filterMap IngestCall.event := by
  have hpos : 0 < f.payload.length := by
    rw [h, length_aesEncrypt]
    omega
  rw [insertedEvents, processAgentMessage]
  show List.filterMap IngestCall.event (_ :: if 0 < f.payload.length then _ else _) = _
  rw [List.filterMap_cons_none rfl, if_pos hpos]
  show List.filterMap IngestCall.event (match aesDecrypt E f.payload with | none => _ | some _ => _) = _
  rw [h, aesDecrypt_aesEncrypt]
  show List.filterMap IngestCall.event (processPayload (hdrUuid f.header) _ (hdrMsgType f.header) _) = _
  rw [f.hdrUuid_header, f.hdrMsgType_header]

theorem filterMap_insertEvent (uuid : List UInt8) (es : List FwEvent) :
    (es.map (IngestCall.insertEvent uuid)).filterMap IngestCall.event = es := by
  rw [List.filterMap_map]
  exact List.filterMap_some

theorem insertedEvents_alert (f : Frame) (iv : AesBlock) {e : FwEvent}
    (htype : f.msgType = msgTypeAlert) (h : f.payload = aesEncrypt E iv (eventBytes [e])) :
    insertedEvents E clientIp f.message = [e] := by
  have hone : eventsOf 1 (eventBytes [e]) = [e] := eventsOf_eventBytes [e]
  have hlen : (eventBytes [e]).length = eventSize := length_eventBytes [e]
  rw [insertedEvents_encrypted E clientIp f iv h, htype, processPayload, if_pos rfl, if_pos hlen,
    hone]
  rfl

theorem insertedEvents_batch (f : Frame) (iv : AesBlock) {es : List FwEvent}
    (htype : f.msgType = msgTypeBatch) (h : f.payload = aesEncrypt E iv (eventBytes es)) :
    insertedEvents E clientIp f.message = es := by
  have hcount : (eventBytes es).length / eventSize = es.length := by
    rw [length_eventBytes, Nat.mul_div_cancel_left _ (by decide)]
  rw [insertedEvents_encrypted E clientIp f iv h, htype, processPayload, if_neg (by decide),
    if_pos rfl]
  simp only [hcount, eventsOf_eventBytes, List.filterMap_append, filterMap_insertEvent]
  exact List.append_nil es

theorem insertedEvents_ping (f : Frame) (iv : AesBlock) {data : List UInt8}
    (htype : f.msgType = msgTypePing) (h : f.payload = aesEncrypt E iv data) :
    insertedEvents E clientIp f.message = [] := by
  rw [insertedEvents_encrypted E clientIp f iv h, htype, processPayload, if_neg (by decide),
    if_neg (by decide), if_pos rfl]
  split <;> rfl

end Nullsploit
