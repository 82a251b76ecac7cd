/-
Nullsploit/CloseDelivery.lean

The end of an agent connection, in `main` of soc-server/soc_receiver.c: bytes
and the FIN of the agent arrive in the receive queue, `epoll_wait` reports the
connection, and the loop body handles what was reported, whatever has arrived
since then.

A report with EPOLLRDHUP releases the connection before anything is read, so
what is in the receive queue at that moment is dropped.  Otherwise the body is
the one of AgentFraming.lean (`agentTurn_eq`), but with a queue that knows its
end: there `read` returns 0.  For complete frames that never happens
(`agentTurn_receiving`), so the hang-up alone decides (`close_delivers_iff`).

`linkStep` is the life of one connection, told apart from the rest of the loop:
a machine of its own beside `receiverStep`, in which a connection can also be
released by the clean-up at a message of another connection of the same agent.
That release is no event here, since the agent has not closed then.
-/
import Nullsploit.AgentFraming
import Nullsploit.Runs

namespace Nullsploit

open Bytes Runs

/-! ### The receive queue -/

/-- The bytes that have arrived and were not read, and whether the FIN has
arrived behind them. -/
structure RecvQueue where
  unread : List UInt8
  fin : Bool
  deriving DecidableEq, Repr

/-- `read(fd, _, needed)`. -/
def RecvQueue.read (q : RecvQueue) (needed : Nat) : ReadResult × RecvQueue :=
  if needed = 0 then (.closed, q)
  else
    match q.unread.take needed with
    | [] => (if q.fin then .closed else .again, q)
    | b :: bs => (.data (b :: bs), ⟨q.unread.drop needed, q.fin⟩)

/-- More bytes arrive, and the FIN with them or not. -/
def RecvQueue.receive (q : RecvQueue) (late : List UInt8) (fin : Bool) : RecvQueue :=
  ⟨q.unread ++ late, q.fin || fin⟩

/-! ### The loop body -/

/-- The connection unless it was released, the messages processed, and the
queue. -/
structure AgentTurn where
  conn : Option AgentConnection
  messages : List Message
  queue : RecvQueue

/-- `if (conn->header_received)`. -/
def payloadTurn (conn : AgentConnection) (q : RecvQueue) : AgentTurn :=
  if conn.payloadLen = 0 then ⟨some conn.messageDone, [conn.message], q⟩
  else
    match q.read (conn.payloadLen - conn.bytesRead) with
    | (.again, q) => ⟨some conn, [], q⟩
    | (.closed, q) => ⟨none, [], q⟩
    | (.data bs, q) =>
        let conn' := conn.readIntoPayload bs
        if conn'.bytesRead = conn'.payloadLen then ⟨some conn'.messageDone, [conn'.message], q⟩
        else ⟨some conn', [], q⟩

/-- The body for a connection that is readable.  `late` and `fin` arrive after
its first read. -/
def agentTurn (late : List UInt8) (fin : Bool) (conn : AgentConnection) (q : RecvQueue) :
    AgentTurn :=
  if conn.headerReceived then
    let t := payloadTurn conn q
    { t with queue := t.queue.receive late fin }
  else
    match q.read (hdrSize - conn.bytesRead) with
    | (.again, q) => ⟨some conn, [], q.receive late fin⟩
    | (.closed, q) => ⟨none, [], q.receive late fin⟩
    | (.data bs, q) =>
        match (conn.readIntoHeader bs).checkHeader with
        | none => ⟨none, [], q.receive late fin⟩
        | some conn' =>
            if conn'.headerReceived then payloadTurn conn' (q.receive late fin)
            else ⟨some conn', [], q.receive late fin⟩

/-! ### The schedule -/

/-- An agent that sends and then closes its side, and the receiver. -/
structure AgentLink where
  /-- The connection at the receiver, until it is released. -/
  conn : Option AgentConnection
  /-- What was sent and has not arrived. -/
  inFlight : List UInt8
  queue : RecvQueue
  /-- What `epoll_wait` reported and was not handled yet: `some true` is a
  report with EPOLLRDHUP. -/
  reported : Option Bool
  messages : List Message

/-- The agent is accepted; it will send these bytes and close. -/
def AgentLink.accepted (fd : Nat) (clientIp stream : List UInt8) : AgentLink :=
  ⟨some (.accepted fd clientIp), stream, ⟨[], false⟩, none, []⟩

inductive LinkEvent
  /-- So many bytes arrive. -/
  | arrive (n : Nat)
  /-- The FIN arrives, which is behind all bytes. -/
  | close
  /-- `epoll_wait`. -/
  | poll
  /-- The body of the loop; so many bytes, and the FIN if it can, arrive after
  its first read. -/
  | handle (n : Nat) (fin : Bool)
  deriving DecidableEq, Repr

/-- What `epoll_wait` says about the connection. -/
def AgentLink.poll (l : AgentLink) : Option Bool :=
  if l.conn.isNone then none
  else if l.queue.fin then some true
  else if l.queue.unread = [] then none
  else some false

/-- The body of the loop for the report. -/
def AgentLink.handle (l : AgentLink) (n : Nat) (fin : Bool) : AgentLink :=
  match l.reported, l.conn with
  | some true, _ =>
      -- EPOLLRDHUP comes first
      { l with conn := none, reported := none }
  | some false, some conn =>
      let rest := l.inFlight.drop n
      let t := agentTurn (l.inFlight.take n) (fin && rest.isEmpty) conn l.queue
      ⟨t.conn, rest, t.queue, none, l.messages ++ t.messages⟩
  | _, _ => { l with reported := none }

def linkStep (l : AgentLink) : LinkEvent → AgentLink × Unit
  | .arrive n =>
      ({ l with
          inFlight := l.inFlight.drop n, queue := l.queue.receive (l.inFlight.take n) false }, ())
  | .close => ({ l with queue := l.queue.receive [] l.inFlight.isEmpty }, ())
  | .poll =>
      -- not before the last report is handled
      ({ l with reported := l.reported <|> l.poll }, ())
  | .handle n fin => (l.handle n fin, ())

/-! ### A turn is a wake-up -/

variable {lost : List UInt8} {conn : AgentConnection} {rest : List Frame} {q : RecvQueue}

/-- Where the bytes to come are does not matter to a connection. -/
theorem Receiving.append_iff {a b : List UInt8} :
    Receiving lost conn (a ++ b) rest ↔ Receiving (b ++ lost) conn a rest := by
  constructor
  · rintro (⟨phase, room, bytes⟩ | ⟨phase, hdr, len, room, bytes⟩)
    · exact .header phase room (by rwa [List.append_assoc] at bytes)
    · exact .payload phase hdr len room (by rwa [List.append_assoc] at bytes)
  · rintro (⟨phase, room, bytes⟩ | ⟨phase, hdr, len, room, bytes⟩)
    · exact .header phase room (by rwa [List.append_assoc])
    · exact .payload phase hdr len room (by rwa [List.append_assoc])

/-- With bytes in the queue, `read` takes as many of them as it can; those that
come later wait. -/
theorem RecvQueue.read_of_unread (hq : q.unread ≠ []) {needed : Nat} (h : needed ≠ 0) {k : Nat}
    {late : List UInt8} (hk : (q.unread ++ late).take (k + 1) = q.unread)
    (schedule : List (Option Nat)) :
    ∃ bs, q.read needed = (.data bs, ⟨q.unread.drop needed, q.fin⟩) ∧
      (Socket.mk (q.unread ++ late) (some k :: schedule)).read needed
        = (.data bs, ⟨q.unread.drop needed ++ late, schedule⟩) := by
  obtain ⟨b, bs, hbs⟩ : ∃ b bs, q.unread.take needed = b :: bs := by
    refine List.exists_cons_of_ne_nil fun hnil => ?_
    rcases List.take_eq_nil_iff.mp hnil with h0 | h0
    · exact h h0
    · exact hq h0
  have htake : (q.unread ++ late).take (min (k + 1) needed) = q.unread.take needed := by
    rw [Nat.min_comm, ← List.take_take, hk]
  have hdrop : (q.unread ++ late).drop (min (k + 1) needed) = q.unread.drop needed ++ late := by
    have hsame : q.unread.take needed ++ (q.unread ++ late).drop (min (k + 1) needed)
        = q.unread.take needed ++ (q.unread.drop needed ++ late) := by
      rw [← List.append_assoc, List.take_append_drop, ← htake, List.take_append_drop]
    exact List.append_cancel_left hsame
  refine ⟨b :: bs, ?_, ?_⟩
  · rw [RecvQueue.read, if_neg h, hbs]
  · rw [Socket.read, if_neg h]
    dsimp only
    rw [hdrop, htake, hbs]

/-- The payload phase on a queue is the one on a socket that delivers all there
is, unless it finds the end of the stream. -/
theorem payloadTurn_eq {k : Nat} (hk : q.unread.length ≤ k + 1)
    (hroom : conn.payloadLen ≠ 0 → conn.bytesRead < conn.payloadLen) :
    let w := payloadPhase conn ⟨q.unread, [some k]⟩
    payloadTurn conn q = ⟨w.conn, w.messages, ⟨w.sock.incoming, q.fin⟩⟩ ∨
      q.fin = true ∧ w.conn = some conn ∧ w.sock.incoming = [] := by
  intro w
  by_cases hempty : conn.payloadLen = 0
  · left
    simp only [w, payloadTurn, payloadPhase, if_pos hempty]
  · have hneeded : conn.payloadLen - conn.bytesRead ≠ 0 := by
      have := hroom hempty
      omega
    by_cases hq : q.unread = []
    · -- nothing to read: EAGAIN, or the end of the stream
      have hsock : (Socket.mk q.unread [some k]).read (conn.payloadLen - conn.bytesRead)
          = (.again, ⟨[], []⟩) := by
        rw [Socket.read, if_neg hneeded, hq]
        dsimp only
        rw [List.take_nil]
      have hread : q.read (conn.payloadLen - conn.bytesRead)
          = (if q.fin then .closed else .again, q) := by
        rw [RecvQueue.read, if_neg hneeded, hq, List.take_nil]
      cases hfin : q.fin
      · left
        simp only [w, payloadTurn, payloadPhase, if_neg hempty, hsock, hread, hfin]
        obtain ⟨unread, fin⟩ := q
        obtain rfl : unread = [] := hq
        obtain rfl : fin = false := hfin
        rfl
      · right
        refine ⟨rfl, ?_, ?_⟩
        · simp only [w, payloadPhase, if_neg hempty, hsock]
        · simp only [w, payloadPhase, if_neg hempty, hsock]
    · have htake : (q.unread ++ []).take (k + 1) = q.unread := by
        rw [List.append_nil, List.take_of_length_le hk]
      obtain ⟨bs, hread, hsock⟩ := RecvQueue.read_of_unread hq hneeded htake []
      rw [List.append_nil, List.append_nil] at hsock
      left
      simp only [w, payloadTurn, payloadPhase, if_neg hempty, hsock, hread]
      split <;> rfl

theorem checkHeader_eq_some {conn' : AgentConnection} (h : conn.checkHeader = some conn') :
    conn' = conn.headerDone ∨ conn' = conn := by
  unfold AgentConnection.checkHeader at h
  split at h
  · split at h
    · cases h
    · split at h
      · cases h
      · exact Or.inl (Option.some.inj h).symm
  · exact Or.inr (Option.some.inj h).symm

/-- A turn that finds bytes is a wake-up, unless it gets to the end of the
stream with a payload outstanding. -/
theorem agentTurn_eq (hq : q.unread ≠ []) (late : List UInt8) (fin : Bool)
    (hheader : conn.headerReceived = false → conn.bytesRead < hdrSize)
    (hpayload : conn.headerReceived = true → conn.bytesRead < conn.payloadLen) :
    ∃ schedule, let w := agentReadable conn ⟨q.unread ++ late, schedule⟩
      agentTurn late fin conn q = ⟨w.conn, w.messages, ⟨w.sock.incoming, q.fin || fin⟩⟩ ∨
        (q.fin || fin) = true ∧ w.sock.incoming = [] ∧
          ∃ c, w.conn = some c ∧ c.headerReceived = true := by
  have hlen : 0 < q.unread.length := List.length_pos_of_ne_nil hq
  have hk : (q.unread ++ late).take (q.unread.length - 1 + 1) = q.unread := by
    rw [Nat.sub_add_cancel hlen, List.take_left]
  cases hphase : conn.headerReceived
  · -- the header, and in the same turn the payload
    have hneeded : hdrSize - conn.bytesRead ≠ 0 := by
      have := hheader hphase
      omega
    obtain ⟨bs, hread, hsock⟩ := RecvQueue.read_of_unread hq hneeded hk
      [some (q.unread.length + late.length)]
    refine ⟨[some (q.unread.length - 1), some (q.unread.length + late.length)], ?_⟩
    simp only [agentTurn, agentReadable, hphase, Bool.false_eq_true, if_false, hread, hsock]
    rcases hcheck : (conn.readIntoHeader bs).checkHeader with - | conn'
    · exact Or.inl rfl
    · dsimp only
      split
      · rename_i hdone
        have hroom : conn'.payloadLen ≠ 0 → conn'.bytesRead < conn'.payloadLen := by
          intro hne
          rcases checkHeader_eq_some hcheck with rfl | rfl
          · exact Nat.pos_of_ne_zero hne
          · exact absurd (hdone.symm.trans hphase) (by decide)
        have hlate : (RecvQueue.receive ⟨q.unread.drop (hdrSize - conn.bytesRead), q.fin⟩ late
            fin).unread.length ≤ q.unread.length + late.length + 1 := by
          simp only [RecvQueue.receive, List.length_append, List.length_drop]
          omega
        rcases payloadTurn_eq hlate hroom with heq | ⟨hfin, hconn, hsock⟩
        · exact Or.inl heq
        · exact Or.inr ⟨hfin, hsock, conn', hconn, hdone⟩
      · exact Or.inl rfl
  · -- the payload goes on, with bytes in the queue
    have hroom := hpayload hphase
    have hne : conn.payloadLen ≠ 0 := by omega
    obtain ⟨bs, hread, hsock⟩ := RecvQueue.read_of_unread hq
      (show conn.payloadLen - conn.bytesRead ≠ 0 by omega) hk []
    refine ⟨[some (q.unread.length - 1)], Or.inl ?_⟩
    simp only [agentTurn, agentReadable, hphase, if_true, payloadTurn, payloadPhase, if_neg hne,
      hread, hsock]
    split <;> rfl

/-- One turn for a connection that has bytes to read: the frames completed are
processed, and the connection stays. -/
theorem agentTurn_receiving (hfits : ∀ f ∈ rest, f.payload.length < bufferSize)
    {late : List UInt8} {fin : Bool} (h : Receiving (late ++ lost) conn q.unread rest)
    (hq : q.unread ≠ []) (hend : (q.fin || fin) = true → lost = []) :
    ∃ conn' done todo, rest = done ++ todo ∧
      agentTurn late fin conn q = ⟨some conn', done.map Frame.message,
        ⟨(agentTurn late fin conn q).queue.unread, q.fin || fin⟩⟩ ∧
      Receiving lost conn' (agentTurn late fin conn q).queue.unread todo := by
  obtain ⟨schedule, heq⟩ := agentTurn_eq hq late fin
    (by
      intro hphase
      cases h with
      | header _ room _ => exact room
      | payload phase => exact absurd (phase.symm.trans hphase) (by decide))
    (by
      intro hphase
      cases h with
      | header phase => exact absurd (phase.symm.trans hphase) (by decide)
      | payload _ _ len room _ => exact len ▸ room)
  have hw : Progress lost rest 1 ⟨q.unread ++ late, schedule⟩
      (agentReadable conn ⟨q.unread ++ late, schedule⟩) :=
    agentReadable_receiving hfits (Receiving.append_iff.mpr h)
  obtain ⟨conn', done, todo, hconn, hsplit, hmsgs, hrel⟩ := hw.relation
  rcases heq with heq | ⟨hfin, hempty, c, hc, hphase⟩
  · refine ⟨conn', done, todo, hsplit, ?_, ?_⟩
    · rw [heq, hconn, hmsgs]
    · rw [heq]
      exact hrel
  · -- the payload is outstanding, so something is still in flight
    obtain rfl : conn' = c := Option.some.inj (hconn.symm.trans hc)
    rw [hempty, hend hfin] at hrel
    cases hrel with
    | header phase => exact absurd (phase.symm.trans hphase) (by decide)
    | payload phase hdr len room bytes =>
        exact absurd (Receiving.payload phase hdr len room bytes).length_lt (Nat.not_lt_zero _)

/-! ### Runs -/

/-- A connection that is not released: the first of the frames are processed
and the others still arrive. -/
structure AgentLink.Open (frames : List Frame) (l : AgentLink) : Prop where
  relation : ∃ conn done todo, l.conn = some conn ∧ frames = done ++ todo ∧
    l.messages = done.map Frame.message ∧ Receiving l.inFlight conn l.queue.unread todo
  ended : l.queue.fin = true → l.inFlight = []
  hangUp : l.reported = some true → l.queue.fin = true
  readable : l.reported = some false → l.queue.unread ≠ []

/-- The step handles a report of the hang-up. -/
def HandlesHangUp (l : AgentLink) (e : LinkEvent) : Prop :=
  (∃ n fin, e = .handle n fin) ∧ l.reported = some true

variable {frames : List Frame} {l : AgentLink}

theorem open_accepted (fd : Nat) (clientIp : List UInt8) (frames : List Frame) :
    (AgentLink.accepted fd clientIp (frames.flatMap Frame.bytes)).Open frames := by
  refine ⟨⟨_, [], frames, rfl, rfl, rfl, ?_⟩, nofun, nofun, nofun⟩
  exact receiving_accepted fd clientIp frames rfl

/-- Arrivals do not change what is to come. -/
theorem AgentLink.Open.receive (h : l.Open frames) (n : Nat) {fin : Bool}
    (hfin : fin = true → l.inFlight.drop n = []) :
    AgentLink.Open frames { l with
      inFlight := l.inFlight.drop n, queue := l.queue.receive (l.inFlight.take n) fin } := by
  obtain ⟨conn, done, todo, hconn, hsplit, hmsgs, hrel⟩ := h.relation
  refine ⟨⟨conn, done, todo, hconn, hsplit, hmsgs, ?_⟩, ?_, ?_, ?_⟩
  · apply Receiving.append_iff.mpr
    show Receiving (l.inFlight.take n ++ l.inFlight.drop n) conn l.queue.unread todo
    rwa [List.take_append_drop]
  · intro hend
    rcases Bool.or_eq_true_iff.mp hend with hold | hnew
    · show l.inFlight.drop n = []
      rw [h.ended hold, List.drop_nil]
    · exact hfin hnew
  · intro hrep
    show (l.queue.fin || fin) = true
    rw [h.hangUp hrep, Bool.true_or]
  · intro hrep
    exact List.append_ne_nil_of_left_ne_nil (h.readable hrep) _

theorem poll_spec {hup : Bool} (h : l.poll = some hup) :
    if hup then l.queue.fin = true else l.queue.unread ≠ [] := by
  unfold AgentLink.poll at h
  split at h
  · cases h
  · split at h
    · rename_i hfin
      obtain rfl := Option.some.inj h
      exact hfin
    · split at h
      · cases h
      · rename_i hunread
        obtain rfl := Option.some.inj h
        exact hunread

theorem open_poll (h : l.Open frames) : (linkStep l .poll).1.Open frames := by
  have hreport : ∀ hup, (l.reported <|> l.poll) = some hup →
      l.reported = some hup ∨ l.poll = some hup := by
    intro hup heq
    cases hold : l.reported with
    | none => exact Or.inr (by simpa [hold] using heq)
    | some old => exact Or.inl (by simpa [hold] using heq)
  refine ⟨h.relation, h.ended, ?_, ?_⟩
  · intro hrep
    rcases hreport true hrep with hold | hnew
    · exact h.hangUp hold
    · exact poll_spec hnew
  · intro hrep
    rcases hreport false hrep with hold | hnew
    · exact h.readable hold
    · exact poll_spec hnew

theorem open_handle (hfits : ∀ f ∈ frames, f.payload.length < bufferSize) (h : l.Open frames)
    (hup : l.reported ≠ some true) (n : Nat) (fin : Bool) : (l.handle n fin).Open frames := by
  obtain ⟨conn, done, todo, hconn, rfl, hmsgs, hrel⟩ := h.relation
  rcases hrep : l.reported with - | - | -
  · -- nothing was reported
    have hsame : l.handle n fin = { l with reported := none } := by rw [AgentLink.handle, hrep]
    rw [hsame]
    exact ⟨h.relation, h.ended, nofun, nofun⟩
  · have hend : (l.queue.fin || (fin && (l.inFlight.drop n).isEmpty)) = true →
        l.inFlight.drop n = [] := by
      intro heq
      rcases Bool.or_eq_true_iff.mp heq with heq | heq
      · rw [h.ended heq, List.drop_nil]
      · exact List.isEmpty_iff.mp (Bool.and_eq_true_iff.mp heq).2
    rw [← List.take_append_drop n l.inFlight] at hrel
    obtain ⟨conn', done', todo', rfl, hturn, hrel'⟩ := agentTurn_receiving
      (fun f hf => hfits f (List.mem_append_right done hf)) hrel (h.readable hrep) hend
    have hnext : l.handle n fin = ⟨some conn', l.inFlight.drop n, ⟨(agentTurn (l.inFlight.take n)
        (fin && (l.inFlight.drop n).isEmpty) conn l.queue).queue.unread,
        l.queue.fin || (fin && (l.inFlight.drop n).isEmpty)⟩, none,
        l.messages ++ done'.map Frame.message⟩ := by
      rw [AgentLink.handle, hrep, hconn]
      dsimp only
      rw [hturn]
    rw [hnext]
    refine ⟨⟨conn', done ++ done', todo', rfl, (List.append_assoc _ _ _).symm, ?_, hrel'⟩, hend,
      nofun, nofun⟩
    dsimp only
    rw [hmsgs, List.map_append]
  · exact absurd hrep hup

/-- Every step but the handling of a hang-up keeps the connection open. -/
theorem open_linkStep (hfits : ∀ f ∈ frames, f.payload.length < bufferSize) (h : l.Open frames)
    {e : LinkEvent} (hup : ¬ HandlesHangUp l e) : (linkStep l e).1.Open frames := by
  cases e with
  | arrive n => exact h.receive n nofun
  | close =>
      -- the FIN comes alone, and only if nothing is in flight before it
      exact h.receive 0 List.isEmpty_iff.mp
  | poll => exact open_poll h
  | handle n fin => exact open_handle hfits h (fun hrep => hup ⟨⟨n, fin, rfl⟩, hrep⟩) n fin

/-- When the hang-up is handled, the frames that are not processed are in the
receive queue. -/
theorem AgentLink.Open.processed_iff (h : l.Open frames) (hrep : l.reported = some true) :
    l.messages = frames.map Frame.message ↔ l.queue.unread = [] := by
  obtain ⟨conn, done, todo, hconn, rfl, hmsgs, hrel⟩ := h.relation
  rw [h.ended (h.hangUp hrep)] at hrel
  rw [hmsgs, List.map_append, List.self_eq_append_right, List.map_eq_nil_iff]
  constructor
  · -- no frame left, so no byte of one either
    rintro rfl
    cases hrel with
    | header phase room bytes => simpa using (List.append_eq_nil_iff.mp bytes).2
  · intro hunread
    rw [hunread] at hrel
    cases todo with
    | nil => rfl
    | cons f fs => exact absurd hrel.length_lt (Nat.not_lt_zero _)

/-- A connection that was released stays so, and nothing more is processed. -/
theorem released_linkStep (hconn : l.conn = none) (hrep : l.reported = none) (e : LinkEvent) :
    (linkStep l e).1.conn = none ∧ (linkStep l e).1.reported = none ∧
      (linkStep l e).1.messages = l.messages := by
  cases e with
  | arrive n => exact ⟨hconn, hrep, rfl⟩
  | close => exact ⟨hconn, hrep, rfl⟩
  | poll =>
      refine ⟨hconn, ?_, rfl⟩
      show (l.reported <|> l.poll) = none
      rw [hrep, AgentLink.poll, hconn]
      rfl
  | handle n fin =>
      have hsame : l.handle n fin = { l with reported := none } := by rw [AgentLink.handle, hrep]
      show (l.handle n fin).conn = none ∧ (l.handle n fin).reported = none ∧
        (l.handle n fin).messages = l.messages
      rw [hsame]
      exact ⟨hconn, rfl, rfl⟩

theorem released_exec (events : List LinkEvent) (hconn : l.conn = none) (hrep : l.reported = none) :
    (exec linkStep l events).1.conn = none ∧ (exec linkStep l events).1.messages = l.messages ∧
      Along linkStep (fun l e => HandlesHangUp l e → l.queue.unread = []) l events := by
  induction events generalizing l with
  | nil => exact ⟨hconn, rfl, trivial⟩
  | cons e events ih =>
      obtain ⟨hconn', hrep', hmsgs⟩ := released_linkStep hconn hrep e
      obtain ⟨hend, hmsgs', halong⟩ := ih hconn' hrep'
      refine ⟨hend, hmsgs'.trans hmsgs, fun hup => ?_, halong⟩
      exact absurd (hrep.symm.trans hup.2) (by decide)

/-- From an open connection on: if it is released, all frames are processed
exactly if the hang-up finds nothing to read. -/
theorem exec_open (hfits : ∀ f ∈ frames, f.payload.length < bufferSize) (h : l.Open frames)
    (events : List LinkEvent) :
    ((exec linkStep l events).1.conn = none →
        (exec linkStep l events).1.messages = frames.map Frame.message) ↔
      Along linkStep (fun l e => HandlesHangUp l e → l.queue.unread = []) l events := by
  induction events generalizing l with
  | nil =>
      obtain ⟨conn, -, -, hconn, -⟩ := h.relation
      refine iff_of_true (fun hnone => ?_) trivial
      exact absurd (hconn.symm.trans hnone) (Option.some_ne_none _)
  | cons e events ih =>
      by_cases hup : HandlesHangUp l e
      · -- the connection is released here
        obtain ⟨⟨n, fin, rfl⟩, hrep⟩ := hup
        have hstep : (linkStep l (.handle n fin)).1
            = { l with conn := none, reported := none } := by
          show l.handle n fin = _
          rw [AgentLink.handle, hrep]
        obtain ⟨hconn, hmsgs, halong⟩ := released_exec (l := (linkStep l (.handle n fin)).1) events
          (by rw [hstep]) (by rw [hstep])
        have hmsgs : (exec linkStep l (.handle n fin :: events)).1.messages = l.messages := by
          rw [show l.messages = (linkStep l (.handle n fin)).1.messages by rw [hstep]]
          exact hmsgs
        rw [hmsgs, h.processed_iff hrep]
        constructor
        · intro hunread
          exact ⟨fun _ => hunread hconn, halong⟩
        · intro hruns _
          exact hruns.1 ⟨⟨n, fin, rfl⟩, hrep⟩
      · have hnext := ih (open_linkStep hfits h hup)
        refine hnext.trans ⟨fun halong => ⟨fun hup' => absurd hup' hup, halong⟩, And.right⟩

/-- **Closing.**  Whatever the schedule, the frames an agent sent before it
closed are all processed when the connection is released, exactly if each
hang-up that is handled finds the receive queue empty. -/
theorem close_delivers_iff (fd : Nat) (clientIp : List UInt8) (frames : List Frame)
    (hframes : ∀ f ∈ frames, f.payload.length < bufferSize) (events : List LinkEvent) :
    let start := AgentLink.accepted fd clientIp (frames.flatMap Frame.bytes)
    let link := (exec linkStep start events).1
    (link.conn = none → link.messages = frames.map Frame.message) ↔
      Along linkStep (fun l e => HandlesHangUp l e → l.queue.unread = []) start events :=
  exec_open hframes (open_accepted fd clientIp frames) events

/-- A frame that was read before the hang-up is reported. -/
theorem close_after_read_delivers :
    let frames : List Frame := [⟨List.replicate 16 7, msgTypePing, [1, 2], by decide⟩]
    let events : List LinkEvent :=
      [.arrive 27, .poll, .handle 0 false, .close, .poll, .handle 0 false]
    let link := (exec linkStep (.accepted 9 [] (frames.flatMap Frame.bytes)) events).1
    (∀ f ∈ frames, f.payload.length < bufferSize) ∧ link.conn = none ∧
      link.messages = frames.map Frame.message := by
  intro frames events link
  have hframes : ∀ f ∈ frames, f.payload.length < bufferSize := by
    simp [frames, bufferSize]
  have hreleased : link.conn = none := rfl
  have hempty : Along linkStep (fun l e => HandlesHangUp l e → l.queue.unread = [])
      (.accepted 9 [] (frames.flatMap Frame.bytes)) events := by
    refine ⟨?_, ?_, ?_, ?_, ?_, fun _ => rfl, trivial⟩
    · rintro ⟨⟨n, fin, h⟩, -⟩
      cases h
    · rintro ⟨⟨n, fin, h⟩, -⟩
      cases h
    · rintro ⟨-, h⟩
      exact absurd h (by decide)
    · rintro ⟨⟨n, fin, h⟩, -⟩
      cases h
    · rintro ⟨⟨n, fin, h⟩, -⟩
      cases h
  exact ⟨hframes, hreleased, (close_delivers_iff 9 [] frames hframes events).mpr hempty hreleased⟩

/-- A frame that is in the receive queue when the hang-up is reported is
dropped. -/
theorem close_drops_unread :
    let frames : List Frame := [⟨List.replicate 16 7, msgTypePing, [1, 2], by decide⟩]
    let events : List LinkEvent := [.arrive 27, .close, .poll, .handle 0 false]
    let link := (exec linkStep (.accepted 9 [] (frames.flatMap Frame.bytes)) events).1
    (∀ f ∈ frames, f.payload.length < bufferSize) ∧ link.conn = none ∧
      link.messages ≠ frames.map Frame.message := by
  intro frames events link
  have hnone : link.messages = [] := rfl
  refine ⟨by simp [frames, bufferSize], rfl, ?_⟩
  rw [hnone]
  exact List.cons_ne_nil _ _ ∘ Eq.symm

end Nullsploit
