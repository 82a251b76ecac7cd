/-
Nullsploit/AgentFraming.lean

How the receiver puts agent frames together again: the branch for
`PORT_AGENT` in `main` of soc-server/soc_receiver.c.

Sockets are non-blocking.  Each wake-up reads once into the header, and once
into the payload if the header is (or has just become) complete; whatever is
missing is left to later wake-ups, with one counter `bytes_read` for both
phases.  `Socket` is the other side: the bytes still to come and a schedule
that decides how many each `read` returns, or that it returns EAGAIN.

`Receiving` relates a connection between two wake-ups to the frames that are
still to be processed.  One wake-up keeps it (`agentReadable_receiving`), so any
number does, and `reassembly_independent_of_segmentation` follows: whatever the
schedule, the messages processed are the frames, in order.
-/
import Nullsploit.Protocol

namespace Nullsploit

open Bytes

/-! ### The connection -/

/-- `BUFFER_SIZE`. -/
def bufferSize : Nat := 65536

/-- `struct agent_connection`. -/
structure AgentConnection where
  fd : Nat
  clientIp : List UInt8
  buf : Buffer
  bytesRead : Nat
  payloadLen : Nat
  hdr : Buffer
  headerReceived : Bool

/-- The connection made by `calloc` when an agent is accepted. -/
def AgentConnection.accepted (fd : Nat) (clientIp : List UInt8) : AgentConnection :=
  ⟨fd, clientIp, fun _ => 0, 0, 0, fun _ => 0, false⟩

/-- What `process_agent_message` finds in a connection: its header and the
first `payload_len` bytes of its buffer. -/
structure Message where
  hdr : List UInt8
  payload : List UInt8
  deriving DecidableEq, Repr

def AgentConnection.message (conn : AgentConnection) : Message :=
  ⟨peek conn.hdr hdrSize, peek conn.buf conn.payloadLen⟩

/-- What `read` returns: some bytes, EAGAIN, or anything that ends the
connection (0 or another error). -/
inductive ReadResult
  | data (bs : List UInt8)
  | again
  | closed
  deriving DecidableEq, Repr

/-- `conn->bytes_read += r` after a read into the header. -/
def AgentConnection.readIntoHeader (conn : AgentConnection) (bs : List UInt8) : AgentConnection :=
  { conn with hdr := poke conn.hdr conn.bytesRead bs, bytesRead := conn.bytesRead + bs.length }

/-- The header is complete. -/
def AgentConnection.headerDone (conn : AgentConnection) : AgentConnection :=
  { conn with
    headerReceived := true
    payloadLen := hdrPayloadLen (peek conn.hdr hdrSize)
    bytesRead := 0 }

/-- After a read into the header: a complete header is checked, and a bad
magic or a payload too large for the buffer closes the connection. -/
def AgentConnection.checkHeader (conn : AgentConnection) : Option AgentConnection :=
  if conn.bytesRead = hdrSize then
    if hdrMagic (peek conn.hdr hdrSize) ≠ magicHeader then none
    else if bufferSize ≤ conn.headerDone.payloadLen then none
    else some conn.headerDone
  else some conn

/-- `conn->bytes_read += r` after a read into the payload. -/
def AgentConnection.readIntoPayload (conn : AgentConnection) (bs : List UInt8) : AgentConnection :=
  { conn with buf := poke conn.buf conn.bytesRead bs, bytesRead := conn.bytesRead + bs.length }

/-- Ready for the next header. -/
def AgentConnection.messageDone (conn : AgentConnection) : AgentConnection :=
  { conn with headerReceived := false, bytesRead := 0 }

/-! ### The socket -/

/-- The socket of a connection: the bytes the agent has still to deliver, and
what the next `read` calls do.  `none` is EAGAIN; `some k` delivers up to
`k + 1` bytes, as far as they are asked for. -/
structure Socket where
  incoming : List UInt8
  schedule : List (Option Nat)
  deriving DecidableEq, Repr

/-- `read(fd, _, needed)`. -/
def Socket.read (sock : Socket) (needed : Nat) : ReadResult × Socket :=
  if needed = 0 then (.closed, sock)
  else
    match sock.schedule with
    | [] => (.again, sock)
    | none :: schedule => (.again, ⟨sock.incoming, schedule⟩)
    | some k :: schedule =>
        match sock.incoming.take (min (k + 1) needed) with
        | [] => (.again, ⟨[], schedule⟩)
        | b :: bs => (.data (b :: bs), ⟨sock.incoming.drop (min (k + 1) needed), schedule⟩)

/-! ### A wake-up -/

/-- What a wake-up leaves behind: the connection unless it was closed, the
messages processed, the socket, and every state the connection went through. -/
structure WakeUp where
  conn : Option AgentConnection
  messages : List Message
  sock : Socket
  visited : List AgentConnection

/-- The payload phase, `if (conn->header_received)`. -/
def payloadPhase (conn : AgentConnection) (sock : Socket) : WakeUp :=
  if conn.payloadLen = 0 then
    ⟨some conn.messageDone, [conn.message], sock, [conn, conn.messageDone]⟩
  else
    let (r, sock) := sock.read (conn.payloadLen - conn.bytesRead)
    match r with
    | .again => ⟨some conn, [], sock, [conn]⟩
    | .closed => ⟨none, [], sock, [conn]⟩
    | .data bs =>
        let conn' := conn.readIntoPayload bs
        if conn'.bytesRead = conn'.payloadLen then
          ⟨some conn'.messageDone, [conn'.message], sock, [conn, conn', conn'.messageDone]⟩
        else ⟨some conn', [], sock, [conn, conn']⟩

/-- One wake-up of an agent connection: the header phase, if the header is
not complete yet, then the payload phase, if it is now. -/
def agentReadable (conn : AgentConnection) (sock : Socket) : WakeUp :=
  if conn.headerReceived then payloadPhase conn sock
  else
    let (r, sock) := sock.read (hdrSize - conn.bytesRead)
    match r with
    | .again => ⟨some conn, [], sock, [conn]⟩
    | .closed => ⟨none, [], sock, [conn]⟩
    | .data bs =>
        let got := conn.readIntoHeader bs
        match got.checkHeader with
        | none => ⟨none, [], sock, [conn, got]⟩
        | some conn' =>
            if conn'.headerReceived then
              let w := payloadPhase conn' sock
              { w with visited := conn :: got :: w.visited }
            else ⟨some conn', [], sock, [conn, got]⟩

/-- A number of wake-ups in a row. -/
def wakeUps : Nat → AgentConnection → Socket → WakeUp
  | 0, conn, sock => ⟨some conn, [], sock, [conn]⟩
  | k + 1, conn, sock =>
      let w := agentReadable conn sock
      match w.conn with
      | none => w
      | some conn' =>
          let w' := wakeUps k conn' w.sock
          ⟨w'.conn, w.messages ++ w'.messages, w'.sock, w.visited ++ w'.visited⟩

/-! ### Reads -/

/-- The number of `read` calls of a schedule that return bytes if there are
any. -/
def chunks (schedule : List (Option Nat)) : Nat := schedule.countP Option.isSome

/-- `sock'` is `sock` after some calls: they used up the front of the schedule,
and each one that is not EAGAIN took a byte unless there was none. -/
structure Socket.Reads (sock sock' : Socket) : Prop where
  schedule : sock'.schedule <:+ sock.schedule
  paced : sock'.incoming = [] ∨
    sock'.incoming.length + chunks sock.schedule ≤ sock.incoming.length + chunks sock'.schedule

theorem Socket.Reads.refl (sock : Socket) : sock.Reads sock :=
  ⟨List.suffix_rfl, Or.inr le_rfl⟩

theorem Socket.Reads.trans {a b c : Socket} (hab : a.Reads b) (hbc : b.Reads c) : a.Reads c := by
  refine ⟨hbc.schedule.trans hab.schedule, ?_⟩
  have hle : chunks c.schedule ≤ chunks b.schedule := hbc.schedule.sublist.countP_le
  rcases hbc.paced with hc | hc
  · exact Or.inl hc
  · rcases hab.paced with hb | hb
    · rw [hb, List.length_nil] at hc
      exact Or.inl (List.length_eq_zero_iff.mp (by omega))
    · exact Or.inr (by omega)

/-- What a read of at least one byte does: nothing, or take some bytes from
the front. -/
theorem Socket.read_spec (sock : Socket) {needed : Nat} (h : 0 < needed) :
    ∃ sock', sock.Reads sock' ∧ sock'.schedule = sock.schedule.tail ∧
      (sock.read needed = (.again, sock') ∧ sock'.incoming = sock.incoming ∨
        ∃ bs, sock.read needed = (.data bs, sock') ∧ bs.length ≤ needed ∧
          sock.incoming = bs ++ sock'.incoming) := by
  obtain ⟨incoming, schedule⟩ := sock
  unfold Socket.read
  rw [if_neg h.ne']
  rcases schedule with - | ⟨- | k, schedule⟩
  · exact ⟨⟨incoming, []⟩, .refl _, rfl, Or.inl ⟨rfl, rfl⟩⟩
  · refine ⟨⟨incoming, schedule⟩, ⟨List.suffix_cons _ _, Or.inr ?_⟩, rfl, Or.inl ⟨rfl, rfl⟩⟩
    simp [chunks]
  · dsimp only
    have hmin : min (k + 1) needed ≠ 0 := by omega
    rcases e : incoming.take (min (k + 1) needed) with - | ⟨b, bs⟩
    · -- nothing to deliver
      obtain rfl : incoming = [] := (List.take_eq_nil_iff.mp e).resolve_left hmin
      exact ⟨⟨[], schedule⟩, ⟨List.suffix_cons _ _, Or.inl rfl⟩, rfl, Or.inl ⟨rfl, rfl⟩⟩
    · have hlen := congrArg List.length e
      rw [List.length_take, List.length_cons] at hlen
      refine ⟨⟨incoming.drop (min (k + 1) needed), schedule⟩, ⟨List.suffix_cons _ _, Or.inr ?_⟩,
        rfl, Or.inr ⟨b :: bs, rfl, ?_, ?_⟩⟩
      · simp only [List.length_drop, chunks, List.countP_cons, Option.isSome_some, if_true]
        omega
      · rw [List.length_cons]
        omega
      · rw [← e, List.take_append_drop]

/-! ### The invariant -/

/-- `bytes_read` is within the header, or within a payload that fits the
buffer. -/
def AgentConnection.Bounded (conn : AgentConnection) : Prop :=
  if conn.headerReceived then conn.bytesRead ≤ conn.payloadLen ∧ conn.payloadLen < bufferSize
  else conn.bytesRead ≤ hdrSize

/-- A connection with `incoming` bytes to come and `rest` frames to process.
`lost` are bytes of these frames that will never come. -/
inductive Receiving (lost : List UInt8) : AgentConnection → List UInt8 → List Frame → Prop
  | header {conn : AgentConnection} {incoming : List UInt8} {rest : List Frame}
      (phase : conn.headerReceived = false) (room : conn.bytesRead < hdrSize)
      (bytes : peek conn.hdr conn.bytesRead ++ (incoming ++ lost) = rest.flatMap Frame.bytes) :
      Receiving lost conn incoming rest
  | payload {conn : AgentConnection} {incoming : List UInt8} {f : Frame} {fs : List Frame}
      (phase : conn.headerReceived = true) (hdr : peek conn.hdr hdrSize = f.header)
      (len : conn.payloadLen = f.payload.length) (room : conn.bytesRead < f.payload.length)
      (bytes : peek conn.buf conn.bytesRead ++ (incoming ++ lost)
        = f.payload ++ fs.flatMap Frame.bytes) :
      Receiving lost conn incoming (f :: fs)

/-- The message a frame is processed as. -/
def Frame.message (f : Frame) : Message := ⟨f.header, f.payload⟩

/-- What `n` wake-ups do for the frames `rest`: the connection stays open, the
messages are the first of these frames, the others remain, and each wake-up
makes a `read` call. -/
structure Progress (lost : List UInt8) (rest : List Frame) (n : Nat) (sock : Socket) (w : WakeUp) :
    Prop where
  relation : ∃ conn done todo, w.conn = some conn ∧ rest = done ++ todo ∧
    w.messages = done.map Frame.message ∧ Receiving lost conn w.sock.incoming todo
  bounded : ∀ c ∈ w.visited, c.Bounded
  reads : sock.Reads w.sock
  spent : w.sock.schedule.length ≤ sock.schedule.length - n

variable {lost : List UInt8} {conn : AgentConnection} {sock : Socket} {f : Frame} {fs : List Frame}

/-- Between wake-ups `bytes_read` is within its bounds. -/
theorem Receiving.bounded {incoming : List UInt8} {rest : List Frame}
    (h : Receiving lost conn incoming rest) (hfits : ∀ f ∈ rest, f.payload.length < bufferSize) :
    conn.Bounded := by
  cases h with
  | header phase room _ =>
      rw [AgentConnection.Bounded, phase]
      exact room.le
  | payload phase _ len room _ =>
      rw [AgentConnection.Bounded, if_pos phase, len]
      exact ⟨room.le, hfits _ (by simp)⟩

/-- A wake-up that finds nothing to read. -/
theorem Receiving.idle {sock' : Socket} {rest : List Frame} {n : Nat}
    (h : Receiving lost conn sock.incoming rest)
    (hfits : ∀ f ∈ rest, f.payload.length < bufferSize) (hreads : sock.Reads sock')
    (hinc : sock'.incoming = sock.incoming)
    (hspent : sock'.schedule.length ≤ sock.schedule.length - n) :
    Progress lost rest n sock ⟨some conn, [], sock', [conn]⟩ := by
  refine ⟨⟨conn, [], rest, rfl, rfl, rfl, ?_⟩, ?_, hreads, hspent⟩
  · show Receiving lost conn sock'.incoming rest
    rw [hinc]
    exact h
  · intro c hc
    obtain rfl := List.mem_singleton.mp hc
    exact h.bounded hfits

/-- The payload phase of a frame without payload. -/
theorem payloadPhase_empty (hdr : peek conn.hdr hdrSize = f.header) (hlen : conn.payloadLen = 0)
    (hread : conn.bytesRead = 0) (hp : f.payload = [])
    (bytes : sock.incoming ++ lost = fs.flatMap Frame.bytes) :
    Progress lost (f :: fs) 0 sock (payloadPhase conn sock) := by
  have hphase : payloadPhase conn sock
      = ⟨some conn.messageDone, [conn.message], sock, [conn, conn.messageDone]⟩ := by
    rw [payloadPhase, if_pos hlen]
  rw [hphase]
  refine ⟨⟨conn.messageDone, [f], fs, rfl, rfl, ?_, ?_⟩, ?_, .refl _, Nat.le_refl _⟩
  · simp [AgentConnection.message, Frame.message, hdr, hlen, hp]
  · exact .header rfl (by simp [AgentConnection.messageDone, hdrSize]) bytes
  · intro c hc
    rcases List.mem_pair.mp hc with rfl | rfl
    · simp [AgentConnection.Bounded, hlen, hread, bufferSize]
    · simp [AgentConnection.Bounded, AgentConnection.messageDone]

/-- The payload phase with bytes missing. -/
theorem payloadPhase_read (phase : conn.headerReceived = true)
    (hdr : peek conn.hdr hdrSize = f.header) (hlen : conn.payloadLen = f.payload.length)
    (room : conn.bytesRead < f.payload.length)
    (hfits : ∀ g ∈ f :: fs, g.payload.length < bufferSize)
    (bytes : peek conn.buf conn.bytesRead ++ (sock.incoming ++ lost)
      = f.payload ++ fs.flatMap Frame.bytes) :
    Progress lost (f :: fs) 1 sock (payloadPhase conn sock) := by
  have hrel : Receiving lost conn sock.incoming (f :: fs) := .payload phase hdr hlen room bytes
  have hbounded := hrel.bounded hfits
  have hf : f.payload.length < bufferSize := hfits f (by simp)
  obtain ⟨sock', hreads, hsched, hcase⟩ :=
    sock.read_spec (show 0 < conn.payloadLen - conn.bytesRead by omega)
  have hspent : sock'.schedule.length ≤ sock.schedule.length - 1 := by rw [hsched, List.length_tail]
  rw [payloadPhase, if_neg (by omega)]
  rcases hcase with ⟨hread, hinc⟩ | ⟨bs, hread, hle, hinc⟩
  · rw [hread]
    exact hrel.idle hfits hreads hinc hspent
  · rw [hread]
    dsimp only
    -- the buffer now holds the bytes read before and the new ones
    have hbuf : peek (conn.readIntoPayload bs).buf (conn.readIntoPayload bs).bytesRead
        = peek conn.buf conn.bytesRead ++ bs := peek_poke _ _ _
    rw [hinc, List.append_assoc, ← List.append_assoc, ← hbuf] at bytes
    have hstep : (conn.readIntoPayload bs).bytesRead = conn.bytesRead + bs.length := rfl
    have hgot : (conn.readIntoPayload bs).Bounded := by
      have hphase : (conn.readIntoPayload bs).headerReceived = true := phase
      rw [AgentConnection.Bounded, if_pos hphase, hstep]
      show _ ≤ conn.payloadLen ∧ conn.payloadLen < bufferSize
      omega
    split
    · -- the frame is complete: it is processed, and a header comes next
      rename_i hfull
      have hfull' : (conn.readIntoPayload bs).bytesRead = f.payload.length := hfull.trans hlen
      obtain ⟨hpay, hrest⟩ := List.append_inj bytes (by rw [length_peek, hfull'])
      refine ⟨⟨_, [f], fs, rfl, rfl, ?_, .header rfl (by simp [AgentConnection.messageDone, hdrSize])
        ?_⟩, ?_, hreads, hspent⟩
      · rw [hfull] at hpay
        show [Message.mk (peek conn.hdr hdrSize) (peek (conn.readIntoPayload bs).buf
          (conn.readIntoPayload bs).payloadLen)] = _
        rw [hpay, hdr]
        rfl
      · exact hrest
      · simp only [List.mem_cons, List.not_mem_nil, or_false, forall_eq_or_imp, forall_eq]
        refine ⟨hbounded, hgot, ?_⟩
        simp [AgentConnection.Bounded, AgentConnection.messageDone]
    · rename_i hnot
      have hroom : (conn.readIntoPayload bs).bytesRead < f.payload.length := by
        have hne : conn.bytesRead + bs.length ≠ conn.payloadLen := hnot
        rw [hstep]
        omega
      refine ⟨⟨_, [], f :: fs, rfl, rfl, rfl, .payload phase hdr hlen hroom bytes⟩, ?_, hreads,
        hspent⟩
      simpa using ⟨hbounded, hgot⟩

/-- A whole header is that of the next frame, and it is accepted. -/
theorem header_complete {rest : List Frame} {tail : List UInt8}
    (hfits : ∀ f ∈ rest, f.payload.length < bufferSize) (hfull : conn.bytesRead = hdrSize)
    (bytes : peek conn.hdr hdrSize ++ tail = rest.flatMap Frame.bytes) :
    ∃ f fs, rest = f :: fs ∧ peek conn.hdr hdrSize = f.header ∧
      tail = f.payload ++ fs.flatMap Frame.bytes ∧
      conn.headerDone.payloadLen = f.payload.length ∧
      conn.checkHeader = some conn.headerDone := by
  obtain ⟨f, fs, rfl⟩ : ∃ f fs, rest = f :: fs := by
    rcases rest with - | ⟨f, fs⟩
    · have h0 := congrArg List.length bytes
      simp [hdrSize] at h0
    · exact ⟨f, fs, rfl⟩
  -- the header has its full size, so the bytes split where the frame does
  rw [List.flatMap_cons, Frame.bytes, List.append_assoc] at bytes
  obtain ⟨hhdr, hpay⟩ := List.append_inj bytes (by rw [length_peek, Frame.length_header])
  have hf : f.payload.length < bufferSize := hfits f (by simp)
  have hlen : conn.headerDone.payloadLen = f.payload.length := by
    show hdrPayloadLen (peek conn.hdr hdrSize) = _
    rw [hhdr, f.hdrPayloadLen_header (hf.trans (by decide))]
  refine ⟨f, fs, rfl, hhdr, hpay, hlen, ?_⟩
  rw [AgentConnection.checkHeader, if_pos hfull, hhdr, f.hdrMagic_header, if_neg (by simp), hlen,
    if_neg (by omega)]

/-- The payload phase that follows a header in the same wake-up. -/
theorem payloadPhase_headerDone (hdr : peek conn.hdr hdrSize = f.header)
    (hlen : conn.headerDone.payloadLen = f.payload.length)
    (hfits : ∀ g ∈ f :: fs, g.payload.length < bufferSize)
    (bytes : sock.incoming ++ lost = f.payload ++ fs.flatMap Frame.bytes) :
    Progress lost (f :: fs) 0 sock (payloadPhase conn.headerDone sock) := by
  rcases eq_or_ne f.payload [] with hp | hp
  · rw [hp, List.length_nil] at hlen
    rw [hp, List.nil_append] at bytes
    exact payloadPhase_empty hdr hlen rfl hp bytes
  · have h : Progress lost (f :: fs) 1 sock (payloadPhase conn.headerDone sock) :=
      payloadPhase_read rfl hdr hlen (List.length_pos_of_ne_nil hp) hfits bytes
    exact ⟨h.relation, h.bounded, h.reads, h.spent.trans (Nat.sub_le _ _)⟩

/-- The header phase with bytes missing, and what follows it. -/
theorem headerPhase_read {rest : List Frame} (phase : conn.headerReceived = false)
    (room : conn.bytesRead < hdrSize) (hfits : ∀ f ∈ rest, f.payload.length < bufferSize)
    (bytes : peek conn.hdr conn.bytesRead ++ (sock.incoming ++ lost) = rest.flatMap Frame.bytes) :
    Progress lost rest 1 sock (agentReadable conn sock) := by
  have hrel : Receiving lost conn sock.incoming rest := .header phase room bytes
  have hbounded := hrel.bounded hfits
  obtain ⟨sock', hreads, hsched, hcase⟩ :=
    sock.read_spec (show 0 < hdrSize - conn.bytesRead by omega)
  have hspent : sock'.schedule.length ≤ sock.schedule.length - 1 := by rw [hsched, List.length_tail]
  rw [agentReadable, if_neg (by simp [phase])]
  rcases hcase with ⟨hread, hinc⟩ | ⟨bs, hread, hle, hinc⟩
  · rw [hread]
    exact hrel.idle hfits hreads hinc hspent
  · rw [hread]
    dsimp only
    have hbuf : peek (conn.readIntoHeader bs).hdr (conn.readIntoHeader bs).bytesRead
        = peek conn.hdr conn.bytesRead ++ bs := peek_poke _ _ _
    rw [hinc, List.append_assoc, ← List.append_assoc, ← hbuf] at bytes
    have hphase : (conn.readIntoHeader bs).headerReceived = false := phase
    have hstep : (conn.readIntoHeader bs).bytesRead = conn.bytesRead + bs.length := rfl
    generalize conn.readIntoHeader bs = got at bytes hphase hstep
    have hgot : got.Bounded := by
      rw [AgentConnection.Bounded, hphase, hstep]
      show conn.bytesRead + bs.length ≤ hdrSize
      omega
    by_cases hfull : got.bytesRead = hdrSize
    · -- the same wake-up goes on to the payload
      rw [hfull] at bytes
      obtain ⟨f, fs, rfl, hhdr, hpay, hlen, hcheck⟩ := header_complete hfits hfull bytes
      rw [hcheck]
      dsimp only
      rw [if_pos (show got.headerDone.headerReceived = true from rfl)]
      have hafter := payloadPhase_headerDone hhdr hlen hfits hpay
      refine ⟨hafter.relation, ?_, hreads.trans hafter.reads, hafter.spent.trans hspent⟩
      simp only [List.mem_cons, forall_eq_or_imp]
      exact ⟨hbounded, hgot, hafter.bounded⟩
    · have hcheck : got.checkHeader = some got := by
        rw [AgentConnection.checkHeader, if_neg hfull]
      rw [hcheck]
      dsimp only
      rw [if_neg (by simp [hphase])]
      refine ⟨⟨got, [], rest, rfl, rfl, rfl, .header hphase (by omega) bytes⟩, ?_, hreads, hspent⟩
      simpa using ⟨hbounded, hgot⟩

/-- One wake-up keeps the relation. -/
theorem agentReadable_receiving {rest : List Frame}
    (hfits : ∀ f ∈ rest, f.payload.length < bufferSize)
    (h : Receiving lost conn sock.incoming rest) :
    Progress lost rest 1 sock (agentReadable conn sock) := by
  rcases h with ⟨phase, room, bytes⟩ | ⟨phase, hdr, len, room, bytes⟩
  · exact headerPhase_read phase room hfits bytes
  · rw [agentReadable, if_pos phase]
    exact payloadPhase_read phase hdr len room hfits bytes

/-- So does any number of wake-ups. -/
theorem wakeUps_receiving (k : Nat) {rest : List Frame}
    (hfits : ∀ f ∈ rest, f.payload.length < bufferSize)
    (h : Receiving lost conn sock.incoming rest) :
    Progress lost rest k sock (wakeUps k conn sock) := by
  -- the frames done by the first wake-up come before those of the others
  induction k generalizing conn sock rest with
  | zero => exact h.idle hfits (.refl sock) rfl (Nat.le_refl _)
  | succ k ih =>
      have hw := agentReadable_receiving hfits h
      obtain ⟨conn', done, todo, hconn, rfl, hmsgs, hrel⟩ := hw.relation
      have hrest := ih (fun f hf => hfits f (List.mem_append_right done hf)) hrel
      obtain ⟨conn'', done', todo', hconn', rfl, hmsgs', hrel'⟩ := hrest.relation
      rw [wakeUps]
      simp only [hconn]
      refine ⟨⟨conn'', done ++ done', todo', hconn', (List.append_assoc _ _ _).symm, ?_, hrel'⟩, ?_,
        hw.reads.trans hrest.reads, ?_⟩
      · rw [List.map_append, hmsgs, hmsgs']
      · intro c hc
        rcases List.mem_append.mp hc with hc | hc
        · exact hw.bounded c hc
        · exact hrest.bounded c hc
      · have h1 := hw.spent
        have h2 := hrest.spent
        show (wakeUps k conn' (agentReadable conn sock).sock).sock.schedule.length ≤ _
        omega

/-! ### Reassembly -/

theorem receiving_accepted (fd : Nat) (clientIp : List UInt8) (frames : List Frame)
    {stream : List UInt8} (h : stream ++ lost = frames.flatMap Frame.bytes) :
    Receiving lost (.accepted fd clientIp) stream frames :=
  .header rfl (show 0 < hdrSize by decide) h

/-- While a frame is not processed, part of it has still to come, or is lost. -/
theorem Receiving.length_lt {incoming : List UInt8} (h : Receiving lost conn incoming (f :: fs)) :
    (fs.flatMap Frame.bytes).length < incoming.length + lost.length := by
  cases h with
  | header phase room bytes =>
      have hlen := congrArg List.length bytes
      rw [List.flatMap_cons, List.length_append, List.length_append, List.length_append, length_peek,
        f.length_bytes] at hlen
      omega
  | payload phase hdr len room bytes =>
      have hlen := congrArg List.length bytes
      rw [List.length_append, List.length_append, List.length_append, length_peek] at hlen
      omega

/-- When all the bytes of the first frames have been read, these frames have
been processed. -/
theorem Progress.processed {frames done todo : List Frame} {n : Nat} {w : WakeUp}
    (h : Progress lost frames n sock w) (hsplit : frames = done ++ todo)
    (hread : w.sock.incoming.length + lost.length ≤ (todo.flatMap Frame.bytes).length) :
    done.map Frame.message <+: w.messages := by
  obtain ⟨conn, d, t, -, hframes, hmsgs, hrel⟩ := h.relation
  rw [hmsgs]
  apply List.IsPrefix.map
  rcases List.append_eq_append_iff.mp (hsplit.symm.trans hframes) with ⟨m, rfl, -⟩ | ⟨m, rfl, rfl⟩
  · exact List.prefix_append done m
  · -- otherwise the frame after `d` would be processed, and is not
    rcases m with - | ⟨f, fs⟩
    · exact ⟨[], by simp⟩
    · rw [List.cons_append] at hrel
      have hlt := hrel.length_lt
      rw [List.flatMap_append, List.length_append] at hlt
      omega

/-- A schedule that delivers enough, followed to its end, empties the socket. -/
theorem Progress.drained {rest : List Frame} {n : Nat} {w : WakeUp}
    (h : Progress lost rest n sock w) (hn : sock.schedule.length ≤ n)
    (hchunks : sock.incoming.length ≤ chunks sock.schedule) : w.sock.incoming = [] := by
  have hspent : w.sock.schedule.length = 0 :=
    Nat.le_zero.mp (h.spent.trans (Nat.sub_eq_zero_of_le hn).le)
  rcases h.reads.paced with hempty | hpaced
  · exact hempty
  · rw [List.length_eq_zero_iff.mp hspent] at hpaced
    simp only [chunks, List.countP_nil] at hpaced hchunks
    exact List.length_eq_zero_iff.mp (by omega)

/-- **Reassembly does not depend on segmentation.**  However the bytes of the
frames are cut into reads, with EAGAIN in between, after any number of wake-ups
the connection is open, the messages processed are the first of the frames, in
order and each once, and include every frame whose bytes have all been read;
`bytes_read` kept its bounds throughout.  And if the schedule delivers enough,
they are all the frames. -/
theorem reassembly_independent_of_segmentation (fd : Nat) (clientIp : List UInt8)
    (frames : List Frame) (hframes : ∀ f ∈ frames, f.payload.length < bufferSize)
    (schedule : List (Option Nat)) (k : Nat) :
    let w := wakeUps k (.accepted fd clientIp) ⟨frames.flatMap Frame.bytes, schedule⟩
    w.conn.isSome = true ∧
      w.messages <+: frames.map Frame.message ∧
      (∀ done todo, frames = done ++ todo →
        w.sock.incoming.length ≤ (todo.flatMap Frame.bytes).length →
          done.map Frame.message <+: w.messages) ∧
      (∀ c ∈ w.visited, c.Bounded) ∧
      (schedule.length ≤ k → (frames.flatMap Frame.bytes).length ≤ chunks schedule →
        w.messages = frames.map Frame.message) := by
  intro w
  -- nothing is lost on the way: `lost` is empty
  have hw : Progress [] frames k ⟨frames.flatMap Frame.bytes, schedule⟩ w :=
    wakeUps_receiving k hframes
      (receiving_accepted fd clientIp frames (List.append_nil (frames.flatMap Frame.bytes)))
  have hprefix : w.messages <+: frames.map Frame.message := by
    obtain ⟨conn, d, t, -, rfl, hmsgs, -⟩ := hw.relation
    rw [hmsgs]
    exact (List.prefix_append d t).map _
  have hdone : ∀ done todo, frames = done ++ todo →
      w.sock.incoming.length ≤ (todo.flatMap Frame.bytes).length →
        done.map Frame.message <+: w.messages :=
    fun done todo hsplit hle => hw.processed hsplit hle
  refine ⟨?_, hprefix, hdone, hw.bounded, ?_⟩
  · obtain ⟨conn, d, t, hconn, -⟩ := hw.relation
    rw [hconn]
    rfl
  · intro hk hchunks
    have hempty : w.sock.incoming = [] := hw.drained hk hchunks
    have hall := hdone frames [] (List.append_nil frames).symm (by simp [hempty])
    exact hprefix.eq_of_length_le hall.length_le

/-- A heartbeat without payload and a command, delivered byte by byte after
two EAGAINs. -/
theorem reassembly_heartbeat_byte_by_byte :
    let uuid : List UInt8 := List.replicate 16 7
    let frames : List Frame :=
      [⟨uuid, msgTypePing, [], by decide⟩, ⟨uuid, msgTypeBlockIp, [10, 0, 0, 5], by decide⟩]
    let schedule := none :: none :: List.replicate 54 (some 0)
    (∀ f ∈ frames, f.payload.length < bufferSize) ∧
      (wakeUps 56 (.accepted 9 []) ⟨frames.flatMap Frame.bytes, schedule⟩).messages
        = frames.map Frame.message := by
  intro uuid frames schedule
  have hframes : ∀ f ∈ frames, f.payload.length < bufferSize := by
    simp [frames, bufferSize]
  exact ⟨hframes, (reassembly_independent_of_segmentation 9 [] frames hframes schedule 56).2.2.2.2
    (by decide) (by decide)⟩

end Nullsploit
