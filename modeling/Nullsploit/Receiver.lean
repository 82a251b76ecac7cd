/-
Nullsploit/Receiver.lean

The receiver's event loop (`main` in soc-server/soc_receiver.c) with its
descriptors, its connection objects and its two registries.

A step handles one event: an accept on one of the three ports, or a ready
connection.  The kernel names a connection by the pointer it was registered
with, here the number of the accept that made it (`owner`); the same number
identifies the connection that a descriptor stands for, since the descriptor
itself is reused after `close`.

`live` and the owner in an entry of `sse_clients` are not in the code.  They
record which connection completed the handshake for live alerts, and for which
one an entry was made.
-/
import Mathlib.Logic.Function.Basic
import Nullsploit.Auth
import Nullsploit.HttpApi
import Nullsploit.Ingest
import Nullsploit.LocalControl
import Nullsploit.Slots

namespace Nullsploit

open CText Inet

/-! ### The state -/

/-- Where a descriptor comes from; `other` stands for listening sockets, the
database and whatever else the process has open. -/
inductive Port
  | agent
  | web
  | other
  deriving DecidableEq, Repr

/-- An open descriptor. -/
structure Descriptor where
  owner : Nat
  port : Port
  live : Bool
  watched : Bool
  deriving DecidableEq, Repr

/-- A connection object on the heap. -/
inductive ConnObject
  | agent (conn : AgentConnection)
  | web (fd : Nat) (buf : List UInt8)

/-- Both kinds begin with the descriptor. -/
def ConnObject.fd : ConnObject → Nat
  | .agent conn => conn.fd
  | .web fd _ => fd

/-- An entry of `sse_clients`. -/
structure SseClient where
  fd : Nat
  owner : Nat
  deriving DecidableEq, Repr

/-- `MAX_SSE_CLIENTS`. -/
def maxSseClients : Nat := 32

/-- `MAX_CONNECTED_AGENTS`. -/
def maxConnectedAgents : Nat := 128

/-- The descriptors (with their place in the epoll set), the connection objects
and the registries. -/
structure Receiver where
  nextOwner : Nat
  table : Nat → Option Descriptor
  heap : Nat → Option ConnObject
  connectedAgents : List (Option Nat)
  sseClients : List (Option SseClient)

/-- The state when the loop begins, with the descriptors open by then. -/
def Receiver.start (inUse : Nat → Bool) : Receiver where
  nextOwner := 0
  table fd := if inUse fd then some ⟨0, .other, false, false⟩ else none
  heap _ := none
  connectedAgents := List.replicate maxConnectedAgents none
  sseClients := List.replicate maxSseClients none

/-- What the loop has loaded before. -/
structure ReceiverConfig where
  key : Equiv.Perm AesBlock
  shl : BitVec 8 → BitVec 32
  whitelist : List WhitelistEntry

namespace Receiver

/-! ### Descriptors and registries -/

/-- `close(fd)`; the kernel drops the descriptor from the epoll set with it. -/
def close (s : Receiver) (fd : Nat) : Receiver :=
  { s with table := Function.update s.table fd none }

/-- `free(ptr)`. -/
def free (s : Receiver) (ptr : Nat) : Receiver :=
  { s with heap := Function.update s.heap ptr none }

/-- A new descriptor. -/
def openFd (s : Receiver) (fd : Nat) (port : Port) (watched : Bool) : Receiver :=
  { s with
    nextOwner := s.nextOwner + 1
    table := Function.update s.table fd (some ⟨s.nextOwner, port, false, watched⟩) }

/-- `connected_agents[i]->fd == fd`. -/
def agentHasFd (heap : Nat → Option ConnObject) (fd ptr : Nat) : Bool :=
  match heap ptr with
  | some (.agent conn) => conn.fd = fd
  | _ => false

/-- `unregister_connected_agent`. -/
def unregisterConnectedAgent (s : Receiver) (fd : Nat) : Receiver :=
  { s with connectedAgents := Slots.clear (agentHasFd s.heap fd) s.connectedAgents }

/-- `sse_remove`. -/
def sseRemove (s : Receiver) (fd : Nat) : Receiver :=
  { s with sseClients := Slots.clear (fun c => c.fd = fd) s.sseClients }

/-- The handshake for live alerts: `sse_add`, and out of the epoll set. -/
def sseAdd (s : Receiver) (fd : Nat) (d : Descriptor) : Receiver :=
  { s with
    table := Function.update s.table fd (some { d with live := true, watched := false })
    sseClients := Slots.fill ⟨fd, d.owner⟩ s.sseClients }

/-- `connected_agents`, as `send_command_to_agent` sees it. -/
def registry (s : Receiver) : Registry :=
  s.connectedAgents.map fun slot =>
    slot.bind fun ptr =>
      match s.heap ptr with
      | some (.agent conn) => some conn
      | _ => none

end Receiver

/-! ### Alerts -/

/-- Alert data written to a descriptor, which then stood for this. -/
structure AlertWrite where
  fd : Nat
  target : Descriptor
  deriving DecidableEq, Repr

/-- One client of a broadcast: a failed write closes the descriptor and frees
the slot.  Writing to a descriptor that is not open fails. -/
def broadcastTo (writeFails : Nat → Bool) (s : (Nat → Option Descriptor) × List AlertWrite)
    (c : SseClient) : ((Nat → Option Descriptor) × List AlertWrite) × Bool :=
  match s.1 c.fd with
  | none => (s, true)
  | some d =>
      if writeFails c.fd then ((Function.update s.1 c.fd none, s.2), true)
      else ((s.1, s.2 ++ [⟨c.fd, d⟩]), false)

/-- `sse_broadcast`. -/
def sseBroadcast (writeFails : Nat → Bool) (s : Receiver) : Receiver × List AlertWrite :=
  let ((table, writes), slots) := Slots.sweep (broadcastTo writeFails) (s.table, []) s.sseClients
  ({ s with table := table, sseClients := slots }, writes)

/-! ### Messages from agents -/

/-- One slot of the clean-up: another connection of the same agent is closed
and freed. -/
def cleanStale (fd : Nat) (uuid : List UInt8)
    (s : (Nat → Option Descriptor) × (Nat → Option ConnObject)) (ptr : Nat) :
    ((Nat → Option Descriptor) × (Nat → Option ConnObject)) × Bool :=
  match s.2 ptr with
  | some (.agent old) =>
      if old.fd ≠ fd ∧ old.uuid = uuid then
        ((Function.update s.1 old.fd none, Function.update s.2 ptr none), true)
      else (s, false)
  | _ => (s, false)

/-- The clean-up at the start of `process_agent_message`. -/
def Receiver.cleanUp (s : Receiver) (fd : Nat) (uuid : List UInt8) : Receiver :=
  let ((table, heap), slots) := Slots.sweep (cleanStale fd uuid) (s.table, s.heap) s.connectedAgents
  { s with table := table, heap := heap, connectedAgents := slots }

/-- What a step does besides changing the state. -/
structure ReceiverOutput where
  effects : List ApiEffect
  calls : List IngestCall
  alerts : List AlertWrite
  command : Option (Nat × List UInt8)

def ReceiverOutput.none : ReceiverOutput := ⟨[], [], [], Option.none⟩

/-- The calls of `process_agent_message` in order; a broadcast changes the
state. -/
def runCalls (writeFails : Nat → Bool) : Receiver → List IngestCall → Receiver × List AlertWrite
  | s, [] => (s, [])
  | s, .sseBroadcast _ _ :: calls =>
      let (s, writes) := sseBroadcast writeFails s
      let (s, more) := runCalls writeFails s calls
      (s, writes ++ more)
  | s, _ :: calls => runCalls writeFails s calls

/-- `process_agent_message` for the messages of a wake-up. -/
def processMessages (cfg : ReceiverConfig) (conn : AgentConnection) (writeFails : Nat → Bool) :
    Receiver → List Message → Receiver × List IngestCall × List AlertWrite
  | s, [] => (s, [], [])
  | s, m :: ms =>
      let s := s.cleanUp conn.fd (hdrUuid m.hdr)
      let calls := processAgentMessage cfg.key conn.clientIp m
      let (s, writes) := runCalls writeFails s calls
      let (s, moreCalls, moreWrites) := processMessages cfg conn writeFails s ms
      (s, calls ++ moreCalls, writes ++ moreWrites)

/-! ### The events -/

/-- What a ready connection meets: the reads of an agent connection or the one
of a web connection, which writes of a broadcast fail, and what the handlers
learn. -/
structure Readiness where
  sock : Socket
  data : ReadResult
  writeFails : Nat → Bool
  env : ApiEnv
  openFile : List UInt8 → FileRead

/-- The events of the loop; a descriptor that is opened comes with its
number. -/
inductive ReceiverEvent
  | acceptAgent (fd : Nat) (addr : BitVec 32)
  | acceptLocal (iv : AesBlock) (junk : Nat → UInt8) (received : List UInt8)
  | acceptWeb (fd : Nat) (addr : BitVec 32)
  | hangUp (ptr : Nat)
  | readable (ptr : Nat) (io : Readiness)
  | openOther (fd : Nat)
  | closeOther (fd : Nat)

/-- The object and the descriptor of a ready connection: the kernel reports
only descriptors in the epoll set. -/
def Receiver.ready (s : Receiver) (ptr : Nat) : Option (ConnObject × Descriptor) :=
  match s.heap ptr with
  | none => none
  | some obj =>
      match s.table obj.fd with
      | none => none
      | some d => if d.owner = ptr ∧ d.watched = true then some (obj, d) else none

/-- `struct http_connection` has room for this many bytes and a terminator. -/
def httpBufSize : Nat := 8191

/-- A read into the rest of the buffer. -/
def readWeb (buf : List UInt8) : ReadResult → ReadResult
  | .again => .again
  | .closed => .closed
  | .data bs =>
      match bs.take (httpBufSize - buf.length) with
      | [] => .closed
      | b :: bs => .data (b :: bs)

/-- The request that is complete after a read. -/
def completedRequest (buf : List UInt8) (data : ReadResult) : Option HttpRequest :=
  match readWeb buf data with
  | .data bs => parseRequest (buf ++ bs)
  | _ => none

/-- A ready agent connection. -/
def agentReady (cfg : ReceiverConfig) (s : Receiver) (ptr : Nat) (conn : AgentConnection)
    (io : Readiness) : Receiver × ReceiverOutput :=
  let w := agentReadable conn io.sock
  match w.conn with
  | none => (((s.unregisterConnectedAgent conn.fd).close conn.fd).free ptr, .none)
  | some conn' =>
      let s := { s with heap := Function.update s.heap ptr (some (.agent conn')) }
      let (s, calls, alerts) := processMessages cfg conn io.writeFails s w.messages
      (s, ⟨[], calls, alerts, none⟩)

/-- A ready web connection: a complete request is handled, and the connection
closed unless its path is that of the live alerts. -/
def webReady (s : Receiver) (ptr fd : Nat) (buf : List UInt8) (d : Descriptor) (io : Readiness) :
    Receiver × ReceiverOutput :=
  match readWeb buf io.data with
  | .again => (s, .none)
  | .closed => ((s.close fd).free ptr, .none)
  | .data bs =>
      let s := { s with heap := Function.update s.heap ptr (some (.web fd (buf ++ bs))) }
      match parseRequest (buf ++ bs) with
      | none => (s, .none)
      | some r =>
          let effects := handleRequest io.env io.openFile r
          let s := if .sseAdd ∈ effects then s.sseAdd fd d else s
          let s := if r.path ≠ livePath then (s.close fd).free ptr else s
          (s, ⟨effects, [], [], none⟩)

/-- A connection on the agent port. -/
def Receiver.acceptAgent (cfg : ReceiverConfig) (s : Receiver) (fd : Nat) (addr : BitVec 32) :
    Receiver :=
  if s.table fd = none ∧ authCheckIp cfg.shl cfg.whitelist (inetNtop addr) = true then
    let ptr := s.nextOwner
    let s := s.openFd fd .agent true
    { s with
      heap := Function.update s.heap ptr (some (.agent (.accepted fd (inetNtop addr))))
      connectedAgents := Slots.fill ptr s.connectedAgents }
  else s

/-- A connection on the web port. -/
def Receiver.acceptWeb (cfg : ReceiverConfig) (s : Receiver) (fd : Nat) (addr : BitVec 32) :
    Receiver :=
  if s.table fd = none ∧ authCheckIp cfg.shl cfg.whitelist (inetNtop addr) = true then
    let ptr := s.nextOwner
    let s := s.openFd fd .web true
    { s with heap := Function.update s.heap ptr (some (.web fd [])) }
  else s

/-- EPOLLRDHUP, EPOLLHUP or EPOLLERR. -/
def Receiver.hangUp (s : Receiver) (ptr : Nat) : Receiver :=
  match s.ready ptr with
  | none => s
  | some (obj, _) =>
      (((s.unregisterConnectedAgent obj.fd).close obj.fd).sseRemove obj.fd).free ptr

/-- A ready connection. -/
def Receiver.readable (cfg : ReceiverConfig) (s : Receiver) (ptr : Nat) (io : Readiness) :
    Receiver × ReceiverOutput :=
  match s.ready ptr with
  | none => (s, .none)
  | some (obj, d) =>
      -- the port is what `getsockname` returns
      match d.port, obj with
      | .agent, .agent conn => agentReady cfg s ptr conn io
      | .web, .web fd buf => webReady s ptr fd buf d io
      | _, _ => (s, .none)

/-- The rest of the process opens a descriptor. -/
def Receiver.openOther (s : Receiver) (fd : Nat) : Receiver :=
  if s.table fd = none then s.openFd fd .other false else s

/-- It closes one of its own. -/
def Receiver.closeOther (s : Receiver) (fd : Nat) : Receiver :=
  match s.table fd with
  | none => s
  | some d => if d.port = .other then s.close fd else s

/-- One event of the loop. -/
def receiverStep (cfg : ReceiverConfig) (s : Receiver) : ReceiverEvent → Receiver × ReceiverOutput
  | .acceptAgent fd addr => (s.acceptAgent cfg fd addr, .none)
  | .acceptLocal iv junk received =>
      -- accepted, read and closed in this step
      (s, ⟨[], [], [], localControl cfg.key iv junk s.registry received⟩)
  | .acceptWeb fd addr => (s.acceptWeb cfg fd addr, .none)
  | .hangUp ptr => (s.hangUp ptr, .none)
  | .readable ptr io => s.readable cfg ptr io
  | .openOther fd => (s.openOther fd, .none)
  | .closeOther fd => (s.closeOther fd, .none)

end Nullsploit
