/-
Nullsploit/BatchDelivery.lean

The agent's frames at the receiver.

The log of the agent, cut where it opens a connection, gives the frames
written to each connection (`connections`).  All of them are written in full
but the last, whose write may have failed: then the agent closes the
connection.  `WireStep` lists the ways in which the log and the connection
change together; every phase of the loop is a sequence of these
(`wire_loopTurn`), and every such sequence keeps the connections in this shape
(`WireOk.star`).

With the receiver of `AgentFraming` at the other end, the events it inserts
are those the agent counts as delivered, provided the receiver takes every
frame.  It refuses payloads of 64 KiB and more, and the agent sends up to 512
events of 408 bytes: a batch is taken exactly if it has at most 160 events.

That receiver reads whatever was written before it looks at anything else, so
what is said about inserts is said about the bytes it reads.  It has no branch
for a hang-up that is reported while bytes are still unread; that one is in
CloseDelivery.
-/
import Nullsploit.AgentLoop
import Nullsploit.Ingest

namespace Nullsploit

open Runs Relation

/-! ### Connections -/

/-- The bytes of a frame that were written. -/
def Sent.bytes (s : Sent) : List UInt8 := s.frame.bytes.take s.written

/-- The frames written to each connection, the latest connection first. -/
def addToConnections (cs : List (List Sent)) : AgentLog → List (List Sent)
  | .opened => [] :: cs
  | .sent s =>
      match cs with
      | [] => [[s]]
      | c :: cs => (c ++ [s]) :: cs
  | _ => cs

def connections (log : List AgentLog) : List (List Sent) := log.foldl addToConnections []

/-- Does the entry concern the SOC connection? -/
def AgentLog.onWire : AgentLog → Bool
  | .opened => true
  | .sent _ => true
  | .closed => true
  | _ => false

/-- The SOC side of an agent: whether it is connected, and its log. -/
def Agent.wire (a : Agent) : Bool × List AgentLog := (a.socConnected, a.log)

/-- The ways in which the connection and the log change; `P` is what is known
of the frames. -/
inductive WireStep (P : Sent → Prop) : Bool × List AgentLog → Bool × List AgentLog → Prop
  | quiet (b : Bool) (log l : List AgentLog) (h : ∀ x ∈ l, x.onWire = false) :
      WireStep P (b, log) (b, log ++ l)
  | connect (log : List AgentLog) : WireStep P (false, log) (true, log ++ [.opened])
  | whole (log : List AgentLog) (s : Sent) (hs : P s) (h : s.written = s.frame.bytes.length) :
      WireStep P (true, log) (true, log ++ [.sent s])
  | part (log : List AgentLog) (s : Sent) (hs : P s) (h : s.written < s.frame.bytes.length) :
      WireStep P (true, log) (false, log ++ [.sent s, .closed])
  | close (log : List AgentLog) : WireStep P (true, log) (false, log ++ [.closed])

/-- A connection: frames written in full, then perhaps one that was not. -/
def ConnectionOk (P : Sent → Prop) (c : List Sent) : Prop :=
  (∀ s ∈ c, P s) ∧ ∃ whole part, c = whole ++ part ∧
    (∀ s ∈ whole, s.written = s.frame.bytes.length) ∧
    (part = [] ∨ ∃ s, part = [s] ∧ s.written < s.frame.bytes.length)

/-- The connections of a log are in order, and as long as the agent is
connected, everything on the latest one was written in full. -/
structure WireOk (P : Sent → Prop) (w : Bool × List AgentLog) : Prop where
  all : ∀ c ∈ connections w.2, ConnectionOk P c
  latest : w.1 = true → ∃ c cs, connections w.2 = c :: cs ∧
    ∀ s ∈ c, s.written = s.frame.bytes.length

theorem connections_append (log l : List AgentLog) :
    connections (log ++ l) = l.foldl addToConnections (connections log) :=
  List.foldl_append

theorem connections_quiet (log : List AgentLog) {l : List AgentLog}
    (h : ∀ x ∈ l, x.onWire = false) : connections (log ++ l) = connections log := by
  rw [connections_append]
  generalize connections log = cs
  induction l with
  | nil => rfl
  | cons x l ih =>
      have hx : addToConnections cs x = cs := by
        have hx := h x (by simp)
        cases x <;> first | rfl | cases hx
      rw [List.foldl_cons, hx]
      exact ih fun y hy => h y (List.mem_cons_of_mem _ hy)

/-- A frame joins the latest connection. -/
theorem connections_sent {log : List AgentLog} {c : List Sent} {cs : List (List Sent)} {s : Sent}
    (h : connections log = c :: cs) : connections (log ++ [.sent s]) = (c ++ [s]) :: cs := by
  rw [connections_append, h]
  rfl

/-- The connections after a frame, given what it makes of the latest one. -/
theorem WireOk.all_sent {P : Sent → Prop} {log : List AgentLog} {b : Bool} {c : List Sent}
    {cs : List (List Sent)} {s : Sent} (h : WireOk P (b, log)) (hcs : connections log = c :: cs)
    (hc : ConnectionOk P (c ++ [s])) : ∀ d ∈ (c ++ [s]) :: cs, ConnectionOk P d := by
  intro d hd
  rcases List.mem_cons.mp hd with rfl | hd
  · exact hc
  · apply h.all d
    rw [show connections (b, log).2 = c :: cs from hcs]
    exact List.mem_cons_of_mem c hd

theorem WireOk.step {P : Sent → Prop} {w w' : Bool × List AgentLog} (h : WireOk P w)
    (hstep : WireStep P w w') : WireOk P w' := by
  cases hstep with
  | quiet b log l hl =>
      have hc : connections (log ++ l) = connections log := connections_quiet log hl
      refine ⟨?_, ?_⟩
      · intro c hmem
        exact h.all c (hc ▸ hmem)
      · intro hb
        obtain ⟨c, cs, hcs, hall⟩ := h.latest hb
        exact ⟨c, cs, hc.trans hcs, hall⟩
  | connect log =>
      have hc : connections (log ++ [.opened]) = [] :: connections log := connections_append log _
      refine ⟨?_, fun _ => ⟨[], connections log, hc, by simp⟩⟩
      intro c hmem
      rw [show connections (log ++ [.opened]) = [] :: connections log from hc] at hmem
      rcases List.mem_cons.mp hmem with rfl | hmem
      · exact ⟨by simp, [], [], rfl, by simp, Or.inl rfl⟩
      · exact h.all c hmem
  | whole log s hs hw =>
      obtain ⟨c, cs, hcs, hall⟩ := h.latest rfl
      have hold := h.all c (by rw [hcs]; simp)
      have hc : connections (log ++ [.sent s]) = (c ++ [s]) :: cs := connections_sent hcs
      have hall' : ∀ x ∈ c ++ [s], x.written = x.frame.bytes.length :=
        List.forall_mem_append.mpr ⟨hall, List.forall_mem_singleton.mpr hw⟩
      have hP : ∀ x ∈ c ++ [s], P x :=
        List.forall_mem_append.mpr ⟨hold.1, List.forall_mem_singleton.mpr hs⟩
      refine ⟨?_, fun _ => ⟨c ++ [s], cs, hc, hall'⟩⟩
      show ∀ d ∈ connections (log ++ [.sent s]), ConnectionOk P d
      rw [hc]
      exact h.all_sent hcs ⟨hP, c ++ [s], [], (List.append_nil _).symm, hall', Or.inl rfl⟩
  | part log s hs hw =>
      -- the frame that was cut off is the last one: the agent closes
      obtain ⟨c, cs, hcs, hall⟩ := h.latest rfl
      have hold := h.all c (by rw [hcs]; simp)
      have hc : connections (log ++ [.sent s, .closed]) = (c ++ [s]) :: cs := by
        rw [connections_append, hcs]
        rfl
      have hP : ∀ x ∈ c ++ [s], P x :=
        List.forall_mem_append.mpr ⟨hold.1, List.forall_mem_singleton.mpr hs⟩
      refine ⟨?_, fun hb => absurd hb (by simp)⟩
      show ∀ d ∈ connections (log ++ [.sent s, .closed]), ConnectionOk P d
      rw [hc]
      exact h.all_sent hcs ⟨hP, c, [s], rfl, hall, Or.inr ⟨s, rfl, hw⟩⟩
  | close log =>
      have hc : connections (log ++ [.closed]) = connections log := connections_append log _
      exact ⟨fun c hmem => h.all c (hc ▸ hmem), fun hb => absurd hb (by simp)⟩

theorem WireOk.star {P : Sent → Prop} {w w' : Bool × List AgentLog} (h : WireOk P w)
    (hsteps : ReflTransGen (WireStep P) w w') : WireOk P w' := by
  induction hsteps with
  | refl => exact h
  | tail _ hstep ih => exact ih.step hstep

/-! ### The phases of the loop on the wire -/

/-- From one agent to another by wire steps. -/
def WireSteps (P : Sent → Prop) (a a' : Agent) : Prop :=
  ReflTransGen (WireStep P) a.wire a'.wire

section
variable {P : Sent → Prop}

theorem WireSteps.trans {a b c : Agent} (hab : WireSteps P a b) (hbc : WireSteps P b c) :
    WireSteps P a c :=
  ReflTransGen.trans hab hbc

/-- Entries that do not concern the connection. -/
theorem wire_quiet {a a' : Agent} (l : List AgentLog) (hlog : a'.log = a.log ++ l)
    (hsoc : a'.socConnected = a.socConnected) (hl : ∀ x ∈ l, x.onWire = false) :
    WireSteps P a a' := by
  have hwire : a'.wire = (a.socConnected, a.log ++ l) := by rw [Agent.wire, hlog, hsoc]
  unfold WireSteps
  rw [hwire]
  exact ReflTransGen.single (.quiet a.socConnected a.log l hl)

theorem wire_note {a : Agent} {x : AgentLog} (hx : x.onWire = false) :
    WireSteps P a (a.note [x]) :=
  wire_quiet [x] rfl rfl fun y hy => by rw [List.mem_singleton.mp hy]; exact hx

theorem wire_same {a a' : Agent} (hlog : a'.log = a.log)
    (hsoc : a'.socConnected = a.socConnected) : WireSteps P a a' :=
  wire_quiet [] (hlog.trans (List.append_nil _).symm) hsoc (by simp)

theorem wire_openSoc (a : Agent) (h : a.socConnected = false) : WireSteps P a a.openSoc := by
  have hwire : a.wire = (false, a.log) := by rw [Agent.wire, h]
  unfold WireSteps
  rw [hwire]
  exact ReflTransGen.single (.connect a.log)

theorem wire_closeSoc (a : Agent) (h : a.socConnected = true) : WireSteps P a a.closeSoc := by
  have hwire : a.wire = (true, a.log) := by rw [Agent.wire, h]
  unfold WireSteps
  rw [hwire]
  exact ReflTransGen.single (.close a.log)

theorem wire_connected (a : Agent) : WireSteps P a a.connected := by
  unfold Agent.connected
  split
  · exact wire_same rfl rfl
  · rename_i h
    exact wire_openSoc a (Bool.eq_false_iff.mpr h)

theorem connected_socConnected (a : Agent) : a.connected.socConnected = true := by
  unfold Agent.connected
  split
  · assumption
  · rfl

/-- A send writes at most one frame, and `P` is needed only of that. -/
theorem wire_sendToSoc (E : Equiv.Perm AesBlock) (a : Agent) (msgType : UInt8)
    {data : List UInt8} (hdata : data ≠ []) (events : List FwEvent) (env : SendEnv)
    (hP : (a.socConnected = true ∨ env.connect = true) → env.encrypt = true →
      ∀ f k, f.msgType = msgType → f.payload = aesEncrypt E env.iv data → P ⟨f, k, events⟩) :
    WireSteps P a (sendToSoc E a msgType data events env).1 := by
  have hconnected : a.connected.wire = (true, a.connected.log) := by
    rw [Agent.wire, connected_socConnected]
  rcases sendToSoc_cases E a msgType hdata events env with
    ⟨-, -, h⟩ | ⟨hconn, ⟨-, h⟩ | ⟨henc, f, hf, hp, ⟨k, -, hk, h⟩ | ⟨-, h⟩⟩⟩
  · rw [h]
    exact wire_same rfl rfl
  · rw [h]
    exact wire_connected a
  · -- a write fails: part of the frame, and the agent closes
    rw [h]
    refine (wire_connected a).trans ?_
    have hclosed : ((a.connected.note [.sent ⟨f, k, events⟩]).closeSoc).wire
        = (false, a.connected.log ++ [.sent ⟨f, k, events⟩, .closed]) := by
      show (false, (a.connected.log ++ [_]) ++ [_]) = _
      rw [List.append_assoc]
      rfl
    unfold WireSteps
    rw [hconnected, hclosed]
    exact ReflTransGen.single (.part _ _ (hP hconn henc f k hf hp) hk)
  · -- the whole frame
    rw [h]
    refine (wire_connected a).trans ?_
    have hopen : (a.connected.note [.sent ⟨f, f.bytes.length, events⟩]).wire
        = (true, a.connected.log ++ [.sent ⟨f, f.bytes.length, events⟩]) := by
      rw [Agent.wire]
      exact congrArg (·, _) (connected_socConnected a)
    unfold WireSteps
    rw [hconnected, hopen]
    exact ReflTransGen.single (.whole _ _ (hP hconn henc f _ hf hp) rfl)

end

/-- The receiver takes the frame, and inserts the events it carries. -/
structure SentOk (E : Equiv.Perm AesBlock) (s : Sent) : Prop where
  fits : s.frame.payload.length < bufferSize
  inserts : ∀ clientIp, insertedEvents E clientIp s.frame.message = s.events

theorem sentOk_ping (E : Equiv.Perm AesBlock) {f : Frame} {iv : AesBlock} (health : Fin 24 → UInt8)
    (k : Nat) (hf : f.msgType = msgTypePing) (hp : f.payload = aesEncrypt E iv (List.ofFn health)) :
    SentOk E ⟨f, k, []⟩ where
  fits := by
    show f.payload.length < bufferSize
    rw [hp, length_aesEncrypt, List.length_ofFn, bufferSize]
    omega
  inserts clientIp := insertedEvents_ping E clientIp f iv hf hp

theorem sentOk_alert (E : Equiv.Perm AesBlock) {f : Frame} {iv : AesBlock} {e : FwEvent} (k : Nat)
    (hf : f.msgType = msgTypeAlert) (hp : f.payload = aesEncrypt E iv (eventBytes [e])) :
    SentOk E ⟨f, k, [e]⟩ where
  fits := by
    show f.payload.length < bufferSize
    rw [hp, length_aesEncrypt, length_eventBytes, bufferSize, eventSize, List.length_singleton]
    omega
  inserts clientIp := insertedEvents_alert E clientIp f iv hf hp

/-- The receiver takes a batch exactly if it has at most 160 events. -/
theorem batch_fits_iff (E : Equiv.Perm AesBlock) (iv : AesBlock) (es : List FwEvent) :
    (aesEncrypt E iv (eventBytes es)).length < bufferSize ↔ es.length ≤ 160 := by
  rw [length_aesEncrypt, length_eventBytes, bufferSize, eventSize]
  omega

theorem sentOk_batch (E : Equiv.Perm AesBlock) {f : Frame} {iv : AesBlock} {es : List FwEvent}
    (k : Nat) (hes : es.length ≤ 160) (hf : f.msgType = msgTypeBatch)
    (hp : f.payload = aesEncrypt E iv (eventBytes es)) : SentOk E ⟨f, k, es⟩ where
  fits := by
    show f.payload.length < bufferSize
    rw [hp, batch_fits_iff]
    exact hes
  inserts clientIp := insertedEvents_batch E clientIp f iv hf hp

theorem wire_sendHealthPing (E : Equiv.Perm AesBlock) (a : Agent) (health : Fin 24 → UInt8)
    (env : SendEnv) : WireSteps (SentOk E) a (sendHealthPing E a health env) :=
  wire_sendToSoc E a msgTypePing (by simp) [] env fun _ _ _ k hf hp => sentOk_ping E health k hf hp

/-- The phases that handle no event, on the wire. -/
theorem wire_quietRel (E : Equiv.Perm AesBlock) : QuietRel E (WireSteps (SentOk E)) where
  trans := WireSteps.trans
  same hlog hsoc _ := wire_same hlog hsoc
  push _ _ := wire_note rfl
  rules _ _ := wire_note rfl
  openSoc a h := wire_openSoc a h
  closeSoc a h := wire_closeSoc a h
  ping a health env := wire_sendHealthPing E a health env

theorem wire_buffer (E : Equiv.Perm AesBlock) (a : Agent) (e : FwEvent) :
    WireSteps (SentOk E) a (a.buffer e) := by
  unfold Agent.buffer
  split
  · exact wire_same rfl rfl
  · exact wire_note rfl

theorem wire_handleEvent (E : Equiv.Perm AesBlock) (a : Agent) (e : FwEvent) (env : SendEnv) :
    WireSteps (SentOk E) a (handleEvent E a e env) := by
  have hreceived : WireSteps (SentOk E) a (a.note [.received e]) := wire_note rfl
  unfold handleEvent
  dsimp only
  split
  · have hcache : WireSteps (SentOk E) a { a.note [.received e] with
        dedupCache := (isDuplicateAlert (a.note [.received e]).dedupCache e).2 } :=
      hreceived.trans (wire_same rfl rfl)
    generalize ({ a.note [.received e] with
      dedupCache := (isDuplicateAlert (a.note [.received e]).dedupCache e).2 } : Agent) = b at hcache
    split
    · exact hcache.trans (wire_buffer E b e)
    · have hsend := hcache.trans (wire_sendToSoc E b msgTypeAlert
        (eventBytes_ne_nil (List.cons_ne_nil e [])) [e] env
        fun _ _ f k hf hp => sentOk_alert E k hf hp)
      rcases hs : sendToSoc E b msgTypeAlert (eventBytes [e]) [e] env with ⟨c, - | -⟩
      · rw [hs] at hsend
        exact hsend.trans (wire_note rfl)
      · rw [hs] at hsend
        exact hsend
  · exact hreceived.trans (wire_buffer E _ e)

theorem wire_eventPhase (E : Equiv.Perm AesBlock) (a : Agent) (t : Turn) :
    WireSteps (SentOk E) a (eventPhase E a t).agent := by
  unfold eventPhase
  split
  · rename_i r _ _
    rcases r with - | - | - | e
    · exact wire_same rfl rfl
    · exact wire_same rfl rfl
    · exact wire_same rfl rfl
    · exact wire_handleEvent E a e t.alertEnv
  · exact wire_same rfl rfl

/-- The state in which the timer is looked at, if the iteration gets there. -/
def beforeTimer (E : Equiv.Perm AesBlock) (a : Agent) (t : Turn) : Option Agent :=
  match beforeEvents E a t with
  | none => none
  | some b =>
      match eventPhase E b t with
      | .next _ => none
      | .go c => some c

/-- The flush of a full timer reaches the connection: there is one or it can be
made, and the encryption succeeds. -/
def FlushWrites (c : Agent) (t : Turn) : Prop :=
  c.lastFlush + flushInterval ≤ t.later ∧
    (c.socConnected = true ∨ t.flushEnv.connect = true) ∧ t.flushEnv.encrypt = true

/-- In this iteration, a batch that is written has at most 160 events. -/
def FlushFits (E : Equiv.Perm AesBlock) (a : Agent) (t : Turn) : Prop :=
  ∀ c, beforeTimer E a t = some c → FlushWrites c t → c.eventBuffer.length ≤ 160

theorem wire_timerPhase (E : Equiv.Perm AesBlock) (a : Agent) (t : Turn)
    (hfits : FlushWrites a t → a.eventBuffer.length ≤ 160) :
    WireSteps (SentOk E) a (timerPhase E a t) := by
  have hlast : ∀ b : Agent, WireSteps (SentOk E) a b →
      WireSteps (SentOk E) a { b with lastFlush := t.later } :=
    fun b hb => hb.trans (wire_same rfl rfl)
  unfold timerPhase
  split
  · rename_i hdue
    apply hlast
    split
    · rename_i hne
      have h := wire_sendToSoc E a msgTypeBatch (eventBytes_ne_nil hne) a.eventBuffer t.flushEnv
        fun hconn henc f k hf hp => sentOk_batch E k (hfits ⟨hdue, hconn, henc⟩) hf hp
      rcases hs : sendToSoc E a msgTypeBatch (eventBytes a.eventBuffer) a.eventBuffer t.flushEnv
        with ⟨b, - | -⟩
      · rw [hs] at h
        exact h
      · rw [hs] at h
        exact h.trans (wire_same rfl rfl)
    · exact wire_sendHealthPing E a _ _
  · exact wire_same rfl rfl

/-- One iteration on the wire. -/
theorem wire_loopTurn (E : Equiv.Perm AesBlock) (a : Agent) (t : Turn) (hfits : FlushFits E a t) :
    WireSteps (SentOk E) a (loopTurn E a t) := by
  rcases (wire_quietRel E).beforeEvents a t with ⟨b, hb, hfirst, hloop⟩ | ⟨-, hfirst⟩
  · have hall := hfirst.trans (wire_eventPhase E b t)
    rw [hloop, eventsAndTimer]
    rcases he : eventPhase E b t with c | c
    · rw [he] at hall
      exact hall
    · rw [he] at hall
      have hc : beforeTimer E a t = some c := by rw [beforeTimer, hb]; simp only [he]
      exact hall.trans (wire_timerPhase E c t (hfits c hc))
  · exact hfirst

theorem wire_exec (E : Equiv.Perm AesBlock) (a : Agent) (turns : List Turn)
    (hfits : Along (agentStep E) (FlushFits E) a turns) :
    WireSteps (SentOk E) a (exec (agentStep E) a turns).1 := by
  induction turns generalizing a with
  | nil => exact wire_same rfl rfl
  | cons t turns ih => exact (wire_loopTurn E a t hfits.1).trans (ih _ hfits.2)

/-- A flush that writes leaves the batch in the log. -/
theorem sent_mem_of_flush (E : Equiv.Perm AesBlock) {a c : Agent} {t : Turn}
    (hc : beforeTimer E a t = some c) (hw : FlushWrites c t) (hne : c.eventBuffer ≠ []) :
    ∃ s, .sent s ∈ (loopTurn E a t).log ∧ s.frame.msgType = msgTypeBatch ∧
      s.frame.payload = aesEncrypt E t.flushEnv.iv (eventBytes c.eventBuffer) := by
  have hloop : loopTurn E a t = timerPhase E c t := by
    rcases (accounts_quietRel E).beforeEvents a t with ⟨b, hb, -, hloop⟩ | ⟨hb, -⟩
    · rw [beforeTimer, hb] at hc
      dsimp only at hc
      rw [hloop, eventsAndTimer]
      rcases he : eventPhase E b t with d | d
      · rw [he] at hc
        cases hc
      · rw [he] at hc
        rw [Option.some.inj hc]
    · rw [beforeTimer, hb] at hc
      cases hc
  -- whether or not the writes succeed, the frame was written to
  rw [hloop, timerPhase, if_pos hw.1]
  dsimp only
  rw [if_pos hne]
  rcases sendToSoc_cases E c msgTypeBatch (eventBytes_ne_nil hne) c.eventBuffer t.flushEnv with
    ⟨hs, hcn, -⟩ | ⟨-, ⟨henc, -⟩ | ⟨-, f, hf, hp, ⟨k, -, -, h⟩ | ⟨-, h⟩⟩⟩
  · rcases hw.2.1 with h | h
    · rw [hs] at h; cases h
    · rw [hcn] at h; cases h
  · rw [hw.2.2] at henc
    cases henc
  · rw [h]
    exact ⟨⟨f, k, c.eventBuffer⟩, by simp [Agent.note, Agent.closeSoc], hf, hp⟩
  · rw [h]
    exact ⟨⟨f, f.bytes.length, c.eventBuffer⟩, by simp [Agent.note], hf, hp⟩

/-! ### The receiver at the other end -/

/-- The events the receiver inserts in `k` wake-ups of a connection. -/
def receiverInserts (E : Equiv.Perm AesBlock) (c : List Sent) (fd : Nat) (clientIp : List UInt8)
    (schedule : List (Option Nat)) (k : Nat) : List FwEvent :=
  (wakeUps k (.accepted fd clientIp) ⟨c.flatMap Sent.bytes, schedule⟩).messages.flatMap
    (insertedEvents E clientIp)

/-- The events of a connection are inserted in order and each once, and all of
them once its bytes have come. -/
structure Inserted (E : Equiv.Perm AesBlock) (c : List Sent) : Prop where
  once : ∀ fd clientIp schedule k,
    receiverInserts E c fd clientIp schedule k <+: c.flatMap Sent.delivered
  all : ∀ fd clientIp schedule k, schedule.length ≤ k →
    (c.flatMap Sent.bytes).length ≤ chunks schedule →
      receiverInserts E c fd clientIp schedule k = c.flatMap Sent.delivered

/-- A stream of whole frames and then part of at most one more: the whole ones
are processed and nothing else. -/
theorem wakeUps_cut (fd : Nat) (clientIp : List UInt8) (schedule : List (Option Nat)) (k : Nat)
    {stream lost : List UInt8} {fs cut : List Frame}
    (hstream : stream ++ lost = (fs ++ cut).flatMap Frame.bytes)
    (hfits : ∀ f ∈ fs ++ cut, f.payload.length < bufferSize) (hone : cut.length ≤ 1)
    (hcut : cut ≠ [] → lost ≠ []) (hlost : lost.length ≤ (cut.flatMap Frame.bytes).length) :
    let w := wakeUps k (.accepted fd clientIp) ⟨stream, schedule⟩
    w.messages <+: fs.map Frame.message ∧
      (schedule.length ≤ k → stream.length ≤ chunks schedule →
        w.messages = fs.map Frame.message) := by
  intro w
  have hw : Progress lost (fs ++ cut) k ⟨stream, schedule⟩ w :=
    wakeUps_receiving k hfits (receiving_accepted fd clientIp (fs ++ cut) hstream)
  have hfirst : w.messages <+: fs.map Frame.message := by
    obtain ⟨conn, done, todo, -, hsplit, hmsgs, hrel⟩ := hw.relation
    have hlen : done.length ≤ fs.length := by
      have hsum := congrArg List.length hsplit
      rw [List.length_append, List.length_append] at hsum
      rcases eq_or_ne cut [] with rfl | hne
      · rw [List.length_nil] at hsum
        omega
      · -- the frame cut off is never processed
        have htodo : todo ≠ [] := by
          rintro rfl
          cases hrel with
          | header phase room bytes => simp [hcut hne] at bytes
        have hpos := List.length_pos_of_ne_nil htodo
        omega
    rw [hmsgs]
    apply List.IsPrefix.map
    exact List.prefix_of_prefix_length_le (hsplit ▸ List.prefix_append done todo)
      (List.prefix_append fs cut) hlen
  refine ⟨hfirst, ?_⟩
  intro hk hchunks
  have hempty : w.sock.incoming = [] := hw.drained hk hchunks
  have hall := hw.processed rfl (by rw [hempty, List.length_nil, Nat.zero_add]; exact hlost)
  exact hfirst.eq_of_length_le hall.length_le

theorem bytes_of_whole {s : Sent} (h : s.written = s.frame.bytes.length) :
    s.bytes = s.frame.bytes := by
  rw [Sent.bytes, h, List.take_length]

theorem delivered_of_whole {s : Sent} (h : s.written = s.frame.bytes.length) :
    s.delivered = s.events :=
  if_pos h

theorem delivered_of_part {s : Sent} (h : s.written < s.frame.bytes.length) : s.delivered = [] :=
  if_neg h.ne

/-- A connection in order is inserted. -/
theorem ConnectionOk.inserted {E : Equiv.Perm AesBlock} {c : List Sent}
    (h : ConnectionOk (SentOk E) c) : Inserted E c := by
  obtain ⟨hok, whole, part, rfl, hwhole, hpart⟩ := h
  have hbytes : whole.flatMap Sent.bytes = (whole.map Sent.frame).flatMap Frame.bytes := by
    rw [List.flatMap_map]
    exact List.flatMap_congr fun s hs => bytes_of_whole (hwhole s hs)
  have hdelivered : (whole ++ part).flatMap Sent.delivered = whole.flatMap Sent.events := by
    rw [List.flatMap_append]
    have hlast : part.flatMap Sent.delivered = [] := by
      rcases hpart with rfl | ⟨s, rfl, hs⟩
      · rfl
      · rw [List.flatMap_singleton, delivered_of_part hs]
    rw [hlast, List.append_nil]
    exact List.flatMap_congr fun s hs => delivered_of_whole (hwhole s hs)
  have hinserts : ∀ clientIp, ((whole.map Sent.frame).map Frame.message).flatMap
      (insertedEvents E clientIp) = whole.flatMap Sent.events := by
    intro clientIp
    rw [List.map_map, List.flatMap_map]
    exact List.flatMap_congr fun s hs => (hok s (List.mem_append_left _ hs)).inserts clientIp
  have hfits : ∀ f ∈ whole.map Sent.frame ++ part.map Sent.frame,
      f.payload.length < bufferSize := by
    intro f hf
    rw [← List.map_append] at hf
    obtain ⟨s, hs, rfl⟩ := List.mem_map.mp hf
    exact (hok s hs).fits
  -- what the last write left out
  obtain ⟨lost, hstream, hone, hcut, hlost⟩ : ∃ lost : List UInt8,
      (whole ++ part).flatMap Sent.bytes ++ lost
        = (whole.map Sent.frame ++ part.map Sent.frame).flatMap Frame.bytes ∧
      (part.map Sent.frame).length ≤ 1 ∧ (part.map Sent.frame ≠ [] → lost ≠ []) ∧
      lost.length ≤ ((part.map Sent.frame).flatMap Frame.bytes).length := by
    rcases hpart with rfl | ⟨s, rfl, hs⟩
    · exact ⟨[], by simp [hbytes], by simp, by simp, by simp⟩
    · refine ⟨s.frame.bytes.drop s.written, ?_, by simp, ?_, by simp⟩
      · rw [List.flatMap_append, hbytes, List.flatMap_append, List.append_assoc]
        simp [Sent.bytes]
      · intro _ hnil
        have hle := List.drop_eq_nil_iff.mp hnil
        omega
  have hcutoff := fun fd clientIp schedule k =>
    wakeUps_cut fd clientIp schedule k hstream hfits hone hcut hlost
  constructor
  · intro fd clientIp schedule k
    obtain ⟨rest, hrest⟩ := (hcutoff fd clientIp schedule k).1
    rw [hdelivered, ← hinserts clientIp, ← hrest, List.flatMap_append]
    exact List.prefix_append _ _
  · intro fd clientIp schedule k hk hchunks
    rw [hdelivered, ← hinserts clientIp, receiverInserts,
      (hcutoff fd clientIp schedule k).2 hk hchunks]

/-! ### Batches -/

/-- Agent and receiver agree on the batches of a log: the receiver's header
check takes them, and what it inserts for the connections are the events the
agent counts as delivered. -/
structure BatchesArrive (E : Equiv.Perm AesBlock) (log : List AgentLog) : Prop where
  accepted : ∀ s, .sent s ∈ log → s.frame.msgType = msgTypeBatch →
    s.frame.payload.length < bufferSize
  inserted : ∀ c ∈ connections log, Inserted E c
  delivered : (connections log).reverse.flatMap (·.flatMap Sent.delivered) = delivered log

/-- The connections carry what the log has. -/
theorem connections_flatMap {β : Type*} (g : Sent → List β) (log : List AgentLog) :
    (connections log).reverse.flatMap (·.flatMap g)
      = log.flatMap fun | .sent s => g s | _ => [] := by
  unfold connections
  induction log using List.reverseRecOn with
  | nil => rfl
  | append_singleton log x ih =>
      rw [List.foldl_append, List.flatMap_append, ← ih]
      generalize log.foldl addToConnections [] = cs
      cases x with
      | sent s => rcases cs with - | ⟨c, cs⟩ <;> simp [addToConnections]
      | _ => simp [addToConnections]

theorem mem_connections_of_sent {log : List AgentLog} {s : Sent} (h : .sent s ∈ log) :
    ∃ c ∈ connections log, s ∈ c := by
  have hmem : s ∈ log.flatMap fun | .sent s => [s] | _ => [] :=
    List.mem_flatMap.mpr ⟨.sent s, h, List.mem_singleton_self s⟩
  rw [← connections_flatMap (fun s => [s])] at hmem
  obtain ⟨c, hc, hs⟩ := List.mem_flatMap.mp hmem
  obtain ⟨s', hs', heq⟩ := List.mem_flatMap.mp hs
  obtain rfl := List.mem_singleton.mp heq
  exact ⟨c, List.mem_reverse.mp hc, hs'⟩

/-- In every run whose flushes fit, the connections are in order. -/
theorem wireOk_exec (E : Equiv.Perm AesBlock) (uuid : Fin 16 → UInt8) (blocklist : List UInt8)
    (s : Startup) (turns : List Turn)
    (hfits : Along (agentStep E) (FlushFits E) (agentStart E uuid blocklist s) turns) :
    WireOk (SentOk E) (exec (agentStep E) (agentStart E uuid blocklist s) turns).1.wire := by
  have hblank : WireOk (SentOk E) (Agent.blank uuid blocklist).wire :=
    ⟨by simp [Agent.wire, Agent.blank, connections],
      fun h => absurd h (by simp [Agent.wire, Agent.blank])⟩
  have hstart := (wire_quietRel E).agentStart uuid blocklist s
  exact hblank.star (hstart.trans (wire_exec E _ turns hfits))

/-- A batch once written stays in the log. -/
theorem log_subset_exec (E : Equiv.Perm AesBlock) (a : Agent) (turns : List Turn) :
    a.log ⊆ (exec (agentStep E) a turns).1.log := by
  obtain ⟨failed, ⟨l, hlog, -⟩, -⟩ := accounts_exec E a turns
  rw [hlog]
  exact List.subset_append_left a.log l

/-- If every batch in the log is taken, every flush that wrote one fitted. -/
theorem along_flushFits (E : Equiv.Perm AesBlock) (a : Agent) (turns : List Turn)
    (h : ∀ s, .sent s ∈ (exec (agentStep E) a turns).1.log → s.frame.msgType = msgTypeBatch →
      s.frame.payload.length < bufferSize) :
    Along (agentStep E) (FlushFits E) a turns := by
  induction turns generalizing a with
  | nil => trivial
  | cons t turns ih =>
      refine ⟨?_, ih (loopTurn E a t) h⟩
      intro c hc hwrites
      rcases eq_or_ne c.eventBuffer [] with hnil | hne
      · simp [hnil]
      · obtain ⟨s, hmem, htype, hpayload⟩ := sent_mem_of_flush E hc hwrites hne
        have hfits := h s (log_subset_exec E (loopTurn E a t) turns hmem) htype
        rwa [hpayload, batch_fits_iff] at hfits

/-- **When the receiver takes the agent's batches.**  On every run, the batch
frames the agent emits pass the receiver's header check and their events are
inserted, each once, if and only if every flush that reaches the connection has
at most 160 events in the buffer. -/
theorem batches_arrive_iff (E : Equiv.Perm AesBlock) (uuid : Fin 16 → UInt8)
    (blocklist : List UInt8) (s : Startup) (turns : List Turn) :
    BatchesArrive E (exec (agentStep E) (agentStart E uuid blocklist s) turns).1.log
      ↔ Along (agentStep E) (FlushFits E) (agentStart E uuid blocklist s) turns := by
  constructor
  · intro h
    exact along_flushFits E _ turns h.accepted
  · intro hfits
    have hwire := wireOk_exec E uuid blocklist s turns hfits
    refine ⟨?_, fun c hc => (hwire.all c hc).inserted, connections_flatMap Sent.delivered _⟩
    intro sent hmem _
    obtain ⟨c, hc, hs⟩ := mem_connections_of_sent hmem
    exact ((hwire.all c hc).1 sent hs).fits

/-! ### A batch that is refused -/

/-- The SOC takes everything. -/
def socUp : SendEnv := ⟨true, true, fun _ => 0, none, none⟩

/-- An iteration in which the firewall reports an event, before the timer has
run out. -/
def infoTurn : Turn := eventWhileDown infoEvent

/-- An iteration in which the timer has run out and the SOC takes everything. -/
def flushTurn : Turn := { infoTurn with firewall := none, later := 10, flushEnv := socUp }

/-- The agent at start-up, with both peers connected. -/
def upAgent : Agent :=
  agentStart (Equiv.refl _) (fun _ => 7) [] ⟨true, true, fun _ => 0, socUp, 0⟩

/-- Up and running, with `n` informational events in the buffer. -/
structure Waiting (n : Nat) (a : Agent) : Prop where
  fw : a.fwConnected = true
  soc : a.socConnected = true
  flush : a.lastFlush = 0
  health : a.lastHealthCheck = 0
  buffer : a.eventBuffer = List.replicate n infoEvent

/-- An iteration without a reload, a health check or a command goes straight to
the events. -/
theorem Waiting.beforeEvents {n : Nat} {a : Agent} (h : Waiting n a) (E : Equiv.Perm AesBlock)
    {t : Turn} (hready : t.ready = true) (hreload : t.reload = false) (hnow : t.now ≤ 5)
    (hdown : t.downstream = none) : beforeEvents E a t = some a := by
  have hfirst : reloadPhase a t = a := by simp [reloadPhase, hreload, h.fw]
  have hhealth : healthPhase E a t = a := if_neg (by rw [h.health]; omega)
  have hcommands : downstreamPhase E a t = .go a := by rw [downstreamPhase, h.soc, hdown]
  rw [Nullsploit.beforeEvents, if_pos hready, hfirst, hhealth, hcommands]

/-- An informational event joins the others. -/
theorem Waiting.info {n : Nat} {a : Agent} (h : Waiting n a) (E : Equiv.Perm AesBlock)
    (hn : n < eventBufferSize) : Waiting (n + 1) (loopTurn E a infoTurn) := by
  have hbefore := h.beforeEvents E (t := infoTurn) rfl rfl (by decide) rfl
  have hloop : loopTurn E a infoTurn = eventsAndTimer E a infoTurn := by
    rcases (accounts_quietRel E).beforeEvents a infoTurn with ⟨b, hb, -, hloop⟩ | ⟨hb, -⟩
    · obtain rfl := Option.some.inj (hbefore.symm.trans hb)
      exact hloop
    · rw [hbefore] at hb
      cases hb
  have hroom : a.eventBuffer.length < eventBufferSize := by
    rw [h.buffer, List.length_replicate]
    exact hn
  -- the event is informational, so the environment of the alert does not matter
  have hevent : handleEvent E a infoEvent socDown
      = { a.note [.received infoEvent] with eventBuffer := a.eventBuffer ++ [infoEvent] } := by
    rw [handleEvent, if_neg (show ¬ infoEvent.isAlert = true from Bool.false_ne_true)]
    exact if_pos hroom
  have hphase : eventPhase E a infoTurn = .go (handleEvent E a infoEvent socDown) := by
    rw [eventPhase, h.fw]
    rfl
  have htimer : ∀ b : Agent, b.lastFlush = 0 → timerPhase E b infoTurn = b :=
    fun b hb => if_neg (by rw [hb]; decide)
  have hafter : Waiting (n + 1) (handleEvent E a infoEvent socDown) := by
    rw [hevent]
    exact ⟨h.fw, h.soc, h.flush, h.health, by rw [h.buffer, ← List.replicate_succ']⟩
  rw [hloop, eventsAndTimer, hphase]
  show Waiting (n + 1) (timerPhase E (handleEvent E a infoEvent socDown) infoTurn)
  rw [htimer _ hafter.flush]
  exact hafter

theorem Waiting.infos {n : Nat} {a : Agent} (h : Waiting n a) (E : Equiv.Perm AesBlock) (m : Nat)
    (hm : n + m ≤ eventBufferSize) :
    Waiting (n + m) (exec (agentStep E) a (List.replicate m infoTurn)).1 := by
  induction m generalizing n a with
  | zero => exact h
  | succ m ih =>
      have hnext := ih (h.info E (by omega)) (by omega)
      rw [show n + 1 + m = n + (m + 1) by omega] at hnext
      exact hnext

/-- In an iteration without an event, the timer looks at the agent as it was. -/
theorem Waiting.beforeTimer {n : Nat} {a : Agent} (h : Waiting n a) (E : Equiv.Perm AesBlock) :
    beforeTimer E a flushTurn = some a := by
  have hevent : eventPhase E a flushTurn = .go a := by
    rw [eventPhase, h.fw]
    rfl
  rw [Nullsploit.beforeTimer, h.beforeEvents E (t := flushTurn) rfl rfl (by decide) rfl]
  simp only [hevent]

theorem upAgent_waiting : Waiting 0 upAgent := ⟨rfl, rfl, rfl, rfl, rfl⟩

/-- 161 informational events within ten seconds fill one batch, which the
receiver refuses. -/
theorem full_batch_refused :
    ¬ BatchesArrive (Equiv.refl _)
      (exec (agentStep (Equiv.refl _)) upAgent
        (List.replicate 161 infoTurn ++ [flushTurn])).1.log := by
  intro h
  have hwait : Waiting 161
      (exec (agentStep (Equiv.refl _)) upAgent (List.replicate 161 infoTurn)).1 :=
    upAgent_waiting.infos _ 161 (by decide)
  rw [exec_append] at h
  generalize (exec (agentStep (Equiv.refl _)) upAgent (List.replicate 161 infoTurn)).1 = a
    at hwait h
  have hwrites : FlushWrites a flushTurn := ⟨by rw [hwait.flush]; decide, Or.inl hwait.soc, rfl⟩
  have hne : a.eventBuffer ≠ [] := by
    rw [hwait.buffer]
    exact List.cons_ne_nil _ _
  obtain ⟨s, hmem, htype, hpayload⟩ :=
    sent_mem_of_flush (Equiv.refl AesBlock) (hwait.beforeTimer _) hwrites hne
  have hfits := h.accepted s hmem htype
  rw [hpayload, batch_fits_iff, hwait.buffer, List.length_replicate] at hfits
  omega

end Nullsploit
