/-
Nullsploit/EpollBatch.lean

Batches of events.  `epoll_wait` hands the loop many events at once, each with
the pointer of a connection object, and the loop goes through them in order.  An
object freed on the way must not be the one of a later event.

Five of the six places that free an object free the one of the event being
handled.  The sixth is the clean-up of an agent's old connections.
`epoll_batch_safe_iff` says that a batch is safe exactly when no message cleans
up a connection whose own event is still to come.
-/
import Nullsploit.Connections

namespace Nullsploit

open CText Runs

/-! ### Batches -/

/-- The pointer in an event of a connection. -/
def ReceiverEvent.ptr? : ReceiverEvent → Option Nat
  | .hangUp ptr => some ptr
  | .readable ptr _ => some ptr
  | _ => none

/-- Events of the loop, as against those of the rest of the process. -/
def ReceiverEvent.FromLoop : ReceiverEvent → Prop
  | .openOther _ => False
  | .closeOther _ => False
  | _ => True

/-- The pointers in a list of events. -/
def pointers (events : List ReceiverEvent) : List Nat := events.filterMap ReceiverEvent.ptr?

/-- A batch as `epoll_wait` returns it: at most one event for each connection,
all of them in the epoll set. -/
structure ReadyBatch (s : Receiver) (batch : List ReceiverEvent) : Prop where
  fromLoop : ∀ e ∈ batch, e.FromLoop
  nodup : (pointers batch).Nodup
  ready : ∀ ptr ∈ pointers batch, s.ready ptr ≠ none

/-- The objects the loop may dereference for an event: the one of the event,
and whatever is registered when `connected_agents` is searched. -/
def touched (s : Receiver) : ReceiverEvent → List Nat
  | .hangUp ptr => ptr :: s.connectedAgents.reduceOption
  | .readable ptr _ => ptr :: s.connectedAgents.reduceOption
  | .acceptLocal _ _ _ => s.connectedAgents.reduceOption
  | _ => []

/-- No object is dereferenced after it was freed. -/
def BatchSafe (cfg : ReceiverConfig) : Receiver → List ReceiverEvent → Prop :=
  Along (receiverStep cfg) fun s e => ∀ ptr ∈ touched s e, s.heap ptr ≠ none

/-- The event brings a message whose agent has another registered connection,
and that one's event comes later. -/
def StaleLater (s : Receiver) (later : List ReceiverEvent) : ReceiverEvent → Prop
  | .readable ptr io => ∃ conn d m p, s.ready ptr = some (.agent conn, d) ∧ d.port = .agent ∧
      m ∈ (agentReadable conn io.sock).messages ∧ p ∈ pointers later ∧
      StaleIn s.heap s.connectedAgents.reduceOption conn.fd (hdrUuid m.hdr) p
  | _ => False

/-- No event of the batch does. -/
def NoStaleLater (cfg : ReceiverConfig) : Receiver → List ReceiverEvent → Prop
  | _, [] => True
  | s, e :: later => ¬ StaleLater s later e ∧ NoStaleLater cfg (receiverStep cfg s e).1 later

/-! ### What a step leaves ready -/

instance (s : Receiver) (ptr : Nat) : Decidable (s.ready ptr ≠ none) :=
  decidable_of_iff _ Option.isSome_iff_ne_none

theorem ready_iff {s : Receiver} {ptr : Nat} {obj : ConnObject} {d : Descriptor} :
    s.ready ptr = some (obj, d)
      ↔ s.heap ptr = some obj ∧ s.table obj.fd = some d ∧ d.owner = ptr ∧ d.watched = true := by
  refine ⟨ready_eq_some, ?_⟩
  rintro ⟨hobj, hd, howner, hwatched⟩
  unfold Receiver.ready
  rw [hobj]
  dsimp only
  rw [hd]
  exact if_pos ⟨howner, hwatched⟩

/-- Readiness depends on the object and its descriptor only. -/
theorem ready_of_same {s s' : Receiver} {ptr : Nat} {obj : ConnObject} {d : Descriptor}
    (h : s.ready ptr = some (obj, d)) (hheap : s'.heap ptr = s.heap ptr)
    (htable : s'.table obj.fd = s.table obj.fd) : s'.ready ptr = some (obj, d) := by
  rw [ready_iff] at h ⊢
  rw [hheap, htable]
  exact h

/-- Two ready connections have different descriptors. -/
theorem fd_ne_of_ready {s : Receiver} {p q : Nat} {obj obj' : ConnObject} {d d' : Descriptor}
    (hp : s.ready p = some (obj, d)) (hq : s.ready q = some (obj', d')) (hne : p ≠ q) :
    obj.fd ≠ obj'.fd := by
  intro hfd
  obtain ⟨-, hd, howner, -⟩ := ready_eq_some hp
  obtain ⟨-, hd', howner', -⟩ := ready_eq_some hq
  rw [hfd] at hd
  obtain rfl := Option.some.inj (hd.symm.trans hd')
  exact hne (howner.symm.trans howner')

/-- A connection that stays the same object, descriptor included, over a step
that accepts another. -/
theorem ready_accept {s s' : Receiver} {p fd : Nat} {obj : ConnObject} {d : Descriptor}
    {x : Option ConnObject} {y : Option Descriptor} (hfresh : HeapFresh s)
    (hp : s.ready p = some (obj, d)) (hfd : s.table fd = none)
    (hheap : s'.heap = Function.update s.heap s.nextOwner x)
    (htable : s'.table = Function.update s.table fd y) : s'.ready p = some (obj, d) := by
  obtain ⟨hobj, hd, -, -⟩ := ready_eq_some hp
  apply ready_of_same hp
  · have hlt := hfresh p (by rw [hobj]; exact nofun)
    rw [hheap, Function.update_of_ne (Nat.ne_of_lt hlt)]
  · have hne : obj.fd ≠ fd := by
      rintro rfl
      rw [hfd] at hd
      cases hd
    rw [htable, Function.update_of_ne hne]

/-- A connection closed by its own event leaves the others ready. -/
theorem ready_release {s s' : Receiver} {p q : Nat} {obj obj' : ConnObject} {d d' : Descriptor}
    (hp : s.ready p = some (obj, d)) (hq : s.ready q = some (obj', d')) (hne : p ≠ q)
    (hheap : s'.heap = Function.update s.heap q none)
    (htable : s'.table = Function.update s.table obj'.fd none) : s'.ready p = some (obj, d) := by
  apply ready_of_same hp
  · rw [hheap, Function.update_of_ne hne]
  · rw [htable, Function.update_of_ne (fd_ne_of_ready hp hq hne)]

/-- A message frees the registered connections that are stale for it. -/
theorem agentReady_frees (cfg : ReceiverConfig) {s : Receiver} (h : s.AgentInv) {ptr p : Nat}
    {conn : AgentConnection} (hobj : s.heap ptr = some (.agent conn)) (io : Readiness) {m : Message}
    (hm : m ∈ (agentReadable conn io.sock).messages)
    (hstale : StaleIn s.heap s.connectedAgents.reduceOption conn.fd (hdrUuid m.hdr) p) :
    (agentReady cfg s ptr conn io).1.heap p = none := by
  obtain ⟨hno, -⟩ | ⟨hno, -⟩ | ⟨m', hm', hheard⟩ := agentReady_spec cfg h hobj io
  · rw [hno] at hm
    cases hm
  · rw [hno] at hm
    cases hm
  · rw [hm'] at hm
    obtain rfl := List.mem_singleton.mp hm
    exact hheard.freed p hstale

/-- Every other connection stays ready, unless an alert closes it. -/
theorem agentReady_ready (cfg : ReceiverConfig) {s : Receiver} (h : s.AgentInv) {ptr p : Nat}
    {conn : AgentConnection} {obj : ConnObject} {d d' : Descriptor}
    (hready : s.ready ptr = some (.agent conn, d)) (hp : s.ready p = some (obj, d')) (hne : p ≠ ptr)
    {io : Readiness} (hspared : ¬ AlertCloses cfg s conn io)
    (hkept : ∀ m ∈ (agentReadable conn io.sock).messages,
      ¬ StaleIn s.heap s.connectedAgents.reduceOption conn.fd (hdrUuid m.hdr) p) :
    (agentReady cfg s ptr conn io).1.ready p = some (obj, d') := by
  obtain ⟨hobj, -, -, -⟩ := ready_eq_some hready
  obtain ⟨-, hd, -, hwatched⟩ := ready_eq_some hp
  obtain ⟨-, hs⟩ | ⟨-, conn', hs⟩ | ⟨m, hm, hheard⟩ := agentReady_spec cfg h hobj io
  · rw [hs]
    exact ready_release hp hready hne rfl rfl
  · rw [hs]
    exact ready_of_same hp (Function.update_of_ne hne _ _) rfl
  · have hnot := hkept m (by rw [hm]; exact List.mem_singleton_self m)
    apply ready_of_same hp (hheard.kept p hne hnot)
    rw [hd]
    refine agentReady_watched cfg h hobj hspared hm hd hwatched ?_
    -- a stale connection is another one, so its descriptor is too
    intro q old hin hold
    have hqp : q ≠ p := by
      rintro rfl
      exact hnot hin
    exact agent_fd_ne_of_ready h hp hin.1 hold hqp

/-- A step leaves a connection ready, unless the event is its own, its message
makes the connection stale, or its alert closes one. -/
theorem Stepped.ready {cfg : ReceiverConfig} {s s' : Receiver} {e : ReceiverEvent}
    (h : s.AgentInv) (hfresh : HeapFresh s) (hstep : Stepped cfg s e s')
    (hspared : ¬ AlertClosesConnection cfg s e) (hloop : e.FromLoop)
    {later : List ReceiverEvent} (hstale : ¬ StaleLater s later e) {p : Nat}
    (hlater : p ∈ pointers later) (hown : e.ptr? ≠ some p) (hp : s.ready p ≠ none) :
    s'.ready p ≠ none := by
  rcases hready : s.ready p with - | ⟨obj, d⟩
  · exact absurd hready hp
  suffices hsame : s'.ready p = some (obj, d) by
    rw [hsame]
    exact nofun
  cases hstep with
  | idle => exact hready
  | acceptAgent hfd => exact ready_accept hfresh hready hfd rfl rfl
  | acceptWeb hfd => exact ready_accept hfresh hready hfd rfl rfl
  | @hangUp ptr obj' d' hready' =>
      have hne : p ≠ ptr := fun heq => hown (congrArg some heq.symm)
      exact ready_release hready hready' hne rfl rfl
  | @agent ptr conn d' io hready' hport =>
      have hne : p ≠ ptr := fun heq => hown (congrArg some heq.symm)
      refine agentReady_ready cfg h hready' hready hne ?_ fun m hm hin => ?_
      · exact fun hcloses => hspared ⟨conn, d', hready', hport, hcloses⟩
      · exact hstale ⟨conn, d', m, p, hready', hport, hm, hlater, hin⟩
  | @web ptr fd buf d' io hready' =>
      have hne : p ≠ ptr := fun heq => hown (congrArg some heq.symm)
      have hself := webReady_onlySelf s ptr fd buf d' io
      exact ready_of_same hready (hself.heap p hne)
        (hself.table _ (fd_ne_of_ready hready hready' hne))
  | openOther => exact hloop.elim
  | closeOther => exact hloop.elim

/-! ### When a batch is safe -/

/-- Registered agents are there to be looked at. -/
theorem touched_live {s : Receiver} (h : s.AgentInv) {e : ReceiverEvent}
    (hown : ∀ ptr, e.ptr? = some ptr → s.heap ptr ≠ none) :
    ∀ ptr ∈ touched s e, s.heap ptr ≠ none := by
  have hagents : ∀ ptr ∈ s.connectedAgents.reduceOption, s.heap ptr ≠ none := by
    intro ptr hptr
    obtain ⟨conn, d, hd⟩ := h.agentOk ptr hptr
    rw [hd.object]
    exact nofun
  intro ptr hptr
  cases e with
  | hangUp q =>
      rcases List.mem_cons.mp hptr with rfl | hmem
      · exact hown ptr rfl
      · exact hagents ptr hmem
  | readable q io =>
      rcases List.mem_cons.mp hptr with rfl | hmem
      · exact hown ptr rfl
      · exact hagents ptr hmem
  | acceptLocal iv junk received => exact hagents ptr hptr
  | acceptAgent fd addr => cases hptr
  | acceptWeb fd addr => cases hptr
  | openOther fd => cases hptr
  | closeOther fd => cases hptr

theorem mem_touched {s : Receiver} {e : ReceiverEvent} {ptr : Nat} (h : e.ptr? = some ptr) :
    ptr ∈ touched s e := by
  cases e with
  | hangUp q =>
      obtain rfl := Option.some.inj h
      exact List.mem_cons_self
  | readable q io =>
      obtain rfl := Option.some.inj h
      exact List.mem_cons_self
  | _ => cases h

theorem ReadyBatch.live {s : Receiver} {batch : List ReceiverEvent} (h : ReadyBatch s batch)
    {ptr : Nat} (hptr : ptr ∈ pointers batch) : s.heap ptr ≠ none := by
  rcases hready : s.ready ptr with - | ⟨obj, d⟩
  · exact absurd hready (h.ready ptr hptr)
  · rw [(ready_eq_some hready).1]
    exact nofun

theorem pointers_cons (e : ReceiverEvent) (batch : List ReceiverEvent) :
    pointers (e :: batch) = e.ptr?.toList ++ pointers batch := by
  rw [pointers, List.filterMap_cons]
  cases e.ptr? <;> rfl

/-- A freed object whose event is still to come. -/
theorem not_batchSafe_of_freed (cfg : ReceiverConfig) {batch : List ReceiverEvent} {p : Nat} :
    ∀ {s : Receiver}, s.AgentInv →
      Along (receiverStep cfg) (fun s e => ¬ AlertClosesConnection cfg s e) s batch →
      s.heap p = none → p < s.nextOwner → p ∈ pointers batch → ¬ BatchSafe cfg s batch := by
  induction batch with
  | nil => exact fun _ _ _ _ hp => absurd hp List.not_mem_nil
  | cons e batch ih =>
      intro s h hspared hfree hlt hp hsafe
      rw [pointers_cons, List.mem_append] at hp
      rcases hp with hp | hp
      · exact hsafe.1 p (mem_touched (Option.mem_toList.mp hp)) hfree
      · have hstep := receiverStep_stepped cfg s e
        obtain ⟨hfree', hlt'⟩ := (hstep.heapGrows h).freed hfree hlt
        exact ih (hstep.agentInv h hspared.1) hspared.2 hfree' hlt' hp hsafe.2

/-- The batch that is left after its first event. -/
theorem ReadyBatch.tail (cfg : ReceiverConfig) {s : Receiver} (h : s.AgentInv)
    (hfresh : HeapFresh s) {e : ReceiverEvent} {batch : List ReceiverEvent}
    (hbatch : ReadyBatch s (e :: batch)) (hspared : ¬ AlertClosesConnection cfg s e)
    (hstale : ¬ StaleLater s batch e) : ReadyBatch (receiverStep cfg s e).1 batch := by
  have hnodup := hbatch.nodup
  have hready := hbatch.ready
  rw [pointers_cons] at hnodup hready
  refine ⟨fun e' he' => hbatch.fromLoop e' (List.mem_cons_of_mem _ he'),
    hnodup.sublist (List.sublist_append_right _ _), fun p hp => ?_⟩
  refine (receiverStep_stepped cfg s e).ready h hfresh hspared
    (hbatch.fromLoop e List.mem_cons_self) hstale hp ?_ (hready p (List.mem_append_right _ hp))
  intro hown
  rw [hown] at hnodup
  exact (List.nodup_cons.mp hnodup).1 hp

/-- A batch is safe exactly when no message cleans up a connection whose event
is still to come. -/
theorem batchSafe_iff (cfg : ReceiverConfig) {batch : List ReceiverEvent} :
    ∀ {s : Receiver}, s.AgentInv → HeapFresh s → ReadyBatch s batch →
      Along (receiverStep cfg) (fun s e => ¬ AlertClosesConnection cfg s e) s batch →
      (BatchSafe cfg s batch ↔ NoStaleLater cfg s batch) := by
  induction batch with
  | nil => exact fun _ _ _ _ => Iff.rfl
  | cons e batch ih =>
      intro s h hfresh hbatch hspared
      have hnext := (receiverStep_stepped cfg s e).agentInv h hspared.1
      have hgrows := (receiverStep_stepped cfg s e).heapGrows h
      have hfresh' := hgrows.heapFresh hfresh
      constructor
      · intro hsafe
        have hstale : ¬ StaleLater s batch e := by
          intro hstale
          cases e with
          | readable ptr io =>
              obtain ⟨conn, d, m, p, hready, hport, hm, hp, hin⟩ := hstale
              have hstep : (receiverStep cfg s (.readable ptr io)).1
                  = (agentReady cfg s ptr conn io).1 := by
                rw [receiverStep, Receiver.readable, hready]
                dsimp only
                rw [hport]
              have hfree : (receiverStep cfg s (.readable ptr io)).1.heap p = none := by
                rw [hstep]
                exact agentReady_frees cfg h (ready_eq_some hready).1 io hm hin
              have hmem : p ∈ pointers (.readable ptr io :: batch) := by
                rw [pointers_cons]
                exact List.mem_append_right _ hp
              have hlive := hbatch.live hmem
              have hlt := Nat.lt_of_lt_of_le (hfresh p hlive) hgrows.next
              exact not_batchSafe_of_freed cfg hnext hspared.2 hfree hlt hp hsafe.2
          | _ => exact hstale.elim
        have htail := hbatch.tail cfg h hfresh hspared.1 hstale
        exact ⟨hstale, (ih hnext hfresh' htail hspared.2).mp hsafe.2⟩
      · rintro ⟨hstale, hrest⟩
        have htail := hbatch.tail cfg h hfresh hspared.1 hstale
        refine ⟨?_, (ih hnext hfresh' htail hspared.2).mpr hrest⟩
        apply touched_live h
        intro p hp
        apply hbatch.live
        rw [pointers_cons, hp]
        exact List.mem_cons_self

/-- **When no event meets a freed connection.**  After any run, a batch of ready
events is processed without touching an object that was freed on the way if and
only if none of its messages belongs to an agent with another registered
connection whose event comes later in the batch.

The run may have come by a closed descriptor in the registry for live alerts,
which `sse_registry_safe_iff` is about.  What it must not do is close somebody
else's connection for it: by the time of a failed write of an alert, the
descriptor is another connection's in the epoll set. -/
theorem epoll_batch_safe_iff (cfg : ReceiverConfig) (inUse : Nat → Bool)
    (before batch : List ReceiverEvent)
    (hspared : Along (receiverStep cfg) (fun s e => ¬ AlertClosesConnection cfg s e)
      (.start inUse) (before ++ batch))
    (hbatch : ReadyBatch (exec (receiverStep cfg) (.start inUse) before).1 batch) :
    BatchSafe cfg (exec (receiverStep cfg) (.start inUse) before).1 batch
      ↔ NoStaleLater cfg (exec (receiverStep cfg) (.start inUse) before).1 batch := by
  obtain ⟨hbefore, hafter⟩ := along_append.mp hspared
  obtain ⟨hinv, hfresh⟩ := agentInv_of_run cfg inUse before hbefore
  exact batchSafe_iff cfg hinv hfresh hbatch hafter

set_option maxRecDepth 2048 in
/-- Two agents at once, after a request for live alerts that has left its
descriptor in the registry: nothing is freed. -/
theorem two_agents_batch_safe :
    BatchSafe openConfig
      (exec (receiverStep openConfig) (.start (· < 8))
        [.acceptWeb 8 0, .readable 0 liveRequest, .acceptAgent 8 0, .acceptAgent 9 0]).1
      [.readable 1 (pingReady 7), .readable 2 (pingReady 9)] := by
  refine (epoll_batch_safe_iff openConfig (· < 8) _ _ ?_ ?_).mpr ?_
  · refine ⟨id, ?_, id, id, ?_, ?_, trivial⟩
    · rintro ⟨conn, d, hready, -⟩
      cases hready
    -- a ping is no alert
    · rintro ⟨conn, d, hready, -, m, hm, uuid, event, hcall, -⟩
      cases hready
      obtain rfl := List.mem_singleton.mp hm
      rcases hcall with - | ⟨-, - | ⟨-, ⟨⟩⟩⟩
    · rintro ⟨conn, d, hready, -, m, hm, uuid, event, hcall, -⟩
      cases hready
      obtain rfl := List.mem_singleton.mp hm
      rcases hcall with - | ⟨-, - | ⟨-, ⟨⟩⟩⟩
  · exact ⟨by simp [ReceiverEvent.FromLoop], by decide, by decide +kernel⟩
  · refine ⟨?_, ?_, trivial⟩
    · -- the other connection has sent no header yet
      rintro ⟨conn, d, m, p, hready, -, hm, hp, -, hstale⟩
      obtain rfl := List.mem_singleton.mp hp
      cases hready
      obtain rfl := List.mem_singleton.mp hm
      exact absurd hstale (by decide)
    · rintro ⟨conn, d, m, p, hready, -, hm, hp, -⟩
      cases hp

set_option maxRecDepth 2048 in
/-- An agent has lost its connection and comes back on a new one.  The ping on
the new connection and the end of the old one are in one batch: the ping frees
the old connection, and the second event is given its pointer. -/
theorem reconnect_batch_unsafe :
    let s := (exec (receiverStep openConfig) (.start (· < 8))
      [.acceptAgent 8 0, .readable 0 (pingReady 7), .acceptAgent 9 0]).1
    ReadyBatch s [.readable 1 (pingReady 7), .hangUp 0] ∧
      ¬ BatchSafe openConfig s [.readable 1 (pingReady 7), .hangUp 0] := by
  intro s
  refine ⟨⟨by simp [ReceiverEvent.FromLoop], by decide, by decide +kernel⟩, ?_⟩
  intro hsafe
  exact hsafe.2.1 0 List.mem_cons_self rfl

end Nullsploit
