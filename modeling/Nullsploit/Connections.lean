/-
Nullsploit/Connections.lean

What the event loop does to connection objects, beyond the invariant of
SseRegistry.  `Stepped` lists all a step can do; `agentReady_spec` says what
becomes of the other connections when an agent's message is processed.

The registered agents are less fragile than the clients: they are as `AgentInv`
says even where the registry for live alerts holds a closed descriptor, until an
alert is written to a descriptor that has become another connection's, fails,
and closes it (`AlertClosesConnection`).

Two more facts about whole runs come from the steps: the number of an object is
never given out again (`HeapFresh`), and where nobody connects to the web port
there are no web objects (`NoWeb`).
-/
import Nullsploit.SseRegistry

namespace Nullsploit

open Inet Runs

/-! ### Steps -/

/-- **All a step can do.**  An event that is not the kernel's to report, or a
connection that is refused, changes nothing. -/
inductive Stepped (cfg : ReceiverConfig) (s : Receiver) : ReceiverEvent → Receiver → Prop
  | idle {e : ReceiverEvent}
      (hrefused : ∀ fd addr, e = .acceptAgent fd addr →
        ¬ (s.table fd = none ∧ authCheckIp cfg.shl cfg.whitelist (inetNtop addr) = true)) :
      Stepped cfg s e s
  | acceptAgent {fd : Nat} {addr : BitVec 32} (hfd : s.table fd = none)
      (hauth : authCheckIp cfg.shl cfg.whitelist (inetNtop addr) = true) :
      Stepped cfg s (.acceptAgent fd addr)
        { s.openFd fd .agent true with
          heap := Function.update s.heap s.nextOwner (some (.agent (.accepted fd (inetNtop addr))))
          connectedAgents := Slots.fill s.nextOwner s.connectedAgents }
  | acceptWeb {fd : Nat} {addr : BitVec 32} (hfd : s.table fd = none) :
      Stepped cfg s (.acceptWeb fd addr)
        { s.openFd fd .web true with
          heap := Function.update s.heap s.nextOwner (some (.web fd [])) }
  | hangUp {ptr : Nat} {obj : ConnObject} {d : Descriptor} (hready : s.ready ptr = some (obj, d)) :
      Stepped cfg s (.hangUp ptr)
        ((((s.unregisterConnectedAgent obj.fd).close obj.fd).sseRemove obj.fd).free ptr)
  | agent {ptr : Nat} {conn : AgentConnection} {d : Descriptor} {io : Readiness}
      (hready : s.ready ptr = some (.agent conn, d)) (hport : d.port = .agent) :
      Stepped cfg s (.readable ptr io) (agentReady cfg s ptr conn io).1
  | web {ptr fd : Nat} {buf : List UInt8} {d : Descriptor} {io : Readiness}
      (hready : s.ready ptr = some (.web fd buf, d)) :
      Stepped cfg s (.readable ptr io) (webReady s ptr fd buf d io).1
  | openOther {fd : Nat} (hfd : s.table fd = none) :
      Stepped cfg s (.openOther fd) (s.openFd fd .other false)
  | closeOther {fd : Nat} {d : Descriptor} (hd : s.table fd = some d) (hport : d.port = .other) :
      Stepped cfg s (.closeOther fd) (s.close fd)

theorem receiverStep_stepped (cfg : ReceiverConfig) (s : Receiver) (e : ReceiverEvent) :
    Stepped cfg s e (receiverStep cfg s e).1 := by
  cases e with
  | acceptAgent fd addr =>
      show Stepped cfg s _ (s.acceptAgent cfg fd addr)
      unfold Receiver.acceptAgent
      split
      · rename_i hok
        exact .acceptAgent hok.1 hok.2
      · rename_i hno
        refine .idle fun fd' addr' heq => ?_
        cases heq
        exact hno
  | acceptLocal iv junk received => exact .idle nofun
  | acceptWeb fd addr =>
      show Stepped cfg s _ (s.acceptWeb cfg fd addr)
      unfold Receiver.acceptWeb
      split
      · rename_i hok
        exact .acceptWeb hok.1
      · exact .idle nofun
  | hangUp ptr =>
      show Stepped cfg s _ (s.hangUp ptr)
      unfold Receiver.hangUp
      split
      · exact .idle nofun
      · exact .hangUp ‹_›
  | readable ptr io =>
      show Stepped cfg s _ (s.readable cfg ptr io).1
      unfold Receiver.readable
      split
      · exact .idle nofun
      · rename_i obj d hready
        split
        · exact .agent hready ‹_›
        · exact .web hready
        · exact .idle nofun
  | openOther fd =>
      show Stepped cfg s _ (s.openOther fd)
      unfold Receiver.openOther
      split
      · exact .openOther ‹_›
      · exact .idle nofun
  | closeOther fd =>
      show Stepped cfg s _ (s.closeOther fd)
      unfold Receiver.closeOther
      split
      · exact .idle nofun
      · split
        · exact .closeOther ‹_› ‹_›
        · exact .idle nofun

/-! ### The clean-up -/

/-- The object is another connection of the agent. -/
def isStale (heap : Nat → Option ConnObject) (fd : Nat) (uuid : List UInt8) (ptr : Nat) : Bool :=
  match heap ptr with
  | some (.agent old) => old.fd ≠ fd ∧ old.uuid = uuid
  | _ => false

theorem isStale_iff {heap : Nat → Option ConnObject} {fd : Nat} {uuid : List UInt8} {ptr : Nat} :
    isStale heap fd uuid ptr = true
      ↔ ∃ old, heap ptr = some (.agent old) ∧ old.fd ≠ fd ∧ old.uuid = uuid := by
  unfold isStale
  rcases heap ptr with - | ⟨old⟩ | ⟨fd', buf⟩
  · simp
  · simp
  · simp

/-- An object is stale or not by itself. -/
theorem isStale_congr {heap heap' : Nat → Option ConnObject} {fd : Nat} {uuid : List UInt8}
    {ptr : Nat} (h : heap' ptr = heap ptr) : isStale heap' fd uuid ptr = isStale heap fd uuid ptr := by
  unfold isStale
  rw [h]

/-- A slot that is cleaned up. -/
theorem cleanStale_of_stale {table : Nat → Option Descriptor} {heap : Nat → Option ConnObject}
    {fd : Nat} {uuid : List UInt8} {ptr : Nat} {old : AgentConnection}
    (hobj : heap ptr = some (.agent old)) (hfd : old.fd ≠ fd) (huuid : old.uuid = uuid) :
    cleanStale fd uuid (table, heap) ptr
      = ((Function.update table old.fd none, Function.update heap ptr none), true) := by
  unfold cleanStale
  rw [show (table, heap).2 ptr = some (.agent old) from hobj]
  exact if_pos ⟨hfd, huuid⟩

/-- A slot that is left. -/
theorem cleanStale_of_not_stale {table : Nat → Option Descriptor} {heap : Nat → Option ConnObject}
    {fd : Nat} {uuid : List UInt8} {ptr : Nat} (h : isStale heap fd uuid ptr = false) :
    cleanStale fd uuid (table, heap) ptr = ((table, heap), false) := by
  unfold cleanStale
  dsimp only
  split
  · rename_i old hobj
    exact if_neg fun hc => Bool.eq_false_iff.mp h (isStale_iff.mpr ⟨old, hobj, hc⟩)
  · rfl

/-- A slot is freed if its object is stale. -/
theorem cleanStale_snd (fd : Nat) (uuid : List UInt8) (table : Nat → Option Descriptor)
    (heap : Nat → Option ConnObject) (ptr : Nat) :
    (cleanStale fd uuid (table, heap) ptr).2 = isStale heap fd uuid ptr := by
  cases hstale : isStale heap fd uuid ptr
  · rw [cleanStale_of_not_stale hstale]
  · obtain ⟨old, hobj, hfd, huuid⟩ := isStale_iff.mp hstale
    rw [cleanStale_of_stale hobj hfd huuid]

/-- Registered and stale: what the clean-up frees. -/
def StaleIn (heap : Nat → Option ConnObject) (agents : List Nat) (fd : Nat) (uuid : List UInt8)
    (ptr : Nat) : Prop :=
  ptr ∈ agents ∧ isStale heap fd uuid ptr = true

/-- The outcome of the clean-up, from the tables before. -/
structure CleanedUp (fd : Nat) (uuid : List UInt8) (table : Nat → Option Descriptor)
    (heap : Nat → Option ConnObject) (agents : List Nat) (table' : Nat → Option Descriptor)
    (heap' : Nat → Option ConnObject) (agents' : List Nat) : Prop where
  freed : ∀ ptr, StaleIn heap agents fd uuid ptr → heap' ptr = none
  kept : ∀ ptr, ¬ StaleIn heap agents fd uuid ptr → heap' ptr = heap ptr
  agents_iff : ∀ ptr, ptr ∈ agents' ↔ ptr ∈ agents ∧ isStale heap fd uuid ptr = false
  table : ∀ f, (∀ ptr old, StaleIn heap agents fd uuid ptr → heap ptr = some (.agent old) →
    old.fd ≠ f) → table' f = table f

section Slot

variable {fd : Nat} {uuid : List UInt8} {table table' : Nat → Option Descriptor}
  {heap heap' : Nat → Option ConnObject} {agents agents' : List Nat} {ptr : Nat}

/-- A slot whose object is not stale. -/
theorem CleanedUp.keep (h : CleanedUp fd uuid table heap agents table' heap' agents')
    (hstale : isStale heap fd uuid ptr = false) :
    CleanedUp fd uuid table heap (ptr :: agents) table' heap' (ptr :: agents') := by
  have hin : ∀ p, StaleIn heap (ptr :: agents) fd uuid p ↔ StaleIn heap agents fd uuid p := by
    intro p
    refine ⟨fun hp => ⟨?_, hp.2⟩, fun hp => ⟨List.mem_cons_of_mem _ hp.1, hp.2⟩⟩
    rcases List.mem_cons.mp hp.1 with rfl | hmem
    · exact absurd hp.2 (by rw [hstale]; exact Bool.false_ne_true)
    · exact hmem
  refine ⟨fun p hp => h.freed p ((hin p).mp hp), fun p hp => h.kept p fun hp' => ?_, fun p => ?_,
    fun f hf => h.table f fun p old hp => hf p old ((hin p).mpr hp)⟩
  · exact hp ((hin p).mpr hp')
  · rw [List.mem_cons, List.mem_cons, h.agents_iff, or_and_right]
    apply or_congr_left
    constructor
    · rintro rfl
      exact ⟨rfl, hstale⟩
    · exact And.left

/-- A slot whose object is stale: closed, freed and cleared. -/
theorem CleanedUp.free {old : AgentConnection} (hobj : heap ptr = some (.agent old))
    (hstale : isStale heap fd uuid ptr = true) (hptr : ptr ∉ agents)
    (h : CleanedUp fd uuid (Function.update table old.fd none) (Function.update heap ptr none)
      agents table' heap' agents') :
    CleanedUp fd uuid table heap (ptr :: agents) table' heap' agents' := by
  have hother : ∀ {p}, p ≠ ptr → Function.update heap ptr none p = heap p :=
    fun hp => Function.update_of_ne hp _ _
  have hne : ∀ {p}, p ∈ agents → p ≠ ptr := by
    rintro p hp rfl
    exact hptr hp
  have hself : StaleIn heap (ptr :: agents) fd uuid ptr := ⟨List.mem_cons_self, hstale⟩
  have hin : ∀ p, StaleIn (Function.update heap ptr none) agents fd uuid p →
      StaleIn heap (ptr :: agents) fd uuid p := by
    rintro p ⟨hmem, hp⟩
    refine ⟨List.mem_cons_of_mem _ hmem, ?_⟩
    rw [← isStale_congr (hother (hne hmem))]
    exact hp
  refine ⟨?_, ?_, ?_, ?_⟩
  · rintro p ⟨hmem, hp⟩
    rcases List.mem_cons.mp hmem with rfl | hmem
    · rw [h.kept p fun hp' => hptr hp'.1, Function.update_self]
    · apply h.freed p
      refine ⟨hmem, ?_⟩
      rw [isStale_congr (hother (hne hmem))]
      exact hp
  · intro p hp
    have hpne : p ≠ ptr := by
      rintro rfl
      exact hp hself
    rw [h.kept p fun hp' => hp (hin p hp'), hother hpne]
  · intro p
    rw [h.agents_iff, List.mem_cons]
    constructor
    · rintro ⟨hmem, hp⟩
      rw [isStale_congr (hother (hne hmem))] at hp
      exact ⟨Or.inr hmem, hp⟩
    · rintro ⟨rfl | hmem, hp⟩
      · rw [hstale] at hp
        cases hp
      · rw [isStale_congr (hother (hne hmem))]
        exact ⟨hmem, hp⟩
  · intro f hf
    rw [h.table f, Function.update_of_ne (Ne.symm (hf ptr old hself hobj))]
    intro p old' hp hobj'
    rw [hother (hne hp.1)] at hobj'
    exact hf p old' (hin p hp) hobj'

end Slot

/-- The loop over the slots.  No slot is visited after its object was freed,
because no object is registered twice. -/
theorem sweep_cleanStale (fd : Nat) (uuid : List UInt8) (slots : List (Option Nat)) :
    ∀ (table : Nat → Option Descriptor) (heap : Nat → Option ConnObject),
      slots.reduceOption.Nodup →
      CleanedUp fd uuid table heap slots.reduceOption
        (Slots.sweep (cleanStale fd uuid) (table, heap) slots).1.1
        (Slots.sweep (cleanStale fd uuid) (table, heap) slots).1.2
        (Slots.sweep (cleanStale fd uuid) (table, heap) slots).2.reduceOption := by
  induction slots with
  | nil =>
      intro table heap _
      exact ⟨fun ptr h => absurd h.1 List.not_mem_nil, fun _ _ => rfl,
        fun ptr => by simp [Slots.sweep], fun _ _ => rfl⟩
  | cons slot slots ih =>
      intro table heap hnodup
      rcases slot with - | ptr
      · rw [List.reduceOption_cons_of_none] at hnodup ⊢
        rw [Slots.sweep]
        dsimp only
        rw [List.reduceOption_cons_of_none]
        exact ih table heap hnodup
      · rw [List.reduceOption_cons_of_some] at hnodup ⊢
        obtain ⟨hptr, hrest⟩ := List.nodup_cons.mp hnodup
        rw [Slots.sweep]
        by_cases hstale : isStale heap fd uuid ptr = true
        · obtain ⟨old, hobj, hfd, huuid⟩ := isStale_iff.mp hstale
          rw [cleanStale_of_stale hobj hfd huuid]
          dsimp only
          rw [if_pos rfl, List.reduceOption_cons_of_none]
          exact (ih _ _ hrest).free hobj hstale hptr
        · have hkept := Bool.eq_false_iff.mpr hstale
          rw [cleanStale_of_not_stale hkept]
          dsimp only
          rw [if_neg Bool.false_ne_true, List.reduceOption_cons_of_some]
          exact (ih _ _ hrest).keep hkept

/-- The clean-up leaves the registry as it was exactly if nothing in it is stale,
and then it leaves everything. -/
theorem cleanUp_eq_self_iff (s : Receiver) (fd : Nat) (uuid : List UInt8) :
    ((s.cleanUp fd uuid).connectedAgents = s.connectedAgents ↔
        ∀ ptr ∈ s.connectedAgents.reduceOption, isStale s.heap fd uuid ptr = false) ∧
      ((s.cleanUp fd uuid).connectedAgents = s.connectedAgents → s.cleanUp fd uuid = s) := by
  have hvisit := cleanStale_snd fd uuid s.table s.heap
  have hkeep : ∀ ptr, (cleanStale fd uuid (s.table, s.heap) ptr).2 = false →
      (cleanStale fd uuid (s.table, s.heap) ptr).1 = (s.table, s.heap) := fun _ => cleanStale_kept
  obtain ⟨hiff, hstate⟩ := Slots.sweep_eq_self_iff hkeep s.connectedAgents
  simp only [hvisit] at hiff
  refine ⟨hiff, fun hsame => ?_⟩
  have hslots : (Slots.sweep (cleanStale fd uuid) (s.table, s.heap) s.connectedAgents).2
      = s.connectedAgents := hsame
  show ({ s with
      table := (Slots.sweep (cleanStale fd uuid) (s.table, s.heap) s.connectedAgents).1.1
      heap := (Slots.sweep (cleanStale fd uuid) (s.table, s.heap) s.connectedAgents).1.2
      connectedAgents := (Slots.sweep (cleanStale fd uuid) (s.table, s.heap) s.connectedAgents).2 } :
      Receiver) = s
  rw [hstate hslots, hslots]

/-- **What the clean-up frees and what it leaves.** -/
theorem cleanUp_spec {s : Receiver} (h : s.AgentInv) (fd : Nat) (uuid : List UInt8) :
    CleanedUp fd uuid s.table s.heap s.connectedAgents.reduceOption (s.cleanUp fd uuid).table
      (s.cleanUp fd uuid).heap (s.cleanUp fd uuid).connectedAgents.reduceOption :=
  sweep_cleanStale fd uuid s.connectedAgents s.table s.heap h.agentsNodup

/-- The clean-up opens nothing. -/
theorem isOpen_of_cleanUp {s : Receiver} {fd f : Nat} {uuid : List UInt8} {d : Descriptor} :
    (s.cleanUp fd uuid).table f = some d → s.table f = some d := by
  refine cleanUp_invariant (fun table _ _ => table f = some d → s.table f = some d) ?_ id fd uuid
  intro table heap pre ptr post old hopen _ hf
  apply hopen
  have hfd : f ≠ old.fd := by
    rintro rfl
    cases (Function.update_self old.fd none table).symm.trans hf
  exact (Function.update_of_ne hfd _ _).symm.trans hf

/-- The descriptor of a registered agent is no other connection's. -/
theorem agent_fd_ne_of_ready {s : Receiver} (h : s.AgentInv) {p q : Nat} {obj : ConnObject}
    {d : Descriptor} {old : AgentConnection} (hp : s.ready p = some (obj, d))
    (hq : q ∈ s.connectedAgents.reduceOption) (hold : s.heap q = some (.agent old)) (hne : q ≠ p) :
    old.fd ≠ obj.fd := by
  intro hfd
  obtain ⟨-, hd, howner, -⟩ := ready_eq_some hp
  obtain ⟨d', hd', howner', -⟩ := h.agent_fd hq hold
  rw [hfd] at hd'
  obtain rfl := Option.some.inj (hd.symm.trans hd')
  exact hne (howner'.symm.trans howner)

/-! ### Broadcasts -/

/-- The calls of a message leave objects and agents alone. -/
theorem runCalls_frame (writeFails : Nat → Bool) (calls : List IngestCall) :
    ∀ s : Receiver, (runCalls writeFails s calls).1.heap = s.heap ∧
      (runCalls writeFails s calls).1.connectedAgents = s.connectedAgents ∧
      (runCalls writeFails s calls).1.nextOwner = s.nextOwner := by
  induction calls with
  | nil => exact fun _ => ⟨rfl, rfl, rfl⟩
  | cons call calls ih =>
      intro s
      cases call with
      | sseBroadcast uuid event => exact ih (sseBroadcast writeFails s).1
      | _ => exact ih s

/-- A broadcast fails to write to an entry of `sse_clients` whose descriptor is
in the epoll set: it is another connection's by now, and closed. -/
def ClosesWatched (writeFails : Nat → Bool) (s : Receiver) : Prop :=
  ∃ c ∈ s.sseClients.reduceOption, ∃ d, s.table c.fd = some d ∧ d.watched = true ∧
    writeFails c.fd = true

/-- Clients are not in the epoll set. -/
theorem Receiver.Inv.not_closesWatched {s : Receiver} (h : s.Inv) (writeFails : Nat → Bool) :
    ¬ ClosesWatched writeFails s := by
  rintro ⟨c, hc, d, hd, hwatched, -⟩
  exact h.client_fd_ne hd (Or.inr hwatched) hc rfl

theorem ClosesWatched.of_cleanUp {writeFails : Nat → Bool} {s : Receiver} {fd : Nat}
    {uuid : List UInt8} (h : ClosesWatched writeFails (s.cleanUp fd uuid)) :
    ClosesWatched writeFails s := by
  obtain ⟨c, hc, d, hd, hclosed⟩ := h
  exact ⟨c, hc, d, isOpen_of_cleanUp hd, hclosed⟩

/-- Since `s`, clients have left and descriptors outside the epoll set were
closed. -/
structure UnwatchedClosed (s : Receiver) (table : Nat → Option Descriptor)
    (clients : List SseClient) : Prop where
  isOpen : ∀ f d, table f = some d → s.table f = some d
  watched : ∀ f d, s.table f = some d → d.watched = true → table f = some d
  clients : ∀ c ∈ clients, c ∈ s.sseClients.reduceOption

theorem UnwatchedClosed.refl (s : Receiver) :
    UnwatchedClosed s s.table s.sseClients.reduceOption :=
  ⟨fun _ _ => id, fun _ _ hd _ => hd, fun _ => id⟩

/-- A client that is closed and leaves. -/
theorem UnwatchedClosed.dropClient {s : Receiver} {table : Nat → Option Descriptor}
    {clients clients' : List SseClient} (h : UnwatchedClosed s table clients)
    (hclients : ∀ c ∈ clients', c ∈ clients) {fd : Nat}
    (hfd : ∀ d, s.table fd = some d → d.watched ≠ true) :
    UnwatchedClosed s (Function.update table fd none) clients' := by
  refine ⟨fun f d hd => ?_, fun f d hd hwatched => ?_, fun c hc => h.clients c (hclients c hc)⟩
  · rcases eq_or_ne f fd with rfl | hne
    · rw [Function.update_self] at hd
      cases hd
    · exact h.isOpen f d ((Function.update_of_ne hne _ _).symm.trans hd)
  · have hne : f ≠ fd := by
      rintro rfl
      exact hfd d hd hwatched
    exact (Function.update_of_ne hne _ _).trans (h.watched f d hd hwatched)

/-- A broadcast that closes nothing in the epoll set. -/
theorem sseBroadcast_unwatched {writeFails : Nat → Bool} {s₀ s : Receiver}
    (hspared : ¬ ClosesWatched writeFails s₀)
    (h : UnwatchedClosed s₀ s.table s.sseClients.reduceOption) :
    UnwatchedClosed s₀ (sseBroadcast writeFails s).1.table
      (sseBroadcast writeFails s).1.sseClients.reduceOption := by
  have hless : ∀ (c : SseClient) (pre post : List SseClient),
      ∀ c' ∈ pre ++ post, c' ∈ pre ++ c :: post := fun c pre post c' hc' =>
    ((List.sublist_cons_self c post).append_left pre).subset hc'
  refine Slots.sweep_invariant (broadcastTo writeFails)
    (fun t clients => UnwatchedClosed s₀ t.1 clients) ?_ ?_ (s.table, []) s.sseClients h
  · rintro ⟨table, writes⟩ pre c post hclosed hkept
    rcases hfd : table c.fd with - | d
    · rw [broadcastTo_closed writeFails writes hfd]
      exact hclosed
    · rcases broadcastTo_cases writeFails writes hfd with ⟨-, hb⟩ | hb
      · rw [hb] at hkept
        cases hkept
      · rw [hb]
        exact hclosed
  · rintro ⟨table, writes⟩ pre c post hclosed hfreed
    rcases hfd : table c.fd with - | d
    · rw [broadcastTo_closed writeFails writes hfd]
      exact { hclosed with clients := fun c' hc' => hclosed.clients c' (hless c pre post c' hc') }
    · rcases broadcastTo_cases writeFails writes hfd with ⟨hfails, hb⟩ | hb
      · rw [hb]
        refine hclosed.dropClient (hless c pre post) fun d' hd' hwatched => ?_
        exact hspared ⟨c, hclosed.clients c (by simp), d', hd', hwatched, hfails⟩
      · rw [hb] at hfreed
        cases hfreed

theorem runCalls_unwatched {writeFails : Nat → Bool} {s₀ : Receiver} (calls : List IngestCall)
    (hspared : ∀ uuid event, .sseBroadcast uuid event ∈ calls → ¬ ClosesWatched writeFails s₀) :
    ∀ {s : Receiver}, UnwatchedClosed s₀ s.table s.sseClients.reduceOption →
      UnwatchedClosed s₀ (runCalls writeFails s calls).1.table
        (runCalls writeFails s calls).1.sseClients.reduceOption := by
  induction calls with
  | nil => exact id
  | cons call calls ih =>
      intro s h
      have hrest := @ih fun uuid event hmem => hspared uuid event (List.mem_cons_of_mem _ hmem)
      cases call with
      | sseBroadcast uuid event =>
          exact hrest (sseBroadcast_unwatched (hspared uuid event List.mem_cons_self) h)
      | _ => exact hrest h

/-- Registered agents are in the epoll set, so such calls leave them alone. -/
theorem Receiver.AgentInv.runCalls {writeFails : Nat → Bool} {s : Receiver} (h : s.AgentInv)
    {calls : List IngestCall}
    (hspared : ∀ uuid event, .sseBroadcast uuid event ∈ calls → ¬ ClosesWatched writeFails s) :
    (runCalls writeFails s calls).1.AgentInv := by
  have hclosed := runCalls_unwatched calls hspared (.refl s)
  obtain ⟨hheap, hagents, hnext⟩ := runCalls_frame writeFails calls s
  rw [Receiver.AgentInv, hheap, hagents, hnext]
  refine AgentsInv.of_table h fun ptr hptr conn hconn => ?_
  obtain ⟨d, hd, -, -, hwatched⟩ := h.agent_fd hptr hconn
  rw [hd]
  exact hclosed.watched _ _ hd hwatched

/-! ### A ready agent connection -/

/-- A wake-up handles at most one message, which leaves its UUID in the
connection. -/
theorem agentReadable_messages (conn : AgentConnection) (sock : Socket) :
    (agentReadable conn sock).messages = [] ∨
      ∃ m conn', (agentReadable conn sock).messages = [m] ∧
        (agentReadable conn sock).conn = some conn' ∧ conn'.uuid = hdrUuid m.hdr := by
  have hpayload : ∀ (conn : AgentConnection) (sock : Socket),
      (payloadPhase conn sock).messages = [] ∨
        ∃ m conn', (payloadPhase conn sock).messages = [m] ∧
          (payloadPhase conn sock).conn = some conn' ∧ conn'.uuid = hdrUuid m.hdr := by
    intro conn sock
    unfold payloadPhase
    split
    · exact Or.inr ⟨_, _, rfl, rfl, rfl⟩
    · dsimp only
      split
      · exact Or.inl rfl
      · exact Or.inl rfl
      · split
        · exact Or.inr ⟨_, _, rfl, rfl, rfl⟩
        · exact Or.inl rfl
  unfold agentReadable
  split
  · exact hpayload conn sock
  · dsimp only
    split
    · exact Or.inl rfl
    · exact Or.inl rfl
    · split
      · exact Or.inl rfl
      · split
        · exact hpayload _ _
        · exact Or.inl rfl

/-- **All a ready agent connection can do**: it is closed; it has read something;
or it has read the last byte of a message, and the message is processed. -/
theorem agentReady_cases (cfg : ReceiverConfig) (s : Receiver) (ptr : Nat) (conn : AgentConnection)
    (io : Readiness) :
    (agentReadable conn io.sock).messages = [] ∧ (agentReady cfg s ptr conn io).1
        = ((s.unregisterConnectedAgent conn.fd).close conn.fd).free ptr ∨
      ∃ conn', (agentReadable conn io.sock).conn = some conn' ∧ conn'.fd = conn.fd ∧
        ((agentReadable conn io.sock).messages = [] ∧ (agentReady cfg s ptr conn io).1
            = { s with heap := Function.update s.heap ptr (some (.agent conn')) } ∨
          ∃ m, (agentReadable conn io.sock).messages = [m] ∧ conn'.uuid = hdrUuid m.hdr ∧
            (agentReady cfg s ptr conn io).1 = (runCalls io.writeFails
              (Receiver.cleanUp { s with heap := Function.update s.heap ptr (some (.agent conn')) }
                conn.fd (hdrUuid m.hdr)) (processAgentMessage cfg.key conn.clientIp m)).1) := by
  have hfd := agentReadable_fd conn io.sock
  have hmessages := agentReadable_messages conn io.sock
  unfold agentReady
  dsimp only
  rcases hconn : (agentReadable conn io.sock).conn with - | conn'
  · rcases hmessages with hnone | ⟨m, conn', -, hsome, -⟩
    · exact Or.inl ⟨hnone, rfl⟩
    · rw [hconn] at hsome
      cases hsome
  · refine Or.inr ⟨conn', rfl, hfd conn' hconn, ?_⟩
    rcases hmessages with hnone | ⟨m, conn'', hm, hsome, huuid⟩
    · rw [hnone]
      exact Or.inl ⟨rfl, rfl⟩
    · rw [hconn] at hsome
      obtain rfl := Option.some.inj hsome
      rw [hm]
      exact Or.inr ⟨m, rfl, huuid, rfl⟩

/-- The object itself is no stale one, whatever is read into it. -/
theorem isStale_update {heap : Nat → Option ConnObject} {ptr : Nat} {conn conn' : AgentConnection}
    (hobj : heap ptr = some (.agent conn)) (hfd : conn'.fd = conn.fd) (uuid : List UInt8) (p : Nat) :
    isStale (Function.update heap ptr (some (.agent conn'))) conn.fd uuid p
      = isStale heap conn.fd uuid p := by
  rcases eq_or_ne p ptr with rfl | hne
  · simp [isStale, hobj, hfd]
  · exact isStale_congr (Function.update_of_ne hne _ _)

/-- `s'` is `s` after a message with this UUID on the connection `ptr`: of the
objects, the other registered connections with the UUID are gone, and the rest is
as before. -/
structure HeardFrom (s s' : Receiver) (ptr : Nat) (conn : AgentConnection) (uuid : List UInt8) :
    Prop where
  self : ∃ conn', s'.heap ptr = some (.agent conn') ∧ conn'.fd = conn.fd ∧ conn'.uuid = uuid
  freed : ∀ p, StaleIn s.heap s.connectedAgents.reduceOption conn.fd uuid p → s'.heap p = none
  kept : ∀ p, p ≠ ptr → ¬ StaleIn s.heap s.connectedAgents.reduceOption conn.fd uuid p →
    s'.heap p = s.heap p
  agents_iff : ∀ p, p ∈ s'.connectedAgents.reduceOption
    ↔ p ∈ s.connectedAgents.reduceOption ∧ isStale s.heap conn.fd uuid p = false
  nextOwner : s'.nextOwner = s.nextOwner

section Message

variable {s : Receiver} {ptr : Nat} {conn conn' : AgentConnection}

/-- What the clean-up frees does not depend on what was read. -/
theorem staleIn_update (hobj : s.heap ptr = some (.agent conn)) (hfd : conn'.fd = conn.fd)
    (uuid : List UInt8) (p : Nat) :
    StaleIn (Function.update s.heap ptr (some (.agent conn'))) s.connectedAgents.reduceOption
        conn.fd uuid p
      ↔ StaleIn s.heap s.connectedAgents.reduceOption conn.fd uuid p := by
  rw [StaleIn, StaleIn, isStale_update hobj hfd]

/-- A connection is not stale for its own messages. -/
theorem not_isStale_self (hobj : s.heap ptr = some (.agent conn)) (uuid : List UInt8) :
    isStale s.heap conn.fd uuid ptr = false := by
  simp [isStale, hobj]

/-- A message processed where the registered agents are as the invariant says. -/
theorem heardFrom_message (cfg : ReceiverConfig) (h : s.AgentInv)
    (hobj : s.heap ptr = some (.agent conn)) (hfd : conn'.fd = conn.fd) {m : Message}
    (huuid : conn'.uuid = hdrUuid m.hdr) (writeFails : Nat → Bool) :
    HeardFrom s (runCalls writeFails
      (Receiver.cleanUp { s with heap := Function.update s.heap ptr (some (.agent conn')) }
        conn.fd (hdrUuid m.hdr)) (processAgentMessage cfg.key conn.clientIp m)).1
      ptr conn (hdrUuid m.hdr) := by
  have hinv : Receiver.AgentInv
      { s with heap := Function.update s.heap ptr (some (.agent conn')) } :=
    AgentsInv.update_agent h hobj hfd
  have hspec := cleanUp_spec hinv conn.fd (hdrUuid m.hdr)
  obtain ⟨hheap, hagents, hnext⟩ := runCalls_frame writeFails
    (processAgentMessage cfg.key conn.clientIp m)
    (Receiver.cleanUp { s with heap := Function.update s.heap ptr (some (.agent conn')) }
      conn.fd (hdrUuid m.hdr))
  have hin := staleIn_update hobj hfd (hdrUuid m.hdr)
  have hself := not_isStale_self hobj (hdrUuid m.hdr)
  refine ⟨⟨conn', ?_, hfd, huuid⟩, fun p hp => ?_, fun p hne hp => ?_, fun p => ?_, hnext⟩
  · rw [hheap, hspec.kept ptr fun hp => Bool.eq_false_iff.mp hself ((hin ptr).mp hp).2]
    exact Function.update_self _ _ _
  · rw [hheap]
    exact hspec.freed p ((hin p).mpr hp)
  · rw [hheap, hspec.kept p fun hp' => hp ((hin p).mp hp')]
    exact Function.update_of_ne hne _ _
  · rw [hagents, hspec.agents_iff]
    exact and_congr_right fun _ => by rw [isStale_update hobj hfd]

end Message

/-- **What becomes of the state when an agent connection is ready**: the
connection is closed; it has read something; or a message was processed. -/
theorem agentReady_spec (cfg : ReceiverConfig) {s : Receiver} (h : s.AgentInv) {ptr : Nat}
    {conn : AgentConnection} (hobj : s.heap ptr = some (.agent conn)) (io : Readiness) :
    (agentReadable conn io.sock).messages = [] ∧ (agentReady cfg s ptr conn io).1
        = ((s.unregisterConnectedAgent conn.fd).close conn.fd).free ptr ∨
      (agentReadable conn io.sock).messages = [] ∧ (∃ conn', (agentReady cfg s ptr conn io).1
        = { s with heap := Function.update s.heap ptr (some (.agent conn')) }) ∨
      ∃ m, (agentReadable conn io.sock).messages = [m] ∧
        HeardFrom s (agentReady cfg s ptr conn io).1 ptr conn (hdrUuid m.hdr) := by
  obtain hclosed | ⟨conn', -, hfd, ⟨hno, hs⟩ | ⟨m, hm, huuid, hs⟩⟩ :=
    agentReady_cases cfg s ptr conn io
  · exact Or.inl hclosed
  · exact Or.inr (Or.inl ⟨hno, conn', hs⟩)
  · refine Or.inr (Or.inr ⟨m, hm, ?_⟩)
    rw [hs]
    exact heardFrom_message cfg h hobj hfd huuid io.writeFails

/-- The message that this wake-up completes carries an alert, and the broadcast
closes a connection. -/
def AlertCloses (cfg : ReceiverConfig) (s : Receiver) (conn : AgentConnection) (io : Readiness) :
    Prop :=
  ∃ m ∈ (agentReadable conn io.sock).messages, ∃ uuid event,
    .sseBroadcast uuid event ∈ processAgentMessage cfg.key conn.clientIp m ∧
      ClosesWatched io.writeFails s

/-- Where it closes none, the message finds nothing to close after the clean-up. -/
theorem not_closesWatched_of_spared {cfg : ReceiverConfig} {s : Receiver} {conn : AgentConnection}
    {io : Readiness} (hspared : ¬ AlertCloses cfg s conn io) {m : Message}
    (hm : (agentReadable conn io.sock).messages = [m]) (heap : Nat → Option ConnObject) (fd : Nat)
    (uuid : List UInt8) :
    ∀ agent event, .sseBroadcast agent event ∈ processAgentMessage cfg.key conn.clientIp m →
      ¬ ClosesWatched io.writeFails (Receiver.cleanUp { s with heap := heap } fd uuid) := by
  intro agent event hcall hcloses
  refine hspared ⟨m, ?_, agent, event, hcall, hcloses.of_cleanUp⟩
  rw [hm]
  exact List.mem_singleton_self m

/-- Otherwise the descriptors in the epoll set stay open, except those of the
connections that are cleaned up. -/
theorem agentReady_watched (cfg : ReceiverConfig) {s : Receiver} (h : s.AgentInv) {ptr : Nat}
    {conn : AgentConnection} (hobj : s.heap ptr = some (.agent conn)) {io : Readiness}
    (hspared : ¬ AlertCloses cfg s conn io) {m : Message}
    (hm : (agentReadable conn io.sock).messages = [m]) {f : Nat} {d : Descriptor}
    (hd : s.table f = some d) (hwatched : d.watched = true)
    (hother : ∀ p old, StaleIn s.heap s.connectedAgents.reduceOption conn.fd (hdrUuid m.hdr) p →
      s.heap p = some (.agent old) → old.fd ≠ f) :
    (agentReady cfg s ptr conn io).1.table f = some d := by
  obtain ⟨hno, -⟩ | ⟨conn', -, hfd, ⟨hno, -⟩ | ⟨m', hm', -, hs⟩⟩ :=
    agentReady_cases cfg s ptr conn io
  · rw [hm] at hno
    cases hno
  · rw [hm] at hno
    cases hno
  · obtain rfl : m = m' := by simpa using hm.symm.trans hm'
    have hinv : Receiver.AgentInv
        { s with heap := Function.update s.heap ptr (some (.agent conn')) } :=
      AgentsInv.update_agent h hobj hfd
    have hclosed := runCalls_unwatched _ (not_closesWatched_of_spared hspared hm
      (Function.update s.heap ptr (some (.agent conn'))) conn.fd (hdrUuid m.hdr)) (.refl _)
    rw [hs]
    refine hclosed.watched f d (((cleanUp_spec hinv _ _).table f ?_).trans hd) hwatched
    intro p old hp hold
    rw [staleIn_update hobj hfd] at hp
    have hne : p ≠ ptr := by
      rintro rfl
      exact Bool.eq_false_iff.mp (not_isStale_self hobj _) hp.2
    exact hother p old hp ((Function.update_of_ne hne _ _).symm.trans hold)

theorem agentReady_agentInv (cfg : ReceiverConfig) {s : Receiver} (h : s.AgentInv) {ptr : Nat}
    {conn : AgentConnection} {d : Descriptor} (hready : s.ready ptr = some (.agent conn, d))
    {io : Readiness} (hspared : ¬ AlertCloses cfg s conn io) :
    (agentReady cfg s ptr conn io).1.AgentInv := by
  obtain ⟨hobj, hd, howner, -⟩ := ready_eq_some hready
  obtain ⟨-, hs⟩ | ⟨conn', -, hfd, ⟨-, hs⟩ | ⟨m, hm, -, hs⟩⟩ := agentReady_cases cfg s ptr conn io
  · rw [hs]
    exact h.release hready (Slots.clear_sublist _ _) (not_mem_unregister h hobj hd howner)
  · rw [hs]
    exact AgentsInv.update_agent h hobj hfd
  · have hinv : Receiver.AgentInv
        { s with heap := Function.update s.heap ptr (some (.agent conn')) } :=
      AgentsInv.update_agent h hobj hfd
    rw [hs]
    exact (hinv.cleanUp _ _).runCalls (not_closesWatched_of_spared hspared hm _ _ _)

/-! ### Numbers of objects -/

/-- Every object has a number that was given out. -/
def HeapFresh (s : Receiver) : Prop := ∀ ptr, s.heap ptr ≠ none → ptr < s.nextOwner

/-- The only new object is the one with the next number. -/
structure HeapGrows (s s' : Receiver) : Prop where
  next : s.nextOwner ≤ s'.nextOwner
  alloc : ∀ ptr, s'.heap ptr ≠ none →
    s.heap ptr ≠ none ∨ ptr = s.nextOwner ∧ s.nextOwner < s'.nextOwner

theorem HeapGrows.refl (s : Receiver) : HeapGrows s s := ⟨Nat.le_refl _, fun _ => Or.inl⟩

theorem HeapGrows.heapFresh {s s' : Receiver} (h : HeapGrows s s') (hs : HeapFresh s) :
    HeapFresh s' := by
  intro ptr hptr
  rcases h.alloc ptr hptr with hold | ⟨rfl, hlt⟩
  · exact Nat.lt_of_lt_of_le (hs ptr hold) h.next
  · exact hlt

/-- What is freed stays so. -/
theorem HeapGrows.freed {s s' : Receiver} (h : HeapGrows s s') {ptr : Nat}
    (hfree : s.heap ptr = none) (hlt : ptr < s.nextOwner) :
    s'.heap ptr = none ∧ ptr < s'.nextOwner := by
  refine ⟨?_, Nat.lt_of_lt_of_le hlt h.next⟩
  by_contra hne
  rcases h.alloc ptr hne with hold | ⟨rfl, -⟩
  · exact hold hfree
  · exact absurd hlt (Nat.lt_irrefl _)

/-- Changing or freeing an object that exists. -/
theorem HeapGrows.update {s s' : Receiver} {ptr : Nat} {x : Option ConnObject}
    (hnext : s'.nextOwner = s.nextOwner) (hheap : s'.heap = Function.update s.heap ptr x)
    (hptr : s.heap ptr ≠ none) : HeapGrows s s' := by
  refine ⟨hnext.ge, fun p hp => Or.inl ?_⟩
  rw [hheap] at hp
  rcases eq_or_ne p ptr with rfl | hne
  · exact hptr
  · rw [Function.update_of_ne hne] at hp
    exact hp

theorem agentReady_heapGrows (cfg : ReceiverConfig) {s : Receiver} (h : s.AgentInv) {ptr : Nat}
    {conn : AgentConnection} (hobj : s.heap ptr = some (.agent conn)) (io : Readiness) :
    HeapGrows s (agentReady cfg s ptr conn io).1 := by
  have hlive : s.heap ptr ≠ none := by
    rw [hobj]
    exact nofun
  obtain ⟨-, hs⟩ | ⟨-, conn', hs⟩ | ⟨m, -, hheard⟩ := agentReady_spec cfg h hobj io
  · rw [hs]
    exact .update rfl rfl hlive
  · rw [hs]
    exact .update rfl rfl hlive
  · refine ⟨hheard.nextOwner.ge, fun p hp => Or.inl ?_⟩
    rcases eq_or_ne p ptr with rfl | hne
    · exact hlive
    · by_cases hstale : StaleIn s.heap s.connectedAgents.reduceOption conn.fd (hdrUuid m.hdr) p
      · exact absurd (hheard.freed p hstale) hp
      · rwa [hheard.kept p hne hstale] at hp

/-! ### A ready web connection -/

/-- Only this connection was changed: its descriptor and its object. -/
structure OnlySelf (fd ptr : Nat) (s s' : Receiver) : Prop where
  table : ∀ f, f ≠ fd → s'.table f = s.table f
  heap : ∀ p, p ≠ ptr → s'.heap p = s.heap p
  connectedAgents : s'.connectedAgents = s.connectedAgents
  nextOwner : s'.nextOwner = s.nextOwner

namespace OnlySelf

variable {fd ptr : Nat} {s s' : Receiver}

theorem refl (fd ptr : Nat) (s : Receiver) : OnlySelf fd ptr s s :=
  ⟨fun _ _ => rfl, fun _ _ => rfl, rfl, rfl⟩

theorem setHeap (h : OnlySelf fd ptr s s') (x : Option ConnObject) :
    OnlySelf fd ptr s { s' with heap := Function.update s'.heap ptr x } :=
  { h with heap := fun p hp => (Function.update_of_ne hp _ _).trans (h.heap p hp) }

theorem setTable (h : OnlySelf fd ptr s s') (x : Option Descriptor)
    (clients : List (Option SseClient)) :
    OnlySelf fd ptr s
      { s' with table := Function.update s'.table fd x, sseClients := clients } :=
  { h with table := fun f hf => (Function.update_of_ne hf _ _).trans (h.table f hf) }

/-- Closing the descriptor and freeing the object. -/
theorem release (h : OnlySelf fd ptr s s') : OnlySelf fd ptr s ((s'.close fd).free ptr) :=
  (h.setTable none s'.sseClients).setHeap none

end OnlySelf

/-- A ready web connection changes nothing but itself. -/
theorem webReady_onlySelf (s : Receiver) (ptr fd : Nat) (buf : List UInt8) (d : Descriptor)
    (io : Readiness) : OnlySelf fd ptr s (webReady s ptr fd buf d io).1 := by
  have hself := OnlySelf.refl fd ptr s
  unfold webReady
  split
  · exact hself
  · exact hself.release
  · rename_i bs _
    have hread := hself.setHeap (some (.web fd (buf ++ bs)))
    dsimp only
    split
    · exact hread
    · rename_i r _
      dsimp only
      split
      · split
        · exact (hread.setTable _ _).release
        · exact hread.release
      · split
        · exact hread.setTable _ _
        · exact hread

theorem webReady_heapGrows (s : Receiver) {ptr fd : Nat} {buf : List UInt8}
    (hobj : s.heap ptr = some (.web fd buf)) (d : Descriptor) (io : Readiness) :
    HeapGrows s (webReady s ptr fd buf d io).1 := by
  have hself := webReady_onlySelf s ptr fd buf d io
  refine ⟨hself.nextOwner.ge, fun p hp => Or.inl ?_⟩
  rcases eq_or_ne p ptr with rfl | hne
  · rw [hobj]
    exact nofun
  · rw [hself.heap p hne] at hp
    exact hp

/-! ### Runs -/

theorem Stepped.heapGrows {cfg : ReceiverConfig} {s s' : Receiver} {e : ReceiverEvent}
    (h : s.AgentInv) (hstep : Stepped cfg s e s') : HeapGrows s s' := by
  have haccept : ∀ {s' : Receiver} {x : Option ConnObject}, s'.nextOwner = s.nextOwner + 1 →
      s'.heap = Function.update s.heap s.nextOwner x → HeapGrows s s' := by
    intro s' x hnext hheap
    refine ⟨by omega, fun p hp => ?_⟩
    rcases eq_or_ne p s.nextOwner with rfl | hne
    · exact Or.inr ⟨rfl, by omega⟩
    · rw [hheap, Function.update_of_ne hne] at hp
      exact Or.inl hp
  cases hstep with
  | idle => exact .refl s
  | acceptAgent => exact haccept rfl rfl
  | acceptWeb => exact haccept rfl rfl
  | hangUp hready =>
      refine .update rfl rfl ?_
      rw [(ready_eq_some hready).1]
      exact nofun
  | agent hready => exact agentReady_heapGrows cfg h (ready_eq_some hready).1 _
  | web hready => exact webReady_heapGrows s (ready_eq_some hready).1 _ _
  | openOther => exact ⟨Nat.le_succ _, fun _ => Or.inl⟩
  | closeOther => exact ⟨Nat.le_refl _, fun _ => Or.inl⟩

/-- In this step, an alert closes a connection in the epoll set: its descriptor
is still in `sse_clients`, and the write fails. -/
def AlertClosesConnection (cfg : ReceiverConfig) (s : Receiver) : ReceiverEvent → Prop
  | .readable ptr io => ∃ conn d, s.ready ptr = some (.agent conn, d) ∧ d.port = .agent ∧
      AlertCloses cfg s conn io
  | _ => False

theorem Receiver.Inv.not_alertClosesConnection {s : Receiver} (h : s.Inv) (cfg : ReceiverConfig)
    (e : ReceiverEvent) : ¬ AlertClosesConnection cfg s e := by
  intro hcloses
  cases e with
  | readable ptr io =>
      obtain ⟨conn, d, -, -, m, -, uuid, event, -, hwatched⟩ := hcloses
      exact h.not_closesWatched _ hwatched
  | _ => exact hcloses.elim

/-- Every other step keeps the registered agents as they should be. -/
theorem Stepped.agentInv {cfg : ReceiverConfig} {s s' : Receiver} {e : ReceiverEvent}
    (h : s.AgentInv) (hstep : Stepped cfg s e s') (hspared : ¬ AlertClosesConnection cfg s e) :
    s'.AgentInv := by
  cases hstep with
  | idle => exact h
  | acceptAgent hfd => exact h.acceptAgent hfd _
  | acceptWeb hfd =>
      exact (AgentsInv.openFd h hfd _).update_heap _ fun hmem => (h.fresh _ hmem).false
  | hangUp hready =>
      obtain ⟨hobj, hd, howner, -⟩ := ready_eq_some hready
      exact h.release hready (Slots.clear_sublist _ _) (not_mem_unregister h hobj hd howner)
  | agent hready hport =>
      exact agentReady_agentInv cfg h hready fun hcloses => hspared ⟨_, _, hready, hport, hcloses⟩
  | @web ptr fd buf d io hready =>
      obtain ⟨hobj, hd, howner, -⟩ := ready_eq_some hready
      have hptr := not_mem_agents h hobj
      have hself := webReady_onlySelf s ptr fd buf d io
      rw [Receiver.AgentInv, hself.connectedAgents, hself.nextOwner]
      refine AgentsInv.of_same h (fun q hq => hself.heap q ?_) fun q hq conn hconn =>
        hself.table _ (h.agent_fd_ne hd (fun _ => howner.symm ▸ hptr) q hq conn hconn)
      rintro rfl
      exact hptr hq
  | openOther hfd => exact AgentsInv.openFd h hfd _
  | closeOther hd hport =>
      refine AgentsInv.update_table h none (h.agent_fd_ne hd fun hagent => ?_)
      rw [hport] at hagent
      cases hagent

/-- What holds of the agents in every state of a run in which no alert closes a
connection. -/
theorem agentInv_of_run (cfg : ReceiverConfig) (inUse : Nat → Bool) (events : List ReceiverEvent)
    (hspared : Along (receiverStep cfg) (fun s e => ¬ AlertClosesConnection cfg s e)
      (.start inUse) events) :
    (exec (receiverStep cfg) (.start inUse) events).1.AgentInv ∧
      HeapFresh (exec (receiverStep cfg) (.start inUse) events).1 := by
  refine Along.invariant (fun s => s.AgentInv ∧ HeapFresh s) ?_
    ⟨(start_inv inUse).agentInv, fun _ h => absurd rfl h⟩ hspared
  rintro s e ⟨hinv, hfresh⟩ he
  have hstep := receiverStep_stepped cfg s e
  exact ⟨hstep.agentInv hinv he, (hstep.heapGrows hinv).heapFresh hfresh⟩

/-- Where no step closes a client it has registered, no alert closes a
connection. -/
theorem spared_of_good {cfg : ReceiverConfig} {s : Receiver} (h : s.Inv)
    {events : List ReceiverEvent}
    (hgood : Along (receiverStep cfg) (fun s e => ¬ ClosesClient s e) s events) :
    Along (receiverStep cfg) (fun s e => ¬ AlertClosesConnection cfg s e) s events := by
  refine Along.mono Receiver.Inv (fun s e hinv he => ?_) h hgood
  exact ⟨hinv.not_alertClosesConnection cfg e, (receiverStep_inv cfg hinv e he).1⟩

/-! ### Without the web port -/

/-- Any event but a connection on the web port. -/
def ReceiverEvent.AgentSide : ReceiverEvent → Prop
  | .acceptWeb _ _ => False
  | _ => True

/-- No object is a web connection's. -/
def NoWeb (s : Receiver) : Prop := ∀ ptr fd buf, s.heap ptr ≠ some (.web fd buf)

theorem NoWeb.update {s s' : Receiver} (h : NoWeb s) {ptr : Nat} {x : Option ConnObject}
    (hheap : s'.heap = Function.update s.heap ptr x) (hx : ∀ fd buf, x ≠ some (.web fd buf)) :
    NoWeb s' := by
  intro p fd buf
  rw [hheap]
  rcases eq_or_ne p ptr with rfl | hne
  · rw [Function.update_self]
    exact hx fd buf
  · rw [Function.update_of_ne hne]
    exact h p fd buf

theorem agentReady_noWeb (cfg : ReceiverConfig) {s : Receiver} (hinv : s.AgentInv) (h : NoWeb s)
    {ptr : Nat} {conn : AgentConnection} (hobj : s.heap ptr = some (.agent conn)) (io : Readiness) :
    NoWeb (agentReady cfg s ptr conn io).1 := by
  obtain ⟨-, hs⟩ | ⟨-, conn', hs⟩ | ⟨m, -, hheard⟩ := agentReady_spec cfg hinv hobj io
  · rw [hs]
    exact h.update rfl nofun
  · rw [hs]
    exact h.update rfl nofun
  · intro p fd buf
    rcases eq_or_ne p ptr with rfl | hne
    · obtain ⟨conn', hself, -⟩ := hheard.self
      rw [hself]
      exact nofun
    · by_cases hstale : StaleIn s.heap s.connectedAgents.reduceOption conn.fd (hdrUuid m.hdr) p
      · rw [hheard.freed p hstale]
        exact nofun
      · rw [hheard.kept p hne hstale]
        exact h p fd buf

theorem Stepped.noWeb {cfg : ReceiverConfig} {s s' : Receiver} {e : ReceiverEvent}
    (hinv : s.AgentInv) (h : NoWeb s) (he : e.AgentSide) (hstep : Stepped cfg s e s') :
    NoWeb s' := by
  cases hstep with
  | idle => exact h
  | acceptAgent => exact h.update rfl nofun
  | acceptWeb => exact he.elim
  | hangUp => exact h.update rfl nofun
  | agent hready => exact agentReady_noWeb cfg hinv h (ready_eq_some hready).1 _
  | web hready => exact absurd (ready_eq_some hready).1 (h _ _ _)
  | openOther => exact h
  | closeOther => exact h

theorem NoWeb.not_closesClient {s : Receiver} (h : NoWeb s) (e : ReceiverEvent) :
    ¬ ClosesClient s e := by
  intro hcloses
  cases e with
  | readable ptr io =>
      obtain ⟨fd, buf, d, r, hready, -⟩ := hcloses
      exact h ptr fd buf (ready_eq_some hready).1
  | _ => exact hcloses.elim

/-- Nobody asks for live alerts where there is no web connection. -/
theorem good_of_agentSide (cfg : ReceiverConfig) (inUse : Nat → Bool) {events : List ReceiverEvent}
    (h : ∀ e ∈ events, e.AgentSide) :
    Along (receiverStep cfg) (fun s e => ¬ ClosesClient s e) (.start inUse) events := by
  refine Along.mono (fun s => s.Inv ∧ NoWeb s) ?_ ⟨start_inv inUse, fun _ _ _ => nofun⟩
    (along_of_forall h)
  rintro s e ⟨hinv, hweb⟩ he
  have hgood := hweb.not_closesClient e
  exact ⟨hgood, (receiverStep_inv cfg hinv e hgood).1,
    (receiverStep_stepped cfg s e).noWeb hinv.agentInv hweb he⟩

/-- A ping from the agent with this byte all over its UUID. -/
def pingFrame (b : UInt8) : Frame := ⟨List.replicate 16 b, msgTypePing, [], List.length_replicate⟩

/-- An agent connection with the ping to read. -/
def pingReady (b : UInt8) : Readiness :=
  { liveRequest with sock := ⟨(pingFrame b).bytes, [some 500]⟩ }

end Nullsploit
