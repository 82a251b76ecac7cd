/-
Nullsploit/AgentReach.lean

Which agents a command can reach.  A connection enters `connected_agents` once,
when it is accepted and only if a slot is free at that moment; it leaves it when
it is closed.  So whether an agent that has just been heard can be sent a
command was decided when its connection was accepted (`heard_agent_reachable_iff`).
-/
import Nullsploit.Connections

namespace Nullsploit

open CText HexText Inet Runs

/-! ### The registry as a command sees it -/

theorem mem_registry {s : Receiver} {conn : AgentConnection} :
    some conn ∈ s.registry
      ↔ ∃ ptr ∈ s.connectedAgents.reduceOption, s.heap ptr = some (.agent conn) := by
  unfold Receiver.registry
  rw [List.mem_map]
  constructor
  · rintro ⟨slot, hslot, hconn⟩
    obtain ⟨ptr, rfl, hptr⟩ := Option.bind_eq_some_iff.mp hconn
    refine ⟨ptr, List.reduceOption_mem_iff.mpr hslot, ?_⟩
    rcases hobj : s.heap ptr with - | ⟨c⟩ | ⟨fd, buf⟩
    · rw [hobj] at hptr
      cases hptr
    · rw [hobj] at hptr
      rw [Option.some.inj hptr]
    · rw [hobj] at hptr
      cases hptr
  · rintro ⟨ptr, hptr, hobj⟩
    refine ⟨some ptr, List.reduceOption_mem_iff.mp hptr, ?_⟩
    rw [Option.bind_some, hobj]

/-- If all connections with the UUID have one descriptor, that one is found,
provided there is any. -/
theorem findAgent_iff {uuid : List UInt8} {fd : Nat} {slots : Registry}
    (honly : ∀ conn, some conn ∈ slots → conn.uuid = uuid → conn.fd = fd) :
    findAgent uuid slots = some fd ↔ ∃ conn, some conn ∈ slots ∧ conn.uuid = uuid := by
  induction slots with
  | nil => simp [findAgent]
  | cons slot slots ih =>
      have hrest := ih fun conn hconn => honly conn (List.mem_cons_of_mem _ hconn)
      rcases slot with - | conn
      · rw [findAgent, hrest]
        simp
      · rw [findAgent]
        split
        · rename_i huuid
          have hfd := honly conn List.mem_cons_self huuid
          exact ⟨fun _ => ⟨conn, List.mem_cons_self, huuid⟩, fun _ => congrArg some hfd⟩
        · rename_i huuid
          rw [hrest]
          constructor
          · rintro ⟨c, hc, hu⟩
            exact ⟨c, List.mem_cons_of_mem _ hc, hu⟩
          · rintro ⟨c, hc, hu⟩
            rcases List.mem_cons.mp hc with heq | hc
            · cases heq
              exact absurd hu huuid
            · exact ⟨c, hc, hu⟩

/-! ### After a message -/

/-- A message leaves no other registered connection with its UUID, so a command
for the UUID finds its connection if that one is registered, and none
otherwise. -/
theorem findAgent_message (cfg : ReceiverConfig) {s : Receiver} (h : s.AgentInv) {ptr : Nat}
    {conn : AgentConnection} {d : Descriptor} (hready : s.ready ptr = some (.agent conn, d))
    (io : Readiness) {m : Message} (hm : m ∈ (agentReadable conn io.sock).messages) :
    findAgent (hdrUuid m.hdr) (agentReady cfg s ptr conn io).1.registry = some conn.fd
      ↔ ptr ∈ s.connectedAgents.reduceOption := by
  obtain ⟨hobj, -, -, -⟩ := ready_eq_some hready
  obtain ⟨hno, -⟩ | ⟨hno, -⟩ | ⟨m', hm', hheard⟩ := agentReady_spec cfg h hobj io
  · rw [hno] at hm
    cases hm
  · rw [hno] at hm
    cases hm
  · rw [hm'] at hm
    obtain rfl := List.mem_singleton.mp hm
    obtain ⟨conn', hself, hfd, huuid⟩ := hheard.self
    have honly : ∀ p ∈ (agentReady cfg s ptr conn io).1.connectedAgents.reduceOption, ∀ c,
        (agentReady cfg s ptr conn io).1.heap p = some (.agent c) → c.uuid = hdrUuid m.hdr →
        p = ptr ∧ c.fd = conn.fd := by
      intro p hp c hc hu
      obtain ⟨hmem, hstale⟩ := (hheard.agents_iff p).mp hp
      rcases eq_or_ne p ptr with rfl | hne
      · rw [hself] at hc
        cases hc
        exact ⟨rfl, hfd⟩
      · rw [hheard.kept p hne fun hin => Bool.eq_false_iff.mp hstale hin.2] at hc
        -- another descriptor, then, and the same UUID: this one is stale
        have hother := agent_fd_ne_of_ready h hready hmem hc hne
        exact absurd (isStale_iff.mpr ⟨c, hc, hother, hu⟩) (Bool.eq_false_iff.mp hstale)
    rw [findAgent_iff]
    · constructor
      · rintro ⟨c, hc, hu⟩
        obtain ⟨p, hp, hobj'⟩ := mem_registry.mp hc
        obtain ⟨rfl, -⟩ := honly p hp c hobj' hu
        exact ((hheard.agents_iff p).mp hp).1
      · intro hptr
        have hspared : isStale s.heap conn.fd (hdrUuid m.hdr) ptr = false := by
          simp [isStale, hobj]
        have hstays := (hheard.agents_iff ptr).mpr ⟨hptr, hspared⟩
        exact ⟨conn', mem_registry.mpr ⟨ptr, hstays, hself⟩, huuid⟩
    · intro c hc hu
      obtain ⟨p, hp, hobj'⟩ := mem_registry.mp hc
      exact (honly p hp c hobj' hu).2

/-! ### Who is registered -/

/-- The event accepts connection `ptr` on the agent port while a slot is free. -/
def AcceptedWithRoom (cfg : ReceiverConfig) (ptr : Nat) (s : Receiver) : ReceiverEvent → Prop
  | .acceptAgent fd addr => s.nextOwner = ptr ∧ s.table fd = none ∧
      authCheckIp cfg.shl cfg.whitelist (inetNtop addr) = true ∧ none ∈ s.connectedAgents
  | _ => False

/-- Unregistering the descriptor of a ready connection leaves the others. -/
theorem mem_unregister {s : Receiver} (h : s.AgentInv) {p ptr : Nat} {obj : ConnObject}
    {d : Descriptor} (hready : s.ready p = some (obj, d)) (hne : ptr ≠ p) :
    ptr ∈ (s.unregisterConnectedAgent obj.fd).connectedAgents.reduceOption
      ↔ ptr ∈ s.connectedAgents.reduceOption := by
  refine ⟨fun hmem => (Slots.clear_sublist _ _).subset hmem, fun hmem => ?_⟩
  refine Slots.mem_clear ?_ hmem
  obtain ⟨conn, d', hd'⟩ := h.agentOk ptr hmem
  have hfd := agent_fd_ne_of_ready h hready hmem hd'.object hne
  simp [Receiver.agentHasFd, hd'.object, hfd]

theorem agentReady_registered (cfg : ReceiverConfig) {s : Receiver} (h : s.AgentInv) {p ptr : Nat}
    {conn : AgentConnection} {d : Descriptor} (hready : s.ready p = some (.agent conn, d))
    (io : Readiness) (hlive : (agentReady cfg s p conn io).1.heap ptr ≠ none) :
    ptr ∈ (agentReady cfg s p conn io).1.connectedAgents.reduceOption
      ↔ ptr ∈ s.connectedAgents.reduceOption := by
  obtain ⟨hobj, -, -, -⟩ := ready_eq_some hready
  obtain ⟨-, hs⟩ | ⟨-, conn', hs⟩ | ⟨m, -, hheard⟩ := agentReady_spec cfg h hobj io
  · rw [hs] at hlive ⊢
    have hne : ptr ≠ p := by
      rintro rfl
      exact hlive (Function.update_self _ _ _)
    exact mem_unregister h hready hne
  · rw [hs]
  · rw [hheard.agents_iff]
    refine ⟨And.left, fun hmem => ⟨hmem, ?_⟩⟩
    -- a registered connection that is stale is freed
    by_contra hstale
    exact hlive (hheard.freed ptr ⟨hmem, by simpa using hstale⟩)

/-- A connection that is still there after a step is registered if it was, or if
the step accepted it with room. -/
theorem Stepped.registered_iff {cfg : ReceiverConfig} {s s' : Receiver} {e : ReceiverEvent}
    (h : s.AgentInv) (hstep : Stepped cfg s e s') {ptr : Nat} (hlive : s'.heap ptr ≠ none) :
    ptr ∈ s'.connectedAgents.reduceOption
      ↔ ptr ∈ s.connectedAgents.reduceOption ∨ AcceptedWithRoom cfg ptr s e := by
  have hother : ∀ {e : ReceiverEvent} {P : Prop}, (P ↔ ptr ∈ s.connectedAgents.reduceOption) →
      ¬ AcceptedWithRoom cfg ptr s e →
      (P ↔ ptr ∈ s.connectedAgents.reduceOption ∨ AcceptedWithRoom cfg ptr s e) :=
    fun hiff hno => hiff.trans (or_iff_left hno).symm
  cases hstep with
  | idle hrefused =>
      refine hother Iff.rfl fun hacc => ?_
      cases e with
      | acceptAgent fd addr => exact hrefused fd addr rfl ⟨hacc.2.1, hacc.2.2.1⟩
      | _ => exact hacc.elim
  | acceptAgent hfd hauth =>
      rcases Slots.fill_cases s.nextOwner s.connectedAgents with ⟨hfull, heq⟩ | ⟨hroom, hperm⟩
      · rw [heq]
        exact hother Iff.rfl fun hacc => hfull hacc.2.2.2
      · rw [hperm.mem_iff, List.mem_cons, or_comm]
        apply or_congr_right
        exact ⟨fun heq => ⟨heq.symm, hfd, hauth, hroom⟩, fun hacc => hacc.1.symm⟩
  | acceptWeb => exact hother Iff.rfl id
  | hangUp hready =>
      refine hother (mem_unregister h hready ?_) id
      rintro rfl
      exact hlive (Function.update_self _ _ _)
  | agent hready => exact hother (agentReady_registered cfg h hready _ hlive) id
  | web =>
      refine hother ?_ id
      rw [(webReady_onlySelf s _ _ _ _ _).connectedAgents]
  | openOther => exact hother Iff.rfl id
  | closeOther => exact hother Iff.rfl id

/-! ### Runs -/

/-- What a run leaves behind about its accepts: the registered connections are
those accepted with room that are still there. -/
structure RoomHistory (cfg : ReceiverConfig) (inUse : Nat → Bool) (events : List ReceiverEvent)
    (s : Receiver) : Prop where
  inv : s.AgentInv
  registered_iff : ∀ ptr, s.heap ptr ≠ none → (ptr ∈ s.connectedAgents.reduceOption
    ↔ Once (receiverStep cfg) (AcceptedWithRoom cfg ptr) (.start inUse) events)
  accepted : ∀ ptr, Once (receiverStep cfg) (AcceptedWithRoom cfg ptr) (.start inUse) events →
    ptr < s.nextOwner

theorem AcceptedWithRoom.lt_nextOwner {cfg : ReceiverConfig} {ptr : Nat} {s : Receiver}
    {e : ReceiverEvent} (h : AcceptedWithRoom cfg ptr s e) :
    ptr < (receiverStep cfg s e).1.nextOwner := by
  cases e with
  | acceptAgent fd addr =>
      obtain ⟨rfl, hfd, hauth, -⟩ := h
      show s.nextOwner < (s.acceptAgent cfg fd addr).nextOwner
      rw [Receiver.acceptAgent, if_pos ⟨hfd, hauth⟩]
      exact Nat.lt_succ_self _
  | _ => exact h.elim

theorem roomHistory_of_run (cfg : ReceiverConfig) (inUse : Nat → Bool)
    (events : List ReceiverEvent)
    (hspared : Along (receiverStep cfg) (fun s e => ¬ AlertClosesConnection cfg s e)
      (.start inUse) events) :
    RoomHistory cfg inUse events (exec (receiverStep cfg) (.start inUse) events).1 := by
  refine Along.history (RoomHistory cfg inUse) ?_ ?_ events hspared
  · exact ⟨(start_inv inUse).agentInv, fun _ h => absurd rfl h, fun _ h => h.elim⟩
  · intro events e h he
    have hstep := receiverStep_stepped cfg (exec (receiverStep cfg) (.start inUse) events).1 e
    have hgrows := hstep.heapGrows h.inv
    refine ⟨hstep.agentInv h.inv he, fun ptr hlive => ?_, fun ptr honce => ?_⟩
    · rw [hstep.registered_iff h.inv hlive, once_snoc]
      apply or_congr_left
      rcases hgrows.alloc ptr hlive with hold | ⟨rfl, -⟩
      · exact h.registered_iff ptr hold
      · -- a new connection: neither registered nor accepted before
        exact iff_of_false (fun hmem => Nat.lt_irrefl _ (h.inv.fresh _ hmem))
          fun honce => Nat.lt_irrefl _ (h.accepted _ honce)
    · rcases once_snoc.mp honce with hbefore | hnow
      · exact Nat.lt_of_lt_of_le (h.accepted ptr hbefore) hgrows.next
      · exact hnow.lt_nextOwner

/-- In this state the connection `ptr`, ready with `io`, has the last byte of a
message: `process_agent_message` is called with `m`. -/
structure Heard (s : Receiver) (ptr : Nat) (io : Readiness) (conn : AgentConnection) (m : Message) :
    Prop where
  ready : ∃ d, s.ready ptr = some (.agent conn, d) ∧ d.port = .agent
  message : m ∈ (agentReadable conn io.sock).messages

theorem hdrUuid_length_of_message {conn : AgentConnection} {sock : Socket} {m : Message}
    (hm : m ∈ (agentReadable conn sock).messages) : (hdrUuid m.hdr).length = 16 := by
  rcases agentReadable_messages conn sock with hno | ⟨m', conn', hm', -, huuid⟩
  · rw [hno] at hm
    cases hm
  · rw [hm'] at hm
    obtain rfl := List.mem_singleton.mp hm
    rw [← huuid]
    simp [AgentConnection.uuid, hdrUuid, Bytes.peek, hdrSize]

/-- **When a heard agent can be reached.**  In every run of the agent port,
whatever its accepts, messages and disconnects, right after a message of agent
`u` on a connection a command for `u` goes to that connection if and only if a
slot of `connected_agents` was free when the connection was accepted. -/
theorem heard_agent_reachable_iff (cfg : ReceiverConfig) (inUse : Nat → Bool)
    (events : List ReceiverEvent) (hagents : ∀ e ∈ events, e.AgentSide) (ptr : Nat) (io : Readiness)
    (conn : AgentConnection) (m : Message)
    (hheard : Heard (exec (receiverStep cfg) (.start inUse) events).1 ptr io conn m)
    (iv : AesBlock) (junk : Nat → UInt8) (commandType : UInt8) (data : List UInt8) :
    (sendCommandToAgent cfg.key iv junk
        (exec (receiverStep cfg) (.start inUse) (events ++ [.readable ptr io])).1.registry
        (hexText (hdrUuid m.hdr)) commandType data).map Prod.fst = some conn.fd
      ↔ Once (receiverStep cfg) (AcceptedWithRoom cfg ptr) (.start inUse) events := by
  have hrun := roomHistory_of_run cfg inUse events
    (spared_of_good (start_inv inUse) (good_of_agentSide cfg inUse hagents))
  obtain ⟨d, hready, hport⟩ := hheard.ready
  have hstep : (exec (receiverStep cfg) (.start inUse) (events ++ [.readable ptr io])).1
      = (agentReady cfg (exec (receiverStep cfg) (.start inUse) events).1 ptr conn io).1 := by
    rw [exec_snoc, receiverStep, Receiver.readable, hready]
    dsimp only
    rw [hport]
  have hlive : (exec (receiverStep cfg) (.start inUse) events).1.heap ptr ≠ none := by
    rw [(ready_eq_some hready).1]
    exact Option.some_ne_none _
  rw [sendCommandToAgent_hexText _ _ _ _ (hdrUuid_length_of_message hheard.message), Option.map_map,
    hstep]
  show (findAgent _ _).map id = _ ↔ _
  rw [Option.map_id_fun, id, findAgent_message cfg hrun.inv hready io hheard.message]
  exact hrun.registered_iff ptr hlive

/-- The ping as it is heard. -/
def pingMessage (b : UInt8) : Message := ⟨(pingFrame b).header, []⟩

/-- The first agent to connect. -/
theorem first_agent_reachable :
    (sendCommandToAgent openConfig.key (fun _ => 0) (fun _ => 0)
        (exec (receiverStep openConfig) (.start (· < 8))
          ([.acceptAgent 8 0] ++ [.readable 0 (pingReady 7)])).1.registry
        (hexText (hdrUuid (pingMessage 7).hdr)) msgTypeBlockIp [10, 0, 0, 5]).map Prod.fst
      = some 8 := by
  have hagents : ∀ e ∈ [ReceiverEvent.acceptAgent 8 0], e.AgentSide := by
    simp [ReceiverEvent.AgentSide]
  have hheard : Heard (exec (receiverStep openConfig) (.start (· < 8)) [.acceptAgent 8 0]).1 0
      (pingReady 7) (.accepted 8 (inetNtop 0)) (pingMessage 7) :=
    ⟨⟨_, rfl, rfl⟩, List.mem_singleton.mpr rfl⟩
  apply (heard_agent_reachable_iff openConfig (· < 8) _ hagents 0 _ _ _ hheard _ _ _ _).mpr
  exact Or.inl ⟨rfl, rfl, by decide +kernel, by decide⟩

/-- All slots are taken by connections that say nothing, an agent connects, and
one of the others hangs up. -/
def crowdedAccept : List ReceiverEvent :=
  (List.range 129).map (fun i => .acceptAgent (8 + i) 0) ++ [.hangUp 0]

set_option maxRecDepth 4096 in
/-- The agent is heard, and there is a free slot by now, but it is "not
currently online". -/
theorem accepted_when_full_unreachable :
    let s := (exec (receiverStep openConfig) (.start (· < 8)) crowdedAccept).1
    (∀ e ∈ crowdedAccept, e.AgentSide) ∧
      Heard s 128 (pingReady 7) (.accepted 136 (inetNtop 0)) (pingMessage 7) ∧
      none ∈ s.connectedAgents ∧
      sendCommandToAgent openConfig.key (fun _ => 0) (fun _ => 0)
        (exec (receiverStep openConfig) (.start (· < 8))
          (crowdedAccept ++ [.readable 128 (pingReady 7)])).1.registry
        (hexText (hdrUuid (pingMessage 7).hdr)) msgTypeBlockIp [10, 0, 0, 5] = none := by
  intro s
  have hagents : ∀ e ∈ crowdedAccept, e.AgentSide := by
    intro e he
    rcases List.mem_append.mp he with hmap | hlast
    · obtain ⟨i, -, rfl⟩ := List.mem_map.mp hmap
      trivial
    · obtain rfl := List.mem_singleton.mp hlast
      trivial
  exact ⟨hagents, ⟨⟨_, rfl, rfl⟩, List.mem_singleton.mpr rfl⟩, by decide +kernel, by decide +kernel⟩

end Nullsploit
