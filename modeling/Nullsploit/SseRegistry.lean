/-
Nullsploit/SseRegistry.lean

Who is in `sse_clients`.  The registry is safe if every entry stands for the
open connection it was made for, which completed the handshake for live alerts
(`SseSafe`).

`RegistryInv` is the invariant behind it: clients are web connections outside
the epoll set, so no event of theirs can close them; registered agents own
their descriptors, so the clean-up of an agent's old connections closes only
agent connections.  Each operation of the loop keeps it, with one exception: a
handshake under a longer path than /api/events/live is registered by the
handler, which compares sixteen characters, and then closed by `main`, which
compares the whole path.  `sse_registry_safe_iff` says that this is the only way
the registry becomes unsafe.
-/
import Nullsploit.Receiver
import Nullsploit.Runs

namespace Nullsploit

open CText Inet Runs

/-! ### The invariant -/

/-- Every entry stands for the connection it was made for, and this connection
completed the handshake. -/
def SseSafe (s : Receiver) : Prop :=
  ∀ c, some c ∈ s.sseClients →
    ∃ d, s.table c.fd = some d ∧ d.owner = c.owner ∧ d.port = .web ∧ d.live = true

/-- The descriptor of a client. -/
structure ClientOk (table : Nat → Option Descriptor) (c : SseClient) (d : Descriptor) : Prop where
  isOpen : table c.fd = some d
  owner : d.owner = c.owner
  port : d.port = .web
  live : d.live = true
  unwatched : d.watched = false

/-- The connection and the descriptor of a registered agent. -/
structure AgentOk (table : Nat → Option Descriptor) (heap : Nat → Option ConnObject) (ptr : Nat)
    (conn : AgentConnection) (d : Descriptor) : Prop where
  object : heap ptr = some (.agent conn)
  isOpen : table conn.fd = some d
  owner : d.owner = ptr
  port : d.port = .agent
  watched : d.watched = true

/-- The invariant of the registered agents. -/
structure AgentsInv (next : Nat) (table : Nat → Option Descriptor)
    (heap : Nat → Option ConnObject) (agents : List Nat) : Prop where
  agentOk : ∀ ptr ∈ agents, ∃ conn d, AgentOk table heap ptr conn d
  agentsNodup : agents.Nodup
  fresh : ∀ ptr ∈ agents, ptr < next

/-- The invariant, in terms of the entries of the registries. -/
structure RegistryInv (next : Nat) (table : Nat → Option Descriptor)
    (heap : Nat → Option ConnObject) (agents : List Nat) (clients : List SseClient) : Prop
    extends AgentsInv next table heap agents where
  clientOk : ∀ c ∈ clients, ∃ d, ClientOk table c d
  clientsNodup : (clients.map SseClient.fd).Nodup

def Receiver.AgentInv (s : Receiver) : Prop :=
  AgentsInv s.nextOwner s.table s.heap s.connectedAgents.reduceOption

def Receiver.Inv (s : Receiver) : Prop :=
  RegistryInv s.nextOwner s.table s.heap s.connectedAgents.reduceOption s.sseClients.reduceOption

theorem start_inv (inUse : Nat → Bool) : (Receiver.start inUse).Inv := by
  have hagents : (Receiver.start inUse).connectedAgents.reduceOption = [] :=
    List.reduceOption_replicate_none
  have hclients : (Receiver.start inUse).sseClients.reduceOption = [] :=
    List.reduceOption_replicate_none
  rw [Receiver.Inv, hagents, hclients]
  exact ⟨⟨by simp, List.nodup_nil, by simp⟩, by simp, List.nodup_nil⟩

theorem Receiver.Inv.agentInv {s : Receiver} (h : s.Inv) : s.AgentInv := h.toAgentsInv

theorem Receiver.Inv.sseSafe {s : Receiver} (h : s.Inv) : SseSafe s := by
  intro c hc
  obtain ⟨d, hd⟩ := h.clientOk c (List.reduceOption_mem_iff.mpr hc)
  exact ⟨d, hd.isOpen, hd.owner, hd.port, hd.live⟩

/-! ### What keeps it -/

namespace AgentsInv

variable {next : Nat} {table : Nat → Option Descriptor} {heap : Nat → Option ConnObject}
  {agents agents' : List Nat} {fd ptr : Nat} {d : Descriptor}

theorem sublist (h : AgentsInv next table heap agents) (hagents : agents'.Sublist agents) :
    AgentsInv next table heap agents' where
  agentOk ptr hptr := h.agentOk ptr (hagents.subset hptr)
  agentsNodup := h.agentsNodup.sublist hagents
  fresh ptr hptr := h.fresh ptr (hagents.subset hptr)

/-- The descriptor of a registered agent, given its object. -/
theorem agent_fd (h : AgentsInv next table heap agents) (hptr : ptr ∈ agents)
    {conn : AgentConnection} (hconn : heap ptr = some (.agent conn)) :
    ∃ d, table conn.fd = some d ∧ d.owner = ptr ∧ d.port = .agent ∧ d.watched = true := by
  obtain ⟨conn', d, hd⟩ := h.agentOk ptr hptr
  obtain rfl : conn = conn' := by simpa using hconn.symm.trans hd.object
  exact ⟨d, hd.isOpen, hd.owner, hd.port, hd.watched⟩

/-- A change that no registered agent notices. -/
theorem of_same (h : AgentsInv next table heap agents) {table' : Nat → Option Descriptor}
    {heap' : Nat → Option ConnObject} (hheap : ∀ ptr ∈ agents, heap' ptr = heap ptr)
    (htable : ∀ ptr ∈ agents, ∀ conn, heap ptr = some (.agent conn) →
      table' conn.fd = table conn.fd) : AgentsInv next table' heap' agents where
  agentOk ptr hptr := by
    obtain ⟨conn, d, hd⟩ := h.agentOk ptr hptr
    exact ⟨conn, d, (hheap ptr hptr).trans hd.object,
      (htable ptr hptr conn hd.object).trans hd.isOpen, hd.owner, hd.port, hd.watched⟩
  agentsNodup := h.agentsNodup
  fresh := h.fresh

/-- A change of the table that no registered agent notices. -/
theorem of_table (h : AgentsInv next table heap agents) {table' : Nat → Option Descriptor}
    (hsame : ∀ ptr ∈ agents, ∀ conn, heap ptr = some (.agent conn) →
      table' conn.fd = table conn.fd) : AgentsInv next table' heap agents :=
  h.of_same (fun _ _ => rfl) hsame

/-- A change of one descriptor that is no registered agent's. -/
theorem update_table (h : AgentsInv next table heap agents) (x : Option Descriptor)
    (hagent : ∀ ptr ∈ agents, ∀ conn, heap ptr = some (.agent conn) → conn.fd ≠ fd) :
    AgentsInv next (Function.update table fd x) heap agents :=
  h.of_table fun ptr hptr conn hconn => Function.update_of_ne (hagent ptr hptr conn hconn) _ _

/-- An open descriptor is a registered agent's only if its owner is. -/
theorem agent_fd_ne (h : AgentsInv next table heap agents) (hfd : table fd = some d)
    (howner : d.port = .agent → d.owner ∉ agents) :
    ∀ ptr ∈ agents, ∀ conn, heap ptr = some (.agent conn) → conn.fd ≠ fd := by
  rintro ptr hptr conn hconn rfl
  obtain ⟨d', hisOpen, rfl, hport, -⟩ := h.agent_fd hptr hconn
  obtain rfl : d' = d := Option.some.inj (hisOpen.symm.trans hfd)
  exact howner hport hptr

/-- A descriptor that is not in use is no registered agent's. -/
theorem agent_fd_ne_of_closed (h : AgentsInv next table heap agents) (hfd : table fd = none) :
    ∀ ptr ∈ agents, ∀ conn, heap ptr = some (.agent conn) → conn.fd ≠ fd := by
  rintro ptr hptr conn hconn rfl
  obtain ⟨d', hisOpen, -⟩ := h.agent_fd hptr hconn
  rw [hfd] at hisOpen
  cases hisOpen

/-- Opening a descriptor that was not in use. -/
theorem openFd (h : AgentsInv next table heap agents) (hfd : table fd = none) (d : Descriptor) :
    AgentsInv (next + 1) (Function.update table fd (some d)) heap agents :=
  { h.update_table _ (h.agent_fd_ne_of_closed hfd) with
    fresh := fun ptr hptr => (h.fresh ptr hptr).trans (Nat.lt_succ_self next) }

/-- A change of an object that is no registered agent's. -/
theorem update_heap (h : AgentsInv next table heap agents) (x : Option ConnObject)
    (hptr : ptr ∉ agents) : AgentsInv next table (Function.update heap ptr x) agents := by
  refine h.of_same (fun ptr' hptr' => Function.update_of_ne ?_ _ _) fun _ _ _ _ => rfl
  rintro rfl
  exact hptr hptr'

/-- A change of an agent's object that leaves its descriptor. -/
theorem update_agent (h : AgentsInv next table heap agents) {conn conn' : AgentConnection}
    (hconn : heap ptr = some (.agent conn)) (hfd : conn'.fd = conn.fd) :
    AgentsInv next table (Function.update heap ptr (some (.agent conn'))) agents where
  agentOk ptr' hptr' := by
    rcases eq_or_ne ptr' ptr with rfl | hne
    · obtain ⟨d, hisOpen, howner, hport, hwatched⟩ := h.agent_fd hptr' hconn
      exact ⟨conn', d, Function.update_self _ _ _, hfd ▸ hisOpen, howner, hport, hwatched⟩
    · obtain ⟨conn'', d, hd⟩ := h.agentOk ptr' hptr'
      exact ⟨conn'', d, { hd with object := (Function.update_of_ne hne _ _).trans hd.object }⟩
  agentsNodup := h.agentsNodup
  fresh := h.fresh

/-- An agent that is closed, freed and leaves. -/
theorem dropAgent {pre post : List Nat} (h : AgentsInv next table heap (pre ++ ptr :: post))
    {conn : AgentConnection} (hconn : heap ptr = some (.agent conn)) :
    AgentsInv next (Function.update table conn.fd none) (Function.update heap ptr none)
      (pre ++ post) := by
  obtain ⟨d, hisOpen, rfl, -⟩ := h.agent_fd (by simp) hconn
  have hptr : d.owner ∉ pre ++ post := by
    have hnodup := h.agentsNodup
    rw [List.perm_middle.nodup_iff] at hnodup
    exact (List.nodup_cons.mp hnodup).1
  have hrest : AgentsInv next table heap (pre ++ post) :=
    h.sublist ((List.sublist_cons_self _ post).append_left pre)
  exact (hrest.update_table none (hrest.agent_fd_ne hisOpen fun _ => hptr)).update_heap none hptr

/-- A new agent in the registry. -/
theorem addAgent (h : AgentsInv next table heap agents) (hptr : ptr ∉ agents)
    (hlt : ptr < next) {conn : AgentConnection} (hconn : AgentOk table heap ptr conn d)
    (hperm : agents'.Perm (ptr :: agents)) : AgentsInv next table heap agents' where
  agentOk ptr' hptr' := by
    rcases List.mem_cons.mp (hperm.subset hptr') with rfl | hmem
    · exact ⟨conn, d, hconn⟩
    · exact h.agentOk ptr' hmem
  agentsNodup := hperm.nodup_iff.mpr (List.nodup_cons.mpr ⟨hptr, h.agentsNodup⟩)
  fresh ptr' hptr' := by
    rcases List.mem_cons.mp (hperm.subset hptr') with rfl | hmem
    · exact hlt
    · exact h.fresh ptr' hmem

end AgentsInv

namespace RegistryInv

variable {next : Nat} {table : Nat → Option Descriptor} {heap : Nat → Option ConnObject}
  {agents agents' : List Nat} {clients clients' : List SseClient} {fd ptr : Nat} {d : Descriptor}

theorem sublist (h : RegistryInv next table heap agents clients) (hagents : agents'.Sublist agents)
    (hclients : clients'.Sublist clients) : RegistryInv next table heap agents' clients' :=
  { h.toAgentsInv.sublist hagents with
    clientOk := fun c hc => h.clientOk c (hclients.subset hc)
    clientsNodup := h.clientsNodup.sublist (hclients.map _) }

/-- A change of the registered agents and their objects. -/
theorem setAgents (h : RegistryInv next table heap agents clients)
    {heap' : Nat → Option ConnObject} (hagents : AgentsInv next table heap' agents') :
    RegistryInv next table heap' agents' clients :=
  { hagents with clientOk := h.clientOk, clientsNodup := h.clientsNodup }

/-- The descriptor of a client is no agent's and not in the epoll set. -/
theorem client_fd_ne (h : RegistryInv next table heap agents clients) (hfd : table fd = some d)
    (hd : d.port ≠ .web ∨ d.watched = true) {c : SseClient} (hc : c ∈ clients) : c.fd ≠ fd := by
  rintro rfl
  obtain ⟨d', hd'⟩ := h.clientOk c hc
  obtain rfl : d' = d := Option.some.inj (hd'.isOpen.symm.trans hfd)
  rcases hd with hport | hwatched
  · exact hport hd'.port
  · rw [hd'.unwatched] at hwatched
    cases hwatched

/-- A change of one descriptor that is neither a client's nor a registered
agent's. -/
theorem update_table (h : RegistryInv next table heap agents clients) (x : Option Descriptor)
    (hclient : ∀ c ∈ clients, c.fd ≠ fd)
    (hagent : ∀ ptr ∈ agents, ∀ conn, heap ptr = some (.agent conn) → conn.fd ≠ fd) :
    RegistryInv next (Function.update table fd x) heap agents clients :=
  { h.toAgentsInv.update_table x hagent with
    clientOk := fun c hc => by
      obtain ⟨d, hd⟩ := h.clientOk c hc
      exact ⟨d, { hd with isOpen := (Function.update_of_ne (hclient c hc) _ _).trans hd.isOpen }⟩
    clientsNodup := h.clientsNodup }

/-- Opening a descriptor that was not in use. -/
theorem openFd (h : RegistryInv next table heap agents clients) (hfd : table fd = none)
    (d : Descriptor) :
    RegistryInv (next + 1) (Function.update table fd (some d)) heap agents clients := by
  have hopen : RegistryInv next (Function.update table fd (some d)) heap agents clients := by
    refine h.update_table _ ?_ (h.agent_fd_ne_of_closed hfd)
    rintro c hc rfl
    obtain ⟨d', hd'⟩ := h.clientOk c hc
    have hisOpen := hd'.isOpen
    rw [hfd] at hisOpen
    cases hisOpen
  exact { hopen with fresh := (h.toAgentsInv.openFd hfd d).fresh }

/-- Closing a descriptor that is no client's, after its owner has left the
registry of agents. -/
theorem close (h : RegistryInv next table heap agents clients) (hfd : table fd = some d)
    (hd : d.port ≠ .web ∨ d.watched = true) (howner : d.port = .agent → d.owner ∉ agents) :
    RegistryInv next (Function.update table fd none) heap agents clients :=
  h.update_table _ (fun _ hc => h.client_fd_ne hfd hd hc) (h.agent_fd_ne hfd howner)

/-- A change of an object that is no registered agent's. -/
theorem update_heap (h : RegistryInv next table heap agents clients) (x : Option ConnObject)
    (hptr : ptr ∉ agents) : RegistryInv next table (Function.update heap ptr x) agents clients :=
  h.setAgents (h.toAgentsInv.update_heap x hptr)

/-- The handshake: the connection leaves the epoll set. -/
theorem handshake (h : RegistryInv next table heap agents clients) (hfd : table fd = some d)
    (hport : d.port = .web) (hwatched : d.watched = true) :
    RegistryInv next (Function.update table fd (some { d with live := true, watched := false }))
      heap agents clients := by
  refine h.update_table _ (fun _ hc => h.client_fd_ne hfd (Or.inr hwatched) hc)
    (h.agent_fd_ne hfd fun hagent => ?_)
  rw [hport] at hagent
  cases hagent

/-- A new client. -/
theorem addClient (h : RegistryInv next table heap agents clients) {c : SseClient}
    (hc : ClientOk table c d) (hfd : ∀ c' ∈ clients, c'.fd ≠ c.fd)
    (hperm : clients'.Perm (c :: clients)) : RegistryInv next table heap agents clients' where
  toAgentsInv := h.toAgentsInv
  clientOk c' hc' := by
    rcases List.mem_cons.mp (hperm.subset hc') with rfl | hmem
    · exact ⟨d, hc⟩
    · exact h.clientOk c' hmem
  clientsNodup := by
    rw [(hperm.map SseClient.fd).nodup_iff, List.map_cons, List.nodup_cons]
    refine ⟨?_, h.clientsNodup⟩
    intro hmem
    obtain ⟨c', hc', heq⟩ := List.mem_map.mp hmem
    exact hfd c' hc' heq

/-- A client that is closed and leaves. -/
theorem dropClient {pre post : List SseClient} {c : SseClient}
    (h : RegistryInv next table heap agents (pre ++ c :: post)) :
    RegistryInv next (Function.update table c.fd none) heap agents (pre ++ post) := by
  obtain ⟨d, hd⟩ := h.clientOk c (by simp)
  have hothers : ∀ c' ∈ pre ++ post, c'.fd ≠ c.fd := by
    have hnodup := h.clientsNodup
    rw [(List.perm_middle.map SseClient.fd).nodup_iff, List.map_cons, List.nodup_cons] at hnodup
    intro c' hc' heq
    exact hnodup.1 (List.mem_map.mpr ⟨c', hc', heq⟩)
  have hrest : RegistryInv next table heap agents (pre ++ post) :=
    h.sublist (List.Sublist.refl _) ((List.sublist_cons_self c post).append_left pre)
  -- a client is a web connection, so no agent has its descriptor
  refine hrest.update_table _ hothers (h.agent_fd_ne hd.isOpen fun hagent => ?_)
  rw [hd.port] at hagent
  cases hagent

/-- An agent that is closed, freed and leaves. -/
theorem dropAgent {pre post : List Nat}
    (h : RegistryInv next table heap (pre ++ ptr :: post) clients) {conn : AgentConnection}
    (hconn : heap ptr = some (.agent conn)) :
    RegistryInv next (Function.update table conn.fd none) (Function.update heap ptr none)
      (pre ++ post) clients where
  toAgentsInv := h.toAgentsInv.dropAgent hconn
  clientOk c hc := by
    obtain ⟨d, hisOpen, -, hport, -⟩ := h.agent_fd (by simp) hconn
    obtain ⟨d', hd'⟩ := h.clientOk c hc
    have hne : c.fd ≠ conn.fd := by
      apply h.client_fd_ne hisOpen _ hc
      left
      rw [hport]
      decide
    exact ⟨d', { hd' with isOpen := (Function.update_of_ne hne _ _).trans hd'.isOpen }⟩
  clientsNodup := h.clientsNodup

end RegistryInv

/-! ### Broadcasts and messages -/

/-- The alert went to a web connection that completed the handshake. -/
def AlertWrite.Ok (w : AlertWrite) : Prop := w.target.port = .web ∧ w.target.live = true

/-- Nothing is written to a closed descriptor. -/
theorem broadcastTo_closed (writeFails : Nat → Bool) {table : Nat → Option Descriptor}
    (writes : List AlertWrite) {c : SseClient} (h : table c.fd = none) :
    broadcastTo writeFails (table, writes) c = ((table, writes), true) := by
  unfold broadcastTo
  rw [show (table, writes).1 c.fd = none from h]

/-- A write to an open descriptor fails or does not. -/
theorem broadcastTo_cases (writeFails : Nat → Bool) {table : Nat → Option Descriptor}
    (writes : List AlertWrite) {c : SseClient} {d : Descriptor} (h : table c.fd = some d) :
    writeFails c.fd = true ∧
        broadcastTo writeFails (table, writes) c
          = ((Function.update table c.fd none, writes), true) ∨
      broadcastTo writeFails (table, writes) c = ((table, writes ++ [⟨c.fd, d⟩]), false) := by
  unfold broadcastTo
  rw [show (table, writes).1 c.fd = some d from h]
  dsimp only
  split
  · exact Or.inl ⟨‹_›, rfl⟩
  · exact Or.inr rfl

/-- A broadcast keeps the invariant and reaches only clients. -/
theorem sseBroadcast_inv {s : Receiver} (h : s.Inv) (writeFails : Nat → Bool) :
    (sseBroadcast writeFails s).1.Inv ∧ ∀ w ∈ (sseBroadcast writeFails s).2, w.Ok := by
  refine Slots.sweep_invariant (broadcastTo writeFails)
    (fun t clients => RegistryInv s.nextOwner t.1 s.heap s.connectedAgents.reduceOption clients ∧
      ∀ w ∈ t.2, w.Ok) ?_ ?_ (s.table, []) s.sseClients ⟨h, by simp⟩
  · rintro ⟨table, writes⟩ pre c post ⟨hinv, hwrites⟩ hkept
    obtain ⟨d, hd⟩ := hinv.clientOk c (by simp)
    rcases broadcastTo_cases writeFails writes hd.isOpen with ⟨-, hb⟩ | hb
    · rw [hb] at hkept
      cases hkept
    · rw [hb]
      exact ⟨hinv, List.forall_mem_append.mpr
        ⟨hwrites, List.forall_mem_singleton.mpr ⟨hd.port, hd.live⟩⟩⟩
  · rintro ⟨table, writes⟩ pre c post ⟨hinv, hwrites⟩ hfreed
    obtain ⟨d, hd⟩ := hinv.clientOk c (by simp)
    rcases broadcastTo_cases writeFails writes hd.isOpen with ⟨-, hb⟩ | hb
    · rw [hb]
      exact ⟨hinv.dropClient, hwrites⟩
    · rw [hb] at hfreed
      cases hfreed

/-- A visit of the clean-up that keeps the slot changes nothing. -/
theorem cleanStale_kept {fd : Nat} {uuid : List UInt8} {table : Nat → Option Descriptor}
    {heap : Nat → Option ConnObject} {ptr : Nat}
    (hkept : (cleanStale fd uuid (table, heap) ptr).2 = false) :
    (cleanStale fd uuid (table, heap) ptr).1 = (table, heap) := by
  unfold cleanStale at hkept ⊢
  split at hkept
  · split at hkept
    · cases hkept
    · rename_i hno
      rw [if_neg hno]
  · rfl

/-- One that frees it closes and frees an agent's connection. -/
theorem cleanStale_freed {fd : Nat} {uuid : List UInt8} {table : Nat → Option Descriptor}
    {heap : Nat → Option ConnObject} {ptr : Nat}
    (hfreed : (cleanStale fd uuid (table, heap) ptr).2 = true) :
    ∃ old, heap ptr = some (.agent old) ∧ (cleanStale fd uuid (table, heap) ptr).1
      = (Function.update table old.fd none, Function.update heap ptr none) := by
  unfold cleanStale at hfreed ⊢
  split at hfreed
  · rename_i old hobj
    split at hfreed
    · rename_i hstale
      exact ⟨old, hobj, by rw [if_pos hstale]⟩
    · cases hfreed
  · cases hfreed

/-- The rule for the clean-up: what survives that an agent is closed, freed and
taken from the registry, survives it. -/
theorem cleanUp_invariant
    (I : (Nat → Option Descriptor) → (Nat → Option ConnObject) → List Nat → Prop)
    (hdrop : ∀ table heap pre ptr post old, I table heap (pre ++ ptr :: post) →
      heap ptr = some (.agent old) →
      I (Function.update table old.fd none) (Function.update heap ptr none) (pre ++ post))
    {s : Receiver} (h : I s.table s.heap s.connectedAgents.reduceOption) (fd : Nat)
    (uuid : List UInt8) :
    I (s.cleanUp fd uuid).table (s.cleanUp fd uuid).heap
      (s.cleanUp fd uuid).connectedAgents.reduceOption := by
  refine Slots.sweep_invariant (cleanStale fd uuid) (fun t agents => I t.1 t.2 agents) ?_ ?_
    (s.table, s.heap) s.connectedAgents h
  · rintro ⟨table, heap⟩ pre ptr post hI hkept
    rw [cleanStale_kept hkept]
    exact hI
  · rintro ⟨table, heap⟩ pre ptr post hI hfreed
    obtain ⟨old, hobj, hclosed⟩ := cleanStale_freed hfreed
    rw [hclosed]
    exact hdrop table heap pre ptr post old hI hobj

theorem Receiver.AgentInv.cleanUp {s : Receiver} (h : s.AgentInv) (fd : Nat) (uuid : List UInt8) :
    (s.cleanUp fd uuid).AgentInv :=
  cleanUp_invariant (AgentsInv s.nextOwner) (fun _ _ _ _ _ _ hI hobj => hI.dropAgent hobj) h fd uuid

/-- The clean-up closes agent connections only. -/
theorem Receiver.Inv.cleanUp {s : Receiver} (h : s.Inv) (fd : Nat) (uuid : List UInt8) :
    (s.cleanUp fd uuid).Inv :=
  cleanUp_invariant
    (fun table heap agents =>
      RegistryInv s.nextOwner table heap agents s.sseClients.reduceOption)
    (fun _ _ _ _ _ _ hI hobj => hI.dropAgent hobj) h fd uuid

theorem runCalls_inv (writeFails : Nat → Bool) (calls : List IngestCall) :
    ∀ {s : Receiver}, s.Inv →
      (runCalls writeFails s calls).1.Inv ∧ ∀ w ∈ (runCalls writeFails s calls).2, w.Ok := by
  induction calls with
  | nil => exact fun h => ⟨h, by simp [runCalls]⟩
  | cons call calls ih =>
      intro s h
      cases call with
      | sseBroadcast uuid event =>
          obtain ⟨hinv, hwrites⟩ := sseBroadcast_inv h writeFails
          obtain ⟨hinv', hwrites'⟩ := ih hinv
          exact ⟨hinv', List.forall_mem_append.mpr ⟨hwrites, hwrites'⟩⟩
      | _ => exact ih h

theorem processMessages_inv (cfg : ReceiverConfig) (conn : AgentConnection)
    (writeFails : Nat → Bool) (ms : List Message) :
    ∀ {s : Receiver}, s.Inv → (processMessages cfg conn writeFails s ms).1.Inv ∧
      ∀ w ∈ (processMessages cfg conn writeFails s ms).2.2, w.Ok := by
  induction ms with
  | nil => exact fun h => ⟨h, by simp [processMessages]⟩
  | cons m ms ih =>
      intro s h
      obtain ⟨hinv, hwrites⟩ := runCalls_inv writeFails
        (processAgentMessage cfg.key conn.clientIp m) (h.cleanUp conn.fd (hdrUuid m.hdr))
      obtain ⟨hinv', hwrites'⟩ := ih hinv
      exact ⟨hinv', List.forall_mem_append.mpr ⟨hwrites, hwrites'⟩⟩

/-! ### Ready connections -/

theorem ready_eq_some {s : Receiver} {ptr : Nat} {obj : ConnObject} {d : Descriptor}
    (h : s.ready ptr = some (obj, d)) :
    s.heap ptr = some obj ∧ s.table obj.fd = some d ∧ d.owner = ptr ∧ d.watched = true := by
  unfold Receiver.ready at h
  split at h
  · cases h
  · rename_i obj' hobj
    split at h
    · cases h
    · rename_i d' hd
      split at h
      · rename_i hok
        cases h
        exact ⟨hobj, hd, hok.1, hok.2⟩
      · cases h

/-- A wake-up leaves the descriptor of a connection. -/
theorem payloadPhase_fd (conn : AgentConnection) (sock : Socket) :
    ∀ conn', (payloadPhase conn sock).conn = some conn' → conn'.fd = conn.fd := by
  intro conn' h
  unfold payloadPhase at h
  split at h
  · cases h
    rfl
  · dsimp only at h
    split at h
    · cases h
      rfl
    · cases h
    · split at h
      · cases h
        rfl
      · cases h
        rfl

theorem checkHeader_fd {conn conn' : AgentConnection} (h : conn.checkHeader = some conn') :
    conn'.fd = conn.fd := by
  unfold AgentConnection.checkHeader at h
  split at h
  · split at h
    · cases h
    · split at h
      · cases h
      · cases h
        rfl
  · cases h
    rfl

theorem agentReadable_fd (conn : AgentConnection) (sock : Socket) :
    ∀ conn', (agentReadable conn sock).conn = some conn' → conn'.fd = conn.fd := by
  intro conn' h
  unfold agentReadable at h
  split at h
  · exact payloadPhase_fd conn sock conn' h
  · dsimp only at h
    split at h
    · cases h
      rfl
    · cases h
    · split at h
      · cases h
      · rename_i bs _ got hgot
        have hfd := checkHeader_fd hgot
        split at h
        · exact (payloadPhase_fd got _ conn' h).trans hfd
        · cases h
          exact hfd

/-- The connection whose descriptor is unregistered is no longer in the
registry. -/
theorem not_mem_unregister {s : Receiver} (h : s.AgentInv) {ptr : Nat} {obj : ConnObject}
    {d : Descriptor} (hobj : s.heap ptr = some obj) (hd : s.table obj.fd = some d)
    (howner : d.owner = ptr) :
    ptr ∉ (s.unregisterConnectedAgent obj.fd).connectedAgents.reduceOption := by
  intro hmem
  obtain ⟨conn, d', hd'⟩ := h.agentOk ptr ((Slots.clear_sublist _ _).subset hmem)
  obtain rfl : obj = .agent conn := Option.some.inj (hobj.symm.trans hd'.object)
  have hptr : Receiver.agentHasFd s.heap conn.fd ptr = true := by
    simp [Receiver.agentHasFd, hobj]
  refine Slots.not_mem_clear hptr h.agentsNodup ?_ hmem
  intro y hy hfd
  obtain ⟨conn', d'', hd''⟩ := h.agentOk y hy
  have hsame : conn'.fd = conn.fd := by simpa [Receiver.agentHasFd, hd''.object] using hfd
  have hisOpen := hd''.isOpen
  rw [hsame] at hisOpen
  obtain rfl : d'' = d := Option.some.inj (hisOpen.symm.trans hd)
  exact hd''.owner.symm.trans howner

/-- Closing a ready connection, with its object and its entry. -/
theorem Receiver.AgentInv.release {s : Receiver} (h : s.AgentInv) {ptr : Nat} {obj : ConnObject}
    {d : Descriptor} (hready : s.ready ptr = some (obj, d)) {agents : List Nat}
    (hagents : agents.Sublist s.connectedAgents.reduceOption) (hptr : ptr ∉ agents) :
    AgentsInv s.nextOwner (Function.update s.table obj.fd none)
      (Function.update s.heap ptr none) agents := by
  obtain ⟨hobj, hd, howner, -⟩ := ready_eq_some hready
  have hrest : AgentsInv s.nextOwner s.table s.heap agents := AgentsInv.sublist h hagents
  exact (hrest.update_table none (hrest.agent_fd_ne hd fun _ => howner.symm ▸ hptr)).update_heap
    none hptr

/-- Closing a ready connection, with its object and its entries. -/
theorem Receiver.Inv.release {s : Receiver} (h : s.Inv) {ptr : Nat} {obj : ConnObject}
    {d : Descriptor} (hready : s.ready ptr = some (obj, d)) {agents : List Nat}
    {clients : List SseClient} (hagents : agents.Sublist s.connectedAgents.reduceOption)
    (hclients : clients.Sublist s.sseClients.reduceOption) (hptr : ptr ∉ agents) :
    RegistryInv s.nextOwner (Function.update s.table obj.fd none)
      (Function.update s.heap ptr none) agents clients := by
  obtain ⟨hobj, hd, howner, hwatched⟩ := ready_eq_some hready
  have hclosed := (h.sublist hagents hclients).close hd (Or.inr hwatched) fun _ => howner.symm ▸ hptr
  exact hclosed.update_heap none hptr

theorem agentReady_inv (cfg : ReceiverConfig) {s : Receiver} (h : s.Inv) {ptr : Nat}
    {conn : AgentConnection} {d : Descriptor} (hready : s.ready ptr = some (.agent conn, d))
    (io : Readiness) :
    (agentReady cfg s ptr conn io).1.Inv ∧ ∀ w ∈ (agentReady cfg s ptr conn io).2.alerts, w.Ok := by
  obtain ⟨hobj, hd, howner, hwatched⟩ := ready_eq_some hready
  unfold agentReady
  dsimp only
  split
  · refine ⟨?_, by simp [ReceiverOutput.none]⟩
    exact h.release hready (Slots.clear_sublist _ _) (List.Sublist.refl _)
      (not_mem_unregister h.agentInv hobj hd howner)
  · rename_i conn' hconn'
    have hnext : Receiver.Inv { s with heap := Function.update s.heap ptr (some (.agent conn')) } :=
      h.setAgents (h.update_agent hobj (agentReadable_fd conn io.sock conn' hconn'))
    exact processMessages_inv cfg conn io.writeFails _ hnext

/-! ### Web connections -/

/-- A web connection is not in the registry of agents. -/
theorem not_mem_agents {s : Receiver} (h : s.AgentInv) {ptr fd : Nat} {buf : List UInt8}
    (hobj : s.heap ptr = some (.web fd buf)) : ptr ∉ s.connectedAgents.reduceOption := by
  intro hmem
  obtain ⟨conn, d, hd⟩ := h.agentOk ptr hmem
  have heq := hobj.symm.trans hd.object
  cases heq

/-- The state after a read that completes a request. -/
theorem webReady_request (s : Receiver) (ptr fd : Nat) {buf : List UInt8} (d : Descriptor)
    {io : Readiness} {r : HttpRequest} (hr : completedRequest buf io.data = some r) :
    ∃ bs, (webReady s ptr fd buf d io).1 =
      let s := { s with heap := Function.update s.heap ptr (some (.web fd (buf ++ bs))) }
      let s := if .sseAdd ∈ handleRequest io.env io.openFile r then s.sseAdd fd d else s
      if r.path ≠ livePath then (s.close fd).free ptr else s := by
  unfold completedRequest at hr
  unfold webReady
  split at hr
  · rename_i bs hbs
    refine ⟨bs, ?_⟩
    rw [hbs]
    dsimp only
    rw [hr]
  · cases hr

/-- The handshake under the path itself: registered if there is room, and open. -/
theorem Receiver.Inv.sseAdd {s : Receiver} (h : s.Inv) {fd : Nat} {d : Descriptor}
    (hd : s.table fd = some d) (hport : d.port = .web) (hwatched : d.watched = true) :
    (s.sseAdd fd d).Inv := by
  have hshake := h.handshake hd hport hwatched
  rcases Slots.fill_cases (⟨fd, d.owner⟩ : SseClient) s.sseClients with ⟨-, hfull⟩ | ⟨-, hperm⟩
  · rw [Receiver.Inv, Receiver.sseAdd, hfull]
    exact hshake
  · have hclient : ClientOk
        (Function.update s.table fd (some { d with live := true, watched := false }))
        ⟨fd, d.owner⟩ { d with live := true, watched := false } :=
      ⟨Function.update_self _ _ _, rfl, hport, rfl, rfl⟩
    exact hshake.addClient hclient (fun c hc => h.client_fd_ne hd (Or.inr hwatched) hc) hperm

theorem webReady_inv {s : Receiver} (h : s.Inv) {ptr fd : Nat} {buf : List UInt8} {d : Descriptor}
    (hready : s.ready ptr = some (.web fd buf, d)) (hport : d.port = .web) (io : Readiness)
    (hroom : ∀ r, completedRequest buf io.data = some r → LiveAccess io.env r →
      r.path ≠ livePath → none ∉ s.sseClients) :
    (webReady s ptr fd buf d io).1.Inv := by
  obtain ⟨hobj, hd, -, hwatched⟩ := ready_eq_some hready
  have hptr := not_mem_agents h.agentInv hobj
  have hrelease : RegistryInv s.nextOwner (Function.update s.table fd none)
      (Function.update s.heap ptr none) s.connectedAgents.reduceOption
      s.sseClients.reduceOption :=
    h.release hready (List.Sublist.refl _) (List.Sublist.refl _) hptr
  rcases hr : completedRequest buf io.data with - | r
  · -- no request yet, or the connection is gone
    unfold completedRequest at hr
    unfold webReady
    rcases hread : readWeb buf io.data with bs | - | -
    · rw [hread] at hr
      dsimp only at hr ⊢
      rw [hr]
      exact h.update_heap _ hptr
    · exact h
    · exact hrelease
  · obtain ⟨bs, hstate⟩ := webReady_request s ptr fd d hr
    rw [hstate]
    have hread : Receiver.Inv
        { s with heap := Function.update s.heap ptr (some (.web fd (buf ++ bs))) } :=
      h.update_heap _ hptr
    dsimp only
    by_cases hlive : .sseAdd ∈ handleRequest io.env io.openFile r
    · have haccess := (sseAdd_mem_iff io.env io.openFile r).mp hlive
      rw [if_pos hlive]
      by_cases hpath : r.path ≠ livePath
      · -- not registered for want of a slot, and closed
        rw [if_pos hpath]
        show RegistryInv s.nextOwner
          (Function.update (Function.update s.table fd (some _)) fd none)
          (Function.update (Function.update s.heap ptr (some _)) ptr none)
          s.connectedAgents.reduceOption (Slots.fill _ s.sseClients).reduceOption
        rw [Function.update_idem, Function.update_idem,
          Slots.fill_of_full (hroom r hr haccess hpath)]
        exact hrelease
      · rw [if_neg hpath]
        exact hread.sseAdd hd hport hwatched
    · rw [if_neg hlive]
      by_cases hpath : r.path ≠ livePath
      · rw [if_pos hpath]
        show RegistryInv s.nextOwner (Function.update s.table fd none)
          (Function.update (Function.update s.heap ptr (some _)) ptr none)
          s.connectedAgents.reduceOption s.sseClients.reduceOption
        rw [Function.update_idem]
        exact hrelease
      · rw [if_neg hpath]
        exact hread

/-- Requests cause no alerts. -/
theorem webReady_alerts (s : Receiver) (ptr fd : Nat) (buf : List UInt8) (d : Descriptor)
    (io : Readiness) : (webReady s ptr fd buf d io).2.alerts = [] := by
  unfold webReady
  rcases readWeb buf io.data with bs | - | -
  · dsimp only
    rcases parseRequest (buf ++ bs) with - | r
    · rfl
    · rfl
  · rfl
  · rfl

/-- A client that is registered and closed leaves its descriptor behind. -/
theorem webReady_unsafe (s : Receiver) (ptr fd : Nat) {buf : List UInt8} (d : Descriptor)
    {io : Readiness} {r : HttpRequest} (hr : completedRequest buf io.data = some r)
    (haccess : LiveAccess io.env r) (hpath : r.path ≠ livePath) (hroom : none ∈ s.sseClients) :
    ¬ SseSafe (webReady s ptr fd buf d io).1 := by
  obtain ⟨bs, hstate⟩ := webReady_request s ptr fd d hr
  have hlive := (sseAdd_mem_iff io.env io.openFile r).mpr haccess
  simp only [hlive, hpath, if_true, ne_eq, not_false_eq_true] at hstate
  rw [hstate]
  intro hsafe
  -- registered by the handler, closed by `main`
  have hmem : some (⟨fd, d.owner⟩ : SseClient) ∈ Slots.fill ⟨fd, d.owner⟩ s.sseClients := by
    rw [← List.reduceOption_mem_iff]
    exact (Slots.perm_fill hroom).symm.subset List.mem_cons_self
  obtain ⟨d', hisOpen, -⟩ := hsafe _ hmem
  have hclosed : Function.update (Function.update s.table fd
      (some { d with live := true, watched := false })) fd none fd = none :=
    Function.update_self _ _ _
  have hnone : some d' = none := hisOpen.symm.trans hclosed
  cases hnone

/-! ### Steps -/

/-- An accepted connection. -/
theorem Receiver.Inv.accept {s : Receiver} (h : s.Inv) {fd : Nat} (hfd : s.table fd = none)
    (port : Port) (x : Option ConnObject) :
    Receiver.Inv { s.openFd fd port true with heap := Function.update s.heap s.nextOwner x } :=
  (h.openFd hfd _).update_heap x fun hmem => (h.fresh _ hmem).false

theorem Receiver.Inv.acceptWeb {s : Receiver} (h : s.Inv) (cfg : ReceiverConfig) (fd : Nat)
    (addr : BitVec 32) : (s.acceptWeb cfg fd addr).Inv := by
  unfold Receiver.acceptWeb
  split
  · rename_i hok
    exact h.accept hok.1 .web _
  · exact h

/-- An agent is registered if there is a slot; without one it is served all the
same. -/
theorem Receiver.AgentInv.acceptAgent {s : Receiver} (h : s.AgentInv) {fd : Nat}
    (hfd : s.table fd = none) (ip : List UInt8) :
    Receiver.AgentInv
      { s.openFd fd .agent true with
        heap := Function.update s.heap s.nextOwner (some (.agent (.accepted fd ip)))
        connectedAgents := Slots.fill s.nextOwner s.connectedAgents } := by
  have hnew : s.nextOwner ∉ s.connectedAgents.reduceOption := fun hmem => (h.fresh _ hmem).false
  have hopen := (AgentsInv.openFd h hfd ⟨s.nextOwner, .agent, false, true⟩).update_heap
    (some (.agent (.accepted fd ip))) hnew
  rcases Slots.fill_cases s.nextOwner s.connectedAgents with ⟨-, hfull⟩ | ⟨-, hperm⟩
  · rw [Receiver.AgentInv]
    dsimp only [Receiver.openFd]
    rw [hfull]
    exact hopen
  · have hagent : AgentOk
        (Function.update s.table fd (some ⟨s.nextOwner, .agent, false, true⟩))
        (Function.update s.heap s.nextOwner (some (.agent (.accepted fd ip))))
        s.nextOwner (.accepted fd ip) ⟨s.nextOwner, .agent, false, true⟩ :=
      ⟨Function.update_self _ _ _, Function.update_self _ _ _, rfl, rfl, rfl⟩
    exact hopen.addAgent hnew (Nat.lt_succ_self _) hagent hperm

theorem Receiver.Inv.acceptAgent {s : Receiver} (h : s.Inv) (cfg : ReceiverConfig) (fd : Nat)
    (addr : BitVec 32) : (s.acceptAgent cfg fd addr).Inv := by
  unfold Receiver.acceptAgent
  split
  · rename_i hok
    exact RegistryInv.setAgents (h.accept hok.1 .agent none) (h.agentInv.acceptAgent hok.1 _)
  · exact h

theorem Receiver.Inv.hangUp {s : Receiver} (h : s.Inv) (ptr : Nat) : (s.hangUp ptr).Inv := by
  unfold Receiver.hangUp
  split
  · exact h
  · rename_i obj d hready
    obtain ⟨hobj, hd, howner, -⟩ := ready_eq_some hready
    exact h.release hready (Slots.clear_sublist _ _) (Slots.clear_sublist _ _)
      (not_mem_unregister h.agentInv hobj hd howner)

theorem Receiver.Inv.openOther {s : Receiver} (h : s.Inv) (fd : Nat) : (s.openOther fd).Inv := by
  unfold Receiver.openOther
  split
  · rename_i hfd
    exact h.openFd hfd _
  · exact h

theorem Receiver.Inv.closeOther {s : Receiver} (h : s.Inv) (fd : Nat) : (s.closeOther fd).Inv := by
  unfold Receiver.closeOther
  split
  · exact h
  · rename_i d hd
    split
    · rename_i hport
      refine h.close hd (Or.inl (by rw [hport]; decide)) ?_
      intro hagent
      rw [hport] at hagent
      cases hagent
    · exact h

/-- In this step, a handshake under a longer path than that of the live alerts
is completed while there is room in `sse_clients`. -/
def ClosesClient (s : Receiver) : ReceiverEvent → Prop
  | .readable ptr io => ∃ fd buf d r, s.ready ptr = some (.web fd buf, d) ∧ d.port = .web ∧
      completedRequest buf io.data = some r ∧ LiveAccess io.env r ∧ r.path ≠ livePath ∧
      none ∈ s.sseClients
  | _ => False

/-- Every other step keeps the invariant. -/
theorem receiverStep_inv (cfg : ReceiverConfig) {s : Receiver} (h : s.Inv) (e : ReceiverEvent)
    (hgood : ¬ ClosesClient s e) :
    (receiverStep cfg s e).1.Inv ∧ ∀ w ∈ (receiverStep cfg s e).2.alerts, w.Ok := by
  have hnone : ∀ w ∈ ReceiverOutput.none.alerts, w.Ok := by simp [ReceiverOutput.none]
  cases e with
  | acceptAgent fd addr => exact ⟨h.acceptAgent cfg fd addr, hnone⟩
  | acceptLocal iv junk received => exact ⟨h, by simp [receiverStep]⟩
  | acceptWeb fd addr => exact ⟨h.acceptWeb cfg fd addr, hnone⟩
  | hangUp ptr => exact ⟨h.hangUp ptr, hnone⟩
  | readable ptr io =>
      rw [receiverStep, Receiver.readable]
      rcases hready : s.ready ptr with - | ⟨obj, d⟩
      · exact ⟨h, hnone⟩
      · dsimp only
        split
        · exact agentReady_inv cfg h hready io
        · rename_i fd buf hport
          refine ⟨webReady_inv h hready hport io ?_, by simp [webReady_alerts]⟩
          intro r hr haccess hpath hroom
          exact hgood ⟨fd, buf, d, r, hready, hport, hr, haccess, hpath, hroom⟩
        · exact ⟨h, hnone⟩
  | openOther fd => exact ⟨h.openOther fd, hnone⟩
  | closeOther fd => exact ⟨h.closeOther fd, hnone⟩

/-- A step that closes a client it has registered leaves the registry unsafe. -/
theorem ClosesClient.not_sseSafe (cfg : ReceiverConfig) {s : Receiver} {e : ReceiverEvent}
    (h : ClosesClient s e) : ¬ SseSafe (receiverStep cfg s e).1 := by
  cases e with
  | readable ptr io =>
      obtain ⟨fd, buf, d, r, hready, hport, hr, haccess, hpath, hroom⟩ := h
      have hstep : (receiverStep cfg s (.readable ptr io)).1 = (webReady s ptr fd buf d io).1 := by
        rw [receiverStep, Receiver.readable, hready]
        dsimp only
        rw [hport]
      rw [hstep]
      exact webReady_unsafe s ptr fd d hr haccess hpath hroom
  | _ => exact h.elim

/-! ### Runs -/

/-- After the step the registry is safe, and the alerts written in it went to
web connections that completed the handshake. -/
structure StepSafe (cfg : ReceiverConfig) (s : Receiver) (e : ReceiverEvent) : Prop where
  registry : SseSafe (receiverStep cfg s e).1
  alerts : ∀ w ∈ (receiverStep cfg s e).2.alerts, w.Ok

/-- **When the registry of live alerts is safe.**  On every run from start-up,
the registry is safe after every step and alerts reach only web connections
that completed the handshake, if and only if no step completes a handshake
under a longer path than /api/events/live with room in `sse_clients`. -/
theorem sse_registry_safe_iff (cfg : ReceiverConfig) (inUse : Nat → Bool)
    (events : List ReceiverEvent) :
    Along (receiverStep cfg) (StepSafe cfg) (.start inUse) events
      ↔ Along (receiverStep cfg) (fun s e => ¬ ClosesClient s e) (.start inUse) events := by
  constructor
  · refine Along.mono Receiver.Inv ?_ (start_inv inUse)
    intro s e h hsafe
    have hgood : ¬ ClosesClient s e := fun hcloses => hcloses.not_sseSafe cfg hsafe.registry
    exact ⟨hgood, (receiverStep_inv cfg h e hgood).1⟩
  · refine Along.mono Receiver.Inv ?_ (start_inv inUse)
    intro s e h hgood
    obtain ⟨hinv, halerts⟩ := receiverStep_inv cfg h e hgood
    exact ⟨⟨hinv.sseSafe, halerts⟩, hinv⟩

/-- A whitelist with one entry, for everybody. -/
def openConfig : ReceiverConfig := ⟨Equiv.refl _, fun _ => 0, [⟨0, 0⟩]⟩

/-- A session is valid if its token is "abc". -/
def abcEnv : ApiEnv where
  verifySessionToken token := token = str "abc"
  verifyLogin _ _ := false
  sessionToken _ := []
  dbOk _ := false
  dbJson _ := []
  commandOk _ _ _ := false
  junk := []

/-- The browser's request for live alerts with its token in the path. -/
def liveRequest : Readiness where
  sock := ⟨[], []⟩
  data := .data (str "GET /api/events/live?token=abc HTTP/1.1\r\n\r\n")
  writeFails _ := false
  env := abcEnv
  openFile _ := .missing

/-- The frame of an alert. -/
def alertFrame : Frame where
  agentUuid := List.replicate 16 7
  msgType := msgTypeAlert
  payload := aesEncrypt (Equiv.refl _) (fun _ => 0)
    (eventBytes [infoEvent])
  uuid_length := List.length_replicate

/-- An agent connection with this frame to read. -/
def alertReady : Readiness := { liveRequest with sock := ⟨alertFrame.bytes, [some 24, some 500]⟩ }

set_option maxRecDepth 2048 in
/-- A dashboard asks for live alerts with its token in the path, then an agent
connects and sends an alert.  The agent has got the descriptor registered for
alerts, and the alert is written to the agent. -/
theorem token_in_path_leaks_alerts :
    let run := exec (receiverStep openConfig) (.start (· < 8))
      [.acceptWeb 8 0, .readable 0 liveRequest, .acceptAgent 8 0, .readable 1 alertReady]
    ¬ SseSafe run.1 ∧ run.2.map ReceiverOutput.alerts = [[], [], [], [⟨8, 1, .agent, false, true⟩]] := by
  intro run
  have hclient : some ⟨8, 0⟩ ∈ run.1.sseClients := List.mem_of_mem_head? rfl
  have hagent : run.1.table 8 = some ⟨1, .agent, false, true⟩ := rfl
  refine ⟨?_, rfl⟩
  intro hsafe
  obtain ⟨d, hd, -, hport, -⟩ := hsafe ⟨8, 0⟩ hclient
  obtain rfl := Option.some.inj (hagent.symm.trans hd)
  cases hport

end Nullsploit
