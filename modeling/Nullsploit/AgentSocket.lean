/-
Nullsploit/AgentSocket.lean

Who owns the agent's descriptor in the firewall daemon (kernel/fw_nfq.c).
`agent_listener_thread` accepts a connection, stores its descriptor in `agent_fd`,
and reads from its own copy of the number; `send_fw_event`, called from any
thread, writes to `agent_fd` and closes it when a write fails.  Both change
`agent_fd` under `agent_lock`, but the listener reads without it, and a number
that was closed may be given to any other file.

For any interleaving (`agent_socket_safe`): a close always hits the connection of
the agent, each at most once; events go to the connection that is being served;
the listener reads from that connection as long as `agent_fd` is set; and when it
waits for the next agent none is left open, so the close on accepting never runs.
-/
import Nullsploit.Runs

namespace Nullsploit

open Runs

/-- What a descriptor stands for. -/
inductive FdOwner
  | free
  /-- the `conn`-th connection accepted -/
  | agent (conn : Nat)
  /-- a file of another part of the daemon -/
  | other
  deriving DecidableEq, Repr

/-- Where the listener thread is. -/
inductive ListenerPc
  | accept
  /-- before the first critical section -/
  | publish (clientFd : Nat)
  | serve (clientFd : Nat)
  /-- before the second -/
  | finish (clientFd : Nat)
  deriving DecidableEq, Repr

/-- `agent_fd` is `none` for -1. -/
structure AgentSocket where
  agentFd : Option Nat
  table : Nat → FdOwner
  listener : ListenerPc
  accepted : Nat

/-- The daemon before the first connection. -/
structure AgentSocket.Start (s : AgentSocket) : Prop where
  agentFd : s.agentFd = none
  table : ∀ fd conn, s.table fd ≠ .agent conn
  listener : s.listener = .accept

/-- What `send` returns. -/
inductive SendResult
  | sent
  /-- EAGAIN -/
  | full
  | failed
  deriving DecidableEq, Repr

inductive SocketInput
  /-- `accept` returns a descriptor, which is a free one -/
  | accept (fd : Nat)
  /-- a critical section of the listener -/
  | locked
  /-- one `read` of the listener -/
  | read
  /-- the reads end -/
  | ended
  /-- `send_fw_event` -/
  | send (result : SendResult)
  /-- another part of the daemon opens or closes a file -/
  | openOther (fd : Nat)
  | closeOther (fd : Nat)
  deriving DecidableEq, Repr

/-- What a step did to which descriptor's file. -/
inductive SocketOutput
  | none
  | closed (owner : FdOwner)
  | readFrom (owner : FdOwner)
  | sentTo (owner : FdOwner)
  | dropped
  deriving DecidableEq, Repr

/-- `close(agent_fd)`. -/
def AgentSocket.close (s : AgentSocket) (fd : Nat) : AgentSocket :=
  { s with table := Function.update s.table fd .free }

/-- One step of the daemon. -/
def socketStep (s : AgentSocket) : SocketInput → AgentSocket × SocketOutput
  | .accept fd =>
      if s.listener = .accept ∧ s.table fd = .free then
        ({ s with
            table := Function.update s.table fd (.agent s.accepted)
            listener := .publish fd
            accepted := s.accepted + 1 }, .none)
      else (s, .none)
  | .locked =>
      match s.listener with
      | .publish clientFd =>
          match s.agentFd with
          | some fd =>
              ({ s.close fd with agentFd := some clientFd, listener := .serve clientFd },
                .closed (s.table fd))
          | none => ({ s with agentFd := some clientFd, listener := .serve clientFd }, .none)
      | .finish clientFd =>
          if s.agentFd = some clientFd then
            ({ s.close clientFd with agentFd := none, listener := .accept },
              .closed (s.table clientFd))
          else ({ s with listener := .accept }, .none)
      | _ => (s, .none)
  | .read =>
      match s.listener with
      | .serve clientFd => (s, .readFrom (s.table clientFd))
      | _ => (s, .none)
  | .ended =>
      match s.listener with
      | .serve clientFd => ({ s with listener := .finish clientFd }, .none)
      | _ => (s, .none)
  | .send result =>
      match s.agentFd, result with
      | none, _ => (s, .dropped)
      | some fd, .sent => (s, .sentTo (s.table fd))
      | some _, .full => (s, .dropped)
      | some fd, .failed => ({ s.close fd with agentFd := none }, .closed (s.table fd))
  | .openOther fd =>
      if s.table fd = .free then ({ s with table := Function.update s.table fd .other }, .none)
      else (s, .none)
  | .closeOther fd =>
      if s.table fd = .other then ({ s with table := Function.update s.table fd .free }, .none)
      else (s, .none)

/-! ### The invariant -/

/-- No descriptor is the agent's. -/
def AgentSocket.NoAgent (s : AgentSocket) : Prop := ∀ fd conn, s.table fd ≠ .agent conn

/-- One descriptor is, of the last connection. -/
structure AgentSocket.OnlyAgent (s : AgentSocket) (clientFd : Nat) : Prop where
  last : ∃ conn, s.accepted = conn + 1 ∧ s.table clientFd = .agent conn
  only : ∀ fd conn, s.table fd = .agent conn → fd = clientFd

/-- The listener's place says what is open. -/
def AgentSocket.Owned (s : AgentSocket) : Prop :=
  match s.listener with
  | .accept => s.agentFd = none ∧ s.NoAgent
  | .publish clientFd => s.agentFd = none ∧ s.OnlyAgent clientFd
  | .serve clientFd | .finish clientFd =>
      s.agentFd = some clientFd ∧ s.OnlyAgent clientFd ∨ s.agentFd = none ∧ s.NoAgent

/-- The connections closed so far, in order. -/
def closedConns (outputs : List SocketOutput) : List Nat :=
  outputs.filterMap fun
    | .closed (.agent conn) => some conn
    | _ => none

theorem AgentSocket.Start.owned {s : AgentSocket} (h : s.Start) : s.Owned := by
  unfold Owned
  rw [h.listener]
  exact ⟨h.agentFd, h.table⟩

/-- After the close of the only descriptor there is none. -/
theorem AgentSocket.OnlyAgent.noAgent {s : AgentSocket} {clientFd : Nat}
    (h : s.OnlyAgent clientFd) :
    ∀ fd conn, Function.update s.table clientFd .free fd ≠ .agent conn := by
  intro fd conn hfd
  by_cases heq : fd = clientFd
  · rw [heq, Function.update_self] at hfd
    cases hfd
  · rw [Function.update_of_ne heq] at hfd
    exact heq (h.only fd conn hfd)

/-- Changing a descriptor that is not the agent's to one that is not. -/
theorem agent_update_iff (table : Nat → FdOwner) (fd : Nat) (owner : FdOwner)
    (hold : ∀ conn, table fd ≠ .agent conn) (hnew : ∀ conn, owner ≠ .agent conn) (fd' conn : Nat) :
    Function.update table fd owner fd' = .agent conn ↔ table fd' = .agent conn := by
  by_cases heq : fd' = fd
  · rw [heq, Function.update_self]
    exact iff_of_false (hnew conn) (hold conn)
  · rw [Function.update_of_ne heq]

theorem AgentSocket.Owned.of_table {s s' : AgentSocket} (h : s.Owned)
    (htable : ∀ fd conn, s'.table fd = .agent conn ↔ s.table fd = .agent conn)
    (hfd : s'.agentFd = s.agentFd) (hlistener : s'.listener = s.listener)
    (haccepted : s'.accepted = s.accepted) : s'.Owned := by
  have hnone : s.NoAgent → s'.NoAgent := fun hn fd conn hc => hn fd conn ((htable fd conn).mp hc)
  have honly : ∀ {fd}, s.OnlyAgent fd → s'.OnlyAgent fd := by
    rintro fd ⟨⟨conn, hacc, hconn⟩, hall⟩
    exact ⟨⟨conn, haccepted.trans hacc, (htable fd conn).mpr hconn⟩,
      fun fd' conn' hc => hall fd' conn' ((htable fd' conn').mp hc)⟩
  unfold Owned at h ⊢
  rw [hlistener, hfd]
  revert h
  cases s.listener with
  | accept => exact And.imp_right hnone
  | publish clientFd => exact And.imp_right honly
  | serve clientFd => exact Or.imp (And.imp_right honly) (And.imp_right hnone)
  | finish clientFd => exact Or.imp (And.imp_right honly) (And.imp_right hnone)

/-- Where `agent_fd` is set, it is the connection being served. -/
theorem AgentSocket.Owned.agentFd_eq_some {s : AgentSocket} (h : s.Owned) {fd : Nat}
    (hfd : s.agentFd = some fd) :
    s.OnlyAgent fd ∧ (s.listener = .serve fd ∨ s.listener = .finish fd) := by
  unfold Owned at h
  cases e : s.listener with
  | accept =>
      rw [e, hfd] at h
      cases h.1
  | publish clientFd =>
      rw [e, hfd] at h
      cases h.1
  | serve clientFd =>
      rw [e, hfd] at h
      rcases h with ⟨heq, honly⟩ | ⟨hnone, -⟩
      · obtain rfl := Option.some.inj heq
        exact ⟨honly, Or.inl rfl⟩
      · cases hnone
  | finish clientFd =>
      rw [e, hfd] at h
      rcases h with ⟨heq, honly⟩ | ⟨hnone, -⟩
      · obtain rfl := Option.some.inj heq
        exact ⟨honly, Or.inr rfl⟩
      · cases hnone

/-- What a step does to the agent's connections: nothing, a new one in the place of
none, or the only one is closed. -/
inductive SocketChange (s s' : AgentSocket) : SocketOutput → Prop
  | same {o : SocketOutput} (accepted : s'.accepted = s.accepted)
      (table : ∀ fd conn, s'.table fd = .agent conn ↔ s.table fd = .agent conn)
      (output : ∀ owner, o ≠ .closed owner) : SocketChange s s' o
  | opened (accepted : s'.accepted = s.accepted + 1)
      (table : ∀ fd conn, s'.table fd = .agent conn → conn = s.accepted) : SocketChange s s' .none
  | closed (conn : Nat) (last : s.accepted = conn + 1) (fd : Nat) (was : s.table fd = .agent conn)
      (accepted : s'.accepted = s.accepted) (table : s'.NoAgent) :
      SocketChange s s' (.closed (.agent conn))

/-- Every step keeps the invariant. -/
theorem owned_step {s : AgentSocket} (h : s.Owned) (a : SocketInput) :
    (socketStep s a).1.Owned ∧ SocketChange s (socketStep s a).1 (socketStep s a).2 := by
  have hself : ∀ o, (∀ owner, o ≠ SocketOutput.closed owner) → s.Owned ∧ SocketChange s s o :=
    fun o ho => ⟨h, .same rfl (fun _ _ => Iff.rfl) ho⟩
  cases a with
  | accept fd =>
      simp only [socketStep]
      split
      · rename_i hfree
        have hnone : s.NoAgent := by
          unfold AgentSocket.Owned at h
          rw [hfree.1] at h
          exact h.2
        have hfd : s.agentFd = none := by
          unfold AgentSocket.Owned at h
          rw [hfree.1] at h
          exact h.1
        have hconn : ∀ fd' conn, Function.update s.table fd (.agent s.accepted) fd' = .agent conn →
            fd' = fd ∧ conn = s.accepted := by
          intro fd' conn hc
          by_cases heq : fd' = fd
          · rw [heq, Function.update_self] at hc
            cases hc
            exact ⟨heq, rfl⟩
          · rw [Function.update_of_ne heq] at hc
            exact absurd hc (hnone fd' conn)
        refine ⟨⟨hfd, ⟨s.accepted, rfl, Function.update_self ..⟩, fun fd' conn hc =>
          (hconn fd' conn hc).1⟩, .opened rfl fun fd' conn hc => (hconn fd' conn hc).2⟩
      · exact hself _ (by simp)
  | locked =>
      simp only [socketStep]
      cases e : s.listener with
      | accept => exact hself _ (by simp)
      | serve clientFd => exact hself _ (by simp)
      | publish clientFd =>
          have hpub := h
          unfold AgentSocket.Owned at hpub
          rw [e] at hpub
          obtain ⟨hfd, honly⟩ := hpub
          simp only [hfd]
          exact ⟨Or.inl ⟨rfl, honly.last, honly.only⟩, .same rfl (fun _ _ => Iff.rfl) (by simp)⟩
      | finish clientFd =>
          have hfin := h
          unfold AgentSocket.Owned at hfin
          rw [e] at hfin
          dsimp only
          split
          · rename_i hfd
            obtain ⟨honly, -⟩ := h.agentFd_eq_some hfd
            obtain ⟨conn, hacc, hconn⟩ := honly.last
            rw [hconn]
            exact ⟨⟨rfl, honly.noAgent⟩, .closed conn hacc clientFd hconn rfl honly.noAgent⟩
          · rename_i hfd
            obtain ⟨hnone, hno⟩ := hfin.resolve_left fun hl => hfd hl.1
            exact ⟨⟨hnone, hno⟩, .same rfl (fun _ _ => Iff.rfl) (by simp)⟩
  | read =>
      simp only [socketStep]
      cases s.listener <;> exact hself _ (by simp)
  | ended =>
      simp only [socketStep]
      cases e : s.listener with
      | serve clientFd =>
          have hserve := h
          unfold AgentSocket.Owned at hserve
          rw [e] at hserve
          exact ⟨hserve.imp (fun h => ⟨h.1, h.2.last, h.2.only⟩) id,
            .same rfl (fun _ _ => Iff.rfl) (by simp)⟩
      | _ => exact hself _ (by simp)
  | send result =>
      simp only [socketStep]
      cases e : s.agentFd with
      | none => exact hself _ (by simp)
      | some fd =>
          cases result with
          | sent => exact hself _ (by simp)
          | full => exact hself _ (by simp)
          | failed =>
              obtain ⟨honly, hpc⟩ := h.agentFd_eq_some e
              obtain ⟨conn, hacc, hconn⟩ := honly.last
              dsimp only
              rw [hconn]
              refine ⟨?_, .closed conn hacc fd hconn rfl honly.noAgent⟩
              unfold AgentSocket.Owned
              rcases hpc with hpc | hpc <;>
                simp only [AgentSocket.close, hpc] <;>
                exact Or.inr ⟨trivial, honly.noAgent⟩
  | openOther fd =>
      simp only [socketStep]
      split
      · rename_i hfree
        have htable := agent_update_iff s.table fd .other (by simp [hfree]) (by simp)
        exact ⟨h.of_table htable rfl rfl rfl, .same rfl htable (by simp)⟩
      · exact hself _ (by simp)
  | closeOther fd =>
      simp only [socketStep]
      split
      · rename_i hother
        have htable := agent_update_iff s.table fd .free (by simp [hother]) (by simp)
        exact ⟨h.of_table htable rfl rfl rfl, .same rfl htable (by simp)⟩
      · exact hself _ (by simp)

/-! ### Runs -/

/-- What was closed so far: connections of the agent, in the order they were
accepted, and none that is open. -/
structure ClosedOk (outputs : List SocketOutput) (s : AgentSocket) : Prop where
  owned : s.Owned
  agents : ∀ owner, .closed owner ∈ outputs → ∃ conn, owner = .agent conn
  once : (closedConns outputs).Pairwise (· < ·)
  before : ∀ conn ∈ closedConns outputs, conn < s.accepted
  notOpen : ∀ fd conn, s.table fd = .agent conn → ∀ conn' ∈ closedConns outputs, conn' < conn

/-- A step that closes nothing. -/
theorem closedConns_snoc {o : SocketOutput} (h : ∀ owner, o ≠ .closed owner)
    (outputs : List SocketOutput) :
    closedConns (outputs ++ [o]) = closedConns outputs ∧
      ∀ owner, .closed owner ∈ outputs ++ [o] → .closed owner ∈ outputs := by
  have hnone : closedConns [o] = [] := by
    cases o with
    | closed owner => exact absurd rfl (h owner)
    | _ => rfl
  have hsnoc : closedConns (outputs ++ [o]) = closedConns outputs ++ closedConns [o] :=
    List.filterMap_append
  refine ⟨by rw [hsnoc, hnone, List.append_nil], fun owner hmem => ?_⟩
  rcases List.mem_append.mp hmem with hmem | hmem
  · exact hmem
  · exact absurd (List.mem_singleton.mp hmem).symm (h owner)

theorem closedOk_step {outputs : List SocketOutput} {s : AgentSocket} (h : ClosedOk outputs s)
    (a : SocketInput) : ClosedOk (outputs ++ [(socketStep s a).2]) (socketStep s a).1 := by
  obtain ⟨howned, hchange⟩ := owned_step h.owned a
  revert howned hchange
  generalize (socketStep s a).1 = s'
  generalize (socketStep s a).2 = o
  intro howned hchange
  cases hchange with
  | same haccepted htable houtput =>
      obtain ⟨hlog, hmem⟩ := closedConns_snoc houtput outputs
      refine ⟨howned, fun owner ho => h.agents owner (hmem owner ho), hlog ▸ h.once, ?_, ?_⟩
      · rw [hlog, haccepted]
        exact h.before
      · rw [hlog]
        exact fun fd conn hopen => h.notOpen fd conn ((htable fd conn).mp hopen)
  | opened haccepted htable =>
      obtain ⟨hlog, hmem⟩ := closedConns_snoc (o := .none) (by simp) outputs
      refine ⟨howned, fun owner ho => h.agents owner (hmem owner ho), hlog ▸ h.once, ?_, ?_⟩
      · rw [hlog, haccepted]
        exact fun conn hconn => Nat.lt_succ_of_lt (h.before conn hconn)
      · rw [hlog]
        intro fd conn hopen
        rw [htable fd conn hopen]
        exact h.before
  | closed conn hlast fd hwas haccepted htable =>
      have hlog : closedConns (outputs ++ [.closed (.agent conn)])
          = closedConns outputs ++ [conn] := List.filterMap_append
      refine ⟨howned, ?_, ?_, ?_, fun fd' conn' hopen => absurd hopen (htable fd' conn')⟩
      · intro owner hmem
        rcases List.mem_append.mp hmem with hmem | hmem
        · exact h.agents owner hmem
        · exact ⟨conn, by simpa using hmem⟩
      · rw [hlog]
        refine List.pairwise_append.mpr ⟨h.once, List.pairwise_singleton _ _, ?_⟩
        intro conn' hconn' x hx
        rw [List.mem_singleton.mp hx]
        exact h.notOpen fd conn hwas conn' hconn'
      · rw [hlog, haccepted, hlast]
        intro conn' hconn'
        rcases List.mem_append.mp hconn' with hconn' | hconn'
        · exact hlast ▸ h.before conn' hconn'
        · rw [List.mem_singleton.mp hconn']
          exact Nat.lt_succ_self _

/-- **The agent's descriptor in any interleaving** of the listener, the threads
that send events, and everything else that opens and closes files: each close hits
a connection of the agent, no connection is closed twice; `agent_fd`, where it is
set, is the descriptor of the connection accepted last, which is the one being
served; it is not set when a connection is stored; and nothing of the agent's is
open when the listener waits for the next connection. -/
theorem agent_socket_safe {s : AgentSocket} (h : s.Start) (inputs : List SocketInput) :
    let r := exec socketStep s inputs
    (∀ owner, .closed owner ∈ r.2 → ∃ conn, owner = .agent conn) ∧ (closedConns r.2).Nodup ∧
      (∀ fd, r.1.agentFd = some fd →
        (r.1.listener = .serve fd ∨ r.1.listener = .finish fd) ∧
          ∃ conn, r.1.accepted = conn + 1 ∧ r.1.table fd = .agent conn) ∧
      (∀ fd, r.1.listener = .publish fd → r.1.agentFd = none) ∧
      (r.1.listener = .accept → r.1.agentFd = none ∧ ∀ fd conn, r.1.table fd ≠ .agent conn) := by
  intro r
  have hstart : ClosedOk [] s :=
    ⟨h.owned, fun _ hmem => absurd hmem List.not_mem_nil, List.Pairwise.nil,
      fun _ hmem => absurd hmem List.not_mem_nil,
      fun fd conn hopen => absurd hopen (h.table fd conn)⟩
  have hrun : ClosedOk r.2 r.1 := by
    refine Along.history (fun as s' => ClosedOk (exec socketStep s as).2 s')
      (Q := fun _ _ => True) hstart (fun as a hok _ => ?_) inputs
      (along_of_forall fun _ _ => trivial)
    rw [exec_append]
    exact closedOk_step hok a
  have howned := hrun.owned
  refine ⟨hrun.agents, hrun.once.imp fun hlt => Nat.ne_of_lt hlt, fun fd hfd => ?_,
    fun fd hpc => ?_, fun hpc => ?_⟩
  · obtain ⟨honly, hpc⟩ := howned.agentFd_eq_some hfd
    exact ⟨hpc, honly.last⟩
  · unfold AgentSocket.Owned at howned
    rw [hpc] at howned
    exact howned.1
  · unfold AgentSocket.Owned at howned
    rw [hpc] at howned
    exact howned

/-- A failed send between two reads. -/
theorem agent_socket_safe_failed :
    let s : AgentSocket := ⟨none, fun fd => if fd < 3 then .other else .free, .accept, 0⟩
    (closedConns (exec socketStep s
      [.accept 5, .locked, .read, .send .failed, .openOther 5, .read, .ended, .locked,
        .accept 6, .locked, .ended, .locked]).2).Nodup := by
  intro s
  have htable : ∀ fd conn, s.table fd ≠ .agent conn := by
    intro fd conn
    show (if fd < 3 then FdOwner.other else .free) ≠ .agent conn
    split <;> simp
  exact (agent_socket_safe ⟨rfl, htable, rfl⟩ _).2.1

end Nullsploit
