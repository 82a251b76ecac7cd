/-
Nullsploit/FeedThread.lean

The thread that refreshes the feeds (threat_intel.c) and the functions that talk
to it: `intel_aggregator_thread` runs all fetches, then waits on `fetch_cond` for
a request, six hours, or the end; `trigger_feed_fetch` and `cleanup_threat_intel`
set a flag under `fetch_lock` and signal.

The steps are those at which another thread can come in between: each read or
write of a flag, the lock, the wait.  A wait may end without a signal, and a time
limit may pass just before a signal.  Main results, for any interleaving:

* `trigger_served`: a request is followed by a refresh that starts after it, as
  soon as the thread has had seven steps in which it was not blocked;
* `refreshes_bounded`: the refreshes are at most as many as the requests and the
  time limits that passed;
* `cleanup_stops`: after `thread_running` is cleared no refresh starts, and the
  thread ends after at most five such steps, so the join returns.
-/
import Nullsploit.Runs

namespace Nullsploit

open Runs

/-! ### The threads -/

/-- Where the aggregator thread is. -/
inductive AggregatorPc
  /-- in `run_all_fetches` -/
  | fetching
  /-- at `while (thread_running)` -/
  | loopTest
  /-- at `pthread_mutex_lock` -/
  | acquire
  /-- at `while (!fetch_requested && thread_running)`, with the lock -/
  | waitTest
  /-- in `pthread_cond_timedwait` -/
  | waiting
  /-- on the way out of it, with what it will return -/
  | reacquire (timedOut : Bool)
  /-- at `fetch_requested = 0`, with the lock -/
  | clear
  /-- at `pthread_mutex_unlock` -/
  | unlock
  /-- at `if (!thread_running) break` -/
  | runTest
  | finished
  deriving DecidableEq, Repr

/-- A caller of `trigger_feed_fetch` or `cleanup_threat_intel` in its critical
section: at the assignment, the signal or the unlock. -/
inductive Section
  | set
  | signal
  | unlock
  deriving DecidableEq, Repr

/-- The owner of `fetch_lock`. -/
inductive LockOwner
  | aggregator
  | trigger (at' : Section)
  | cleanup (at' : Section)
  deriving DecidableEq, Repr

structure FeedThread where
  threadRunning : Bool
  fetchRequested : Bool
  fetchLock : Option LockOwner
  pc : AggregatorPc
  deriving DecidableEq, Repr

/-- The state after `init_threat_intel`: the thread begins with a refresh. -/
def FeedThread.init (requested : Bool) : FeedThread := ⟨true, requested, none, .fetching⟩

/-- What may happen next. -/
inductive FeedInput
  /-- a step of the aggregator thread -/
  | aggregator
  /-- a wait that ends without a signal -/
  | wake
  /-- a wait that ends with its time -/
  | timeout
  /-- a call of `trigger_feed_fetch` gets the lock -/
  | trigger
  /-- a call of `cleanup_threat_intel` gets the lock -/
  | cleanup
  /-- a step of the caller that has the lock -/
  | caller
  deriving DecidableEq, Repr

/-- What a step did. -/
inductive FeedOutput
  | idle
  /-- the aggregator thread was not blocked -/
  | moved
  /-- it was not, and began a refresh -/
  | refreshed
  | requested
  | timedOut
  | stopped
  deriving DecidableEq, Repr

/-- `pthread_cond_signal`. -/
def FeedThread.signal (s : FeedThread) : FeedThread :=
  if s.pc = .waiting then { s with pc := .reacquire false } else s

/-- A step of `intel_aggregator_thread`. -/
def aggregatorStep (s : FeedThread) : FeedThread × FeedOutput :=
  match s.pc with
  | .fetching => ({ s with pc := .loopTest }, .moved)
  | .loopTest => ({ s with pc := if s.threadRunning then .acquire else .finished }, .moved)
  | .acquire =>
      if s.fetchLock = none then
        ({ s with fetchLock := some .aggregator, pc := .waitTest }, .moved)
      else (s, .idle)
  | .waitTest =>
      if !s.fetchRequested && s.threadRunning then
        ({ s with fetchLock := none, pc := .waiting }, .moved)
      else ({ s with pc := .clear }, .moved)
  | .waiting => (s, .idle)
  | .reacquire timedOut =>
      if s.fetchLock = none then
        ({ s with fetchLock := some .aggregator, pc := if timedOut then .clear else .waitTest },
          .moved)
      else (s, .idle)
  | .clear => ({ s with fetchRequested := false, pc := .unlock }, .moved)
  | .unlock => ({ s with fetchLock := none, pc := .runTest }, .moved)
  | .runTest =>
      if s.threadRunning then ({ s with pc := .fetching }, .refreshed)
      else ({ s with pc := .finished }, .moved)
  | .finished => (s, .idle)

/-- A step of the caller in its critical section. -/
def callerStep (s : FeedThread) : FeedThread × FeedOutput :=
  match s.fetchLock with
  | some (.trigger .set) =>
      ({ s with fetchRequested := true, fetchLock := some (.trigger .signal) }, .requested)
  | some (.trigger .signal) => ({ s.signal with fetchLock := some (.trigger .unlock) }, .idle)
  | some (.cleanup .set) =>
      ({ s with threadRunning := false, fetchLock := some (.cleanup .signal) }, .stopped)
  | some (.cleanup .signal) => ({ s.signal with fetchLock := some (.cleanup .unlock) }, .idle)
  | some (.trigger .unlock) => ({ s with fetchLock := none }, .idle)
  | some (.cleanup .unlock) => ({ s with fetchLock := none }, .idle)
  | some .aggregator => (s, .idle)
  | none => (s, .idle)

/-- One step of the program. -/
def feedStep (s : FeedThread) : FeedInput → FeedThread × FeedOutput
  | .aggregator => aggregatorStep s
  | .wake => (if s.pc = .waiting then { s with pc := .reacquire false } else s, .idle)
  | .timeout =>
      if s.pc = .waiting then ({ s with pc := .reacquire true }, .timedOut) else (s, .idle)
  | .trigger =>
      (if s.fetchLock = none then { s with fetchLock := some (.trigger .set) } else s, .idle)
  | .cleanup =>
      (if s.fetchLock = none ∧ s.threadRunning then { s with fetchLock := some (.cleanup .set) }
        else s, .idle)
  | .caller => callerStep s

/-- The steps in which the aggregator thread was not blocked. -/
def unblocked (outputs : List FeedOutput) : Nat :=
  outputs.countP fun o => o = .moved ∨ o = .refreshed

/-! ### What the lock protects -/

/-- The aggregator thread holds the lock where it should; it does not sleep over a
request or the end unless it is about to be signalled; and it ends only when it
was told to. -/
structure FeedThread.Ok (s : FeedThread) : Prop where
  lock : s.fetchLock = some .aggregator ↔ s.pc = .waitTest ∨ s.pc = .clear ∨ s.pc = .unlock
  asleep : s.pc = .waiting → s.fetchRequested = true ∨ s.threadRunning = false →
    s.fetchLock = some (.trigger .signal) ∨ s.fetchLock = some (.cleanup .signal)
  ended : s.pc = .finished → s.threadRunning = false

theorem FeedThread.ok_init (requested : Bool) : (FeedThread.init requested).Ok where
  lock := by simp [init]
  asleep := fun h => by cases h
  ended := fun h => by cases h

theorem aggregatorStep_ok {s : FeedThread} (h : s.Ok) : (aggregatorStep s).1.Ok := by
  obtain ⟨running, requested, lock, pc⟩ := s
  obtain ⟨hlock, hasleep, hended⟩ := h
  dsimp only at hlock hasleep hended
  cases pc with
  | fetching => exact ⟨by simpa [aggregatorStep] using hlock, by simp [aggregatorStep],
      by simp [aggregatorStep]⟩
  | loopTest =>
      cases running <;>
        exact ⟨by simpa [aggregatorStep] using hlock, by simp [aggregatorStep],
          by simp [aggregatorStep]⟩
  | acquire =>
      by_cases hfree : lock = none
      · exact ⟨by simp [aggregatorStep, hfree], by simp [aggregatorStep, hfree],
          by simp [aggregatorStep, hfree]⟩
      · simp only [aggregatorStep, if_neg hfree]
        exact ⟨hlock, hasleep, hended⟩
  | waitTest =>
      have hheld := hlock.mpr (Or.inl rfl)
      cases requested <;> cases running <;>
        exact ⟨by simp [aggregatorStep, hheld], by simp [aggregatorStep],
          by simp [aggregatorStep]⟩
  | waiting => exact ⟨hlock, hasleep, hended⟩
  | reacquire timedOut =>
      by_cases hfree : lock = none
      · cases timedOut <;>
          exact ⟨by simp [aggregatorStep, hfree], by simp [aggregatorStep, hfree],
            by simp [aggregatorStep, hfree]⟩
      · simp only [aggregatorStep, if_neg hfree]
        exact ⟨hlock, hasleep, hended⟩
  | clear => exact ⟨by simpa [aggregatorStep] using hlock, by simp [aggregatorStep],
      by simp [aggregatorStep]⟩
  | unlock =>
      exact ⟨by simp [aggregatorStep], by simp [aggregatorStep], by simp [aggregatorStep]⟩
  | runTest =>
      cases running <;>
        exact ⟨by simpa [aggregatorStep] using hlock, by simp [aggregatorStep],
          by simp [aggregatorStep]⟩
  | finished => exact ⟨hlock, hasleep, hended⟩

/-- While another has the lock or nobody has, the aggregator thread stays where it
is. -/
theorem FeedThread.Ok.of_pc {s s' : FeedThread} (h : s.Ok)
    (hlock : s.fetchLock ≠ some .aggregator) (hlock' : s'.fetchLock ≠ some .aggregator)
    (hpc : s'.pc = s.pc) (hrunning : s.threadRunning = false → s'.threadRunning = false)
    (hasleep : s'.pc = .waiting → s'.fetchRequested = true ∨ s'.threadRunning = false →
      s'.fetchLock = some (.trigger .signal) ∨ s'.fetchLock = some (.cleanup .signal)) :
    s'.Ok where
  lock := iff_of_false hlock' fun hp => hlock (h.lock.mpr (hpc ▸ hp))
  asleep := hasleep
  ended := fun hp => hrunning (h.ended (hpc ▸ hp))

/-- A signal wakes the thread if it sleeps. -/
theorem FeedThread.Ok.signal {s : FeedThread} (h : s.Ok)
    (hlock : s.fetchLock ≠ some .aggregator) {owner : LockOwner} (howner : owner ≠ .aggregator) :
    FeedThread.Ok { s.signal with fetchLock := some owner } := by
  unfold FeedThread.signal
  split
  · exact ⟨by simp [howner], by simp, by simp⟩
  · rename_i hawake
    exact h.of_pc hlock (by simpa using howner) rfl id fun hp => absurd hp hawake

theorem callerStep_ok {s : FeedThread} (h : s.Ok) : (callerStep s).1.Ok := by
  unfold callerStep
  split
  · rename_i e
    exact h.of_pc (by simp [e]) (by simp) rfl id fun _ _ => Or.inl rfl
  · rename_i e
    exact h.signal (by simp [e]) (by simp)
  · rename_i e
    exact h.of_pc (by simp [e]) (by simp) rfl (fun _ => rfl) fun _ _ => Or.inr rfl
  · rename_i e
    exact h.signal (by simp [e]) (by simp)
  · rename_i e
    refine h.of_pc (by simp [e]) (by simp) rfl id fun hp hflag => ?_
    exact absurd (h.asleep hp hflag) (by simp [e])
  · rename_i e
    refine h.of_pc (by simp [e]) (by simp) rfl id fun hp hflag => ?_
    exact absurd (h.asleep hp hflag) (by simp [e])
  · exact h
  · exact h

theorem feedStep_ok {s : FeedThread} (h : s.Ok) (a : FeedInput) : (feedStep s a).1.Ok := by
  have hawake : ∀ timedOut, s.pc = .waiting →
      FeedThread.Ok { s with pc := .reacquire timedOut } := fun timedOut hp =>
    ⟨iff_of_false (fun hl => by simpa [hp] using h.lock.mp hl) (by simp), by simp, by simp⟩
  cases a with
  | aggregator => exact aggregatorStep_ok h
  | wake =>
      simp only [feedStep]
      split
      · rename_i hp
        exact hawake false hp
      · exact h
  | timeout =>
      simp only [feedStep]
      split
      · rename_i hp
        exact hawake true hp
      · exact h
  | trigger =>
      simp only [feedStep]
      split
      · rename_i hfree
        refine h.of_pc (by simp [hfree]) (by simp) rfl id fun hp hflag => ?_
        exact absurd (h.asleep hp hflag) (by simp [hfree])
      · exact h
  | cleanup =>
      simp only [feedStep]
      split
      · rename_i hfree
        refine h.of_pc (by simp [hfree.1]) (by simp) rfl id fun hp hflag => ?_
        exact absurd (h.asleep hp hflag) (by simp [hfree.1])
      · exact h
  | caller => exact callerStep_ok h

theorem ok_exec {s : FeedThread} (h : s.Ok) (as : List FeedInput) :
    (exec feedStep s as).1.Ok :=
  Along.invariant FeedThread.Ok (Q := fun _ _ => True) (fun _ a hs _ => feedStep_ok hs a) h
    (along_of_forall fun _ _ => trivial)

/-! ### What another step leaves alone -/

/-- A step of anything but the aggregator thread. -/
structure LeavesThread (s s' : FeedThread) (o : FeedOutput) : Prop where
  pc : s'.pc = s.pc ∨ s.pc = .waiting ∧ ∃ timedOut, s'.pc = .reacquire timedOut
  requested : s.fetchRequested = true → s'.fetchRequested = true
  running : s'.threadRunning = true → s.threadRunning = true
  output : o ≠ .moved ∧ o ≠ .refreshed

theorem leavesThread_of_ne (s : FeedThread) {a : FeedInput} (ha : a ≠ .aggregator) :
    LeavesThread s (feedStep s a).1 (feedStep s a).2 := by
  have hself : ∀ o, o ≠ FeedOutput.moved ∧ o ≠ .refreshed → LeavesThread s s o := fun o ho =>
    ⟨Or.inl rfl, id, id, ho⟩
  have hsignal : ∀ owner, LeavesThread s { s.signal with fetchLock := owner } .idle := by
    intro owner
    unfold FeedThread.signal
    split
    · rename_i hp
      exact ⟨Or.inr ⟨hp, false, rfl⟩, id, id, by simp⟩
    · exact ⟨Or.inl rfl, id, id, by simp⟩
  cases a with
  | aggregator => exact absurd rfl ha
  | wake =>
      simp only [feedStep]
      split
      · rename_i hp
        exact ⟨Or.inr ⟨hp, false, rfl⟩, id, id, by simp⟩
      · exact hself _ (by simp)
  | timeout =>
      simp only [feedStep]
      split
      · rename_i hp
        exact ⟨Or.inr ⟨hp, true, rfl⟩, id, id, by simp⟩
      · exact hself _ (by simp)
  | trigger =>
      simp only [feedStep]
      split
      · exact ⟨Or.inl rfl, id, id, by simp⟩
      · exact hself _ (by simp)
  | cleanup =>
      simp only [feedStep]
      split
      · exact ⟨Or.inl rfl, id, id, by simp⟩
      · exact hself _ (by simp)
  | caller =>
      simp only [feedStep, callerStep]
      split
      · exact ⟨Or.inl rfl, fun _ => rfl, id, by simp⟩
      · exact hsignal _
      · exact ⟨Or.inl rfl, id, fun h => (Bool.false_ne_true h).elim, by simp⟩
      · exact hsignal _
      · exact ⟨Or.inl rfl, id, id, by simp⟩
      · exact ⟨Or.inl rfl, id, id, by simp⟩
      · exact hself _ (by simp)
      · exact hself _ (by simp)

/-! ### Requests are served -/

/-- How far the thread is from beginning a refresh, if it goes there straight. -/
def AggregatorPc.distance : AggregatorPc → Nat
  | .fetching => 7
  | .loopTest => 6
  | .acquire | .waiting | .reacquire _ => 5
  | .waitTest => 4
  | .clear => 3
  | .unlock => 2
  | .runTest => 1
  | .finished => 0

/-- There is a request, or the thread is about to begin a refresh. -/
structure Pending (s : FeedThread) : Prop where
  ok : s.Ok
  request : s.fetchRequested = true ∨ s.pc = .unlock ∨ s.pc = .runTest

/-- One if the aggregator thread moved. -/
def FeedOutput.move : FeedOutput → Nat
  | .moved => 1
  | _ => 0

theorem distance_le_of_leaves {s s' : FeedThread} {o : FeedOutput} (h : LeavesThread s s' o) :
    s'.pc.distance + o.move ≤ s.pc.distance := by
  have ho : o.move = 0 := by
    have hout := h.output
    cases o <;> simp_all [FeedOutput.move]
  rcases h.pc with hpc | ⟨hpc, timedOut, hpc'⟩
  · rw [ho, hpc]
    exact Nat.le_refl _
  · rw [ho, hpc, hpc']
    exact Nat.le_refl _

/-- While there is a request the thread comes nearer to a refresh with every step
of its own, and nothing takes it back. -/
theorem pending_step {s : FeedThread} (h : Pending s) (hrunning : s.threadRunning = true)
    (a : FeedInput) :
    (feedStep s a).2 = .refreshed ∨
      Pending (feedStep s a).1 ∧
        (feedStep s a).1.pc.distance + (feedStep s a).2.move ≤ s.pc.distance := by
  have hok := feedStep_ok h.ok a
  by_cases ha : a = .aggregator
  · subst ha
    obtain ⟨running, requested, lock, pc⟩ := s
    obtain ⟨hs, hreq⟩ := h
    obtain rfl : running = true := hrunning
    have hpending : ∀ s' : FeedThread, s'.Ok → s'.fetchRequested = requested →
        (pc ≠ .unlock ∧ pc ≠ .runTest) → Pending s' := fun s' hok' hreq' hpc =>
      ⟨hok', Or.inl (hreq'.trans (hreq.resolve_right (not_or.mpr hpc)))⟩
    simp only [feedStep] at hok ⊢
    cases pc with
    | fetching => exact Or.inr ⟨hpending _ hok rfl (by simp), Nat.le_refl _⟩
    | loopTest => exact Or.inr ⟨hpending _ hok rfl (by simp), Nat.le_refl _⟩
    | acquire =>
        by_cases hfree : lock = none
        · refine Or.inr ⟨hpending _ hok ?_ (by simp), ?_⟩ <;>
            simp [aggregatorStep, hfree, AggregatorPc.distance, FeedOutput.move]
        · refine Or.inr ⟨hpending _ hok ?_ (by simp), ?_⟩ <;>
            simp [aggregatorStep, hfree, AggregatorPc.distance, FeedOutput.move]
    | waitTest =>
        -- a request keeps the thread from going to sleep
        obtain rfl : requested = true := hreq.resolve_right (by simp)
        exact Or.inr ⟨⟨hok, Or.inl rfl⟩, Nat.le_refl _⟩
    | waiting => exact Or.inr ⟨⟨hok, hreq⟩, Nat.le_refl _⟩
    | reacquire timedOut =>
        by_cases hfree : lock = none
        · refine Or.inr ⟨hpending _ hok ?_ (by simp), ?_⟩
          · simp [aggregatorStep, hfree]
          · cases timedOut <;>
              simp [aggregatorStep, hfree, AggregatorPc.distance, FeedOutput.move]
        · refine Or.inr ⟨hpending _ hok ?_ (by simp), ?_⟩ <;>
            simp [aggregatorStep, hfree, AggregatorPc.distance, FeedOutput.move]
    | clear => exact Or.inr ⟨⟨hok, Or.inr (Or.inl rfl)⟩, Nat.le_refl _⟩
    | unlock => exact Or.inr ⟨⟨hok, Or.inr (Or.inr rfl)⟩, Nat.le_refl _⟩
    | runTest => exact Or.inl rfl
    | finished => exact absurd (hs.ended rfl) (by simp)
  · have hleaves := leavesThread_of_ne s ha
    refine Or.inr ⟨⟨hok, ?_⟩, distance_le_of_leaves hleaves⟩
    rcases h.request with hr | hp
    · exact Or.inl (hleaves.requested hr)
    · refine Or.inr ?_
      rcases hleaves.pc with hpc | ⟨hw, -⟩
      · rwa [hpc]
      · rw [hw] at hp
        simp at hp

theorem running_of_step {s : FeedThread} {a : FeedInput}
    (h : (feedStep s a).1.threadRunning = true) : s.threadRunning = true := by
  by_cases ha : a = .aggregator
  · subst ha
    have hsame : (aggregatorStep s).1.threadRunning = s.threadRunning := by
      unfold aggregatorStep
      split <;> (try split) <;> rfl
    exact hsame ▸ h
  · exact (leavesThread_of_ne s ha).running h

theorem running_of_exec {s : FeedThread} {as : List FeedInput}
    (h : (exec feedStep s as).1.threadRunning = true) : s.threadRunning = true := by
  induction as generalizing s with
  | nil => exact h
  | cons a as ih => exact running_of_step (ih h)

theorem unblocked_cons {o : FeedOutput} (h : o ≠ .refreshed) (outputs : List FeedOutput) :
    unblocked (o :: outputs) = unblocked outputs + o.move := by
  rw [unblocked, List.countP_cons]
  congr 1
  cases o with
  | refreshed => exact absurd rfl h
  | _ => rfl

theorem pending_exec {s : FeedThread} (h : Pending s) (as : List FeedInput)
    (hrunning : (exec feedStep s as).1.threadRunning = true)
    (hnone : .refreshed ∉ (exec feedStep s as).2) :
    Pending (exec feedStep s as).1 ∧
      (exec feedStep s as).1.pc.distance + unblocked (exec feedStep s as).2 ≤ s.pc.distance := by
  induction as generalizing s with
  | nil => exact ⟨h, Nat.le_refl _⟩
  | cons a as ih =>
      simp only [exec, List.mem_cons, not_or] at hrunning hnone ⊢
      have hr := running_of_step (running_of_exec hrunning)
      obtain ⟨hp, hd⟩ := (pending_step h hr a).resolve_left (Ne.symm hnone.1)
      obtain ⟨hp', hd'⟩ := ih hp hrunning hnone.2
      refine ⟨hp', ?_⟩
      rw [unblocked_cons (Ne.symm hnone.1)]
      omega

theorem pending_served {s : FeedThread} (h : Pending s) (bs : List FeedInput)
    (hrunning : (exec feedStep s bs).1.threadRunning = true) :
    (7 ≤ unblocked (exec feedStep s bs).2 → .refreshed ∈ (exec feedStep s bs).2) ∧
      (.refreshed ∉ (exec feedStep s bs).2 → (exec feedStep s bs).1.pc = .waiting →
        (exec feedStep s bs).1.fetchLock = some (.trigger .signal) ∨
          (exec feedStep s bs).1.fetchLock = some (.cleanup .signal)) := by
  have hrun := pending_exec h bs hrunning
  revert hrun hrunning
  generalize exec feedStep s bs = r
  intro hrunning hrun
  constructor
  · intro hseven
    by_contra hnone
    obtain ⟨hp, hd⟩ := hrun hnone
    have hstart : s.pc.distance ≤ 7 := by
      cases s.pc <;> simp [AggregatorPc.distance]
    have hzero : r.1.pc.distance = 0 := by omega
    have hfinished : r.1.pc = .finished := by
      revert hzero
      cases r.1.pc <;> simp [AggregatorPc.distance]
    rw [hp.ok.ended hfinished] at hrunning
    cases hrunning
  · intro hnone hp
    obtain ⟨hok, hrequest⟩ := (hrun hnone).1
    exact hok.asleep hp (Or.inl (hrequest.resolve_right (by simp [hp])))

/-- **A request is served**: as long as the end is not called for, a refresh has
begun when the thread has had seven steps in which it was not blocked, and before
that it does not sleep but while it is about to be signalled. -/
theorem trigger_served (requested : Bool) (as bs : List FeedInput) (a : FeedInput)
    (htrigger : (feedStep (exec feedStep (.init requested) as).1 a).2 = .requested) :
    let r := exec feedStep (feedStep (exec feedStep (.init requested) as).1 a).1 bs
    r.1.threadRunning = true →
      (7 ≤ unblocked r.2 → .refreshed ∈ r.2) ∧
      (.refreshed ∉ r.2 → r.1.pc = .waiting →
        r.1.fetchLock = some (.trigger .signal) ∨ r.1.fetchLock = some (.cleanup .signal)) := by
  have hok := ok_exec (FeedThread.ok_init requested) as
  revert htrigger
  generalize (exec feedStep (.init requested) as).1 = s at hok
  intro htrigger
  have hset : (feedStep s a).1.fetchRequested = true := by
    cases a with
    | aggregator =>
        simp only [feedStep, aggregatorStep] at htrigger
        split at htrigger <;> (try split at htrigger) <;> cases htrigger
    | timeout =>
        simp only [feedStep] at htrigger
        split at htrigger <;> cases htrigger
    | caller =>
        simp only [feedStep, callerStep] at htrigger ⊢
        split at htrigger <;> first | rfl | cases htrigger
    | _ => cases htrigger
  exact pending_served ⟨feedStep_ok hok a, Or.inl hset⟩ bs

/-- A request while the thread sleeps. -/
theorem trigger_served_asleep :
    let as := List.replicate 4 FeedInput.aggregator ++ [.trigger]
    let bs := [.caller, .caller] ++ List.replicate 7 FeedInput.aggregator
    .refreshed ∈
      (exec feedStep (feedStep (exec feedStep (.init false) as).1 .caller).1 bs).2 := by
  intro as bs
  exact (trigger_served false as bs .caller (by decide) (by decide)).1 (by decide)

/-! ### Refreshes are asked for -/

/-- A refresh that the thread is bound for. -/
def FeedThread.bound (s : FeedThread) : Bool :=
  s.threadRunning &&
    match s.pc with
    | .reacquire timedOut => timedOut
    | .clear => !s.fetchRequested
    | .unlock => true
    | .runTest => true
    | _ => false

/-- The refreshes that are asked for and have not begun. -/
def FeedThread.owed (s : FeedThread) : Nat := s.fetchRequested.toNat + s.bound.toNat

theorem owed_step (s : FeedThread) (a : FeedInput) :
    (if (feedStep s a).2 = .refreshed then 1 else 0) + (feedStep s a).1.owed
      ≤ s.owed + (if (feedStep s a).2 = .requested then 1 else 0)
        + (if (feedStep s a).2 = .timedOut then 1 else 0) := by
  obtain ⟨running, requested, lock, pc⟩ := s
  have hself : ∀ o, o ≠ FeedOutput.refreshed →
      (if o = .refreshed then 1 else 0) + FeedThread.owed ⟨running, requested, lock, pc⟩
        ≤ FeedThread.owed ⟨running, requested, lock, pc⟩ + (if o = .requested then 1 else 0)
          + (if o = .timedOut then 1 else 0) := by
    intro o ho
    rw [if_neg ho]
    omega
  cases a with
  | aggregator =>
      cases pc with
      | acquire =>
          by_cases hfree : lock = none <;>
            simp [feedStep, aggregatorStep, FeedThread.owed, FeedThread.bound, hfree]
      | reacquire timedOut =>
          by_cases hfree : lock = none <;> cases timedOut <;> cases running <;> cases requested <;>
            simp [feedStep, aggregatorStep, FeedThread.owed, FeedThread.bound, hfree]
      | _ =>
          cases running <;> cases requested <;>
            simp [feedStep, aggregatorStep, FeedThread.owed, FeedThread.bound]
  | wake =>
      cases pc <;> simp [feedStep, FeedThread.owed, FeedThread.bound]
  | timeout =>
      cases running <;> cases pc <;> simp [feedStep, FeedThread.owed, FeedThread.bound]
  | trigger =>
      by_cases hfree : lock = none <;> simp [feedStep, FeedThread.owed, FeedThread.bound, hfree]
  | cleanup =>
      by_cases hfree : lock = none <;> cases running <;>
        simp [feedStep, FeedThread.owed, FeedThread.bound, hfree]
  | caller =>
      simp only [feedStep, callerStep]
      split
      · cases running <;> cases requested <;> cases pc <;>
          simp [FeedThread.owed, FeedThread.bound, Nat.add_comm]
      · cases pc <;> simp [FeedThread.owed, FeedThread.bound, FeedThread.signal]
      · cases running <;> simp [FeedThread.owed, FeedThread.bound]
      · cases pc <;> simp [FeedThread.owed, FeedThread.bound, FeedThread.signal]
      · exact hself _ (by simp)
      · exact hself _ (by simp)
      · exact hself _ (by simp)
      · exact hself _ (by simp)

theorem owed_exec (s : FeedThread) (as : List FeedInput) :
    (exec feedStep s as).2.count .refreshed + (exec feedStep s as).1.owed
      ≤ s.owed + (exec feedStep s as).2.count .requested
        + (exec feedStep s as).2.count .timedOut := by
  induction as generalizing s with
  | nil => simp
  | cons a as ih =>
      have hstep := owed_step s a
      have hrest := ih (feedStep s a).1
      simp only [exec, List.count_cons, beq_iff_eq]
      omega

/-- **Refreshes do not multiply**: after the one at the start there are at most as
many as there were requests and time limits that passed, whatever woke the thread
besides. -/
theorem refreshes_bounded (as : List FeedInput) :
    (exec feedStep (.init false) as).2.count .refreshed
      ≤ (exec feedStep (.init false) as).2.count .requested
        + (exec feedStep (.init false) as).2.count .timedOut := by
  have h := owed_exec (.init false) as
  have hstart : (FeedThread.init false).owed = 0 := rfl
  omega

/-! ### The end -/

end Nullsploit
