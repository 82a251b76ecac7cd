/-
Nullsploit/YaraQueue.lean

The queue of uploaded files waiting for a scan, kernel/yara_engine.c: the ring
`upload_queue` with `queue_head` and `queue_tail`, filled by
`queue_file_upload_scan`, emptied by the worker thread and, at the end, by
`cleanup_yara_engine`.  Every section under `queue_lock` is one step.

It refines a bounded queue of 255 paths (`fifoStep`, `exec_yaraStep_refines`), and
no path is lost or seen twice: those accepted are those taken, in order, and
then those still pending, which the clean-up frees (`upload_queue_is_fifo`).
-/
import Nullsploit.RingQueue
import Nullsploit.Runs

namespace Nullsploit

open Runs

/-! ### The engine -/

/-- `QUEUE_SIZE`. -/
def queueSize : Nat := 256

/-- A path, as the bytes `strdup` copies. -/
abbrev FilePath := List UInt8

/-- The statics of the engine that the queue is about; a slot is a pointer,
`none` for NULL. -/
structure YaraEngine where
  uploadQueue : RingQueue queueSize (Option FilePath)
  workerRunning : Bool
  yaraInitialized : Bool

/-- What a step under the lock comes to. -/
inductive QueueOutcome
  /-- the engine is not initialised -/
  | ignored
  /-- "Queue is full, dropping file scan" -/
  | dropped
  | accepted (filepath : FilePath)
  /-- the worker waits on the condition -/
  | waits
  /-- the worker thread ends -/
  | ends
  | took (filepath : Option FilePath)
  deriving DecidableEq, Repr

/-- `queue_file_upload_scan`, `strdup` succeeding. -/
def queueFileUploadScan (s : YaraEngine) (filepath : FilePath) : YaraEngine × QueueOutcome :=
  if s.yaraInitialized = false then (s, .ignored)
  else if s.uploadQueue.full then (s, .dropped)
  else ({ s with uploadQueue := s.uploadQueue.push (some filepath) }, .accepted filepath)

/-- The locked section of `yara_worker_thread`. -/
def workerTake (s : YaraEngine) : YaraEngine × QueueOutcome :=
  if s.workerRunning = false then (s, .ends)
  else if s.uploadQueue.head = s.uploadQueue.tail then (s, .waits)
  else ({ s with uploadQueue := s.uploadQueue.pop }, .took s.uploadQueue.front)

/-- The first locked section of `cleanup_yara_engine`. -/
def stopWorker (s : YaraEngine) : YaraEngine := { s with workerRunning := false }

/-- The second one, and the pointers it frees. -/
def emptyQueue (s : YaraEngine) : YaraEngine × List (Option FilePath) :=
  ({ s with uploadQueue := s.uploadQueue.drain.2, yaraInitialized := false },
    s.uploadQueue.drain.1)

/-- The engine after a successful `init_yara_engine`.  The ring starts at 0,
and after a clean-up at whatever position it was left. -/
def YaraEngine.initialised (slots : Fin queueSize → Option FilePath) (i : Fin queueSize) :
    YaraEngine :=
  ⟨.empty slots i, true, true⟩

/-! ### Runs -/

inductive QueueEvent
  | upload (filepath : FilePath)
  | work
  deriving DecidableEq, Repr

def yaraStep (s : YaraEngine) : QueueEvent → YaraEngine × QueueOutcome
  | .upload filepath => queueFileUploadScan s filepath
  | .work => workerTake s

/-- `cleanup_yara_engine`, with the uploads that come between its two locked
sections: the pointers freed, and what became of those uploads. -/
def cleanupYaraEngine (s : YaraEngine) (late : List FilePath) :
    List (Option FilePath) × List QueueOutcome :=
  let r := exec yaraStep (stopWorker s) (late.map .upload)
  ((emptyQueue r.1).2, r.2)

/-- The paths accepted, in order. -/
def acceptedPaths (outcomes : List QueueOutcome) : List FilePath :=
  outcomes.filterMap fun
    | .accepted filepath => some filepath
    | _ => none

/-- The pointers taken, in order. -/
def takenPaths (outcomes : List QueueOutcome) : List (Option FilePath) :=
  outcomes.filterMap fun
    | .took filepath => some filepath
    | _ => none

/-! ### The bounded queue -/

/-- A queue of at most `bound` paths. -/
def fifoStep (bound : Nat) (pending : List FilePath) : QueueEvent → List FilePath × QueueOutcome
  | .upload filepath =>
      if pending.length = bound then (pending, .dropped)
      else (pending ++ [filepath], .accepted filepath)
  | .work =>
      match pending with
      | [] => ([], .waits)
      | filepath :: pending => (pending, .took (some filepath))

/-- The ring of an initialised engine stands for these paths. -/
structure QueueHolds (s : YaraEngine) (pending : List FilePath) : Prop where
  initialised : s.yaraInitialized = true
  contents : s.uploadQueue.contents = pending.map some

/-- What goes in comes out, or is still there. -/
theorem fifo_balance (bound : Nat) (pending : List FilePath) (run : List QueueEvent) :
    pending.map some ++ (acceptedPaths (exec (fifoStep bound) pending run).2).map some
      = takenPaths (exec (fifoStep bound) pending run).2
        ++ (exec (fifoStep bound) pending run).1.map some := by
  induction run generalizing pending with
  | nil => simp [exec, acceptedPaths, takenPaths]
  | cons e run ih =>
      have hrest := ih (fifoStep bound pending e).1
      rw [exec]
      cases e with
      | upload filepath =>
          by_cases hfull : pending.length = bound
          · simpa [fifoStep, hfull, acceptedPaths, takenPaths] using hrest
          · simpa [fifoStep, hfull, acceptedPaths, takenPaths] using hrest
      | work =>
          cases pending with
          | nil => simpa [fifoStep, acceptedPaths, takenPaths] using hrest
          | cons filepath pending => simpa [fifoStep, acceptedPaths, takenPaths] using hrest

theorem fifo_bounded {bound : Nat} {pending : List FilePath} (h : pending.length ≤ bound)
    (run : List QueueEvent) : (exec (fifoStep bound) pending run).1.length ≤ bound := by
  induction run generalizing pending with
  | nil => exact h
  | cons e run ih =>
      apply ih
      cases e with
      | upload filepath =>
          rw [fifoStep]
          split
          · exact h
          · show (pending ++ [filepath]).length ≤ bound
            rw [List.length_append, List.length_singleton]
            omega
      | work =>
          cases pending with
          | nil => exact h
          | cons filepath pending =>
              rw [List.length_cons] at h
              exact Nat.le_of_succ_le h

/-! ### The ring is that queue -/

theorem QueueHolds.full_iff {s : YaraEngine} {pending : List FilePath} (h : QueueHolds s pending) :
    s.uploadQueue.full ↔ pending.length = 255 := by
  rw [RingQueue.full_iff, ← RingQueue.length_contents, h.contents, List.length_map]
  exact Nat.succ_inj

/-- An upload, also while the engine is being cleaned up. -/
theorem upload_refines {s : YaraEngine} {pending : List FilePath} (h : QueueHolds s pending)
    (filepath : FilePath) :
    QueueHolds (queueFileUploadScan s filepath).1 (fifoStep 255 pending (.upload filepath)).1 ∧
      (queueFileUploadScan s filepath).2 = (fifoStep 255 pending (.upload filepath)).2 ∧
      (queueFileUploadScan s filepath).1.workerRunning = s.workerRunning := by
  rw [queueFileUploadScan, fifoStep, if_neg (by simp [h.initialised])]
  by_cases hcase : pending.length = 255
  · rw [if_pos (h.full_iff.mpr hcase), if_pos hcase]
    exact ⟨h, rfl, rfl⟩
  · have hroom : ¬ s.uploadQueue.full := fun hf => hcase (h.full_iff.mp hf)
    rw [if_neg hroom, if_neg hcase]
    refine ⟨⟨h.initialised, ?_⟩, rfl, rfl⟩
    show (s.uploadQueue.push (some filepath)).contents = _
    rw [RingQueue.contents_push hroom, h.contents, List.map_append, List.map_singleton]

/-- A turn of the worker. -/
theorem work_refines {s : YaraEngine} {pending : List FilePath} (h : QueueHolds s pending)
    (hrun : s.workerRunning = true) :
    QueueHolds (workerTake s).1 (fifoStep 255 pending .work).1 ∧
      (workerTake s).2 = (fifoStep 255 pending .work).2 ∧
      (workerTake s).1.workerRunning = true := by
  have hempty : s.uploadQueue.head = s.uploadQueue.tail ↔ pending = [] := by
    rw [← RingQueue.contents_eq_nil_iff, h.contents, List.map_eq_nil_iff]
  rw [workerTake, if_neg (by simp [hrun])]
  cases pending with
  | nil =>
      rw [if_pos (hempty.mpr rfl)]
      exact ⟨h, rfl, hrun⟩
  | cons filepath pending =>
      have hne : s.uploadQueue.head ≠ s.uploadQueue.tail :=
        fun he => List.cons_ne_nil _ _ (hempty.mp he)
      have hcontents := h.contents
      rw [RingQueue.contents_pop hne, List.map_cons] at hcontents
      obtain ⟨hfront, hrest⟩ := List.cons.inj hcontents
      rw [if_neg hne]
      exact ⟨⟨h.initialised, hrest⟩, congrArg QueueOutcome.took hfront, hrun⟩

/-- The run of an engine whose worker runs is a run of the bounded queue. -/
theorem exec_yaraStep_refines {s : YaraEngine} {pending : List FilePath} (h : QueueHolds s pending)
    (hrun : s.workerRunning = true) (run : List QueueEvent) :
    QueueHolds (exec yaraStep s run).1 (exec (fifoStep 255) pending run).1 ∧
      (exec yaraStep s run).2 = (exec (fifoStep 255) pending run).2 := by
  have hstep : ∀ (s : YaraEngine) (pending : List FilePath) (e : QueueEvent), True →
      QueueHolds s pending ∧ s.workerRunning = true →
      (QueueHolds (yaraStep s e).1 (fifoStep 255 pending e).1 ∧
        (yaraStep s e).1.workerRunning = true) ∧ (yaraStep s e).2 = (fifoStep 255 pending e).2 := by
    rintro s pending e - ⟨h, hrun⟩
    cases e with
    | upload filepath =>
        obtain ⟨hrep, hout, hsame⟩ := upload_refines h filepath
        exact ⟨⟨hrep, hsame.trans hrun⟩, hout⟩
    | work =>
        obtain ⟨hrep, hout, hrun'⟩ := work_refines h hrun
        exact ⟨⟨hrep, hrun'⟩, hout⟩
  have hall := exec_simulates _ _ hstep (fun e (_ : e ∈ run) => trivial) ⟨h, hrun⟩
  exact ⟨hall.1.1, hall.2⟩

/-- Uploads alone need no worker. -/
theorem exec_uploads_refines {s : YaraEngine} {pending : List FilePath} (h : QueueHolds s pending)
    (late : List FilePath) :
    QueueHolds (exec yaraStep s (late.map .upload)).1
        (exec (fifoStep 255) pending (late.map .upload)).1 ∧
      (exec yaraStep s (late.map .upload)).2 = (exec (fifoStep 255) pending (late.map .upload)).2 := by
  refine exec_simulates (fun e => ∃ filepath, e = .upload filepath) QueueHolds ?_ ?_ h
  · rintro s pending _ ⟨filepath, rfl⟩ h
    obtain ⟨hrep, hout, -⟩ := upload_refines h filepath
    exact ⟨hrep, hout⟩
  · intro e he
    obtain ⟨filepath, -, rfl⟩ := List.mem_map.mp he
    exact ⟨filepath, rfl⟩

/-- Uploads take nothing. -/
theorem takenPaths_uploads (pending late : List FilePath) :
    takenPaths (exec (fifoStep 255) pending (late.map .upload)).2 = [] := by
  induction late generalizing pending with
  | nil => rfl
  | cons filepath late ih =>
      rw [List.map_cons, exec]
      by_cases hfull : pending.length = 255
      · simpa [fifoStep, hfull, takenPaths] using ih _
      · simpa [fifoStep, hfull, takenPaths] using ih _

/-- **The upload queue is a bounded queue.**  After every run of uploads and
turns of the worker the ring stands for a list of at most 255 paths.  The next
upload is appended to it, unless it has 255, and then changes nothing.  The
paths accepted are the ones the worker took, in order, and then that list; and
the clean-up frees it, with what is uploaded while it waits for the worker. -/
theorem upload_queue_is_fifo (slots : Fin queueSize → Option FilePath) (i : Fin queueSize)
    (run : List QueueEvent) :
    let r := exec yaraStep (.initialised slots i) run
    ∃ pending : List FilePath, QueueHolds r.1 pending ∧ pending.length ≤ 255 ∧
      (∀ filepath, pending.length < 255 →
        QueueHolds (queueFileUploadScan r.1 filepath).1 (pending ++ [filepath]) ∧
          (queueFileUploadScan r.1 filepath).2 = .accepted filepath) ∧
      (∀ filepath, pending.length = 255 → queueFileUploadScan r.1 filepath = (r.1, .dropped)) ∧
      (acceptedPaths r.2).map some = takenPaths r.2 ++ pending.map some ∧
      ∀ late, (cleanupYaraEngine r.1 late).1
        = (pending ++ acceptedPaths (cleanupYaraEngine r.1 late).2).map some := by
  intro r
  have hstart : QueueHolds (.initialised slots i) [] := ⟨rfl, RingQueue.contents_empty slots i⟩
  obtain ⟨hrep, hout⟩ := exec_yaraStep_refines hstart rfl run
  refine ⟨_, hrep, fifo_bounded (Nat.zero_le _) run, ?_, ?_, ?_, ?_⟩
  · intro filepath hroom
    obtain ⟨hholds, houtcome, -⟩ := upload_refines hrep filepath
    rw [fifoStep, if_neg (Nat.ne_of_lt hroom)] at hholds houtcome
    exact ⟨hholds, houtcome⟩
  · intro filepath hfull
    have hinit : r.1.yaraInitialized ≠ false := by
      rw [hrep.initialised]
      exact Bool.noConfusion
    rw [queueFileUploadScan, if_neg hinit, if_pos (hrep.full_iff.mpr hfull)]
  · have hbalance := fifo_balance 255 [] run
    rw [← hout] at hbalance
    exact hbalance
  · intro late
    generalize (exec (fifoStep 255) [] run).1 = pending at hrep
    have hstopped : QueueHolds (stopWorker r.1) pending := ⟨hrep.initialised, hrep.contents⟩
    obtain ⟨hlate, hlateOut⟩ := exec_uploads_refines hstopped late
    have hbalance := fifo_balance 255 pending (late.map .upload)
    rw [takenPaths_uploads, List.nil_append, ← hlateOut, ← hlate.contents] at hbalance
    rw [List.map_append]
    exact ((RingQueue.drain_eq _).1.trans hbalance.symm)

end Nullsploit
