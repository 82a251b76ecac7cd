/-
Nullsploit/AiAnalysis.lean

AIService.java: every ten seconds `runAIAnalysis` takes the five oldest events
without a row in `ai_analysis_dataset`, asks an API about each, and then asks once
about up to a hundred slowloris events without a row.  Between any two of these
statements the receiver may insert events and the dashboard may delete them, with
the rows that refer to them.

A verdict is final: an event that has one is not asked about again, and its row
stays until the event goes (`verdict_final`).  An event that is refused stays in
front of the queue, so five of them keep all others waiting
(`oldest_block_the_queue`); without refusals the queue moves five at a time
(`oldest_are_analyzed`).  The batch does not wait: if the API turns it down, its
events are recorded as no threat (`outage_verdicts`).
-/
import Nullsploit.CText
import Nullsploit.Polling
import Nullsploit.Runs

namespace Nullsploit

open CText Polling Runs

/-! ### The tables -/

/-- A row of `events`; `cols` goes into the prompt. -/
structure AiEvent (ρ : Type) where
  id : Int
  threatType : Int
  cols : ρ

/-- The columns of `ai_analysis_dataset` besides the event; the explanation may be
`NULL`. -/
structure AiVerdict where
  threatDetected : Bool
  confidence : Int
  explanation : Option (List UInt8)
  modelUsed : List UInt8
  deriving DecidableEq

/-! ### The API -/

/-- The body of a reply: one that cannot be read as what was asked for, one
without choices, or an answer. -/
inductive ReplyBody where
  | unreadable
  | noChoices
  | result (threatDetected : Bool) (confidence : Int) (explanation : Option (List UInt8))

/-- What comes of a request. -/
inductive ApiReply where
  | threw
  | reply (status : Nat) (body : ReplyBody)

/-- A request with a bearer token, and once more with `X-API-Key` if that is
rejected; `send` tells the replies. -/
def askAi (send : Bool → ApiReply) : ApiReply :=
  match send true with
  | .threw => .threw
  | .reply status body => if status = 401 then send false else .reply status body

/-- What `analyzeEvent` inserts, if anything. -/
def eventVerdict (model : List UInt8) : ApiReply → Option AiVerdict
  | .reply status (.result threatDetected confidence explanation) =>
      if status = 200 ∨ status = 201 then some ⟨threatDetected, confidence, explanation, model⟩
      else none
  | _ => none

/-- What is inserted for a batch without an answer. -/
def batchFailed : AiVerdict := ⟨false, 50, some (str "Batch analysis failed."), str "batch_failed"⟩

/-- What `analyzeSlowlorisBatch` inserts for each event, unless an exception is
thrown. -/
def batchVerdict (model : List UInt8) : ApiReply → Option AiVerdict
  | .threw => none
  | .reply status body =>
      if status = 200 ∨ status = 201 then
        match body with
        | .unreadable => none
        | .noChoices => some batchFailed
        | .result threatDetected confidence explanation =>
            some ⟨threatDetected, confidence, explanation, model ++ str " (batch)"⟩
      else some batchFailed

/-- The model's name behind its provider. -/
def modelName (model : List UInt8) : List UInt8 :=
  if ch '/' ∈ model then (model.dropWhile (· ≠ ch '/')).tail else model

/-! ### The service -/

/-- Where `runAIAnalysis` is: not running, about to ask about the next of these
events, about to ask about a batch, or inserting its verdict. -/
inductive AiPhase (ρ : Type) where
  | idle
  | single (model : List UInt8) (todo : List (AiEvent ρ))
  | batch (model : List UInt8) (todo : List (AiEvent ρ))
  | applying (verdict : AiVerdict) (todo : List (AiEvent ρ))

/-- The tables, the last value of the sequence of `events.id`, and the service. -/
structure AiState (ρ : Type) where
  events : List (AiEvent ρ)
  seq : Nat
  dataset : List (Int × AiVerdict)
  phase : AiPhase ρ

/-- What happens to the service and its tables. -/
inductive AiInput (ρ : Type) where
  /-- `db_insert_event`, after `skipped` values of the sequence without a row. -/
  | insert (skipped : Nat) (threatType : Int) (cols : ρ)
  /-- `clearReputation`. -/
  | delete (rows : AiEvent ρ → Bool)
  | restart
  /-- `runAIAnalysis` is due, with its settings. -/
  | run (apiKey model apiUrl : List UInt8) (selects : Bool)
  /-- `analyzeEvent`, with the replies and whether the statement succeeds. -/
  | analyzeEvent (send : AiEvent ρ → Bool → ApiReply) (stores : Bool)
  /-- The query of `analyzeSlowlorisBatch`. -/
  | selectBatch (selects : Bool)
  | askBatch (send : Bool → ApiReply)
  | storeBatch (stores : Bool)

variable {ρ : Type}

/-- `LEFT JOIN ai_analysis_dataset a ... WHERE a.event_id IS NULL`. -/
def AiState.pending (s : AiState ρ) : List (AiEvent ρ) :=
  s.events.filter fun e => (s.dataset.lookup e.id).isNone

/-- `ORDER BY e.id ASC LIMIT n`. -/
def oldest (n : Nat) (events : List (AiEvent ρ)) : List (AiEvent ρ) :=
  (events.mergeSort fun a b => decide (a.id ≤ b.id)).take n

/-- Slowloris. -/
def AiEvent.isSlowloris (e : AiEvent ρ) : Bool := decide (e.threatType = 4)

/-- `INSERT INTO ai_analysis_dataset ... ON CONFLICT (event_id) DO NOTHING`; an event
that is gone violates the foreign key. -/
def AiState.record (s : AiState ρ) (stores : Bool) (id : Int) (v : AiVerdict) : AiState ρ :=
  if stores ∧ (∃ e ∈ s.events, e.id = id) ∧ s.dataset.lookup id = none then
    { s with dataset := s.dataset ++ [(id, v)] }
  else s

/-- `DELETE FROM events`, with the rows that refer to them. -/
def AiState.deleteEvents (s : AiState ρ) (rows : AiEvent ρ → Bool) : AiState ρ :=
  { s with
    events := s.events.filter fun e => !rows e
    dataset := s.dataset.filter fun r =>
      (s.events.filter fun e => !rows e).any fun e => e.id = r.1 }

/-- One step, and the events that are asked about. -/
def aiStep (s : AiState ρ) : AiInput ρ → AiState ρ × List (AiEvent ρ)
  | .insert skipped threatType cols =>
      let id := s.seq + skipped + 1
      if id < 2 ^ 63 then
        ({ s with seq := id, events := s.events ++ [⟨id, threatType, cols⟩] }, [])
      else (s, [])
  | .delete rows => (s.deleteEvents rows, [])
  | .restart => ({ s with phase := .idle }, [])
  | .run apiKey model apiUrl selects =>
      match s.phase with
      | .idle =>
          if apiKey ≠ [] ∧ str "https://" <+: apiUrl.map toLower ∧ selects then
            ({ s with phase := .single (modelName model) (oldest 5 s.pending) }, [])
          else (s, [])
      | _ => (s, [])
  | .analyzeEvent send stores =>
      match s.phase with
      | .single model (e :: todo) =>
          let s := { s with phase := .single model todo }
          match eventVerdict model (askAi (send e)) with
          | none => (s, [e])
          | some v => (s.record stores e.id v, [e])
      | _ => (s, [])
  | .selectBatch selects =>
      match s.phase with
      | .single model [] =>
          let events := oldest 100 (s.pending.filter AiEvent.isSlowloris)
          if selects ∧ events ≠ [] then ({ s with phase := .batch model events }, [])
          else ({ s with phase := .idle }, [])
      | _ => (s, [])
  | .askBatch send =>
      match s.phase with
      | .batch model todo =>
          match batchVerdict model (askAi send) with
          | none => ({ s with phase := .idle }, todo)
          | some v => ({ s with phase := .applying v todo }, todo)
      | _ => (s, [])
  | .storeBatch stores =>
      match s.phase with
      | .applying v (e :: todo) =>
          (({ s with phase := .applying v todo } : AiState ρ).record stores e.id v, [])
      | .applying _ [] => ({ s with phase := .idle }, [])
      | _ => (s, [])

/-! ### What a step can do -/

/-- The events that are still to be dealt with. -/
def AiPhase.todo : AiPhase ρ → List (AiEvent ρ)
  | .idle => []
  | .single _ todo => todo
  | .batch _ todo => todo
  | .applying _ todo => todo

/-- The tables as the sequence, the keys and the service keep them. -/
structure AiState.WellFormed (s : AiState ρ) : Prop where
  increasing : Increasing AiEvent.id s.events
  le_seq : ∀ e ∈ s.events, e.id ≤ s.seq
  nodup : (s.dataset.map Prod.fst).Nodup
  refers : ∀ r ∈ s.dataset, ∃ e ∈ s.events, e.id = r.1
  todo_increasing : Increasing AiEvent.id s.phase.todo
  todo_le_seq : ∀ e ∈ s.phase.todo, e.id ≤ s.seq
  todo_open : ∀ e ∈ s.phase.todo, s.dataset.lookup e.id = none
  todo_same : ∀ e ∈ s.phase.todo, ∀ e' ∈ s.events, e'.id = e.id → e' = e

/-- A service at rest. -/
theorem AiState.wellFormed_idle {events : List (AiEvent ρ)} {seq : Nat}
    {dataset : List (Int × AiVerdict)} (hinc : Increasing AiEvent.id events)
    (hle : ∀ e ∈ events, e.id ≤ seq) (hnodup : (dataset.map Prod.fst).Nodup)
    (hrefers : ∀ r ∈ dataset, ∃ e ∈ events, e.id = r.1) :
    (⟨events, seq, dataset, .idle⟩ : AiState ρ).WellFormed where
  increasing := hinc
  le_seq := hle
  nodup := hnodup
  refers := hrefers
  todo_increasing := List.Pairwise.nil
  todo_le_seq := by simp [AiPhase.todo]
  todo_open := by simp [AiPhase.todo]
  todo_same := by simp [AiPhase.todo]

theorem increasing_pending {s : AiState ρ} (h : Increasing AiEvent.id s.events) :
    Increasing AiEvent.id s.pending :=
  h.filter _

theorem oldest_eq {events : List (AiEvent ρ)} (h : Increasing AiEvent.id events) (n : Nat) :
    oldest n events = events.take n := by
  have hsorted : events.Pairwise fun a b => decide (a.id ≤ b.id) = true :=
    h.imp fun hlt => decide_eq_true hlt.le
  rw [oldest, List.mergeSort_of_pairwise hsorted]

theorem mem_pending {s : AiState ρ} {e : AiEvent ρ} :
    e ∈ s.pending ↔ e ∈ s.events ∧ s.dataset.lookup e.id = none := by
  simp [AiState.pending]

theorem lookup_filter_key (l : List (Int × AiVerdict)) (p : Int → Bool) (k : Int) :
    (l.filter fun r => p r.1).lookup k = if p k then l.lookup k else none := by
  induction l with
  | nil => simp
  | cons r l ih =>
      obtain ⟨k', v⟩ := r
      rw [List.filter_cons, List.lookup_cons]
      rcases hk : k == k' with - | -
      · -- a row of another key
        rw [← ih]
        split
        · rw [List.lookup_cons, hk]
        · rfl
      · obtain rfl := eq_of_beq hk
        by_cases hp : p k = true
        · rw [if_pos hp, if_pos hp, List.lookup_cons, hk]
        · rw [if_neg hp, ih, if_neg hp, if_neg hp]

/-- A new row is about its own event. -/
theorem lookup_append_of_ne {k id : Int} (h : k ≠ id) (l : List (Int × AiVerdict)) (v : AiVerdict) :
    (l ++ [(id, v)]).lookup k = l.lookup k := by
  have hne : (k == id) = false := beq_eq_false_iff_ne.mpr h
  rw [List.lookup_append]
  simp [List.lookup_cons, hne]

/-- The rows of an event after a deletion. -/
theorem lookup_deleteEvents (s : AiState ρ) (rows : AiEvent ρ → Bool) (id : Int) :
    (s.deleteEvents rows).dataset.lookup id
      = if ∃ e ∈ (s.deleteEvents rows).events, e.id = id then s.dataset.lookup id else none := by
  show (s.dataset.filter fun r => (s.events.filter fun e => !rows e).any fun e => e.id = r.1).lookup
    id = _
  rw [lookup_filter_key s.dataset fun k => (s.events.filter fun e => !rows e).any fun e => e.id = k]
  refine if_congr ?_ rfl rfl
  rw [List.any_eq_true]
  exact exists_congr fun e => and_congr_right fun _ => decide_eq_true_iff

/-- What a step can do to the tables and the service. -/
inductive AiMove (s : AiState ρ) : AiState ρ → List (AiEvent ρ) → Prop where
  | insert (id : Nat) (threatType : Int) (cols : ρ) (hid : s.seq < id) :
      AiMove s { s with seq := id, events := s.events ++ [⟨id, threatType, cols⟩] } []
  | delete (rows : AiEvent ρ → Bool) : AiMove s (s.deleteEvents rows) []
  | move (phase : AiPhase ρ) (asked : List (AiEvent ρ)) (hasked : asked ⊆ s.phase.todo)
      (htodo : phase.todo.Sublist s.phase.todo ∨ phase.todo.Sublist s.pending) :
      AiMove s { s with phase := phase } asked
  | record (phase : AiPhase ρ) (asked : List (AiEvent ρ)) (e : AiEvent ρ) (v : AiVerdict)
      (hasked : asked ⊆ s.phase.todo) (htodo : s.phase.todo = e :: phase.todo)
      (hevent : ∃ e' ∈ s.events, e'.id = e.id) :
      AiMove s { s with phase := phase, dataset := s.dataset ++ [(e.id, v)] } asked

/-- Inserting the verdict of the event that is next. -/
theorem record_move {s : AiState ρ} {phase : AiPhase ρ} {e : AiEvent ρ} (stores : Bool)
    (v : AiVerdict) {asked : List (AiEvent ρ)} (hasked : asked ⊆ s.phase.todo)
    (htodo : s.phase.todo = e :: phase.todo) :
    AiMove s (({ s with phase := phase } : AiState ρ).record stores e.id v) asked := by
  unfold AiState.record
  split
  · rename_i h
    exact .record phase asked e v hasked htodo h.2.1
  · exact .move phase asked hasked (Or.inl (htodo ▸ List.sublist_cons_self e phase.todo))

theorem aiStep_move {s : AiState ρ} (h : Increasing AiEvent.id s.events) (a : AiInput ρ) :
    AiMove s (aiStep s a).1 (aiStep s a).2 := by
  have hself : AiMove s s [] := .move s.phase [] (List.nil_subset _) (Or.inl (List.Sublist.refl _))
  have hidle : ∀ {asked}, asked ⊆ s.phase.todo → AiMove s { s with phase := .idle } asked :=
    fun hasked => .move .idle _ hasked (Or.inl (List.nil_sublist _))
  cases a with
  | insert skipped threatType cols =>
      simp only [aiStep]
      split
      · exact .insert _ threatType cols (by omega)
      · exact hself
  | delete rows => exact .delete rows
  | restart => exact hidle (List.nil_subset _)
  | run apiKey model apiUrl selects =>
      rcases hphase : s.phase with - | ⟨m, t⟩ | ⟨m, t⟩ | ⟨v, t⟩ <;> simp only [aiStep, hphase]
      · split
        · refine .move _ _ (List.nil_subset _) (Or.inr ?_)
          show (oldest 5 s.pending).Sublist s.pending
          rw [oldest_eq (increasing_pending h)]
          exact List.take_sublist _ _
        · exact hself
      all_goals exact hself
  | analyzeEvent send stores =>
      rcases hphase : s.phase with - | ⟨m, t⟩ | ⟨m, t⟩ | ⟨v, t⟩ <;> simp only [aiStep, hphase]
      · exact hself
      · cases t with
        | nil => exact hself
        | cons e todo =>
            have htodo : s.phase.todo = e :: (AiPhase.single m todo).todo := by
              rw [hphase]
              rfl
            have hasked : [e] ⊆ s.phase.todo := by
              rw [htodo]
              simp
            dsimp only
            split
            · exact .move _ _ hasked (Or.inl (htodo ▸ List.sublist_cons_self e _))
            · exact record_move stores _ hasked htodo
      all_goals exact hself
  | selectBatch selects =>
      rcases hphase : s.phase with - | ⟨m, t⟩ | ⟨m, t⟩ | ⟨v, t⟩ <;> simp only [aiStep, hphase]
      · exact hself
      · cases t with
        | nil =>
            dsimp only
            split
            · refine .move _ _ (List.nil_subset _) (Or.inr ?_)
              show (oldest 100 (s.pending.filter AiEvent.isSlowloris)).Sublist s.pending
              rw [oldest_eq ((increasing_pending h).filter _)]
              exact (List.take_sublist _ _).trans List.filter_sublist
            · exact hidle (List.nil_subset _)
        | cons e todo => exact hself
      all_goals exact hself
  | askBatch send =>
      rcases hphase : s.phase with - | ⟨m, t⟩ | ⟨m, t⟩ | ⟨v, t⟩ <;> simp only [aiStep, hphase]
      · exact hself
      · exact hself
      · have hasked : t ⊆ s.phase.todo := by
          rw [hphase]
          exact List.Subset.refl t
        split
        · exact hidle hasked
        · refine .move _ _ hasked (Or.inl ?_)
          rw [hphase]
          exact List.Sublist.refl t
      · exact hself
  | storeBatch stores =>
      rcases hphase : s.phase with - | ⟨m, t⟩ | ⟨m, t⟩ | ⟨v, t⟩ <;> simp only [aiStep, hphase]
      · exact hself
      · exact hself
      · exact hself
      · cases t with
        | nil => exact hidle (List.nil_subset _)
        | cons e todo =>
            have htodo : s.phase.todo = e :: (AiPhase.applying v todo).todo := by
              rw [hphase]
              rfl
            exact record_move stores v (List.nil_subset _) htodo

theorem AiMove.wellFormed {s s' : AiState ρ} {asked : List (AiEvent ρ)} (hm : AiMove s s' asked)
    (h : s.WellFormed) : s'.WellFormed := by
  cases hm with
  | insert id threatType cols hid =>
      have hlt : ∀ e ∈ s.events, e.id < (id : Int) := fun e he =>
        lt_of_le_of_lt (h.le_seq e he) (by exact_mod_cast hid)
      refine ⟨?_, ?_, h.nodup, ?_, h.todo_increasing, ?_, h.todo_open, ?_⟩
      · refine List.pairwise_append.mpr ⟨h.increasing, List.pairwise_singleton _ _, ?_⟩
        intro e he e' he'
        rw [List.mem_singleton.mp he']
        exact hlt e he
      · intro e he
        rcases List.mem_append.mp he with he | he
        · exact (hlt e he).le
        · rw [List.mem_singleton.mp he]
      · intro r hr
        obtain ⟨e, he, heq⟩ := h.refers r hr
        exact ⟨e, List.mem_append_left _ he, heq⟩
      · exact fun e he => (h.todo_le_seq e he).trans (by exact_mod_cast hid.le)
      · intro e he e' he' heq
        rcases List.mem_append.mp he' with he' | he'
        · exact h.todo_same e he e' he' heq
        · have hle := h.todo_le_seq e he
          rw [List.mem_singleton.mp he'] at heq
          have heq : (id : Int) = e.id := heq
          omega
  | delete rows =>
      refine ⟨h.increasing.filter _, fun e he => h.le_seq e (List.mem_of_mem_filter he),
        h.nodup.sublist (List.filter_sublist.map _), ?_, h.todo_increasing, h.todo_le_seq, ?_,
        fun e he e' he' => h.todo_same e he e' (List.mem_of_mem_filter he')⟩
      · intro r hr
        obtain ⟨-, hany⟩ := List.mem_filter.mp hr
        obtain ⟨e, he, heq⟩ := List.any_eq_true.mp hany
        exact ⟨e, he, of_decide_eq_true heq⟩
      · intro e he
        rw [lookup_deleteEvents, h.todo_open e he, ite_self]
  | move phase asked hasked htodo =>
      have hmem : ∀ e ∈ phase.todo, e.id ≤ s.seq ∧ s.dataset.lookup e.id = none ∧
          ∀ e' ∈ s.events, e'.id = e.id → e' = e := by
        intro e he
        rcases htodo with hsub | hsub
        · have he := hsub.subset he
          exact ⟨h.todo_le_seq e he, h.todo_open e he, h.todo_same e he⟩
        · obtain ⟨hevent, hopen⟩ := mem_pending.mp (hsub.subset he)
          exact ⟨h.le_seq e hevent, hopen, fun e' he' =>
            Increasing.eq_of_key h.increasing he' hevent⟩
      refine ⟨h.increasing, h.le_seq, h.nodup, h.refers, ?_, fun e he => (hmem e he).1,
        fun e he => (hmem e he).2.1, fun e he => (hmem e he).2.2⟩
      rcases htodo with hsub | hsub
      · exact h.todo_increasing.sublist hsub
      · exact (increasing_pending h.increasing).sublist hsub
  | record phase asked e v hasked htodo hevent =>
      have htodo' := h.todo_increasing
      rw [htodo] at htodo'
      obtain ⟨hfirst, hrest⟩ := List.pairwise_cons.mp htodo'
      have hmem : ∀ e' ∈ phase.todo, e' ∈ s.phase.todo := fun e' he' => by
        rw [htodo]
        exact List.mem_cons_of_mem e he'
      have hopen : s.dataset.lookup e.id = none :=
        h.todo_open e (htodo ▸ List.mem_cons_self)
      refine ⟨h.increasing, h.le_seq, ?_, ?_, hrest, fun e' he' => h.todo_le_seq e' (hmem e' he'),
        ?_, fun e' he' => h.todo_same e' (hmem e' he')⟩
      · show ((s.dataset ++ [(e.id, v)]).map Prod.fst).Nodup
        rw [List.map_append, List.nodup_append]
        refine ⟨h.nodup, by simp, fun k hk k' hk' => ?_⟩
        rw [List.map_singleton, List.mem_singleton] at hk'
        rintro rfl
        obtain ⟨r, hr, hrk⟩ := List.mem_map.mp hk
        have hnone := List.lookup_eq_none_iff.mp hopen r hr
        simp [hrk, hk'] at hnone
      · intro r hr
        rcases List.mem_append.mp hr with hr | hr
        · exact h.refers r hr
        · rw [List.mem_singleton.mp hr]
          exact hevent
      · intro e' he'
        show (s.dataset ++ [(e.id, v)]).lookup e'.id = none
        rw [lookup_append_of_ne (hfirst e' he').ne', h.todo_open e' (hmem e' he')]

/-! ### A verdict is final -/

/-- The event has this verdict, or had it and is gone; it is not to be dealt with
again. -/
structure Settled (id : Int) (v : AiVerdict) (s : AiState ρ) : Prop where
  wellFormed : s.WellFormed
  le_seq : id ≤ s.seq
  todo_ne : ∀ e ∈ s.phase.todo, e.id ≠ id
  row : s.dataset.lookup id = some v ∨ s.dataset.lookup id = none ∧ ∀ e ∈ s.events, e.id ≠ id

theorem AiState.WellFormed.settled {s : AiState ρ} (h : s.WellFormed) {id : Int} {v : AiVerdict}
    (hv : s.dataset.lookup id = some v) : Settled id v s := by
  obtain ⟨l₁, l₂, hl, -⟩ := List.lookup_eq_some_iff.mp hv
  obtain ⟨e, he, heq⟩ := h.refers (id, v) (hl ▸ by simp)
  have hle : id ≤ s.seq := heq.symm.trans_le (h.le_seq e he)
  refine ⟨h, hle, fun e' he' heq' => ?_, Or.inl hv⟩
  have hopen := h.todo_open e' he'
  rw [heq', hv] at hopen
  cases hopen

theorem Settled.move {id : Int} {v : AiVerdict} {s s' : AiState ρ} {asked : List (AiEvent ρ)}
    (h : Settled id v s) (hm : AiMove s s' asked) :
    Settled id v s' ∧ ∀ e ∈ asked, e.id ≠ id := by
  obtain ⟨hwf, hle, htodo_ne, hrow⟩ := h
  have hwf' := hm.wellFormed hwf
  cases hm with
  | insert id' threatType cols hid =>
      refine ⟨⟨hwf', hle.trans (by exact_mod_cast hid.le), htodo_ne, ?_⟩, by simp⟩
      refine hrow.imp_right fun ⟨hnone, hgone⟩ => ⟨hnone, fun e he => ?_⟩
      rcases List.mem_append.mp he with he | he
      · exact hgone e he
      · rw [List.mem_singleton.mp he]
        show (id' : Int) ≠ id
        omega
  | delete rows =>
      refine ⟨⟨hwf', hle, htodo_ne, ?_⟩, by simp⟩
      rw [lookup_deleteEvents]
      split
      · refine hrow.imp_right fun ⟨hnone, hgone⟩ => ⟨hnone, fun e he => ?_⟩
        exact hgone e (List.mem_of_mem_filter he)
      · rename_i hgone
        exact Or.inr ⟨rfl, fun e he heq => hgone ⟨e, he, heq⟩⟩
  | move phase asked hasked htodo =>
      refine ⟨⟨hwf', hle, fun e he => ?_, hrow⟩, fun e he => htodo_ne e (hasked he)⟩
      rcases htodo with hsub | hsub
      · exact htodo_ne e (hsub.subset he)
      · -- what is selected has no row and is there
        obtain ⟨hevent, hopen⟩ := mem_pending.mp (hsub.subset he)
        rintro rfl
        rcases hrow with hv | ⟨-, hgone⟩
        · rw [hv] at hopen
          cases hopen
        · exact hgone e hevent rfl
  | record phase asked e v' hasked htodo hevent =>
      have hne : e.id ≠ id := htodo_ne e (htodo ▸ List.mem_cons_self)
      refine ⟨⟨hwf', hle, fun e' he' => ?_, ?_⟩, fun e' he' => htodo_ne e' (hasked he')⟩
      · exact htodo_ne e' (htodo ▸ List.mem_cons_of_mem e he')
      · show (s.dataset ++ [(e.id, v')]).lookup id = some v ∨
          (s.dataset ++ [(e.id, v')]).lookup id = none ∧ _
        rw [lookup_append_of_ne hne.symm]
        exact hrow

/-- **A verdict is final**: whatever happens later, the row of an event stays as
it is until the event goes, and the API is not asked about it again. -/
theorem verdict_final {s : AiState ρ} (h : s.WellFormed) {id : Int} {v : AiVerdict}
    (hv : s.dataset.lookup id = some v) (inputs : List (AiInput ρ)) :
    let r := exec aiStep s inputs
    (∀ e ∈ r.2.flatten, e.id ≠ id) ∧
      (r.1.dataset.lookup id = some v ∨
        r.1.dataset.lookup id = none ∧ ∀ e ∈ r.1.events, e.id ≠ id) := by
  have hsettled := h.settled hv
  clear hv h
  induction inputs generalizing s with
  | nil => exact ⟨by simp, hsettled.row⟩
  | cons a inputs ih =>
      obtain ⟨hnext, hasked⟩ := hsettled.move (aiStep_move hsettled.wellFormed.increasing a)
      obtain ⟨hrest, hrow⟩ := ih hnext
      refine ⟨fun e he => ?_, hrow⟩
      rcases List.mem_append.mp (show e ∈ (aiStep s a).2 ++ _ from he) with he | he
      · exact hasked e he
      · exact hrest e he

theorem verdict_final_one :
    let v : AiVerdict := ⟨true, 90, none, str "glm"⟩
    let s : AiState Unit := ⟨[⟨1, 7, ()⟩], 1, [(1, v)], .idle⟩
    let r := exec aiStep s
      [.run (str "key") (str "glm") (str "https://ai") true, .delete fun e => decide (e.id = 1),
        .insert 0 7 (), .selectBatch true]
    (∀ e ∈ r.2.flatten, e.id ≠ 1) ∧
      (r.1.dataset.lookup 1 = some v ∨
        r.1.dataset.lookup 1 = none ∧ ∀ e ∈ r.1.events, e.id ≠ 1) :=
  verdict_final (AiState.wellFormed_idle (by simp [Increasing]) (by simp) (by simp) (by simp)) rfl _

/-! ### The queue -/

/-- What is left of the queue, and what came behind it. -/
def Later (s s' : AiState ρ) : Prop :=
  s.seq ≤ s'.seq ∧ ∃ (p : AiEvent ρ → Bool) (rest : List (AiEvent ρ)),
    s'.pending = s.pending.filter p ++ rest ∧ ∀ e ∈ rest, (s.seq : Int) < e.id

theorem pending_insert {s : AiState ρ} (h : s.WellFormed) {id : Nat} (hid : s.seq < id)
    (threatType : Int) (cols : ρ) :
    ({ s with seq := id, events := s.events ++ [⟨id, threatType, cols⟩] } : AiState ρ).pending
      = s.pending ++ [⟨id, threatType, cols⟩] := by
  have hopen : s.dataset.lookup (id : Int) = none := by
    refine List.lookup_eq_none_iff.mpr fun r hr => ?_
    obtain ⟨e, he, heq⟩ := h.refers r hr
    have hle := h.le_seq e he
    have hne : (id : Int) ≠ r.1 := by
      rw [← heq]
      omega
    exact bne_iff_ne.mpr hne
  simp [AiState.pending, List.filter_append, hopen]

theorem pending_deleteEvents (s : AiState ρ) (rows : AiEvent ρ → Bool) :
    (s.deleteEvents rows).pending = s.pending.filter fun e => !rows e := by
  show (s.events.filter fun e => !rows e).filter _ = (s.events.filter _).filter _
  rw [List.filter_filter, List.filter_filter]
  refine List.filter_congr fun e he => ?_
  rcases hrows : rows e with - | -
  · -- an event that stays keeps its row
    have hstays : ∃ e' ∈ (s.deleteEvents rows).events, e'.id = e.id :=
      ⟨e, List.mem_filter.mpr ⟨he, by simp [hrows]⟩, rfl⟩
    have hlookup := lookup_deleteEvents s rows e.id
    rw [if_pos hstays] at hlookup
    rw [hlookup, Bool.and_comm]
  · simp

theorem pending_record (s : AiState ρ) (phase : AiPhase ρ) (id : Int) (v : AiVerdict) :
    ({ s with phase := phase, dataset := s.dataset ++ [(id, v)] } : AiState ρ).pending
      = s.pending.filter fun e => decide (e.id ≠ id) := by
  show s.events.filter _ = (s.events.filter _).filter _
  rw [List.filter_filter]
  refine List.filter_congr fun e _ => ?_
  by_cases he : e.id = id
  · simp [he, List.lookup_append]
  · simp [he, lookup_append_of_ne he]

theorem Later.refl (s : AiState ρ) : Later s s :=
  ⟨Nat.le_refl _, fun _ => true, [], by simp, by simp⟩

theorem Later.trans {s s' s'' : AiState ρ} (h : Later s s') (h' : Later s' s'') : Later s s'' := by
  obtain ⟨hseq, p, rest, hp, hnew⟩ := h
  obtain ⟨hseq', p', rest', hp', hnew'⟩ := h'
  refine ⟨hseq.trans hseq', fun e => p' e && p e, rest.filter p' ++ rest', ?_, fun e he => ?_⟩
  · rw [hp', hp, List.filter_append, List.filter_filter, List.append_assoc]
  · rcases List.mem_append.mp he with he | he
    · exact hnew e (List.mem_of_mem_filter he)
    · exact lt_of_le_of_lt (by exact_mod_cast hseq) (hnew' e he)

theorem AiMove.later {s s' : AiState ρ} {asked : List (AiEvent ρ)} (hm : AiMove s s' asked)
    (h : s.WellFormed) : Later s s' := by
  cases hm with
  | insert id threatType cols hid =>
      refine ⟨hid.le, fun _ => true, [⟨id, threatType, cols⟩], ?_, ?_⟩
      · rw [pending_insert h hid, List.filter_true]
      · intro e he
        rw [List.mem_singleton.mp he]
        show (s.seq : Int) < (id : Int)
        exact_mod_cast hid
  | delete rows =>
      exact ⟨Nat.le_refl _, _, [], by rw [pending_deleteEvents, List.append_nil], by simp⟩
  | move phase asked hasked htodo => exact Later.refl s
  | record phase asked e v hasked htodo hevent =>
      exact ⟨Nat.le_refl _, _, [], by rw [pending_record, List.append_nil], by simp⟩

/-- An event that is not new is pending only if it was. -/
theorem Later.mem_pending {s s' : AiState ρ} (h : Later s s') {e : AiEvent ρ} (hle : e.id ≤ s.seq)
    (he : e ∈ s'.pending) : e ∈ s.pending := by
  obtain ⟨-, p, rest, hp, hnew⟩ := h
  rw [hp] at he
  rcases List.mem_append.mp he with he | he
  · exact List.mem_of_mem_filter he
  · exact absurd (hnew e he) (not_lt.mpr hle)

theorem wellFormed_exec {s : AiState ρ} (h : s.WellFormed) (inputs : List (AiInput ρ)) :
    (exec aiStep s inputs).1.WellFormed ∧ Later s (exec aiStep s inputs).1 := by
  induction inputs generalizing s with
  | nil => exact ⟨h, Later.refl s⟩
  | cons a inputs ih =>
      have hm := aiStep_move h.increasing a
      obtain ⟨hwf, hlater⟩ := ih (hm.wellFormed h)
      exact ⟨hwf, (hm.later h).trans hlater⟩

/-- With its verdict recorded an event is not pending. -/
theorem not_pending_record {s : AiState ρ} {phase : AiPhase ρ} {e : AiEvent ρ} (v : AiVerdict) :
    e ∉ (({ s with phase := phase } : AiState ρ).record true e.id v).pending := by
  unfold AiState.record
  split
  · rw [pending_record]
    intro he
    exact absurd rfl (of_decide_eq_true (List.mem_filter.mp he).2)
  · rename_i hnot
    intro he
    obtain ⟨hevent, hopen⟩ := mem_pending.mp he
    exact hnot ⟨rfl, ⟨e, hevent, rfl⟩, hopen⟩

/-! ### Without refusals -/

/-- The service goes on, and gets an answer about each event it asks about. -/
def AiInput.Answered : AiInput ρ → Prop
  | .restart => False
  | .analyzeEvent send stores =>
      stores = true ∧ ∀ e model, eventVerdict model (askAi (send e)) ≠ none
  | _ => True

/-- The settings with which `runAIAnalysis` starts. -/
def AiEnabled (apiKey apiUrl : List UInt8) : Prop :=
  apiKey ≠ [] ∧ str "https://" <+: apiUrl.map toLower

/-- From one start of `runAIAnalysis` to its end. -/
def Round (s s' : AiState ρ) : Prop :=
  ∃ apiKey model apiUrl inputs, AiEnabled apiKey apiUrl ∧ (∀ a ∈ inputs, AiInput.Answered a) ∧
    s.phase = .idle ∧ s'.phase = .idle ∧
    s' = (exec aiStep s (.run apiKey model apiUrl true :: inputs)).1

/-- That many rounds. -/
inductive Rounds : Nat → AiState ρ → AiState ρ → Prop where
  | zero (s : AiState ρ) : Rounds 0 s s
  | succ {n : Nat} {s s' s'' : AiState ρ} (hfirst : Round s s') (hrest : Rounds n s' s'') :
      Rounds (n + 1) s s''

/-- The events that are still pending are those the service is about to ask about. -/
def InHand (t : List (AiEvent ρ)) (s : AiState ρ) : Prop :=
  ∀ e ∈ t, e ∈ s.pending → ∃ model todo, s.phase = .single model todo ∧ e ∈ todo

theorem inHand_step {t : List (AiEvent ρ)} {s : AiState ρ} (h : s.WellFormed)
    (hle : ∀ e ∈ t, e.id ≤ s.seq) (ht : InHand t s) {a : AiInput ρ} (ha : a.Answered) :
    InHand t (aiStep s a).1 := by
  intro e he hpending
  have hlater := (aiStep_move h.increasing a).later h
  obtain ⟨model, todo, hphase, hmem⟩ := ht e he (hlater.mem_pending (hle e he) hpending)
  obtain ⟨e₀, todo, rfl⟩ := List.exists_cons_of_ne_nil (List.ne_nil_of_mem hmem)
  have hself : ∃ model' todo', s.phase = .single model' todo' ∧ e ∈ todo' :=
    ⟨model, e₀ :: todo, hphase, hmem⟩
  cases a with
  | insert skipped threatType cols =>
      simp only [aiStep]
      split <;> exact hself
  | delete rows => exact hself
  | restart => exact ha.elim
  | run apiKey model' apiUrl selects =>
      simp only [aiStep, hphase]
      exact ⟨model, e₀ :: todo, rfl, hmem⟩
  | analyzeEvent send stores =>
      obtain ⟨rfl, hanswer⟩ := ha
      obtain ⟨v, hv⟩ := Option.ne_none_iff_exists'.mp (hanswer e₀ model)
      simp only [aiStep, hphase, hv] at hpending ⊢
      have hphase' : (({ s with phase := .single model todo } : AiState ρ).record true e₀.id
          v).phase = .single model todo := by
        unfold AiState.record
        split <;> rfl
      refine ⟨model, todo, hphase', ?_⟩
      rcases List.mem_cons.mp hmem with rfl | hmem
      · exact absurd hpending (not_pending_record v)
      · exact hmem
  | selectBatch selects =>
      simp only [aiStep, hphase]
      exact ⟨model, e₀ :: todo, rfl, hmem⟩
  | askBatch send =>
      simp only [aiStep, hphase]
      exact ⟨model, e₀ :: todo, rfl, hmem⟩
  | storeBatch stores =>
      simp only [aiStep, hphase]
      exact ⟨model, e₀ :: todo, rfl, hmem⟩

theorem inHand_exec {t : List (AiEvent ρ)} {s : AiState ρ} (h : s.WellFormed)
    (hle : ∀ e ∈ t, e.id ≤ s.seq) (ht : InHand t s) {inputs : List (AiInput ρ)}
    (hinputs : ∀ a ∈ inputs, a.Answered) : InHand t (exec aiStep s inputs).1 := by
  induction inputs generalizing s with
  | nil => exact ht
  | cons a inputs ih =>
      obtain ⟨ha, hrest⟩ := List.forall_mem_cons.mp hinputs
      have hm := aiStep_move h.increasing a
      have hseq : (s.seq : Int) ≤ (aiStep s a).1.seq := by exact_mod_cast (hm.later h).1
      exact ih (hm.wellFormed h) (fun e he => (hle e he).trans hseq) (inHand_step h hle ht ha) hrest

theorem pending_le_seq {s : AiState ρ} (h : s.WellFormed) {e : AiEvent ρ} (he : e ∈ s.pending) :
    e.id ≤ s.seq :=
  h.le_seq e (mem_pending.mp he).1

/-- A round starts with the five oldest events. -/
theorem aiStep_run {s : AiState ρ} (h : s.WellFormed) (hidle : s.phase = .idle)
    {apiKey apiUrl : List UInt8} (henabled : AiEnabled apiKey apiUrl) (model : List UInt8) :
    (aiStep s (.run apiKey model apiUrl true)).1
      = { s with phase := .single (modelName model) (s.pending.take 5) } := by
  simp only [aiStep, hidle]
  rw [if_pos ⟨henabled.1, henabled.2, trivial⟩, oldest_eq (increasing_pending h.increasing)]

/-- A round deals with them. -/
theorem Round.spec {s s' : AiState ρ} (hr : Round s s') (h : s.WellFormed) :
    s'.WellFormed ∧ Later s s' ∧ ∀ e ∈ s.pending.take 5, e ∉ s'.pending := by
  obtain ⟨apiKey, model, apiUrl, inputs, henabled, hinputs, hidle, hidle', rfl⟩ := hr
  obtain ⟨hwf, hlater⟩ := wellFormed_exec h (.run apiKey model apiUrl true :: inputs)
  refine ⟨hwf, hlater, fun e he hpending => ?_⟩
  have hm := aiStep_move h.increasing (.run apiKey model apiUrl true)
  have hstep := aiStep_run h hidle henabled model
  have hstart : InHand (s.pending.take 5) (aiStep s (.run apiKey model apiUrl true)).1 := by
    intro e he _
    rw [hstep]
    exact ⟨_, _, rfl, he⟩
  have hle : ∀ e ∈ s.pending.take 5, e.id ≤ (aiStep s (.run apiKey model apiUrl true)).1.seq := by
    intro e he
    rw [hstep]
    exact pending_le_seq h (List.mem_of_mem_take he)
  obtain ⟨m, todo, hphase, -⟩ :=
    inHand_exec (hm.wellFormed h) hle hstart hinputs e he hpending
  have hphase' : (exec aiStep s (.run apiKey model apiUrl true :: inputs)).1.phase
      = .single m todo := hphase
  rw [hidle'] at hphase'
  cases hphase'

/-- What stands among the first in a queue is there no later when others have gone. -/
theorem mem_take_filter {α : Type} {l : List α} {k : Nat} {x : α} (hx : x ∈ l.take k)
    {p : α → Bool} (hp : p x = true) (rest : List α) : x ∈ (l.filter p ++ rest).take k := by
  have hsplit : l.filter p = (l.take k).filter p ++ (l.drop k).filter p := by
    rw [← List.filter_append, List.take_append_drop]
  have hlen : ((l.take k).filter p).length ≤ k :=
    (List.length_filter_le _ _).trans (List.length_take_le _ _)
  rw [hsplit, List.append_assoc, List.take_append, List.take_of_length_le hlen]
  exact List.mem_append_left _ (List.mem_filter.mpr ⟨hx, hp⟩)

/-- **Without refusals the queue moves**: after `n` rounds each of the `5 * n` oldest
events has a verdict, unless it is gone. -/
theorem oldest_are_analyzed {n : Nat} {s s' : AiState ρ} (h : s.WellFormed) (hr : Rounds n s s') :
    ∀ e ∈ s.pending.take (5 * n), e ∉ s'.events ∨ ∃ v, s'.dataset.lookup e.id = some v := by
  have key : s'.WellFormed ∧ Later s s' ∧ ∀ e ∈ s.pending.take (5 * n), e ∉ s'.pending := by
    induction hr with
    | zero s => exact ⟨h, Later.refl s, by simp⟩
    | @succ n s s' s'' hfirst hrest ih =>
        obtain ⟨hwf, hlater, hfive⟩ := hfirst.spec h
        obtain ⟨hwf', hlater', hdone⟩ := ih hwf
        refine ⟨hwf', hlater.trans hlater', fun e he hpending => ?_⟩
        have hle := pending_le_seq h (List.mem_of_mem_take he)
        have hseq : (s.seq : Int) ≤ s'.seq := by exact_mod_cast hlater.1
        have hbefore : e ∈ s'.pending := hlater'.mem_pending (hle.trans hseq) hpending
        obtain ⟨-, p, rest, hp, hnew⟩ := hlater
        -- the first five have left the queue, so the next ones have moved up
        have hfirst : (s.pending.take 5).filter p = [] := by
          refine List.filter_eq_nil_iff.mpr fun x hx hpx => hfive x hx ?_
          rw [hp]
          exact List.mem_append_left _ (List.mem_filter.mpr ⟨List.mem_of_mem_take hx, hpx⟩)
        have hmoved : s.pending.filter p = (s.pending.drop 5).filter p := by
          conv_lhs => rw [← List.take_append_drop 5 s.pending]
          rw [List.filter_append, hfirst, List.nil_append]
        have hpe : p e = true := by
          rw [hp] at hbefore
          rcases List.mem_append.mp hbefore with hmem | hmem
          · exact (List.mem_filter.mp hmem).2
          · exact absurd (hnew e hmem) (not_lt.mpr hle)
        have hnext : e ∈ (s.pending.drop 5).take (5 * n) := by
          rw [show 5 * (n + 1) = 5 + 5 * n by omega, List.take_add] at he
          rcases List.mem_append.mp he with he | he
          · exact absurd hbefore (hfive e he)
          · exact he
        refine hdone e ?_ hpending
        rw [hp, hmoved]
        exact mem_take_filter hnext hpe rest
  intro e he
  by_contra hnot
  obtain ⟨hthere, hopen⟩ := not_or.mp hnot
  refine key.2.2 e he (mem_pending.mpr ⟨not_not.mp hthere, ?_⟩)
  exact Option.eq_none_iff_forall_ne_some.mpr fun v hv => hopen ⟨v, hv⟩

theorem oldest_are_analyzed_one :
    let s : AiState Unit := ⟨[⟨1, 7, ()⟩], 1, [], .idle⟩
    let s' : AiState Unit := ⟨[⟨1, 7, ()⟩], 1, [(1, ⟨true, 90, none, str "glm"⟩)], .idle⟩
    ∀ e ∈ s.pending.take (5 * 1), e ∉ s'.events ∨ ∃ v, s'.dataset.lookup e.id = some v := by
  have hwf : (⟨[⟨1, 7, ()⟩], 1, [], .idle⟩ : AiState Unit).WellFormed :=
    AiState.wellFormed_idle (by simp [Increasing]) (by simp) (by simp) (by simp)
  have henabled : AiEnabled (str "key") (str "HTTPS://ai") := ⟨by decide, by decide⟩
  have hname : modelName (str "zen/glm") = str "glm" := by decide
  have hround : Round (⟨[⟨1, 7, ()⟩], 1, [], .idle⟩ : AiState Unit)
      ⟨[⟨1, 7, ()⟩], 1, [(1, ⟨true, 90, none, str "glm"⟩)], .idle⟩ := by
    refine ⟨_, str "zen/glm", _,
      [.analyzeEvent (fun _ _ => .reply 200 (.result true 90 none)) true, .selectBatch true],
      henabled, ?_, rfl, rfl, ?_⟩
    · simp [AiInput.Answered, askAi, eventVerdict]
    · show _ = (exec aiStep (aiStep _ _).1 _).1
      rw [aiStep_run hwf rfl henabled, hname]
      simp [exec, aiStep, oldest, AiState.pending, AiState.record, askAi, eventVerdict]
  exact oldest_are_analyzed hwf (.succ hround (.zero _))

/-! ### With refusals -/

/-- Since the rows were these, only batches have added to them, with verdicts of
one kind. -/
structure OnlyBatches (rows : List (Int × AiVerdict)) (P : AiVerdict → Prop) (s : AiState ρ) :
    Prop where
  wellFormed : s.WellFormed
  batch : ∀ model todo, s.phase = .batch model todo → ∀ e ∈ todo, e.isSlowloris = true
  applying : ∀ v todo, s.phase = .applying v todo → P v ∧ ∀ e ∈ todo, e.isSlowloris = true
  added : ∀ r ∈ s.dataset,
    r ∈ rows ∨ P r.2 ∧ ∃ e ∈ s.events, e.id = r.1 ∧ e.isSlowloris = true

variable {rows : List (Int × AiVerdict)} {P : AiVerdict → Prop}

/-- A service that is neither in a batch before nor after. -/
theorem OnlyBatches.of_phase {s : AiState ρ} (h : OnlyBatches rows P s) {phase : AiPhase ρ}
    (hwf : ({ s with phase := phase } : AiState ρ).WellFormed)
    (hbatch : ∀ model todo, phase ≠ .batch model todo)
    (happly : ∀ v todo, phase ≠ .applying v todo) :
    OnlyBatches rows P { s with phase := phase } where
  wellFormed := hwf
  batch := fun model todo hphase => absurd hphase (hbatch model todo)
  applying := fun v todo hphase => absurd hphase (happly v todo)
  added := h.added

theorem onlyBatches_step {s : AiState ρ} (h : OnlyBatches rows P s) {a : AiInput ρ}
    (hsingle : ∀ send stores model e todo, a = .analyzeEvent send stores →
      s.phase = .single model (e :: todo) → eventVerdict model (askAi (send e)) = none)
    (hbatch : ∀ send model v, a = .askBatch send → batchVerdict model (askAi send) = some v → P v) :
    OnlyBatches rows P (aiStep s a).1 := by
  have hwf := (aiStep_move h.wellFormed.increasing a).wellFormed h.wellFormed
  have hbatches := h
  obtain ⟨hs, hslow, happly, hadded⟩ := h
  cases a with
  | insert skipped threatType cols =>
      simp only [aiStep] at hwf ⊢
      split
      · rename_i hid
        rw [if_pos hid] at hwf
        refine ⟨hwf, hslow, happly, fun r hr => (hadded r hr).imp_right ?_⟩
        exact fun ⟨hP, e, he, hslow⟩ => ⟨hP, e, List.mem_append_left _ he, hslow⟩
      · exact hbatches
  | delete rows' =>
      refine ⟨hwf, hslow, happly, fun r hr => ?_⟩
      obtain ⟨hr, hstays⟩ := List.mem_filter.mp hr
      obtain ⟨e', he', heq'⟩ := List.any_eq_true.mp hstays
      refine (hadded r hr).imp_right fun ⟨hP, e, he, heq, hslow⟩ => ⟨hP, e', he', ?_⟩
      -- the event of the row is the one that stays
      have hsame := Increasing.eq_of_key hs.increasing he (List.mem_of_mem_filter he')
        (heq.trans (of_decide_eq_true heq').symm)
      exact ⟨of_decide_eq_true heq', hsame ▸ hslow⟩
  | restart => exact hbatches.of_phase hwf (by simp) (by simp)
  | run apiKey model apiUrl selects =>
      rcases hphase : s.phase with - | ⟨m, t⟩ | ⟨m, t⟩ | ⟨v, t⟩ <;>
        simp only [aiStep, hphase] at hwf ⊢
      · split
        · rename_i henabled
          rw [if_pos henabled] at hwf
          exact hbatches.of_phase hwf (by simp) (by simp)
        · exact hbatches
      all_goals exact hbatches
  | analyzeEvent send stores =>
      rcases hphase : s.phase with - | ⟨m, t⟩ | ⟨m, t⟩ | ⟨v, t⟩ <;>
        simp only [aiStep, hphase] at hwf ⊢
      · exact hbatches
      · cases t with
        | nil => exact hbatches
        | cons e todo =>
            have hnone := hsingle send stores m e todo rfl hphase
            simp only [hnone] at hwf ⊢
            exact hbatches.of_phase hwf (by simp) (by simp)
      all_goals exact hbatches
  | selectBatch selects =>
      rcases hphase : s.phase with - | ⟨m, t⟩ | ⟨m, t⟩ | ⟨v, t⟩ <;>
        simp only [aiStep, hphase] at hwf ⊢
      · exact hbatches
      · cases t with
        | nil =>
            dsimp only at hwf ⊢
            split
            · rename_i hselects
              rw [if_pos hselects] at hwf
              refine ⟨hwf, fun model todo hphase' => ?_, by simp, hadded⟩
              obtain ⟨-, rfl⟩ := AiPhase.batch.inj hphase'
              intro e he
              rw [oldest_eq ((increasing_pending hs.increasing).filter _)] at he
              exact (List.mem_filter.mp (List.mem_of_mem_take he)).2
            · rename_i hselects
              rw [if_neg hselects] at hwf
              exact hbatches.of_phase hwf (by simp) (by simp)
        | cons e todo => exact hbatches
      all_goals exact hbatches
  | askBatch send =>
      rcases hphase : s.phase with - | ⟨m, t⟩ | ⟨m, t⟩ | ⟨v, t⟩ <;>
        simp only [aiStep, hphase] at hwf ⊢
      · exact hbatches
      · exact hbatches
      · rcases hv : batchVerdict m (askAi send) with - | v <;> simp only [hv] at hwf ⊢
        · exact hbatches.of_phase hwf (by simp) (by simp)
        · refine ⟨hwf, by simp, fun v' todo hphase' => ?_, hadded⟩
          obtain ⟨rfl, rfl⟩ := AiPhase.applying.inj hphase'
          exact ⟨hbatch send m v rfl hv, hslow m t hphase⟩
      · exact hbatches
  | storeBatch stores =>
      rcases hphase : s.phase with - | ⟨m, t⟩ | ⟨m, t⟩ | ⟨v, t⟩ <;>
        simp only [aiStep, hphase] at hwf ⊢
      · exact hbatches
      · exact hbatches
      · exact hbatches
      · obtain ⟨hP, hall⟩ := happly v t hphase
        cases t with
        | nil => exact hbatches.of_phase hwf (by simp) (by simp)
        | cons e todo =>
            obtain ⟨he, htodo⟩ := List.forall_mem_cons.mp hall
            have happly' : ∀ v' todo', AiPhase.applying v todo = .applying v' todo' →
                P v' ∧ ∀ e ∈ todo', e.isSlowloris = true := by
              intro v' todo' hphase'
              obtain ⟨rfl, rfl⟩ := AiPhase.applying.inj hphase'
              exact ⟨hP, htodo⟩
            dsimp only at hwf ⊢
            unfold AiState.record at hwf ⊢
            split
            · rename_i hrecords
              rw [if_pos hrecords] at hwf
              refine ⟨hwf, by simp, happly', fun r hr => ?_⟩
              rcases List.mem_append.mp hr with hr | hr
              · exact hadded r hr
              · rw [List.mem_singleton.mp hr]
                obtain ⟨e', he', heq'⟩ := hrecords.2.1
                -- the event is as it was when it was selected
                have hsame := hs.todo_same e (by rw [hphase]; exact List.mem_cons_self) e' he' heq'
                exact Or.inr ⟨hP, e', he', heq', hsame ▸ he⟩
            · rename_i hrecords
              rw [if_neg hrecords] at hwf
              exact ⟨hwf, by simp, happly', hadded⟩

theorem OnlyBatches.start {s : AiState ρ} (h : s.WellFormed) (hidle : s.phase = .idle) :
    OnlyBatches s.dataset P s where
  wellFormed := h
  batch := by simp [hidle]
  applying := by simp [hidle]
  added := fun _ hr => Or.inl hr

/-- The inputs that leave these events where they are: they are not deleted, and a
request about one of them brings no answer. -/
def AiInput.Spares (b : List (AiEvent ρ)) : AiInput ρ → Prop
  | .delete rows => ∀ e ∈ b, rows e = false
  | .analyzeEvent send _ => ∀ e ∈ b, ∀ model, eventVerdict model (askAi (send e)) = none
  | _ => True

/-- These events are in front of the queue, and the service asks about no others one
by one. -/
structure Blocked (rows : List (Int × AiVerdict)) (b : List (AiEvent ρ)) (s : AiState ρ) :
    Prop where
  batches : OnlyBatches rows (fun _ => True) s
  front : ∃ rest, s.pending = b ++ rest
  single : ∀ model todo, s.phase = .single model todo → todo ⊆ b

theorem blocked_step {b : List (AiEvent ρ)} (hfive : b.length = 5)
    (hslow : ∀ e ∈ b, e.isSlowloris = false) {s : AiState ρ} (h : Blocked rows b s) {a : AiInput ρ}
    (ha : a.Spares b) :
    Blocked rows b (aiStep s a).1 ∧ ∀ e ∈ (aiStep s a).2, e ∈ b ∨ e.isSlowloris = true := by
  have hself := h
  obtain ⟨hbatches, ⟨rest, hrest⟩, hsingle⟩ := h
  have hbatches' := onlyBatches_step hbatches (a := a)
    (fun send stores model e todo ha' hphase =>
      (ha' ▸ ha : (AiInput.analyzeEvent send stores).Spares b) e
        (hsingle model _ hphase List.mem_cons_self) model)
    (fun _ _ _ _ _ => trivial)
  have hs := hbatches.wellFormed
  have hquiet : Blocked rows b s ∧ ∀ e ∈ ([] : List (AiEvent ρ)), e ∈ b ∨ e.isSlowloris = true :=
    ⟨hself, by simp⟩
  cases a with
  | insert skipped threatType cols =>
      simp only [aiStep] at hbatches' ⊢
      split
      · rename_i hid
        rw [if_pos hid] at hbatches'
        have hseq : s.seq < s.seq + skipped + 1 := by omega
        have hpending := pending_insert hs hseq threatType cols
        rw [hrest, List.append_assoc] at hpending
        exact ⟨⟨hbatches', ⟨_, hpending⟩, hsingle⟩, by simp⟩
      · exact hquiet
  | delete rows' =>
      refine ⟨⟨hbatches', ⟨rest.filter fun e => !rows' e, ?_⟩, hsingle⟩, by simp [aiStep]⟩
      have hstay : (b.filter fun e => !rows' e) = b :=
        List.filter_eq_self.mpr fun e he => by rw [ha e he]; rfl
      show (s.deleteEvents rows').pending = _
      rw [pending_deleteEvents, hrest, List.filter_append, hstay]
  | restart => exact ⟨⟨hbatches', ⟨rest, hrest⟩, by simp [aiStep]⟩, by simp [aiStep]⟩
  | run apiKey model apiUrl selects =>
      rcases hphase : s.phase with - | ⟨m, t⟩ | ⟨m, t⟩ | ⟨v, t⟩ <;>
        simp only [aiStep, hphase] at hbatches' ⊢
      · split
        · rename_i henabled
          rw [if_pos henabled] at hbatches'
          refine ⟨⟨hbatches', ⟨rest, hrest⟩, fun model' todo hphase' => ?_⟩, by simp⟩
          obtain ⟨-, rfl⟩ := AiPhase.single.inj hphase'
          -- the five oldest are those in front
          rw [oldest_eq (increasing_pending hs.increasing), hrest, ← hfive, List.take_left]
          exact List.Subset.refl b
        · exact hquiet
      all_goals exact hquiet
  | analyzeEvent send stores =>
      rcases hphase : s.phase with - | ⟨m, t⟩ | ⟨m, t⟩ | ⟨v, t⟩ <;>
        simp only [aiStep, hphase] at hbatches' ⊢
      · exact hquiet
      · cases t with
        | nil => exact hquiet
        | cons e todo =>
            have hsub := hsingle m (e :: todo) hphase
            have hnone := ha e (hsub List.mem_cons_self) m
            simp only [hnone] at hbatches' ⊢
            refine ⟨⟨hbatches', ⟨rest, hrest⟩, fun model' todo' hphase' => ?_⟩, ?_⟩
            · obtain ⟨-, rfl⟩ := AiPhase.single.inj hphase'
              exact fun e' he' => hsub (List.mem_cons_of_mem e he')
            · intro e' he'
              rw [List.mem_singleton.mp he']
              exact Or.inl (hsub List.mem_cons_self)
      all_goals exact hquiet
  | selectBatch selects =>
      rcases hphase : s.phase with - | ⟨m, t⟩ | ⟨m, t⟩ | ⟨v, t⟩ <;>
        simp only [aiStep, hphase] at hbatches' ⊢
      · exact hquiet
      · cases t with
        | nil =>
            dsimp only at hbatches' ⊢
            split
            · rename_i hselects
              rw [if_pos hselects] at hbatches'
              exact ⟨⟨hbatches', ⟨rest, hrest⟩, by simp⟩, by simp⟩
            · rename_i hselects
              rw [if_neg hselects] at hbatches'
              exact ⟨⟨hbatches', ⟨rest, hrest⟩, by simp⟩, by simp⟩
        | cons e todo => exact hquiet
      all_goals exact hquiet
  | askBatch send =>
      rcases hphase : s.phase with - | ⟨m, t⟩ | ⟨m, t⟩ | ⟨v, t⟩ <;>
        simp only [aiStep, hphase] at hbatches' ⊢
      · exact hquiet
      · exact hquiet
      · have hasked : ∀ e ∈ t, e ∈ b ∨ e.isSlowloris = true := fun e he =>
          Or.inr (hbatches.batch m t hphase e he)
        rcases hv : batchVerdict m (askAi send) with - | v <;> simp only [hv] at hbatches' ⊢
        · exact ⟨⟨hbatches', ⟨rest, hrest⟩, by simp⟩, hasked⟩
        · exact ⟨⟨hbatches', ⟨rest, hrest⟩, by simp⟩, hasked⟩
      · exact hquiet
  | storeBatch stores =>
      rcases hphase : s.phase with - | ⟨m, t⟩ | ⟨m, t⟩ | ⟨v, t⟩ <;>
        simp only [aiStep, hphase] at hbatches' ⊢
      · exact hquiet
      · exact hquiet
      · exact hquiet
      · obtain ⟨-, hall⟩ := hbatches.applying v t hphase
        cases t with
        | nil => exact ⟨⟨hbatches', ⟨rest, hrest⟩, by simp⟩, by simp⟩
        | cons e todo =>
            dsimp only at hbatches' ⊢
            unfold AiState.record at hbatches' ⊢
            split
            · rename_i hrecords
              rw [if_pos hrecords] at hbatches'
              refine ⟨⟨hbatches', ⟨rest.filter fun e' => decide (e'.id ≠ e.id), ?_⟩, by simp⟩,
                by simp⟩
              have hstay : (b.filter fun e' => decide (e'.id ≠ e.id)) = b := by
                refine List.filter_eq_self.mpr fun e' he' => decide_eq_true fun heq => ?_
                have hevent : e' ∈ s.events :=
                  (mem_pending.mp (hrest ▸ List.mem_append_left rest he')).1
                have hmem : e ∈ s.phase.todo := by
                  rw [hphase]
                  exact List.mem_cons_self
                have hsame := hs.todo_same e hmem e' hevent heq
                have hno := hslow e' he'
                rw [hsame, hall e List.mem_cons_self] at hno
                cases hno
              refine (pending_record s (.applying v todo) e.id v).trans ?_
              rw [hrest, List.filter_append, hstay]
            · rename_i hrecords
              rw [if_neg hrecords] at hbatches'
              exact ⟨⟨hbatches', ⟨rest, hrest⟩, by simp⟩, by simp⟩

/-- **Five refused events block the queue**: as long as the five oldest events are
not slowloris events, stay, and are not answered, no other event is asked about
but slowloris events, and only these get verdicts. -/
theorem oldest_block_the_queue {s : AiState ρ} (h : s.WellFormed) (hidle : s.phase = .idle)
    (hfive : 5 ≤ s.pending.length) (hslow : ∀ e ∈ s.pending.take 5, e.isSlowloris = false)
    (inputs : List (AiInput ρ)) (hinputs : ∀ a ∈ inputs, a.Spares (s.pending.take 5)) :
    let r := exec aiStep s inputs
    r.1.pending.take 5 = s.pending.take 5 ∧
      (∀ e ∈ r.2.flatten, e ∈ s.pending.take 5 ∨ e.isSlowloris = true) ∧
      ∀ e ∈ r.1.events, e.isSlowloris = false →
        ∀ v, (e.id, v) ∈ r.1.dataset → (e.id, v) ∈ s.dataset := by
  have hlen : (s.pending.take 5).length = 5 := List.length_take_of_le hfive
  have key : ∀ (s' : AiState ρ) (inputs : List (AiInput ρ)),
      Blocked s.dataset (s.pending.take 5) s' → (∀ a ∈ inputs, a.Spares (s.pending.take 5)) →
      Blocked s.dataset (s.pending.take 5) (exec aiStep s' inputs).1 ∧
        ∀ e ∈ (exec aiStep s' inputs).2.flatten, e ∈ s.pending.take 5 ∨ e.isSlowloris = true := by
    intro s' inputs hblocked hinputs
    induction inputs generalizing s' with
    | nil => exact ⟨hblocked, by simp⟩
    | cons a inputs ih =>
        obtain ⟨ha, hrest⟩ := List.forall_mem_cons.mp hinputs
        obtain ⟨hnext, hasked⟩ := blocked_step hlen hslow hblocked ha
        obtain ⟨hend, hlater⟩ := ih _ hnext hrest
        refine ⟨hend, fun e he => ?_⟩
        rcases List.mem_append.mp (show e ∈ (aiStep s' a).2 ++ _ from he) with he | he
        · exact hasked e he
        · exact hlater e he
  have hstart : Blocked s.dataset (s.pending.take 5) s :=
    ⟨.start h hidle, ⟨_, (List.take_append_drop 5 s.pending).symm⟩, by simp [hidle]⟩
  obtain ⟨⟨hbatches, ⟨rest, hrest⟩, -⟩, hasked⟩ := key s inputs hstart hinputs
  refine ⟨?_, hasked, fun e he hno v hv => ?_⟩
  · show (exec aiStep s inputs).1.pending.take 5 = _
    rw [hrest]
    exact List.take_left' hlen
  · rcases hbatches.added _ hv with hold | ⟨-, e', he', heq, hyes⟩
    · exact hold
    · obtain rfl := Increasing.eq_of_key hbatches.wellFormed.increasing he' he heq
      rw [hno] at hyes
      cases hyes

theorem oldest_block_the_queue_six :
    let s : AiState Unit :=
      ⟨[⟨1, 7, ()⟩, ⟨2, 7, ()⟩, ⟨3, 1, ()⟩, ⟨4, 2, ()⟩, ⟨5, 7, ()⟩, ⟨6, 3, ()⟩], 6, [], .idle⟩
    let r := exec aiStep s
      [.run (str "key") (str "glm") (str "https://ai") true,
        .analyzeEvent (fun _ _ => .reply 200 .noChoices) true, .insert 0 4 (), .restart]
    r.1.pending.take 5 = s.pending.take 5 ∧
      (∀ e ∈ r.2.flatten, e ∈ s.pending.take 5 ∨ e.isSlowloris = true) ∧
      ∀ e ∈ r.1.events, e.isSlowloris = false →
        ∀ v, (e.id, v) ∈ r.1.dataset → (e.id, v) ∈ s.dataset :=
  oldest_block_the_queue
    (AiState.wellFormed_idle (by simp [Increasing]) (by simp) (by simp) (by simp)) rfl
    (by decide) (by simp [AiState.pending, AiEvent.isSlowloris]) _
    (by simp [AiInput.Spares, askAi, eventVerdict])

end Nullsploit
