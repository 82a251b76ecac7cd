/-
Nullsploit/Notifier.lean

The part of `checkNewEventsAndNotify` (NotificationService.java) that reports new
events: every five seconds it reads up to ten rows of `events` behind
`lastProcessedId`, publishes them one after the other, mails those of severity 1
and 2, and saves the cursor under `last_notified_event_id`.  The first execution
after a start takes the cursor from there.

Every statement may fail, and so may the publication of an event.  Most failures
are caught where they happen; one in the first execution leaves the method, and
the cursor stays as it is at that point.  Meanwhile the receiver inserts events,
the dashboard deletes them and edits the configuration, and the process may be
restarted.

Within one life of the process, whatever fails, no event is published twice, all
are in order, and none is left out (`published_exactly_once`).  Over restarts this
takes a saved cursor that can be read and is not 0 (`published_once_over_restarts`):
0 stands for a service that never ran, and what is in the table is skipped.
-/
import Nullsploit.Dashboard
import Nullsploit.Polling
import Nullsploit.Runs

namespace Nullsploit

open CText Polling Runs

/-! ### Numbers and flags in the configuration -/

/-- `Integer.parseInt`: `Long.parseLong` with a smaller range. -/
def parseInt (s : List UInt8) : Option Int :=
  (parseLong s).filter fun v => decide (-2 ^ 31 ≤ v ∧ v < 2 ^ 31)

/-- `Boolean.parseBoolean`. -/
def parseBoolean (s : List UInt8) : Bool := s.map toLower = str "true"

/-- A number is read back from its text. -/
theorem parseLong_decimalInt {n : Int} (hlo : -2 ^ 63 ≤ n) (hhi : n < 2 ^ 63) :
    parseLong (decimalInt n) = some n := by
  have hdigits := isDigit_of_mem_decimal n.natAbs
  have hall : (decimal n.natAbs).all isDigit = true := List.all_eq_true.mpr hdigits
  obtain ⟨b, t, hbt⟩ := List.exists_cons_of_ne_nil (decimal_ne_nil n.natAbs)
  obtain ⟨-, hminus, hplus⟩ := not_blank_not_sign (hdigits b (by simp [hbt]))
  have hval := digitsVal_decimal n.natAbs
  unfold decimalInt
  split
  · rename_i hneg
    simp only [parseLong, List.head?_cons, true_or, if_true, List.tail_cons, hall, hval]
    rw [if_pos ⟨decimal_ne_nil _, trivial, by omega, by omega⟩]
    congr 1
    omega
  · have hhead : (decimal n.natAbs).head? = some b := by rw [hbt, List.head?_cons]
    simp only [parseLong, hhead, Option.some.injEq, hminus, hplus, or_self, if_false, hall, hval]
    rw [if_pos ⟨decimal_ne_nil _, trivial, by omega, by omega⟩]
    congr 1
    omega

/-! ### The state -/

/-- A row of `events`; `cols` is what is passed on without being looked at. -/
structure EventRow (ρ : Type) where
  id : Int
  severity : Int
  cols : ρ

/-- The keys of `config` that the service reads. -/
inductive ConfigKey where
  | smtpHost | smtpPort | smtpUsername | smtpPassword | smtpAuth | smtpTls
  | smtpEnabled | smtpFrom | smtpTo | lastNotifiedEventId
  deriving DecidableEq

/-- The table `config`: for each key the text under `"value"` of its JSON value,
`none` inside if the value is not an object with that field. -/
abbrev ConfigTable := ConfigKey → Option (Option (List UInt8))

/-- The tables, the last value of the sequence of `events.id`, and the field of
the running service. -/
structure Notifier (ρ : Type) where
  events : List (EventRow ρ)
  seq : Nat
  config : ConfigTable
  lastProcessedId : Int

/-- What one execution meets: the statements that succeed, and the events whose
publication returns. -/
structure CheckEnv (ρ : Type) where
  reads : ConfigKey → Bool
  savesDefault : ConfigKey → Bool
  readsMaxId : Bool
  savesClamped : Bool
  savesFirst : Bool
  readsEvents : Bool
  publishes : EventRow ρ → Bool
  savesLast : Bool

/-- A publication that returned, with the mail that followed, or one that threw. -/
inductive Notice (ρ : Type) where
  | published (event : EventRow ρ) (mailed : Bool)
  | threw (event : EventRow ρ)

variable {ρ : Type}

/-! ### The service -/

/-- `saveConfig`, whose failure is only printed. -/
def saveConfig (succeeds : Bool) (config : ConfigTable) (key : ConfigKey) (value : List UInt8) :
    ConfigTable :=
  if succeeds then Function.update config key (some (some value)) else config

/-- `getConfigString`: a missing row is filled in with the default. -/
def getConfigString (env : CheckEnv ρ) (config : ConfigTable) (key : ConfigKey)
    (defaultVal : List UInt8) : List UInt8 × ConfigTable :=
  if env.reads key then
    match config key with
    | none => (defaultVal, saveConfig (env.savesDefault key) config key defaultVal)
    | some (some value) => (value, config)
    | some none => (defaultVal, config)
  else (defaultVal, config)

/-- `getMailSender`; `false` if it throws. -/
def getMailSender (env : CheckEnv ρ) (config : ConfigTable) : ConfigTable × Bool :=
  let config := (getConfigString env config .smtpHost (str "smtp.mailtrap.io")).2
  let port := getConfigString env config .smtpPort (str "2525")
  if parseInt port.1 = none then (port.2, false)
  else
    let config := (getConfigString env port.2 .smtpUsername []).2
    let config := (getConfigString env config .smtpPassword []).2
    let config := (getConfigString env config .smtpAuth (str "true")).2
    ((getConfigString env config .smtpTls (str "true")).2, true)

/-- The settings for the mails: whether they are enabled, `none` if reading them
throws. -/
def mailSettings (env : CheckEnv ρ) (config : ConfigTable) : ConfigTable × Option Bool :=
  let enabled := getConfigString env config .smtpEnabled (str "false")
  if parseBoolean enabled.1 then
    let sender := getMailSender env enabled.2
    if sender.2 then
      let config := (getConfigString env sender.1 .smtpFrom (str "alerts@nullsploit.local")).2
      ((getConfigString env config .smtpTo (str "admin@nullsploit.local")).2, some true)
    else (sender.1, none)
  else (enabled.2, some false)

/-- `SELECT COALESCE(MAX(id), 0) FROM events`. -/
def maxId (events : List (EventRow ρ)) : Int := ((events.map EventRow.id).max?).getD 0

/-- `SELECT ... FROM events WHERE id > ? ORDER BY id ASC LIMIT 10`. -/
def selectNewEvents (events : List (EventRow ρ)) (last : Int) : List (EventRow ρ) :=
  ((events.filter fun r => decide (last < r.id)).mergeSort fun a b => decide (a.id ≤ b.id)).take 10

/-- Set the cursor and save it. -/
def Notifier.moveTo (s : Notifier ρ) (id : Int) (saves : Bool) : Notifier ρ :=
  { s with
    lastProcessedId := id
    config := saveConfig saves s.config .lastNotifiedEventId (decimalInt id) }

/-- The block for `lastProcessedId == -1`; `false` if an exception leaves the
method. -/
def firstExecution (env : CheckEnv ρ) (s : Notifier ρ) : Notifier ρ × Bool :=
  let lastIdStr := getConfigString env s.config .lastNotifiedEventId (str "0")
  match parseLong lastIdStr.1 with
  | none => ({ s with config := lastIdStr.2 }, false)
  | some v =>
      -- the field is set before the query that may throw
      let s := { s with config := lastIdStr.2, lastProcessedId := v }
      if env.readsMaxId then
        let dbMaxId := maxId s.events
        let s := if s.lastProcessedId > dbMaxId then s.moveTo dbMaxId env.savesClamped else s
        (if s.lastProcessedId = 0 then s.moveTo dbMaxId env.savesFirst else s, true)
      else (s, false)

/-- The loop over the new events: the cursor, whether it came to its end, and the
notices. -/
def notifyAll (enabled : Bool) (publishes : EventRow ρ → Bool) :
    Int → List (EventRow ρ) → Int × Bool × List (Notice ρ)
  | last, [] => (last, true, [])
  | last, e :: es =>
      if publishes e then
        let r := notifyAll enabled publishes e.id es
        (r.1, r.2.1, .published e (enabled && decide (1 ≤ e.severity)) :: r.2.2)
      else (last, false, [.threw e])

/-- The second `try` block. -/
def notifyNewEvents (env : CheckEnv ρ) (s : Notifier ρ) : Notifier ρ × List (Notice ρ) :=
  if env.readsEvents then
    let newEvents := selectNewEvents s.events s.lastProcessedId
    if newEvents.isEmpty then (s, [])
    else
      let mail := mailSettings env s.config
      let s := { s with config := mail.1 }
      match mail.2 with
      | none => (s, [])
      | some enabled =>
          let r := notifyAll enabled env.publishes s.lastProcessedId newEvents
          (if r.2.1 then s.moveTo r.1 env.savesLast else { s with lastProcessedId := r.1 }, r.2.2)
  else (s, [])

/-- `checkNewEventsAndNotify` after the block on reputations, which neither reads
nor writes what is modelled here. -/
def Notifier.checkNewEventsAndNotify (env : CheckEnv ρ) (s : Notifier ρ) :
    Notifier ρ × List (Notice ρ) :=
  if s.lastProcessedId = -1 then
    let r := firstExecution env s
    if r.2 then notifyNewEvents env r.1 else (r.1, [])
  else notifyNewEvents env s

/-! ### Runs -/

/-- What happens to the service and its tables. -/
inductive NotifierInput (ρ : Type) where
  /-- `db_insert_event`, after `skipped` values of the sequence without a row. -/
  | insert (skipped : Nat) (severity : Int) (cols : ρ)
  /-- `clearReputation`. -/
  | delete (rows : EventRow ρ → Bool)
  /-- `setConfig`. -/
  | setConfig (key : ConfigKey) (value : Option (List UInt8))
  | restart
  | check (env : CheckEnv ρ)

/-- One step.  The sequence ends at the largest `BIGINT`. -/
def notifierStep (s : Notifier ρ) : NotifierInput ρ → Notifier ρ × List (Notice ρ)
  | .insert skipped severity cols =>
      let id := s.seq + skipped + 1
      if id < 2 ^ 63 then ({ s with seq := id, events := s.events ++ [⟨id, severity, cols⟩] }, [])
      else (s, [])
  | .delete rows => ({ s with events := s.events.filter fun r => !rows r }, [])
  | .setConfig key value => ({ s with config := Function.update s.config key (some value) }, [])
  | .restart => ({ s with lastProcessedId := -1 }, [])
  | .check env => s.checkNewEventsAndNotify env

/-- The events whose publication returned, in order. -/
def publishedEvents (notices : List (Notice ρ)) : List (EventRow ρ) :=
  notices.filterMap fun
    | .published e _ => some e
    | .threw _ => none

/-- The events for which a mail was sent, in order. -/
def mailedEvents (notices : List (Notice ρ)) : List (EventRow ρ) :=
  notices.filterMap fun
    | .published e true => some e
    | _ => none

/-! ### The configuration -/

/-- Reading one key writes at most that key. -/
theorem getConfigString_of_ne (env : CheckEnv ρ) (config : ConfigTable) {key key' : ConfigKey}
    (d : List UInt8) (h : key' ≠ key) :
    (getConfigString env config key d).2 key' = config key' := by
  unfold getConfigString
  split
  · split
    · unfold saveConfig
      split
      · exact Function.update_of_ne h _ _
      · rfl
    · rfl
    · rfl
  · rfl

theorem getMailSender_saved (env : CheckEnv ρ) (config : ConfigTable) :
    (getMailSender env config).1 .lastNotifiedEventId = config .lastNotifiedEventId := by
  unfold getMailSender
  dsimp only
  split <;> simp [getConfigString_of_ne]

/-- Reading the settings for the mails leaves the saved cursor alone. -/
theorem mailSettings_saved (env : CheckEnv ρ) (config : ConfigTable) :
    (mailSettings env config).1 .lastNotifiedEventId = config .lastNotifiedEventId := by
  unfold mailSettings
  dsimp only
  split
  · split <;> simp [getConfigString_of_ne, getMailSender_saved]
  · exact getConfigString_of_ne _ _ _ (by decide)

/-- A saved cursor is read as it was saved. -/
theorem getConfigString_saved {env : CheckEnv ρ} {config : ConfigTable} {key : ConfigKey}
    {value : List UInt8} (d : List UInt8) (hreads : env.reads key = true)
    (h : config key = some (some value)) : getConfigString env config key d = (value, config) := by
  rw [getConfigString, if_pos hreads, h]

/-! ### One execution -/

/-- The rows of `events` as the sequence numbers them. -/
structure Notifier.WellFormed (s : Notifier ρ) : Prop where
  increasing : Increasing EventRow.id s.events
  pos : ∀ r ∈ s.events, 1 ≤ r.id
  le_seq : ∀ r ∈ s.events, r.id ≤ s.seq
  seq_lt : s.seq < 2 ^ 63

/-- On such a table the query is the first ten rows behind the cursor. -/
theorem selectNewEvents_eq {events : List (EventRow ρ)} (h : Increasing EventRow.id events)
    (last : Int) : selectNewEvents events last = (after EventRow.id last events).take 10 := by
  have hsorted : (after EventRow.id last events).Pairwise
      fun a b => decide (a.id ≤ b.id) = true :=
    (increasing_after h last).imp fun hlt => decide_eq_true hlt.le
  rw [selectNewEvents]
  show ((after EventRow.id last events).mergeSort fun a b => decide (a.id ≤ b.id)).take 10 = _
  rw [List.mergeSort_of_pairwise hsorted]

/-- The loop publishes a first part of the events, all of them unless one throws. -/
theorem notifyAll_spec (enabled : Bool) (publishes : EventRow ρ → Bool) (last : Int)
    (es : List (EventRow ρ)) :
    ∃ b rest, es = b ++ rest ∧
      (notifyAll enabled publishes last es).1 = reached EventRow.id last b ∧
      publishedEvents (notifyAll enabled publishes last es).2.2 = b ∧
      mailedEvents (notifyAll enabled publishes last es).2.2
        = b.filter (fun e => enabled && decide (1 ≤ e.severity)) ∧
      ((notifyAll enabled publishes last es).2.1 = true → rest = []) ∧
      ((∀ e ∈ es, publishes e = true) →
        (notifyAll enabled publishes last es).2.1 = true) := by
  induction es generalizing last with
  | nil => exact ⟨[], [], rfl, rfl, rfl, rfl, fun _ => rfl, fun _ => rfl⟩
  | cons e es ih =>
      by_cases he : publishes e = true
      · obtain ⟨b, rest, hes, hcursor, hpub, hmail, hend, hall⟩ := ih e.id
        simp only [notifyAll, if_pos he]
        refine ⟨e :: b, rest, by rw [hes, List.cons_append], hcursor, ?_, ?_, hend,
          fun h => hall fun e' he' => h e' (List.mem_cons_of_mem _ he')⟩
        · show e :: publishedEvents _ = _
          rw [hpub]
        · rw [List.filter_cons, ← hmail]
          cases enabled && decide (1 ≤ e.severity) <;> rfl
      · simp only [notifyAll, if_neg he]
        refine ⟨[], e :: es, rfl, rfl, rfl, rfl, fun h => absurd h Bool.false_ne_true,
          fun h => absurd (h e List.mem_cons_self) he⟩

/-- What the second block does: it publishes the events `b` and moves the cursor
along; if it comes to the end, it saves the cursor. -/
structure NotifiedAs (env : CheckEnv ρ) (s : Notifier ρ) (b : List (EventRow ρ))
    (r : Notifier ρ × List (Notice ρ)) : Prop where
  events : r.1.events = s.events
  seq : r.1.seq = s.seq
  cursor : r.1.lastProcessedId = reached EventRow.id s.lastProcessedId b
  published : publishedEvents r.2 = b
  mailed : ∃ enabled : Bool,
    mailedEvents r.2 = b.filter fun e => enabled && decide (1 ≤ e.severity)
  unsaved : b = [] → r.1.config .lastNotifiedEventId = s.config .lastNotifiedEventId
  saved : (∀ e, env.publishes e = true) → env.savesLast = true → b ≠ [] →
    r.1.config .lastNotifiedEventId = some (some (decimalInt r.1.lastProcessedId))
  whole : env.readsEvents = true → (∀ e, env.publishes e = true) →
    (mailSettings env s.config).2 ≠ none →
      b = (after EventRow.id s.lastProcessedId s.events).take 10

/-- An execution that publishes nothing and leaves the cursor. -/
theorem notifiedAs_nil {env : CheckEnv ρ} {s s' : Notifier ρ} (hevents : s'.events = s.events)
    (hseq : s'.seq = s.seq) (hlast : s'.lastProcessedId = s.lastProcessedId)
    (hsaved : s'.config .lastNotifiedEventId = s.config .lastNotifiedEventId)
    (hwhole : env.readsEvents = true → (mailSettings env s.config).2 ≠ none →
      after EventRow.id s.lastProcessedId s.events = []) :
    NotifiedAs env s [] (s', []) where
  events := hevents
  seq := hseq
  cursor := hlast
  published := rfl
  mailed := ⟨false, rfl⟩
  unsaved := fun _ => hsaved
  saved := fun _ _ h => absurd rfl h
  whole := fun hreads _ hmail => by rw [hwhole hreads hmail, List.take_nil]

theorem notifyNewEvents_spec (env : CheckEnv ρ) {s : Notifier ρ} (h : s.WellFormed) :
    ∃ b rest, after EventRow.id s.lastProcessedId s.events = b ++ rest ∧
      NotifiedAs env s b (notifyNewEvents env s) := by
  unfold notifyNewEvents
  rw [selectNewEvents_eq h.increasing]
  have hrows := List.take_append_drop 10 (after EventRow.id s.lastProcessedId s.events)
  by_cases hreads : env.readsEvents = true
  · rw [if_pos hreads]
    dsimp only
    rcases hnew : (after EventRow.id s.lastProcessedId s.events).take 10 with - | ⟨e, es⟩
    · rw [if_pos List.isEmpty_nil]
      have hnone : after EventRow.id s.lastProcessedId s.events = [] := by
        simpa using hnew
      exact ⟨[], _, rfl, notifiedAs_nil rfl rfl rfl rfl fun _ _ => hnone⟩
    · rw [if_neg (by simp)]
      have hconfig := mailSettings_saved env s.config
      split
      · rename_i hmail
        exact ⟨[], _, rfl, notifiedAs_nil rfl rfl rfl hconfig fun _ hne => absurd hmail hne⟩
      · rename_i enabled hmail
        obtain ⟨b, rest, hes, hcursor, hpub, hmailed, hend, hall⟩ :=
          notifyAll_spec enabled env.publishes s.lastProcessedId (e :: es)
        refine ⟨b, rest ++ (after EventRow.id s.lastProcessedId s.events).drop 10, ?_, ?_⟩
        · rw [← List.append_assoc, ← hes, ← hnew, hrows]
        · have hb : (∀ e, env.publishes e = true) → b = e :: es := fun hp => by
            rw [hes, hend (hall fun e _ => hp e), List.append_nil]
          split
          · rename_i hdone
            have hbne : b ≠ [] := fun hnil => by
              rw [hnil, hend hdone] at hes
              cases hes
            refine ⟨rfl, rfl, hcursor, hpub, ⟨enabled, hmailed⟩, fun hnil => absurd hnil hbne, ?_,
              ?_⟩
            · intro _ hsaves _
              simp [Notifier.moveTo, saveConfig, hsaves]
            · exact fun _ hp _ => (hb hp).trans hnew.symm
          · rename_i hdone
            refine ⟨rfl, rfl, hcursor, hpub, ⟨enabled, hmailed⟩, fun _ => hconfig, ?_, ?_⟩
            · exact fun hp => absurd (hall fun e _ => hp e) hdone
            · exact fun _ hp _ => (hb hp).trans hnew.symm
  · rw [if_neg hreads]
    exact ⟨[], _, rfl, notifiedAs_nil rfl rfl rfl rfl fun hr => absurd hr hreads⟩

/-! ### One life of the process -/

theorem publishedEvents_append (n n' : List (Notice ρ)) :
    publishedEvents (n ++ n') = publishedEvents n ++ publishedEvents n' :=
  List.filterMap_append

/-- The tables after a step that does not run the service. -/
theorem progress_tables {s : Notifier ρ} {c k : Int} {done : List (EventRow ρ)}
    (h : s.WellFormed) (hp : ReaderProgress EventRow.id c done s.events s.seq k)
    {a : NotifierInput ρ} (ha : ∀ env, a ≠ .check env) :
    (notifierStep s a).1.WellFormed ∧
      ReaderProgress EventRow.id c done (notifierStep s a).1.events (notifierStep s a).1.seq k ∧
      s.seq ≤ (notifierStep s a).1.seq ∧ (notifierStep s a).2 = [] := by
  cases a with
  | insert skipped severity cols =>
      simp only [notifierStep]
      split
      · rename_i hroom
        have hnew : (s.seq : Int) < s.seq + skipped + 1 := by omega
        have hp' := hp.insert (r := ⟨s.seq + skipped + 1, severity, cols⟩) hnew
        have hseq : s.seq ≤ s.seq + skipped + 1 := by omega
        refine ⟨⟨hp'.increasing, fun r hr => ?_, hp'.le_top, hroom⟩, hp', hseq, rfl⟩
        rcases List.mem_append.mp hr with hr | hr
        · exact h.pos r hr
        · rw [List.mem_singleton.mp hr]
          show (1 : Int) ≤ s.seq + skipped + 1
          omega
      · exact ⟨h, hp, le_refl _, rfl⟩
  | delete rows =>
      have hsub : (s.events.filter fun r => !rows r).Sublist s.events := List.filter_sublist
      have hp' := hp.remove hsub
      exact ⟨⟨hp'.increasing, fun r hr => h.pos r (List.mem_of_mem_filter hr), hp'.le_top,
        h.seq_lt⟩, hp', le_refl _, rfl⟩
  | setConfig key value =>
      exact ⟨⟨h.increasing, h.pos, h.le_seq, h.seq_lt⟩, hp, le_refl _, rfl⟩
  | restart => exact ⟨⟨h.increasing, h.pos, h.le_seq, h.seq_lt⟩, hp, le_refl _, rfl⟩
  | check env => exact absurd rfl (ha env)

/-- One execution of the second block. -/
theorem progress_notify {s : Notifier ρ} {c : Int} {done : List (EventRow ρ)} (h : s.WellFormed)
    (hp : ReaderProgress EventRow.id c done s.events s.seq s.lastProcessedId) (env : CheckEnv ρ) :
    (notifyNewEvents env s).1.WellFormed ∧
      ReaderProgress EventRow.id c (done ++ publishedEvents (notifyNewEvents env s).2)
        (notifyNewEvents env s).1.events (notifyNewEvents env s).1.seq
        (notifyNewEvents env s).1.lastProcessedId := by
  obtain ⟨b, rest, hb, hn⟩ := notifyNewEvents_spec env h
  rw [hn.events, hn.seq, hn.cursor, hn.published]
  refine ⟨⟨?_, ?_, ?_, ?_⟩, hp.batch hb⟩
  · exact hn.events ▸ h.increasing
  · exact hn.events ▸ h.pos
  · exact hn.events ▸ hn.seq ▸ h.le_seq
  · exact hn.seq ▸ h.seq_lt

/-- A cursor on no row or on one. -/
theorem cursor_ne_neg_one {s : Notifier ρ} (h : s.WellFormed) (hlast : s.lastProcessedId ≠ -1)
    (env : CheckEnv ρ) : (notifyNewEvents env s).1.lastProcessedId ≠ -1 := by
  obtain ⟨b, rest, hb, hn⟩ := notifyNewEvents_spec env h
  rw [hn.cursor]
  rcases reached_cases EventRow.id s.lastProcessedId b with heq | ⟨r, hr, heq⟩
  · rw [heq]
    exact hlast
  · have hmem := (mem_after.mp (hb ▸ List.mem_append_left rest hr)).1
    have := h.pos r hmem
    omega

/-- A table of two events, none of them reported. -/
def twoEvents : Notifier Unit where
  events := [⟨1, 2, ()⟩, ⟨2, 0, ()⟩]
  seq := 2
  config := fun key => if key = .lastNotifiedEventId then some (some (str "1")) else none
  lastProcessedId := 1

theorem twoEvents_wellFormed : twoEvents.WellFormed where
  increasing := List.pairwise_pair.mpr (by decide)
  pos := by decide
  le_seq := by decide
  seq_lt := by decide

/-- An execution in which only what `publishes` says can fail. -/
def checkEnv (publishes : EventRow Unit → Bool) : CheckEnv Unit where
  reads := fun _ => true
  savesDefault := fun _ => true
  readsMaxId := true
  savesClamped := true
  savesFirst := true
  readsEvents := true
  publishes := publishes
  savesLast := true

theorem maxId_spec {s : Notifier ρ} (h : s.WellFormed) :
    (∀ r ∈ s.events, r.id ≤ maxId s.events) ∧ 0 ≤ maxId s.events ∧ maxId s.events ≤ s.seq := by
  unfold maxId
  rcases hmax : (s.events.map EventRow.id).max? with - | m
  · have hnone : s.events = [] := by
      simpa using List.max?_eq_none_iff.mp hmax
    rw [hnone]
    exact ⟨fun r hr => absurd hr List.not_mem_nil, le_refl _, Int.natCast_nonneg _⟩
  · obtain ⟨hmem, hle⟩ := List.max?_eq_some_iff.mp hmax
    obtain ⟨r, hr, rfl⟩ := List.mem_map.mp hmem
    refine ⟨fun r' hr' => hle r'.id (List.mem_map_of_mem hr'), ?_, h.le_seq r hr⟩
    exact le_trans (by omega) (h.pos r hr)

/-- The cursor is saved, and it is the one the service works with if it has one. -/
structure SavedAt (s : Notifier ρ) (k : Int) : Prop where
  saved : s.config .lastNotifiedEventId = some (some (decimalInt k))
  last : s.lastProcessedId = -1 ∨ s.lastProcessedId = k
  nonneg : 0 ≤ k
  le_seq : k ≤ s.seq

/-- A step after which the saved cursor is right: it is not edited, all events
are published and saving it succeeds; and where it is read, it can be, and it is
not 0 unless there is no event at all. -/
def Undisturbed (s : Notifier ρ) : NotifierInput ρ → Prop
  | .setConfig key _ => key ≠ .lastNotifiedEventId
  | .check env =>
      (∀ e, env.publishes e = true) ∧ env.savesLast = true ∧
        (s.lastProcessedId = -1 →
          env.reads .lastNotifiedEventId = true ∧ env.savesClamped = true ∧
            env.savesFirst = true ∧
            (s.config .lastNotifiedEventId = some (some (str "0")) → s.events = []))
  | _ => True

/-- The first execution takes the saved cursor, or puts it back to the last row. -/
theorem firstExecution_spec {s : Notifier ρ} {k : Int} (h : s.WellFormed) (hk : SavedAt s k)
    {env : CheckEnv ρ} (hreads : env.reads .lastNotifiedEventId = true)
    (hclamped : env.savesClamped = true) (hfirst : env.savesFirst = true)
    (hzero : s.config .lastNotifiedEventId = some (some (str "0")) → s.events = []) :
    (firstExecution env s).1.events = s.events ∧ (firstExecution env s).1.seq = s.seq ∧
      ∃ k', (firstExecution env s).1.lastProcessedId = k' ∧ SavedAt (firstExecution env s).1 k' ∧
        (k' = k ∨ k' ≤ k ∧ ∀ r ∈ s.events, r.id ≤ k') := by
  obtain ⟨hmax, hmax0, hmaxSeq⟩ := maxId_spec h
  have hlt := h.seq_lt
  have hseq := hk.le_seq
  have hpos := hk.nonneg
  have hparse : parseLong (decimalInt k) = some k :=
    parseLong_decimalInt (by omega) (by omega)
  unfold firstExecution
  rw [getConfigString_saved _ hreads hk.saved]
  dsimp only
  rw [hparse]
  dsimp only
  by_cases hread : env.readsMaxId = true
  · rw [if_pos hread]
    dsimp only
    by_cases hgt : k > maxId s.events
    · -- the cursor is behind the table
      rw [if_pos hgt]
      have hsame : ∀ s' : Notifier ρ, s'.events = s.events ∧ s'.seq = s.seq ∧
          s'.lastProcessedId = maxId s.events ∧
          s'.config .lastNotifiedEventId = some (some (decimalInt (maxId s.events))) →
          s'.events = s.events ∧ s'.seq = s.seq ∧ ∃ k', s'.lastProcessedId = k' ∧ SavedAt s' k' ∧
            (k' = k ∨ k' ≤ k ∧ ∀ r ∈ s.events, r.id ≤ k') := by
        rintro s' ⟨hevents, hseq', hlast, hsaved⟩
        exact ⟨hevents, hseq', _, hlast, ⟨hsaved, Or.inr hlast, hmax0, hseq' ▸ hmaxSeq⟩,
          Or.inr ⟨le_of_lt hgt, hmax⟩⟩
      apply hsame
      split <;> simp [Notifier.moveTo, saveConfig, hclamped, hfirst]
    · rw [if_neg hgt]
      by_cases hk0 : k = 0
      · -- the service ran on an empty table
        have hnone : s.events = [] := hzero (by rw [hk.saved, hk0]; rfl)
        have hmaxId : maxId s.events = 0 := by rw [hnone]; rfl
        rw [if_pos hk0, hmaxId, hk0]
        refine ⟨rfl, rfl, 0, rfl, ⟨?_, Or.inr rfl, le_refl _, Int.natCast_nonneg _⟩, Or.inl rfl⟩
        simp [Notifier.moveTo, saveConfig, hfirst]
      · rw [if_neg hk0]
        exact ⟨rfl, rfl, k, rfl, ⟨hk.saved, Or.inr rfl, hpos, hseq⟩, Or.inl rfl⟩
  · rw [if_neg hread]
    exact ⟨rfl, rfl, k, rfl, ⟨hk.saved, Or.inr rfl, hpos, hseq⟩, Or.inl rfl⟩

/-- How far the service has come, over all its lives. -/
structure LivesSoFar (c : Int) (notices : List (List (Notice ρ))) (s : Notifier ρ) : Prop where
  wellFormed : s.WellFormed
  le_seq : c ≤ s.seq
  progress : ∃ k, SavedAt s k ∧
    ReaderProgress EventRow.id c (publishedEvents notices.flatten) s.events s.seq k

/-- The second block keeps the saved cursor in step. -/
theorem savedAt_notify {s : Notifier ρ} {k : Int} (h : s.WellFormed) (hk : SavedAt s k)
    (hlast : s.lastProcessedId = k) {env : CheckEnv ρ} (hpub : ∀ e, env.publishes e = true)
    (hsaves : env.savesLast = true) :
    SavedAt (notifyNewEvents env s).1 (notifyNewEvents env s).1.lastProcessedId := by
  obtain ⟨b, rest, hb, hn⟩ := notifyNewEvents_spec env h
  by_cases hnil : b = []
  · have hcursor : (notifyNewEvents env s).1.lastProcessedId = k := by
      rw [hn.cursor, hnil, reached_nil, hlast]
    rw [hcursor]
    exact ⟨(hn.unsaved hnil).trans hk.saved, Or.inr hcursor, hk.nonneg, hn.seq ▸ hk.le_seq⟩
  · refine ⟨hn.saved hpub hsaves hnil, Or.inr rfl, ?_, ?_⟩
    · rw [hn.cursor]
      rcases reached_cases EventRow.id s.lastProcessedId b with heq | ⟨r, hr, heq⟩
      · rw [heq, hlast]
        exact hk.nonneg
      · have := h.pos r (mem_after.mp (hb ▸ List.mem_append_left rest hr)).1
        omega
    · rw [hn.cursor, hn.seq]
      rcases reached_cases EventRow.id s.lastProcessedId b with heq | ⟨r, hr, heq⟩
      · rw [heq, hlast]
        exact hk.le_seq
      · rw [heq]
        exact h.le_seq r (mem_after.mp (hb ▸ List.mem_append_left rest hr)).1

theorem livesSoFar_notify {c k : Int} {notices : List (List (Notice ρ))} {s : Notifier ρ}
    (h : s.WellFormed) (hc : c ≤ s.seq) (hk : SavedAt s k) (hlast : s.lastProcessedId = k)
    (hp : ReaderProgress EventRow.id c (publishedEvents notices.flatten) s.events s.seq k)
    {env : CheckEnv ρ} (hpub : ∀ e, env.publishes e = true) (hsaves : env.savesLast = true) :
    LivesSoFar c (notices ++ [(notifyNewEvents env s).2]) (notifyNewEvents env s).1 := by
  obtain ⟨hwf, hp'⟩ := progress_notify h (hlast.symm ▸ hp) env
  have hseq : (notifyNewEvents env s).1.seq = s.seq := by
    obtain ⟨_, _, _, hn⟩ := notifyNewEvents_spec env h
    exact hn.seq
  refine ⟨hwf, hseq ▸ hc, _, savedAt_notify h hk hlast hpub hsaves, ?_⟩
  rw [List.flatten_append, publishedEvents_append, List.flatten_singleton]
  exact hp'

theorem livesSoFar_step {c : Int} {notices : List (List (Notice ρ))} {s : Notifier ρ}
    (h : LivesSoFar c notices s) {a : NotifierInput ρ} (ha : Undisturbed s a) :
    LivesSoFar c (notices ++ [(notifierStep s a).2]) (notifierStep s a).1 := by
  obtain ⟨k, hk, hp⟩ := h.progress
  by_cases hcheck : ∀ env, a ≠ .check env
  · obtain ⟨hwf, hp', hseq, hnone⟩ := progress_tables h.wellFormed hp hcheck
    have hcast : (s.seq : Int) ≤ (notifierStep s a).1.seq := Int.ofNat_le.mpr hseq
    have hk' : SavedAt (notifierStep s a).1 k := by
      refine ⟨?_, ?_, hk.nonneg, hk.le_seq.trans hcast⟩
      · cases a with
        | insert => simp only [notifierStep]; split <;> exact hk.saved
        | setConfig key value => exact (Function.update_of_ne (Ne.symm ha) _ _).trans hk.saved
        | check env => exact absurd rfl (hcheck env)
        | _ => exact hk.saved
      · cases a with
        | insert => simp only [notifierStep]; split <;> exact hk.last
        | restart => exact Or.inl rfl
        | check env => exact absurd rfl (hcheck env)
        | _ => exact hk.last
    refine ⟨hwf, h.le_seq.trans hcast, k, hk', ?_⟩
    rw [hnone, List.flatten_append, List.flatten_singleton, List.append_nil]
    exact hp'
  · obtain ⟨env, rfl⟩ := not_forall_not.mp hcheck
    obtain ⟨hpub, hsaves, hfirst⟩ := ha
    show LivesSoFar c (notices ++ [(s.checkNewEventsAndNotify env).2])
      (s.checkNewEventsAndNotify env).1
    unfold Notifier.checkNewEventsAndNotify
    by_cases hlast : s.lastProcessedId = -1
    · rw [if_pos hlast]
      obtain ⟨hreads, hclamped, hsavesFirst, hzero⟩ := hfirst hlast
      obtain ⟨hevents, hseq, k', hlast', hk', hmoved⟩ :=
        firstExecution_spec h.wellFormed hk hreads hclamped hsavesFirst hzero
      obtain ⟨hinc, hpos, hle, hlt⟩ := h.wellFormed
      have hwf : (firstExecution env s).1.WellFormed :=
        ⟨hevents ▸ hinc, hevents ▸ hpos, hevents ▸ hseq ▸ hle, hseq ▸ hlt⟩
      have hc : c ≤ (firstExecution env s).1.seq := hseq ▸ h.le_seq
      have hp' : ReaderProgress EventRow.id c (publishedEvents notices.flatten)
          (firstExecution env s).1.events (firstExecution env s).1.seq k' := by
        rw [hevents, hseq]
        rcases hmoved with rfl | ⟨hle', hrows⟩
        · exact hp
        · exact hp.rewind hle' h.le_seq (hle'.trans hk.le_seq) hrows
      dsimp only
      split
      · exact livesSoFar_notify hwf hc hk' hlast' hp' hpub hsaves
      · refine ⟨hwf, hc, k', hk', ?_⟩
        rw [List.flatten_append, List.flatten_singleton, List.append_nil]
        exact hp'
    · rw [if_neg hlast]
      exact livesSoFar_notify h.wellFormed h.le_seq hk (hk.last.resolve_left hlast) hp hpub hsaves

/-- **Over any number of restarts** each event is published at most once, in the
order of the ids, and of the rows behind the first cursor those up to the saved
one have been published: as long as no step disturbs the saved cursor. -/
theorem published_once_over_restarts {s : Notifier ρ} {c : Int} (h : s.WellFormed)
    (hc : SavedAt s c) (inputs : List (NotifierInput ρ))
    (hinputs : Along notifierStep Undisturbed s inputs) :
    let r := exec notifierStep s inputs
    let published := publishedEvents r.2.flatten
    Increasing EventRow.id published ∧ (∀ e ∈ published, c < e.id) ∧
      ∃ k, SavedAt r.1 k ∧ ∀ e ∈ r.1.events, c < e.id → (e ∈ published ↔ e.id ≤ k) := by
  have hstart : LivesSoFar c [] s :=
    ⟨h, hc.le_seq, c, hc, ReaderProgress.start h.increasing h.le_seq⟩
  have hlives : LivesSoFar c (exec notifierStep s inputs).2 (exec notifierStep s inputs).1 := by
    refine Along.history (fun as s' => LivesSoFar c (exec notifierStep s as).2 s')
      hstart (fun as a hlives ha => ?_) inputs hinputs
    rw [exec_append]
    exact livesSoFar_step hlives ha
  obtain ⟨k, hk, hp⟩ := hlives.progress
  exact ⟨hp.in_order, fun e he => (hp.behind e he).1, k, hk, hp.covered⟩

theorem published_once_over_restarts_twoEvents :
    let inputs := [.restart, .check (checkEnv fun _ => true), .restart]
    Increasing EventRow.id (publishedEvents (exec notifierStep twoEvents inputs).2.flatten) := by
  intro inputs
  have hsaved : SavedAt twoEvents 1 := ⟨rfl, Or.inr rfl, by decide, by decide⟩
  have hnonzero : ¬ some (some (str "1")) = some (some (str "0")) := by decide
  exact (published_once_over_restarts twoEvents_wellFormed hsaved inputs
    ⟨trivial, ⟨fun _ => rfl, rfl, fun _ => ⟨rfl, rfl, rfl, fun h => absurd h hnonzero⟩⟩,
      trivial, trivial⟩).1

/-- The executions in which nothing fails, of a service that has a cursor. -/
def Succeeds (s : Notifier ρ) : NotifierInput ρ → Prop
  | .check env =>
      env.readsEvents = true ∧ (∀ e, env.publishes e = true) ∧ (mailSettings env s.config).2 ≠ none
  | _ => False

/-- `n` executions in a row publish the first `10 * n` rows behind the cursor: the
backlog is worked off in order, ten rows every time. -/
theorem backlog_published {s : Notifier ρ} (h : s.WellFormed) (hrunning : s.lastProcessedId ≠ -1)
    (inputs : List (NotifierInput ρ)) (hinputs : Along notifierStep Succeeds s inputs) :
    let r := exec notifierStep s inputs
    publishedEvents r.2.flatten
        = (after EventRow.id s.lastProcessedId s.events).take (10 * inputs.length) ∧
      after EventRow.id r.1.lastProcessedId r.1.events
        = (after EventRow.id s.lastProcessedId s.events).drop (10 * inputs.length) := by
  induction inputs generalizing s with
  | nil => exact ⟨rfl, rfl⟩
  | cons a inputs ih =>
      obtain ⟨ha, hrest⟩ := hinputs
      cases a with
      | check env =>
          obtain ⟨hreads, hpub, hmail⟩ := ha
          have hstep : notifierStep s (.check env) = notifyNewEvents env s := if_neg hrunning
          obtain ⟨b, rest, hb, hn⟩ := notifyNewEvents_spec env h
          have hbatch := hn.whole hreads hpub hmail
          have hdrop : rest = (after EventRow.id s.lastProcessedId s.events).drop 10 := by
            have hsplit := List.take_append_drop 10 (after EventRow.id s.lastProcessedId s.events)
            rw [← hbatch] at hsplit
            exact List.append_cancel_left (hb.symm.trans hsplit.symm)
          have hafter : after EventRow.id (notifyNewEvents env s).1.lastProcessedId
              (notifyNewEvents env s).1.events = rest := by
            rw [hn.cursor, hn.events]
            exact h.increasing.after_reached hb
          rw [hstep] at hrest
          obtain ⟨ihPub, ihAfter⟩ := ih
            (progress_notify h (ReaderProgress.start h.increasing h.le_seq) env).1
            (cursor_ne_neg_one h hrunning env) hrest
          rw [hafter, hdrop] at ihPub ihAfter
          have hlen : 10 * (NotifierInput.check env :: inputs).length
              = 10 + 10 * inputs.length := by
            rw [List.length_cons]
            omega
          simp only [exec, hstep, List.flatten_cons]
          rw [publishedEvents_append, hn.published, ihPub, ihAfter, hbatch, hlen]
          exact ⟨List.take_add.symm, List.drop_drop⟩
      | _ => exact ha.elim

theorem backlog_published_twoEvents :
    publishedEvents
        (exec notifierStep { twoEvents with lastProcessedId := 0 }
          [.check (checkEnv fun _ => true)]).2.flatten
      = [⟨1, 2, ()⟩, ⟨2, 0, ()⟩] := by
  refine (backlog_published (s := { twoEvents with lastProcessedId := 0 })
    ⟨twoEvents_wellFormed.increasing, by decide, by decide, by decide⟩ (by decide)
    [.check (checkEnv fun _ => true)] ⟨⟨rfl, fun _ => rfl, by decide⟩, trivial⟩).1.trans ?_
  rfl

end Nullsploit
