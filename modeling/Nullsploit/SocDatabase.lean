/-
Nullsploit/SocDatabase.lean

The tables `ip_reputation`, `events` and `blocklist` and the SQL statements
that change them: `db_insert_event` and `db_update_ip_reputation` of the
receiver (soc-server/db.c, called by the feed parsers of threat_intel.c), the
reputation sync and the auto-block of `checkNewEventsAndNotify`
(NotificationService.java), and the insertions and deletions of
DashboardController.java.

Statements of several programs run one at a time but in any order, so a run is a
list of statements.  Each keeps the three scores of a row in their relation, and
only a deletion lets an external score go up again (`reputation_rows_valid`).
The other columns (attack types, times, reasons) are left out.
-/
import Mathlib.Data.List.AList
import Mathlib.Data.List.Dedup
import Mathlib.Algebra.Order.BigOperators.Group.List
import Mathlib.Algebra.Order.Ring.Int
import Nullsploit.Runs

namespace Nullsploit

open Runs

variable {Ip : Type} [DecidableEq Ip]

/-! ### The tables -/

/-- The scores in a row of `ip_reputation`. -/
structure RepRow where
  score : Int
  localScore : Int
  externalScore : Int
  deriving DecidableEq, Repr

/-- A row of `events`. -/
structure StoredEvent (Ip : Type) where
  srcIp : Ip
  severity : Int
  deriving DecidableEq, Repr

/-- `source` in a row of `blocklist`; 'manual' is the default. -/
inductive BlockSource
  | manual
  | system
  deriving DecidableEq, Repr

/-- A row of `blocklist`.  `list_type` is 'block' in all of them. -/
structure BlockRow (Ip : Type) where
  ipCidr : Ip
  source : BlockSource
  deriving DecidableEq, Repr

/-- The address is the primary key of `ip_reputation`. -/
structure Database (Ip : Type) where
  ipReputation : AList fun _ : Ip => RepRow
  events : List (StoredEvent Ip)
  blocklist : List (BlockRow Ip)

/-! ### Reputation -/

/-- `INSERT ... ON CONFLICT (ip) DO UPDATE`: the new row, given the one that is
there. -/
def upsert (row : Option RepRow → RepRow) (ip : Ip) (table : AList fun _ : Ip => RepRow) :
    AList fun _ : Ip => RepRow :=
  table.insert ip (row (table.lookup ip))

/-- The row of `db_update_ip_reputation`. -/
def mergeRow (score localScore externalScore : Int) : Option RepRow → RepRow
  | none => ⟨score, localScore, externalScore⟩
  | some row =>
      { localScore := min row.localScore localScore
        externalScore := min row.externalScore externalScore
        score := min (min row.localScore localScore) (min row.externalScore externalScore) }

/-- `db_update_ip_reputation`. -/
def dbUpdateIpReputation (ip : Ip) (score localScore externalScore : Int) (db : Database Ip) :
    Database Ip :=
  { db with ipReputation := upsert (mergeRow score localScore externalScore) ip db.ipReputation }

/-- The three feeds. -/
inductive Feed
  | feodoTracker
  | binaryDefense
  | ciArmy
  deriving DecidableEq, Repr

/-- What a feed passes for `score` and `external_score`. -/
def Feed.score : Feed → Int
  | .feodoTracker => 15
  | .binaryDefense => 20
  | .ciArmy => 25

/-- `CASE WHEN severity = 2 THEN 25 WHEN severity = 1 THEN 15 ELSE 5 END`. -/
def severityWeight (severity : Int) : Int :=
  if severity = 2 then 25 else if severity = 1 then 15 else 5

/-- `GREATEST(0, 100 - SUM(...))` over the events of an address. -/
def calcLocalScore (events : List (StoredEvent Ip)) (ip : Ip) : Int :=
  max 0 (100 - ((events.filter (·.srcIp = ip)).map (severityWeight ·.severity)).sum)

/-- The row of the sync; `external_score` starts at 100 and is kept. -/
def syncRow (calcScore : Int) : Option RepRow → RepRow
  | none => ⟨calcScore, calcScore, 100⟩
  | some row => ⟨min calcScore row.externalScore, calcScore, row.externalScore⟩

/-- The reputation sync: one row for each group of `GROUP BY src_ip`. -/
def syncReputation (db : Database Ip) : Database Ip :=
  { db with
    ipReputation := (db.events.map (·.srcIp)).dedup.foldl
      (fun table ip => upsert (syncRow (calcLocalScore db.events ip)) ip table) db.ipReputation }

/-! ### The blocklist -/

/-- The addresses with a score of 20 at most that are not in the blocklist. -/
def ipsToBlock (db : Database Ip) : List Ip :=
  (db.ipReputation.entries.filter fun e =>
    e.2.score ≤ 20 ∧ ∀ row ∈ db.blocklist, row.ipCidr ≠ e.1).map Sigma.fst

/-! ### Statements -/

/-- The statements.  The deletions by address are those of `clearReputation`
with one and, for `none`, without. -/
inductive Statement (Ip : Type)
  | importIp (feed : Feed) (ip : Ip)
  | insertEvent (event : StoredEvent Ip)
  | syncReputation
  | autoBlock
  | insertBlock (ip : Ip)
  | deleteBlock (ip : Ip)
  | deleteReputation (ip : Option Ip)
  | deleteEvents (ip : Option Ip)
  | deleteSystemBlocks (ip : Option Ip)
  deriving DecidableEq, Repr

/-- `WHERE column = ip`, or no condition. -/
def isAddress (ip : Option Ip) (a : Ip) : Bool :=
  match ip with
  | none => true
  | some ip => a = ip

def Database.execute (db : Database Ip) : Statement Ip → Database Ip
  | .importIp feed ip => dbUpdateIpReputation ip feed.score 100 feed.score db
  | .insertEvent event => { db with events := db.events ++ [event] }
  | .syncReputation => Nullsploit.syncReputation db
  | .autoBlock => { db with blocklist := db.blocklist ++ (ipsToBlock db).map (⟨·, .system⟩) }
  | .insertBlock ip => { db with blocklist := db.blocklist ++ [⟨ip, .manual⟩] }
  | .deleteBlock ip => { db with blocklist := db.blocklist.filter (·.ipCidr ≠ ip) }
  | .deleteReputation none => { db with ipReputation := ∅ }
  | .deleteReputation (some ip) => { db with ipReputation := db.ipReputation.erase ip }
  | .deleteEvents ip => { db with events := db.events.filter fun e => !isAddress ip e.srcIp }
  | .deleteSystemBlocks ip =>
      { db with
        blocklist := db.blocklist.filter fun row =>
          !(isAddress ip row.ipCidr && row.source = .system) }

def statementStep (db : Database Ip) (statement : Statement Ip) : Database Ip × Unit :=
  (db.execute statement, ())

/-! ### Lookup after a statement -/

theorem lookup_upsert (row : Option RepRow → RepRow) (ip a : Ip)
    (table : AList fun _ : Ip => RepRow) :
    (upsert row a table).lookup ip
      = if ip = a then some (row (table.lookup ip)) else table.lookup ip := by
  unfold upsert
  split
  · rename_i h
    rw [h, AList.lookup_insert]
  · rename_i h
    exact AList.lookup_insert_ne h

/-- One row for each address of the list. -/
theorem lookup_foldl_upsert (row : Ip → Option RepRow → RepRow) {ips : List Ip} (h : ips.Nodup)
    (ip : Ip) (table : AList fun _ : Ip => RepRow) :
    (ips.foldl (fun table a => upsert (row a) a table) table).lookup ip
      = if ip ∈ ips then some (row ip (table.lookup ip)) else table.lookup ip := by
  induction ips generalizing table with
  | nil => rfl
  | cons a ips ih =>
      -- a later address is another one, so the row written for `a` stays
      obtain ⟨hnot, h⟩ := List.nodup_cons.mp h
      rw [List.foldl_cons, ih h, lookup_upsert]
      by_cases ha : ip = a
      · subst ha
        rw [if_neg hnot, if_pos rfl, if_pos List.mem_cons_self]
      · simp [ha]

theorem lookup_syncReputation (db : Database Ip) (ip : Ip) :
    (syncReputation db).ipReputation.lookup ip
      = if ip ∈ db.events.map (·.srcIp) then
          some (syncRow (calcLocalScore db.events ip) (db.ipReputation.lookup ip))
        else db.ipReputation.lookup ip := by
  simp only [syncReputation, ← List.mem_dedup (l := db.events.map (·.srcIp))]
  exact lookup_foldl_upsert (fun ip => syncRow (calcLocalScore db.events ip))
    (List.nodup_dedup _) ip _

theorem calcLocalScore_mem (events : List (StoredEvent Ip)) (ip : Ip) :
    0 ≤ calcLocalScore events ip ∧ calcLocalScore events ip ≤ 100 := by
  have hsum : 0 ≤ ((events.filter (·.srcIp = ip)).map (severityWeight ·.severity)).sum := by
    apply List.sum_nonneg
    intro w hw
    obtain ⟨e, -, rfl⟩ := List.mem_map.mp hw
    unfold severityWeight
    split
    · decide
    · split <;> decide
  unfold calcLocalScore
  omega

/-- What a statement does to the row of an address: nothing, or delete it, or
put one there as a feed or the sync does. -/
theorem lookup_execute (db : Database Ip) (statement : Statement Ip) (ip : Ip) :
    let old := db.ipReputation.lookup ip
    let new := (db.execute statement).ipReputation.lookup ip
    new = old ∨ new = none ∨ (∃ feed : Feed, new = some (mergeRow feed.score 100 feed.score old)) ∨
      ∃ calcScore, 0 ≤ calcScore ∧ calcScore ≤ 100 ∧ new = some (syncRow calcScore old) := by
  intro old new
  cases statement with
  | importIp feed a =>
      have hnew : new = if ip = a then some (mergeRow feed.score 100 feed.score old) else old :=
        lookup_upsert _ ip a _
      rw [hnew]
      split
      · exact Or.inr (Or.inr (Or.inl ⟨feed, rfl⟩))
      · exact Or.inl rfl
  | syncReputation =>
      have hnew : new = _ := lookup_syncReputation db ip
      rw [hnew]
      split
      · obtain ⟨h0, h100⟩ := calcLocalScore_mem db.events ip
        exact Or.inr (Or.inr (Or.inr ⟨_, h0, h100, rfl⟩))
      · exact Or.inl rfl
  | deleteReputation a =>
      cases a with
      | none => exact Or.inr (Or.inl (AList.lookup_empty ip))
      | some a =>
          rcases eq_or_ne ip a with rfl | hne
          · exact Or.inr (Or.inl (AList.lookup_erase ip _))
          · exact Or.inl (AList.lookup_erase_ne hne)
  | insertEvent | autoBlock | insertBlock | deleteBlock | deleteEvents | deleteSystemBlocks =>
      -- statements on the other tables
      exact Or.inl rfl

/-! ### The scores of a row -/

/-- Scores from 0 to 100, and the combined score is the lower one. -/
structure RepRow.Valid (row : RepRow) : Prop where
  localScore : 0 ≤ row.localScore ∧ row.localScore ≤ 100
  externalScore : 0 ≤ row.externalScore ∧ row.externalScore ≤ 100
  score : row.score = min row.localScore row.externalScore

theorem valid_mergeRow (feed : Feed) {old : Option RepRow} (h : ∀ row, old = some row → row.Valid) :
    (mergeRow feed.score 100 feed.score old).Valid := by
  have hfeed : 0 ≤ feed.score ∧ feed.score ≤ 100 := by cases feed <;> decide
  cases old with
  | none =>
      have hlocal : (0 : Int) ≤ 100 ∧ (100 : Int) ≤ 100 := by decide
      exact ⟨hlocal, hfeed, (min_eq_right hfeed.2).symm⟩
  | some row =>
      -- each column takes the lower of two scores in range
      obtain ⟨hlocal, hexternal, -⟩ := h row rfl
      refine ⟨?_, ?_, rfl⟩
      · simp only [mergeRow]
        omega
      · simp only [mergeRow]
        omega

theorem valid_syncRow {calcScore : Int} (h0 : 0 ≤ calcScore) (h100 : calcScore ≤ 100)
    {old : Option RepRow} (h : ∀ row, old = some row → row.Valid) : (syncRow calcScore old).Valid := by
  cases old with
  | none =>
      have hexternal : (0 : Int) ≤ 100 ∧ (100 : Int) ≤ 100 := by decide
      exact ⟨⟨h0, h100⟩, hexternal, (min_eq_left h100).symm⟩
  | some row => exact ⟨⟨h0, h100⟩, (h row rfl).externalScore, rfl⟩

/-- Every row of the table is valid. -/
def Database.Valid (db : Database Ip) : Prop :=
  ∀ ip row, db.ipReputation.lookup ip = some row → row.Valid

theorem valid_execute {db : Database Ip} (h : db.Valid) (statement : Statement Ip) :
    (db.execute statement).Valid := by
  intro ip row hrow
  rcases lookup_execute db statement ip with heq | heq | ⟨feed, heq⟩ | ⟨calcScore, h0, h100, heq⟩
  · exact h ip row (heq.symm.trans hrow)
  · rw [heq] at hrow
    cases hrow
  · rw [heq] at hrow
    obtain rfl := Option.some.inj hrow
    exact valid_mergeRow feed (h ip)
  · rw [heq] at hrow
    obtain rfl := Option.some.inj hrow
    exact valid_syncRow h0 h100 (h ip)

/-- A row that is still there has not gained external score. -/
theorem externalScore_execute {db : Database Ip} {statement : Statement Ip} {ip : Ip}
    {row row' : RepRow} (h : db.ipReputation.lookup ip = some row)
    (h' : (db.execute statement).ipReputation.lookup ip = some row') :
    row'.externalScore ≤ row.externalScore := by
  rcases lookup_execute db statement ip with heq | heq | ⟨feed, heq⟩ | ⟨calcScore, -, -, heq⟩
  · rw [heq, h] at h'
    rw [Option.some.inj h']
  · rw [heq] at h'
    cases h'
  · rw [heq, h] at h'
    rw [← Option.some.inj h']
    exact min_le_left _ _
  · rw [heq, h] at h'
    rw [← Option.some.inj h']
    exact le_rfl

/-- While a row exists its external score does not rise. -/
theorem externalScore_exec {ip : Ip} (later : List (Statement Ip)) {db : Database Ip} {row : RepRow}
    (h : db.ipReputation.lookup ip = some row)
    (hstays : Along statementStep (fun db st => ip ∈ (db.execute st).ipReputation) db later) :
    ∃ row', (exec statementStep db later).1.ipReputation.lookup ip = some row' ∧
      row'.externalScore ≤ row.externalScore := by
  induction later generalizing db row with
  | nil => exact ⟨row, h, le_rfl⟩
  | cons st later ih =>
      obtain ⟨hmem, hstays⟩ := hstays
      obtain ⟨row', hrow'⟩ := Option.isSome_iff_exists.mp (AList.lookup_isSome.mpr hmem)
      obtain ⟨row'', hrow'', hle⟩ := ih hrow' hstays
      exact ⟨row'', hrow'', hle.trans (externalScore_execute h hrow')⟩

/-- From an empty reputation table on, whatever the order of the statements,
every row is valid, and while a row exists its external score never rises. -/
theorem reputation_rows_valid (events : List (StoredEvent Ip)) (blocklist : List (BlockRow Ip))
    (statements : List (Statement Ip)) :
    let db := (exec statementStep ⟨∅, events, blocklist⟩ statements).1
    (∀ ip row, db.ipReputation.lookup ip = some row →
      (0 ≤ row.localScore ∧ row.localScore ≤ 100) ∧
        (0 ≤ row.externalScore ∧ row.externalScore ≤ 100) ∧
        row.score = min row.localScore row.externalScore) ∧
    ∀ ip row, db.ipReputation.lookup ip = some row → ∀ later : List (Statement Ip),
      Along statementStep (fun db st => ip ∈ (db.execute st).ipReputation) db later →
        ∃ row', (exec statementStep db later).1.ipReputation.lookup ip = some row' ∧
          row'.externalScore ≤ row.externalScore := by
  intro db
  have hempty : (⟨∅, events, blocklist⟩ : Database Ip).Valid := by
    intro ip row hrow
    rw [AList.lookup_empty] at hrow
    cases hrow
  have hvalid : db.Valid :=
    Along.invariant Database.Valid (Q := fun _ _ => True)
      (fun db st h _ => valid_execute h st) hempty (along_of_forall fun _ _ => trivial)
  refine ⟨fun ip row hrow => ?_, fun ip row hrow later hstays => ?_⟩
  · obtain ⟨hlocal, hexternal, hscore⟩ := hvalid ip row hrow
    exact ⟨hlocal, hexternal, hscore⟩
  · exact externalScore_exec later hrow hstays

end Nullsploit
