/-
Nullsploit/BlocklistSync.lean

The blocklist of the dashboard and what the agents are told about it: the calls
of DashboardController.java that change it, and the auto-block in
`checkNewEventsAndNotify` (NotificationService.java).  A call changes the tables
of SocDatabase.lean and gives out the commands that
`pushBlocklistUpdateToAgents` sends.

The two writers do not know of each other.  A block that an operator lifts is
put back by the next auto-block as long as the score of the address is low
(`unblock_sticks_iff`).  And `clearReputation` deletes only the rows of the
auto-block but tells the agents to unblock in any case, so a manual row may be
left without its block (`rows_blocked_iff`).
-/
import Nullsploit.SocDatabase
import Nullsploit.Protocol

namespace Nullsploit

open Runs

variable {Ip : Type} [DecidableEq Ip]

/-! ### The calls -/

/-- The tables, and the time of the last reputation sync. -/
structure SocState (Ip : Type) where
  db : Database Ip
  lastRepUpdate : Int

/-- Calls that name an address name a single one. -/
inductive SocCall (Ip : Type)
  | insertEvent (event : StoredEvent Ip)
  | importIp (feed : Feed) (ip : Ip)
  | addBlocklist (ip : Ip)
  | removeBlocklist (ip : Ip)
  | clearReputation (ip : Option Ip)
  | checkNewEventsAndNotify (now : Int)
  deriving DecidableEq, Repr

/-- The reputation part of `checkNewEventsAndNotify`. -/
def checkNewEventsAndNotify (now : Int) (s : SocState Ip) : SocState Ip × List (Ip × UInt8) :=
  if 30000 < now - s.lastRepUpdate then
    let db := s.db.execute .syncReputation
    let ips := ipsToBlock db
    if ips = [] then (⟨db, now⟩, [])
    else (⟨db.execute .autoBlock, now⟩, ips.map (·, msgTypeBlockIp))
  else (s, [])

/-- `clearReputation`, for one address or for all. -/
def clearReputation (ip : Option Ip) (s : SocState Ip) : SocState Ip × List (Ip × UInt8) :=
  let autoBlockedIps := (s.db.blocklist.filter (·.source = .system)).map (·.ipCidr)
  let db := ((s.db.execute (.deleteReputation ip)).execute (.deleteEvents ip)).execute
    (.deleteSystemBlocks ip)
  match ip with
  | some ip => (⟨db, s.lastRepUpdate⟩, [(ip, msgTypeUnblockIp)])
  | none => (⟨db, s.lastRepUpdate⟩, autoBlockedIps.map (·, msgTypeUnblockIp))

/-- A call: the new state, and the commands pushed to the agents. -/
def socStep (s : SocState Ip) : SocCall Ip → SocState Ip × List (Ip × UInt8)
  | .insertEvent event => (⟨s.db.execute (.insertEvent event), s.lastRepUpdate⟩, [])
  | .importIp feed ip => (⟨s.db.execute (.importIp feed ip), s.lastRepUpdate⟩, [])
  | .addBlocklist ip =>
      (⟨s.db.execute (.insertBlock ip), s.lastRepUpdate⟩, [(ip, msgTypeBlockIp)])
  | .removeBlocklist ip =>
      (⟨s.db.execute (.deleteBlock ip), s.lastRepUpdate⟩, [(ip, msgTypeUnblockIp)])
  | .clearReputation ip => clearReputation ip s
  | .checkNewEventsAndNotify now => checkNewEventsAndNotify now s

/-! ### The auto-block -/

theorem mem_ipsToBlock {db : Database Ip} {ip : Ip} :
    ip ∈ ipsToBlock db ↔ (∃ row, db.ipReputation.lookup ip = some row ∧ row.score ≤ 20) ∧
      ∀ row ∈ db.blocklist, row.ipCidr ≠ ip := by
  simp only [ipsToBlock, List.mem_map, List.mem_filter, decide_eq_true_eq]
  constructor
  · rintro ⟨⟨a, row⟩, ⟨hmem, hscore, hfree⟩, rfl⟩
    exact ⟨⟨row, AList.mem_lookup_iff.mpr hmem, hscore⟩, hfree⟩
  · rintro ⟨⟨row, hrow, hscore⟩, hfree⟩
    exact ⟨⟨ip, row⟩, ⟨AList.mem_lookup_iff.mp hrow, hscore, hfree⟩, rfl⟩

/-- A sync that is due blocks all addresses it finds, none or not. -/
theorem checkNewEventsAndNotify_due {now : Int} {s : SocState Ip}
    (h : 30000 < now - s.lastRepUpdate) :
    checkNewEventsAndNotify now s =
      (⟨(syncReputation s.db).execute .autoBlock, now⟩,
        (ipsToBlock (syncReputation s.db)).map (·, msgTypeBlockIp)) := by
  rw [checkNewEventsAndNotify, if_pos h]
  dsimp only [Database.execute]
  split
  · rename_i hnone
    rw [hnone, List.map_nil, List.map_nil, List.append_nil]
  · rfl

/-- The score of an address after the next sync: from its events, if there are
any, and what the feeds said. -/
def recomputedScore (db : Database Ip) (ip : Ip) : Option Int :=
  let calcScore := calcLocalScore db.events ip
  let hasEvents := ip ∈ db.events.map (·.srcIp)
  match db.ipReputation.lookup ip with
  | none => if hasEvents then some calcScore else none
  | some row => if hasEvents then some (min calcScore row.externalScore) else some row.score

theorem score_syncReputation (db : Database Ip) (ip : Ip) :
    ((syncReputation db).ipReputation.lookup ip).map RepRow.score = recomputedScore db ip := by
  rw [lookup_syncReputation, recomputedScore]
  cases db.ipReputation.lookup ip with
  | none => split <;> rfl
  | some row => split <;> rfl

/-- The call blocks the address again, unless it has a row. -/
def Reblocks (ip : Ip) (s : SocState Ip) (c : SocCall Ip) : Prop :=
  ∃ now score, c = .checkNewEventsAndNotify now ∧ 30000 < now - s.lastRepUpdate ∧
    recomputedScore s.db ip = some score ∧ score ≤ 20

/-- The call stores an event of the address, imports it or blocks it. -/
def SocCall.names (ip : Ip) : SocCall Ip → Bool
  | .insertEvent event => event.srcIp = ip
  | .importIp _ a => a = ip
  | .addBlocklist a => a = ip
  | _ => false

/-- No row of the blocklist is for the address. -/
def Unlisted (ip : Ip) (s : SocState Ip) : Prop := ∀ row ∈ s.db.blocklist, row.ipCidr ≠ ip

/-- The address is blocked by a call of the auto-block if the call finds it. -/
theorem mem_ipsToBlock_sync {s : SocState Ip} {ip : Ip} (h : Unlisted ip s) :
    ip ∈ ipsToBlock (syncReputation s.db) ↔
      ∃ score, recomputedScore s.db ip = some score ∧ score ≤ 20 := by
  rw [mem_ipsToBlock, ← score_syncReputation]
  constructor
  · rintro ⟨⟨row, hrow, hscore⟩, -⟩
    exact ⟨row.score, by rw [hrow]; rfl, hscore⟩
  · rintro ⟨score, hmap, hscore⟩
    obtain ⟨row, hrow, rfl⟩ := Option.map_eq_some_iff.mp hmap
    exact ⟨⟨row, hrow, hscore⟩, h⟩

omit [DecidableEq Ip] in
theorem block_mem_map {ip : Ip} {ips : List Ip} :
    (ip, msgTypeBlockIp) ∈ ips.map (·, msgTypeBlockIp) ↔ ip ∈ ips := by
  simp

omit [DecidableEq Ip] in
theorem block_not_mem_unblocks (ip : Ip) (ips : List Ip) :
    (ip, msgTypeBlockIp) ∉ ips.map (·, msgTypeUnblockIp) := by
  rw [List.mem_map]
  rintro ⟨a, -, h⟩
  exact absurd (Prod.mk.inj h).2 (by decide)

/-- Of the calls that do not name the address, only the auto-block blocks it. -/
theorem socStep_unlisted {s : SocState Ip} {ip : Ip} (h : Unlisted ip s) {c : SocCall Ip}
    (hc : c.names ip = false) (hblock : ¬ Reblocks ip s c) :
    Unlisted ip (socStep s c).1 ∧ (ip, msgTypeBlockIp) ∉ (socStep s c).2 := by
  cases c with
  | insertEvent event => exact ⟨h, List.not_mem_nil⟩
  | importIp feed a => exact ⟨h, List.not_mem_nil⟩
  | addBlocklist a =>
      have hne : a ≠ ip := of_decide_eq_false hc
      refine ⟨?_, ?_⟩
      · intro row hrow
        rcases List.mem_append.mp hrow with hrow | hrow
        · exact h row hrow
        · rw [List.mem_singleton.mp hrow]
          exact hne
      · simp [socStep, hne.symm]
  | removeBlocklist a =>
      refine ⟨fun row hrow => h row (List.mem_of_mem_filter hrow), ?_⟩
      exact block_not_mem_unblocks ip [a]
  | clearReputation a =>
      cases a with
      | none =>
          refine ⟨fun row hrow => h row (List.mem_of_mem_filter hrow), ?_⟩
          exact block_not_mem_unblocks ip _
      | some a =>
          refine ⟨fun row hrow => h row (List.mem_of_mem_filter hrow), ?_⟩
          exact block_not_mem_unblocks ip [a]
  | checkNewEventsAndNotify now =>
      by_cases hdue : 30000 < now - s.lastRepUpdate
      · -- a sync that is due: the address is not among those it blocks
        have hnot : ip ∉ ipsToBlock (syncReputation s.db) := by
          intro hmem
          obtain ⟨score, hscore, hle⟩ := (mem_ipsToBlock_sync h).mp hmem
          exact hblock ⟨now, score, rfl, hdue, hscore, hle⟩
        have hstep : socStep s (.checkNewEventsAndNotify now) = _ :=
          checkNewEventsAndNotify_due hdue
        rw [hstep]
        refine ⟨?_, fun hmem => hnot (block_mem_map.mp hmem)⟩
        intro row hrow
        rcases List.mem_append.mp hrow with hrow | hrow
        · exact h row hrow
        · obtain ⟨a, ha, rfl⟩ := List.mem_map.mp hrow
          rintro rfl
          exact hnot ha
      · have hstep : socStep s (.checkNewEventsAndNotify now) = (s, []) := if_neg hdue
        rw [hstep]
        exact ⟨h, List.not_mem_nil⟩

/-- When the auto-block finds an address without a row, it pushes the block. -/
theorem reblocks_pushes {s : SocState Ip} {ip : Ip} (h : Unlisted ip s) {c : SocCall Ip}
    (hblock : Reblocks ip s c) : (ip, msgTypeBlockIp) ∈ (socStep s c).2 := by
  obtain ⟨now, score, rfl, hdue, hscore⟩ := hblock
  have hstep : socStep s (.checkNewEventsAndNotify now) = _ := checkNewEventsAndNotify_due hdue
  rw [hstep]
  exact block_mem_map.mpr ((mem_ipsToBlock_sync h).mpr ⟨score, hscore⟩)

/-- From a state without a row for the address on. -/
theorem exec_unlisted {ip : Ip} {later : List (SocCall Ip)} {s : SocState Ip} (h : Unlisted ip s)
    (hlater : ∀ c ∈ later, c.names ip = false) :
    (Unlisted ip (exec socStep s later).1 ∧
        (ip, msgTypeBlockIp) ∉ (exec socStep s later).2.flatten) ↔
      Along socStep (fun s c => ¬ Reblocks ip s c) s later := by
  induction later generalizing s with
  | nil => exact iff_of_true ⟨h, List.not_mem_nil⟩ trivial
  | cons c later ih =>
      show (Unlisted ip (exec socStep (socStep s c).1 later).1 ∧
          (ip, msgTypeBlockIp) ∉
            (socStep s c).2 ++ (exec socStep (socStep s c).1 later).2.flatten) ↔
        ¬ Reblocks ip s c ∧ Along socStep _ (socStep s c).1 later
      by_cases hblock : Reblocks ip s c
      · -- the block is pushed here, whatever comes later
        have hpush := reblocks_pushes h hblock
        refine iff_of_false ?_ (fun hr => hr.1 hblock)
        rintro ⟨-, hnone⟩
        exact hnone (List.mem_append_left _ hpush)
      · obtain ⟨hnext, hquiet⟩ := socStep_unlisted h (hlater c List.mem_cons_self) hblock
        have hrest := ih hnext fun c hc => hlater c (List.mem_cons_of_mem _ hc)
        rw [List.mem_append, or_iff_right hquiet, and_iff_right hblock]
        exact hrest

/-- **Unblocking.**  After `removeBlocklist`, and as long as no call stores an
event of the address, imports it or blocks it, it has no row and no block is
pushed for it, exactly if no auto-block finds its recomputed score at 20 or
below. -/
theorem unblock_sticks_iff (s : SocState Ip) (ip : Ip) (later : List (SocCall Ip))
    (hlater : ∀ c ∈ later, c.names ip = false) :
    let removed := (socStep s (.removeBlocklist ip)).1
    ((∀ row ∈ (exec socStep removed later).1.db.blocklist, row.ipCidr ≠ ip) ∧
        (ip, msgTypeBlockIp) ∉ (exec socStep removed later).2.flatten) ↔
      Along socStep (fun s c => ¬ Reblocks ip s c) removed later := by
  refine exec_unlisted ?_ hlater
  intro row hrow
  exact of_decide_eq_true (List.mem_filter.mp hrow).2

/-- Nothing stored, no sync yet. -/
def SocState.empty : SocState Ip := ⟨⟨∅, [], []⟩, 0⟩

/-- An address with one warning stays unblocked. -/
theorem unblock_of_warning_sticks :
    let ip : BitVec 32 := 5
    let s := (exec socStep .empty [.insertEvent ⟨ip, 1⟩, .addBlocklist ip]).1
    let removed := (socStep s (.removeBlocklist ip)).1
    let later : List (SocCall (BitVec 32)) := [.checkNewEventsAndNotify 30001]
    (∀ c ∈ later, c.names ip = false) ∧
      (∀ row ∈ (exec socStep removed later).1.db.blocklist, row.ipCidr ≠ ip) := by
  intro ip s removed later
  have hlater : ∀ c ∈ later, c.names ip = false := by decide
  refine ⟨hlater, ((unblock_sticks_iff s ip later hlater).mpr ⟨?_, trivial⟩).1⟩
  rintro ⟨now, score, -, -, hscore, hle⟩
  have h85 : recomputedScore removed.db ip = some 85 := by decide
  obtain rfl : (85 : Int) = score := Option.some.inj (h85.symm.trans hscore)
  exact absurd hle (by decide)

/-- An address with four critical events is blocked again by the next
auto-block. -/
theorem unblock_undone :
    let ip : BitVec 32 := 5
    let s := (exec socStep .empty (List.replicate 4 (.insertEvent ⟨ip, 2⟩))).1
    let removed := (socStep s (.removeBlocklist ip)).1
    let later : List (SocCall (BitVec 32)) := [.checkNewEventsAndNotify 30001]
    (∀ c ∈ later, c.names ip = false) ∧
      ⟨ip, .system⟩ ∈ (exec socStep removed later).1.db.blocklist ∧
      (ip, msgTypeBlockIp) ∈ (exec socStep removed later).2.flatten := by
  decide

/-! ### Rows and commands -/

/-- The type of the last command about the address. -/
def lastSent (sent : List (Ip × UInt8)) (ip : Ip) : Option UInt8 :=
  (sent.reverse.find? (·.1 = ip)).map Prod.snd

/-- Every address with a row was last sent as BLOCK_IP. -/
def RowsBlocked (s : SocState Ip) (sent : List (Ip × UInt8)) : Prop :=
  ∀ row ∈ s.db.blocklist, lastSent sent row.ipCidr = some msgTypeBlockIp

/-- `clearReputation` leaves a manual row of an address it unblocks: of the one
it is called for, or, called for all, of one that has a row of the auto-block
too. -/
def Strands (s : SocState Ip) : SocCall Ip → Prop
  | .clearReputation (some ip) => ∃ row ∈ s.db.blocklist, row.ipCidr = ip ∧ row.source = .manual
  | .clearReputation none => ∃ row ∈ s.db.blocklist, row.source = .manual ∧
      ⟨row.ipCidr, .system⟩ ∈ s.db.blocklist
  | _ => False

theorem lastSent_concat (sent : List (Ip × UInt8)) (a ip : Ip) (type : UInt8) :
    lastSent (sent ++ [(a, type)]) ip = if ip = a then some type else lastSent sent ip := by
  rw [lastSent, List.reverse_concat, List.find?_cons]
  by_cases h : ip = a
  · simp [h]
  · simp [h, Ne.symm h, lastSent]

/-- One command for several addresses. -/
theorem lastSent_append (sent : List (Ip × UInt8)) (ips : List Ip) (ip : Ip) (type : UInt8) :
    lastSent (sent ++ ips.map (·, type)) ip
      = if ip ∈ ips then some type else lastSent sent ip := by
  induction ips using List.reverseRecOn with
  | nil => simp
  | append_singleton ips a ih =>
      rw [List.map_append, ← List.append_assoc, List.map_singleton, lastSent_concat, ih]
      by_cases h : ip = a
      · simp [h]
      · simp [h]

/-- Blocking the addresses of new rows, and others. -/
theorem RowsBlocked.block {s s' : SocState Ip} {sent : List (Ip × UInt8)} (h : RowsBlocked s sent)
    (ips : List Ip) (hrows : ∀ row ∈ s'.db.blocklist, row ∈ s.db.blocklist ∨ row.ipCidr ∈ ips) :
    RowsBlocked s' (sent ++ ips.map (·, msgTypeBlockIp)) := by
  intro row hrow
  rw [lastSent_append]
  split
  · rfl
  · rename_i hnot
    rcases hrows row hrow with hrow | hnew
    · exact h row hrow
    · exact absurd hnew hnot

/-- Unblocking addresses: no row of theirs may be left. -/
theorem RowsBlocked.unblock_iff {s : SocState Ip} {sent : List (Ip × UInt8)}
    (h : RowsBlocked s sent) (s' : SocState Ip) (ips : List Ip)
    (hrows : ∀ row ∈ s'.db.blocklist, row ∈ s.db.blocklist) :
    RowsBlocked s' (sent ++ ips.map (·, msgTypeUnblockIp)) ↔
      ∀ row ∈ s'.db.blocklist, row.ipCidr ∉ ips := by
  refine forall₂_congr fun row hrow => ?_
  rw [lastSent_append]
  split
  · rename_i hmem
    exact iff_of_false (by decide) (fun hnot => hnot hmem)
  · rename_i hnot
    exact iff_of_true (h row (hrows row hrow)) hnot

/-- The rows `clearReputation` leaves. -/
theorem mem_clearReputation {s : SocState Ip} {ip : Option Ip} {row : BlockRow Ip} :
    row ∈ (clearReputation ip s).1.db.blocklist ↔
      row ∈ s.db.blocklist ∧ (isAddress ip row.ipCidr = true → row.source = .manual) := by
  have hsame : (clearReputation ip s).1.db.blocklist = s.db.blocklist.filter fun row =>
      !(isAddress ip row.ipCidr && row.source = .system) := by
    cases ip <;> rfl
  rw [hsame, List.mem_filter]
  refine and_congr_right fun _ => ?_
  cases row.source <;> simp

/-- A call keeps the rows blocked unless it strands one. -/
theorem rowsBlocked_socStep {s : SocState Ip} {sent : List (Ip × UInt8)} (h : RowsBlocked s sent)
    (c : SocCall Ip) :
    RowsBlocked (socStep s c).1 (sent ++ (socStep s c).2) ↔ ¬ Strands s c := by
  cases c with
  | insertEvent event => exact iff_of_true (h.block [] fun row hrow => Or.inl hrow) id
  | importIp feed a => exact iff_of_true (h.block [] fun row hrow => Or.inl hrow) id
  | addBlocklist a =>
      refine iff_of_true (h.block [a] fun row hrow => ?_) id
      rcases List.mem_append.mp hrow with hrow | hrow
      · exact Or.inl hrow
      · exact Or.inr (by rw [List.mem_singleton.mp hrow]; exact List.mem_singleton_self a)
  | removeBlocklist a =>
      have hunblock := h.unblock_iff (socStep s (.removeBlocklist a)).1 [a]
        fun row hrow => List.mem_of_mem_filter hrow
      refine iff_of_true (hunblock.mpr fun row hrow => ?_) id
      have hne : row.ipCidr ≠ a := of_decide_eq_true (List.mem_filter.mp hrow).2
      exact fun hmem => hne (List.mem_singleton.mp hmem)
  | clearReputation a =>
      cases a with
      | none =>
          refine (h.unblock_iff (socStep s (.clearReputation none)).1 _
            fun row hrow => List.mem_of_mem_filter hrow).trans ?_
          constructor
          · -- the manual row is left, and its address is on the list for the other
            rintro hleft ⟨row, hrow, hmanual, hsystem⟩
            exact hleft row (mem_clearReputation.mpr ⟨hrow, fun _ => hmanual⟩)
              (List.mem_map.mpr ⟨_, List.mem_filter.mpr ⟨hsystem, rfl⟩, rfl⟩)
          · intro hnot row hrow hmem
            obtain ⟨hrow, hmanual⟩ := mem_clearReputation.mp hrow
            obtain ⟨row', hrow', hip⟩ := List.mem_map.mp hmem
            obtain ⟨hrow', hsystem⟩ := List.mem_filter.mp hrow'
            have hsystem : row'.source = .system := of_decide_eq_true hsystem
            refine hnot ⟨row, hrow, hmanual rfl, ?_⟩
            rw [← hip, ← hsystem]
            exact hrow'
      | some a =>
          refine (h.unblock_iff (socStep s (.clearReputation (some a))).1 [a]
            fun row hrow => List.mem_of_mem_filter hrow).trans ?_
          constructor
          · rintro hleft ⟨row, hrow, rfl, hmanual⟩
            exact hleft row (mem_clearReputation.mpr ⟨hrow, fun _ => hmanual⟩)
              (List.mem_singleton_self _)
          · intro hnot row hrow hmem
            obtain ⟨hrow, hmanual⟩ := mem_clearReputation.mp hrow
            have hip : row.ipCidr = a := List.mem_singleton.mp hmem
            exact hnot ⟨row, hrow, hip, hmanual (decide_eq_true hip)⟩
  | checkNewEventsAndNotify now =>
      by_cases hdue : 30000 < now - s.lastRepUpdate
      · have hstep : socStep s (.checkNewEventsAndNotify now) = _ :=
          checkNewEventsAndNotify_due hdue
        rw [hstep]
        refine iff_of_true (h.block _ fun row hrow => ?_) id
        rcases List.mem_append.mp hrow with hrow | hrow
        · exact Or.inl hrow
        · obtain ⟨b, hb, rfl⟩ := List.mem_map.mp hrow
          exact Or.inr hb
      · have hstep : socStep s (.checkNewEventsAndNotify now) = (s, []) := if_neg hdue
        rw [hstep]
        exact iff_of_true (h.block [] fun row hrow => Or.inl hrow) id

/-- From a state whose rows are blocked on: they are in all states of the run if
no call strands one. -/
theorem exec_rowsBlocked (calls : List (SocCall Ip)) {s : SocState Ip} {sent : List (Ip × UInt8)}
    (h : RowsBlocked s sent) :
    (∀ before, before <+: calls →
        RowsBlocked (exec socStep s before).1 (sent ++ (exec socStep s before).2.flatten)) ↔
      Along socStep (fun s c => ¬ Strands s c) s calls := by
  induction calls generalizing s sent with
  | nil =>
      refine iff_of_true (fun before hbefore => ?_) trivial
      rw [List.prefix_nil.mp hbefore]
      simpa using h
  | cons c calls ih =>
      have hstep := rowsBlocked_socStep h c
      constructor
      · -- the state after the first call is one of the run
        intro hall
        have hfirst : RowsBlocked (socStep s c).1 (sent ++ (socStep s c).2) := by
          simpa [exec] using hall [c] (List.prefix_append [c] calls)
        refine ⟨hstep.mp hfirst, (ih hfirst).mp fun before hbefore => ?_⟩
        rw [List.append_assoc]
        exact hall (c :: before) (List.cons_prefix_cons.mpr ⟨rfl, hbefore⟩)
      · rintro ⟨hc, halong⟩ before hbefore
        cases before with
        | nil => simpa using h
        | cons b before =>
            obtain ⟨rfl, hshorter⟩ := List.cons_prefix_cons.mp hbefore
            have hrest := (ih (hstep.mpr hc)).mpr halong before hshorter
            rw [List.append_assoc] at hrest
            exact hrest

/-- **Rows and commands.**  In a run from an empty blocklist, every address with
a row was last sent as BLOCK_IP in every state reached, exactly if no
`clearReputation` of the run leaves a manual row of an address it unblocks. -/
theorem rows_blocked_iff (ipReputation : AList fun _ : Ip => RepRow)
    (events : List (StoredEvent Ip)) (lastRepUpdate : Int) (calls : List (SocCall Ip)) :
    let start : SocState Ip := ⟨⟨ipReputation, events, []⟩, lastRepUpdate⟩
    (∀ before, before <+: calls → ∀ row ∈ (exec socStep start before).1.db.blocklist,
        lastSent (exec socStep start before).2.flatten row.ipCidr = some msgTypeBlockIp) ↔
      Along socStep (fun s c => ¬ Strands s c) start calls := by
  intro start
  have hstart : RowsBlocked start [] := fun row hrow => absurd hrow List.not_mem_nil
  exact exec_rowsBlocked calls hstart

/-- Clearing the reputation of an address that an operator blocked lifts the
block and leaves the row. -/
theorem clear_strands_manual_row :
    let ip : BitVec 32 := 5
    let run := exec socStep .empty [.addBlocklist ip, .clearReputation (some ip)]
    ⟨ip, .manual⟩ ∈ run.1.db.blocklist ∧ lastSent run.2.flatten ip = some msgTypeUnblockIp := by
  decide

end Nullsploit
