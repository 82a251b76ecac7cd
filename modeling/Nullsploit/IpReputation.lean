/-
Nullsploit/IpReputation.lean

The reputation table, `kernel/ip_reputation.c`: 1024 chained buckets of
per-address scores, changed by four calls.

The abstract reading is a total map from addresses to scores in which an
address without an entry has the perfect score 100.  The table refines it:
`reputation_refines_scores` follows any sequence of calls from the empty
table.  Two things make it work.  The chains stay placed (`TableOk.placed`),
so a lookup sees the one entry an address can have; and an entry that sits in
the table with score 100 (which a reset leaves behind) reads like no entry at
all, because the score is read through `scoreOf`.

Scores are `int`s.  Signed overflow is undefined in C, so the model computes
in `Int`; every call that does not overflow is covered.
-/
import Mathlib.Algebra.BigOperators.Group.Multiset.Basic
import Nullsploit.ChainTable
import Nullsploit.FwInspect
import Nullsploit.Runs

namespace Nullsploit

open ChainTable Runs

/-! ### The table -/

/-- `HASH_SIZE`. -/
def hashSize : Nat := 1024

/-- `struct reputation_entry`; the `next` pointer is the list the entry is in. -/
structure ReputationEntry where
  ip : BitVec 32
  score : Int
  lastSeen : Nat
  attackTypesMask : BitVec 32
  deriving DecidableEq, Repr

/-- `reputation_table`. -/
abbrev ReputationTable := Table ReputationEntry hashSize

/-- `hash_ip`. -/
def hashIp (ip : BitVec 32) : Fin hashSize :=
  let hash := ip
  let hash := (hash + 0x7ed55d16#32) + (hash <<< 12)
  let hash := (hash ^^^ 0xc761c23c#32) ^^^ (hash >>> 19)
  let hash := (hash + 0x165667b1#32) + (hash <<< 5)
  let hash := (hash + 0xd3a2646c#32) ^^^ (hash <<< 9)
  let hash := (hash + 0xfd7046c5#32) + (hash <<< 3)
  let hash := (hash ^^^ 0xb55a4f09#32) ^^^ (hash >>> 16)
  ⟨hash.toNat % hashSize, Nat.mod_lt _ (by decide)⟩

/-- `init_ip_reputation`. -/
def initIpReputation : ReputationTable := fun _ => []

/-- `get_ip_reputation`: unknown addresses have perfect reputation. -/
def getIpReputation (t : ReputationTable) (ip : BitVec 32) : Int :=
  match (t (hashIp ip)).find? fun e => decide (e.ip = ip) with
  | some e => e.score
  | none => 100

/-- The two range checks of `update_ip_reputation`, in source order. -/
def clampScore (score : Int) : Int :=
  let score := if score > 100 then 100 else score
  if score < 0 then 0 else score

/-- An existing entry taking damage. -/
def ReputationEntry.hit (e : ReputationEntry) (damage : Int) (threatType now : Nat) :
    ReputationEntry :=
  { e with
    score := clampScore (e.score - damage)
    lastSeen := now
    attackTypesMask := e.attackTypesMask ||| (1#32 <<< threatType) }

/-- A new entry: start at 100 and apply the damage. -/
def ReputationEntry.fresh (ip : BitVec 32) (damage : Int) (threatType now : Nat) :
    ReputationEntry where
  ip := ip
  score := clampScore (100 - damage)
  lastSeen := now
  attackTypesMask := 1#32 <<< threatType

/-- The search loop of `update_ip_reputation`: the chain with the first entry
of `ip` changed and the score returned, or `none` past the end. -/
def updateLoop (ip : BitVec 32) (damage : Int) (threatType now : Nat) :
    List ReputationEntry → Option (List ReputationEntry × Int)
  | [] => none
  | e :: rest =>
      if e.ip = ip then
        some (e.hit damage threatType now :: rest, (e.hit damage threatType now).score)
      else
        (updateLoop ip damage threatType now rest).map fun r => (e :: r.1, r.2)

/-- `update_ip_reputation` at time `now`. -/
def updateIpReputation (t : ReputationTable) (ip : BitVec 32) (damage : Int)
    (threatType now : Nat) : ReputationTable × Int :=
  let bucket := hashIp ip
  match updateLoop ip damage threatType now (t bucket) with
  | some (chain, score) => (Function.update t bucket chain, score)
  | none =>
      let newEntry := ReputationEntry.fresh ip damage threatType now
      (Function.update t bucket (newEntry :: t bucket), newEntry.score)

/-- The loop of `decay_reputation_scores` over one chain.  `kept` holds the
entries already passed, the nearest first: its head is `prev`.  A recovered
entry is unlinked by joining `prev` to its successor. -/
def decayLoop (recovery : Int) :
    List ReputationEntry → List ReputationEntry → List ReputationEntry
  | kept, [] => kept.reverse
  | kept, e :: rest =>
      let e' := { e with score := e.score + recovery }
      if e'.score ≥ 100 then decayLoop recovery kept rest
      else decayLoop recovery (e' :: kept) rest

/-- `decay_reputation_scores`. -/
def decayReputationScores (t : ReputationTable) (recovery : Int) : ReputationTable :=
  fun i => decayLoop recovery [] (t i)

/-- The body of `sync_reputation_with_blocklist` for one entry. -/
def syncEntry (payload : BlocklistPayload) (e : ReputationEntry) : ReputationEntry :=
  if e.score ≤ 20 then
    let found := (List.range payload.count).any fun j => decide ((payload.entries j).ip = e.ip)
    if found then e else { e with score := 100 }
  else e

/-- `sync_reputation_with_blocklist`. -/
def syncReputationWithBlocklist (t : ReputationTable) (payload : BlocklistPayload) :
    ReputationTable :=
  fun i => (t i).map (syncEntry payload)

/-! ### What a lookup sees -/

/-- The score an entry, or its absence, stands for. -/
def scoreOf (e : Option ReputationEntry) : Int := (e.map ReputationEntry.score).getD 100

theorem getIpReputation_eq (t : ReputationTable) (ip : BitVec 32) :
    getIpReputation t ip = scoreOf (find ReputationEntry.ip hashIp t ip) := by
  rcases e : find ReputationEntry.ip hashIp t ip with - | x <;>
    simp only [find] at e <;> simp [getIpReputation, e, scoreOf]

theorem clampScore_mem (x : Int) : 0 ≤ clampScore x ∧ clampScore x ≤ 100 := by
  unfold clampScore
  dsimp only
  split <;> split <;> omega

theorem clampScore_eq (x : Int) : clampScore x = max 0 (min 100 x) := by
  unfold clampScore
  dsimp only
  split <;> split <;> omega

/-- The search loop fails exactly when the chain has no entry of `ip`. -/
theorem updateLoop_eq_none {ip : BitVec 32} {damage : Int} {threatType now : Nat}
    {l : List ReputationEntry} (h : updateLoop ip damage threatType now l = none) :
    l.find? (fun e => decide (e.ip = ip)) = none := by
  induction l with
  | nil => rfl
  | cons e l ih =>
      by_cases he : e.ip = ip
      · simp [updateLoop, he] at h
      · simp only [updateLoop, he, if_false, Option.map_eq_none_iff] at h
        rw [List.find?_cons_of_neg (by simpa using he)]
        exact ih h

/-- Everything a successful search does to a chain. -/
structure UpdatedChain (ip : BitVec 32) (damage : Int) (threatType now : Nat)
    (l l' : List ReputationEntry) (score : Int) : Prop where
  keys : l'.map ReputationEntry.ip = l.map ReputationEntry.ip
  hit : ∃ e, l.find? (fun e => decide (e.ip = ip)) = some e ∧
    l'.find? (fun e => decide (e.ip = ip)) = some (e.hit damage threatType now) ∧
    score = (e.hit damage threatType now).score
  other : ∀ k, k ≠ ip → l'.find? (fun e => decide (e.ip = k)) = l.find? fun e => decide (e.ip = k)
  mem : ∀ x ∈ l', x ∈ l ∨ ∃ e, x = ReputationEntry.hit e damage threatType now

/-- The first entry is the one searched for. -/
theorem updatedChain_head {ip : BitVec 32} {e : ReputationEntry} (he : e.ip = ip) (damage : Int)
    (threatType now : Nat) (l : List ReputationEntry) :
    UpdatedChain ip damage threatType now (e :: l) (e.hit damage threatType now :: l)
      (e.hit damage threatType now).score := by
  have hip : (e.hit damage threatType now).ip = ip := he
  refine ⟨by simp [hip, he], ⟨e, by simp [he], by simp [hip], rfl⟩, ?_, ?_⟩
  · intro k hk
    have hne : ¬ e.ip = k := fun hek => hk (hek ▸ he)
    have hne' : ¬ (e.hit damage threatType now).ip = k := hne
    rw [List.find?_cons_of_neg (by simpa using hne'), List.find?_cons_of_neg (by simpa using hne)]
  · intro x hx
    rcases List.mem_cons.mp hx with rfl | hx
    · exact Or.inr ⟨e, rfl⟩
    · exact Or.inl (List.mem_cons_of_mem _ hx)

/-- The entry searched for is further down the chain. -/
theorem UpdatedChain.cons {ip : BitVec 32} {damage : Int} {threatType now : Nat}
    {l l' : List ReputationEntry} {score : Int} {e : ReputationEntry} (he : e.ip ≠ ip)
    (h : UpdatedChain ip damage threatType now l l' score) :
    UpdatedChain ip damage threatType now (e :: l) (e :: l') score := by
  obtain ⟨x, hx, hx', hscore⟩ := h.hit
  refine ⟨by simp [h.keys], ⟨x, ?_, ?_, hscore⟩, ?_, ?_⟩
  · rw [List.find?_cons_of_neg (by simpa using he), hx]
  · rw [List.find?_cons_of_neg (by simpa using he), hx']
  · intro k hk
    by_cases hek : e.ip = k
    · rw [List.find?_cons_of_pos (by simpa using hek), List.find?_cons_of_pos (by simpa using hek)]
    · rw [List.find?_cons_of_neg (by simpa using hek), List.find?_cons_of_neg (by simpa using hek),
        h.other k hk]
  · intro y hy
    rcases List.mem_cons.mp hy with rfl | hy
    · exact Or.inl List.mem_cons_self
    · rcases h.mem y hy with hy | hy
      · exact Or.inl (List.mem_cons_of_mem _ hy)
      · exact Or.inr hy

theorem updateLoop_eq_some {ip : BitVec 32} {damage : Int} {threatType now : Nat}
    {l l' : List ReputationEntry} {score : Int}
    (h : updateLoop ip damage threatType now l = some (l', score)) :
    UpdatedChain ip damage threatType now l l' score := by
  induction l generalizing l' with
  | nil => simp [updateLoop] at h
  | cons e l ih =>
      by_cases he : e.ip = ip
      · simp only [updateLoop, he, if_true, Option.some.injEq, Prod.mk.injEq] at h
        obtain ⟨rfl, rfl⟩ := h
        exact updatedChain_head he damage threatType now l
      · simp only [updateLoop, he, if_false] at h
        obtain ⟨⟨r, s⟩, hr, hrs⟩ := Option.map_eq_some_iff.mp h
        obtain ⟨rfl, rfl⟩ := Prod.mk.inj hrs
        exact (ih hr).cons he

/-- A new chain in the bucket of `ip` does not matter to a search for `k` that
comes to the same in it. -/
theorem getIpReputation_update_chain {t : ReputationTable} {ip k : BitVec 32}
    {chain : List ReputationEntry}
    (hfind : (chain.find? fun e => decide (e.ip = k))
      = ((t (hashIp ip)).find? fun e => decide (e.ip = k))) :
    getIpReputation (Function.update t (hashIp ip) chain) k = getIpReputation t k := by
  rw [getIpReputation_eq, find_update, getIpReputation_eq]
  by_cases hh : hashIp k = hashIp ip
  · rw [if_pos hh, hfind, find, hh]
  · rw [if_neg hh]

/-- Other addresses keep their score, in any table. -/
theorem getIpReputation_updateIpReputation_of_ne (t : ReputationTable) {ip k : BitVec 32}
    (hk : k ≠ ip) (damage : Int) (threatType now : Nat) :
    getIpReputation (updateIpReputation t ip damage threatType now).1 k = getIpReputation t k := by
  unfold updateIpReputation
  dsimp only
  rcases hloop : updateLoop ip damage threatType now (t (hashIp ip)) with - | ⟨chain, score⟩
  · refine getIpReputation_update_chain (List.find?_cons_of_neg ?_)
    have hne : (ReputationEntry.fresh ip damage threatType now).ip ≠ k := Ne.symm hk
    simpa using hne
  · exact getIpReputation_update_chain ((updateLoop_eq_some hloop).other k hk)

/-- The address has an entry that a finding would leave as it is: no score left
to lose, the same second, the same kind of attack. -/
def AlreadyHit (t : ReputationTable) (ip : BitVec 32) (damage : Int) (threatType now : Nat) : Prop :=
  ∃ e, (t (hashIp ip)).find? (fun e => decide (e.ip = ip)) = some e ∧
    e.hit damage threatType now = e

theorem updateLoop_eq_iff {ip : BitVec 32} {damage : Int} {threatType now : Nat}
    {l l' : List ReputationEntry} {score : Int}
    (h : updateLoop ip damage threatType now l = some (l', score)) :
    l' = l ↔ ∃ e, l.find? (fun e => decide (e.ip = ip)) = some e ∧ e.hit damage threatType now = e := by
  induction l generalizing l' with
  | nil => simp [updateLoop] at h
  | cons e l ih =>
      by_cases he : e.ip = ip
      · simp only [updateLoop, he, if_true, Option.some.injEq, Prod.mk.injEq] at h
        obtain ⟨rfl, rfl⟩ := h
        rw [List.find?_cons_of_pos (by simpa using he)]
        simp
      · simp only [updateLoop, he, if_false] at h
        obtain ⟨⟨r, s⟩, hr, hrs⟩ := Option.map_eq_some_iff.mp h
        obtain ⟨rfl, rfl⟩ := Prod.mk.inj hrs
        rw [List.find?_cons_of_neg (by simpa using he), ← ih hr]
        simp

/-- A finding leaves the table as it was exactly if it was recorded already. -/
theorem updateIpReputation_eq_iff (t : ReputationTable) (ip : BitVec 32) (damage : Int)
    (threatType now : Nat) :
    (updateIpReputation t ip damage threatType now).1 = t ↔ AlreadyHit t ip damage threatType now := by
  unfold updateIpReputation AlreadyHit
  dsimp only
  rcases hloop : updateLoop ip damage threatType now (t (hashIp ip)) with - | ⟨chain, score⟩
  · dsimp only
    rw [Function.update_eq_self_iff, updateLoop_eq_none hloop]
    simp
  · dsimp only
    rw [Function.update_eq_self_iff, updateLoop_eq_iff hloop]

/-- The effect of `decay_reputation_scores` on one entry. -/
def decayEntry (recovery : Int) (e : ReputationEntry) : Option ReputationEntry :=
  if e.score + recovery ≥ 100 then none else some { e with score := e.score + recovery }

/-- Unlinking during the traversal is filtering: whatever has been kept, the
loop only decides about the rest. -/
theorem decayLoop_eq (recovery : Int) (kept l : List ReputationEntry) :
    decayLoop recovery kept l = kept.reverse ++ l.filterMap (decayEntry recovery) := by
  induction l generalizing kept with
  | nil => simp [decayLoop]
  | cons e l ih =>
      by_cases h : e.score + recovery ≥ 100
      · rw [List.filterMap_cons_none (by simp [decayEntry, h])]
        simp [decayLoop, h, ih]
      · rw [List.filterMap_cons_some (by rw [decayEntry, if_neg h])]
        simp [decayLoop, h, ih]

theorem syncEntry_eq (payload : BlocklistPayload) (e : ReputationEntry) :
    syncEntry payload e
      = if e.score ≤ 20 ∧ ∀ b ∈ payload.listed, b.ip ≠ e.ip then { e with score := 100 } else e := by
  have hfound : (List.range payload.count).any (fun j => decide ((payload.entries j).ip = e.ip)) = true
      ↔ ¬ ∀ b ∈ payload.listed, b.ip ≠ e.ip := by
    simp [BlocklistPayload.listed]
  unfold syncEntry
  by_cases hs : e.score ≤ 20
  · by_cases hf : ∀ b ∈ payload.listed, b.ip ≠ e.ip
    · have hboth : e.score ≤ 20 ∧ ∀ b ∈ payload.listed, b.ip ≠ e.ip := ⟨hs, hf⟩
      rw [if_pos hboth, if_pos hs]
      exact if_neg fun h => hfound.mp h hf
    · have hnot : ¬ (e.score ≤ 20 ∧ ∀ b ∈ payload.listed, b.ip ≠ e.ip) := fun h => hf h.2
      rw [if_neg hnot, if_pos hs]
      exact if_pos (hfound.mpr hf)
  · have hnot : ¬ (e.score ≤ 20 ∧ ∀ b ∈ payload.listed, b.ip ≠ e.ip) := fun h => hs h.1
    rw [if_neg hnot, if_neg hs]

/-! ### The invariant -/

/-- A reachable table: placed chains, scores between 0 and 100. -/
structure TableOk (t : ReputationTable) : Prop where
  placed : Placed ReputationEntry.ip hashIp t
  score : ∀ i, ∀ e ∈ t i, 0 ≤ e.score ∧ e.score ≤ 100

theorem tableOk_init : TableOk initIpReputation :=
  ⟨placed_empty, by simp [initIpReputation]⟩

theorem TableOk.getIpReputation_mem {t : ReputationTable} (h : TableOk t) (ip : BitVec 32) :
    0 ≤ getIpReputation t ip ∧ getIpReputation t ip ≤ 100 := by
  rw [getIpReputation_eq]
  rcases hfind : find ReputationEntry.ip hashIp t ip with - | e
  · simp [scoreOf]
  · exact h.score _ e (find_some hfind).1

/-- One chain replaced by one with scores in the range. -/
theorem TableOk.score_update {t : ReputationTable} (h : TableOk t) {i : Fin hashSize}
    {chain : List ReputationEntry} (hchain : ∀ e ∈ chain, 0 ≤ e.score ∧ e.score ≤ 100) :
    ∀ j, ∀ e ∈ Function.update t i chain j, 0 ≤ e.score ∧ e.score ≤ 100 := by
  intro j e he
  rcases eq_or_ne j i with rfl | hj
  · rw [Function.update_self] at he
    exact hchain e he
  · rw [Function.update_of_ne hj] at he
    exact h.score j e he

/-- A new address at the head of its chain. -/
theorem TableOk.insert {t : ReputationTable} (h : TableOk t) {e : ReputationEntry}
    (hnew : find ReputationEntry.ip hashIp t e.ip = none) (hscore : 0 ≤ e.score ∧ e.score ≤ 100) :
    TableOk (Function.update t (hashIp e.ip) (e :: t (hashIp e.ip))) ∧
      ∀ k, getIpReputation (Function.update t (hashIp e.ip) (e :: t (hashIp e.ip))) k
        = if k = e.ip then e.score else getIpReputation t k := by
  refine ⟨⟨h.placed.insert hnew, h.score_update ?_⟩, ?_⟩
  · intro x hx
    rcases List.mem_cons.mp hx with rfl | hx
    · exact hscore
    · exact h.score _ x hx
  · intro k
    rw [getIpReputation_eq, find_insert, getIpReputation_eq]
    by_cases hk : k = e.ip
    · rw [if_pos hk, if_pos hk]; rfl
    · rw [if_neg hk, if_neg hk]

/-- The chain of an address, rewritten by a successful search. -/
theorem TableOk.rewrite {t : ReputationTable} (h : TableOk t) {ip : BitVec 32} {damage : Int}
    {threatType now : Nat} {chain : List ReputationEntry} {score : Int}
    (hchain : UpdatedChain ip damage threatType now (t (hashIp ip)) chain score) :
    TableOk (Function.update t (hashIp ip) chain) ∧
      ∀ k, getIpReputation (Function.update t (hashIp ip) chain) k
        = if k = ip then score else getIpReputation t k := by
  obtain ⟨e, -, hnew, rfl⟩ := hchain.hit
  refine ⟨⟨h.placed.of_sublist ?_, h.score_update ?_⟩, ?_⟩
  · -- the same keys in the same places
    intro i
    by_cases hi : i = hashIp ip
    · subst hi
      rw [Function.update_self, hchain.keys]
    · rw [Function.update_of_ne hi]
  · intro x hx
    rcases hchain.mem x hx with hx | ⟨y, rfl⟩
    · exact h.score _ x hx
    · exact clampScore_mem _
  · intro k
    by_cases hk : k = ip
    · subst hk
      rw [getIpReputation_eq, find_update, if_pos rfl, if_pos rfl, hnew]
      rfl
    · rw [if_neg hk]
      exact getIpReputation_update_chain (hchain.other k hk)

/-- `update_ip_reputation` keeps the table in order, returns the clamped
score and changes no other address. -/
theorem TableOk.update {t : ReputationTable} (h : TableOk t) (ip : BitVec 32) (damage : Int)
    (threatType now : Nat) :
    TableOk (updateIpReputation t ip damage threatType now).1 ∧
      (updateIpReputation t ip damage threatType now).2
        = clampScore (getIpReputation t ip - damage) ∧
      ∀ k, getIpReputation (updateIpReputation t ip damage threatType now).1 k
        = if k = ip then clampScore (getIpReputation t ip - damage) else getIpReputation t k := by
  rcases hloop : updateLoop ip damage threatType now (t (hashIp ip)) with - | ⟨chain, score⟩
  · -- no entry yet: the address has score 100
    have hnone : find ReputationEntry.ip hashIp t ip = none := updateLoop_eq_none hloop
    have hget : getIpReputation t ip = 100 := by rw [getIpReputation_eq, hnone]; rfl
    have hupd : updateIpReputation t ip damage threatType now
        = (Function.update t (hashIp ip)
            (ReputationEntry.fresh ip damage threatType now :: t (hashIp ip)),
          clampScore (100 - damage)) := by
      simp [updateIpReputation, hloop, ReputationEntry.fresh]
    obtain ⟨hok, hall⟩ := h.insert (e := ReputationEntry.fresh ip damage threatType now) hnone
      (clampScore_mem _)
    rw [hupd, hget]
    exact ⟨hok, rfl, hall⟩
  · -- the entry is changed in place
    have hchain := updateLoop_eq_some hloop
    obtain ⟨e, hold, -, hscore⟩ := hchain.hit
    have hget : getIpReputation t ip = e.score := by
      rw [getIpReputation_eq, find, hold]; rfl
    have hupd : updateIpReputation t ip damage threatType now
        = (Function.update t (hashIp ip) chain, score) := by
      simp [updateIpReputation, hloop]
    have hret : score = clampScore (getIpReputation t ip - damage) := by rw [hget]; exact hscore
    obtain ⟨hok, hall⟩ := h.rewrite hchain
    rw [hupd, ← hret]
    exact ⟨hok, rfl, hall⟩

/-- `decay_reputation_scores` raises every score, up to 100. -/
theorem TableOk.decay {t : ReputationTable} (h : TableOk t) {recovery : Int}
    (hr : 0 ≤ recovery) :
    TableOk (decayReputationScores t recovery) ∧
      ∀ k, getIpReputation (decayReputationScores t recovery) k
        = min 100 (getIpReputation t k + recovery) := by
  have hsweep : decayReputationScores t recovery
      = fun i => (t i).filterMap (decayEntry recovery) := by
    funext i
    simp [decayReputationScores, decayLoop_eq]
  have hkey : ∀ e e', decayEntry recovery e = some e' → e'.ip = e.ip := by
    intro e e' he
    unfold decayEntry at he
    split at he <;> [cases he; skip]
    obtain rfl := Option.some.inj he
    rfl
  rw [hsweep]
  refine ⟨⟨h.placed.sweep hkey, ?_⟩, ?_⟩
  · -- what is kept is below 100
    intro i x hx
    obtain ⟨e, he, hdec⟩ := List.mem_filterMap.mp hx
    have hscore := h.score i e he
    unfold decayEntry at hdec
    split at hdec <;> [cases hdec; skip]
    obtain rfl := Option.some.inj hdec
    dsimp only
    omega
  · intro k
    rw [getIpReputation_eq, h.placed.find_sweep hkey, getIpReputation_eq]
    -- an entry that is unlinked and one that never was both read as 100
    rcases find ReputationEntry.ip hashIp t k with - | e
    · simp only [Option.bind_none, scoreOf, Option.map_none, Option.getD_none]
      omega
    · simp only [Option.bind_some, decayEntry]
      split <;> simp only [scoreOf, Option.map_some, Option.map_none, Option.getD_some,
        Option.getD_none] <;> omega

/-- `sync_reputation_with_blocklist` forgives exactly the low scores of
addresses that are no entry's address. -/
theorem TableOk.sync {t : ReputationTable} (h : TableOk t) (payload : BlocklistPayload) :
    TableOk (syncReputationWithBlocklist t payload) ∧
      ∀ k, getIpReputation (syncReputationWithBlocklist t payload) k
        = if getIpReputation t k ≤ 20 ∧ ∀ b ∈ payload.listed, b.ip ≠ k then 100
          else getIpReputation t k := by
  -- no entry leaves the table: scores change in place
  have hsweep : syncReputationWithBlocklist t payload
      = fun i => (t i).filterMap fun e => some (syncEntry payload e) := by
    funext i
    simp [syncReputationWithBlocklist]
  have hip : ∀ e, (syncEntry payload e).ip = e.ip := by
    intro e
    rw [syncEntry_eq]
    split <;> rfl
  have hkey : ∀ e e', some (syncEntry payload e) = some e' → e'.ip = e.ip := by
    intro e e' he
    rw [← Option.some.inj he]
    exact hip e
  rw [hsweep]
  refine ⟨⟨h.placed.sweep hkey, ?_⟩, ?_⟩
  · intro i x hx
    obtain ⟨e, he, rfl⟩ : ∃ e ∈ t i, syncEntry payload e = x := by simpa using hx
    have hscore := h.score i e he
    rw [syncEntry_eq]
    split
    · dsimp only
      omega
    · exact hscore
  · intro k
    rw [getIpReputation_eq, h.placed.find_sweep hkey, getIpReputation_eq]
    rcases hfind : find ReputationEntry.ip hashIp t k with - | e
    · -- a missing entry counts as 100, which is not low
      simp [scoreOf]
    · obtain rfl : e.ip = k := (find_some hfind).2
      show (syncEntry payload e).score
        = if e.score ≤ 20 ∧ ∀ b ∈ payload.listed, b.ip ≠ e.ip then 100 else e.score
      rw [syncEntry_eq]
      by_cases hc : e.score ≤ 20 ∧ ∀ b ∈ payload.listed, b.ip ≠ e.ip
      · rw [if_pos hc, if_pos hc]
      · rw [if_neg hc, if_neg hc]

/-! ### Refinement -/

/-- One call of the module, with what it reads. -/
inductive ReputationCall
  | update (ip : BitVec 32) (damage : Int) (threatType now : Nat)
  | get (ip : BitVec 32)
  | decay (recovery : Int)
  | sync (payload : BlocklistPayload)

/-- The precondition of a call: recovery amounts are not negative. -/
def ReputationCall.Allowed : ReputationCall → Prop
  | .decay recovery => 0 ≤ recovery
  | _ => True

/-- A call on the table, with the value it returns. -/
def reputationStep (t : ReputationTable) : ReputationCall → ReputationTable × Option Int
  | .update ip damage threatType now =>
      let r := updateIpReputation t ip damage threatType now
      (r.1, some r.2)
  | .get ip => (t, some (getIpReputation t ip))
  | .decay recovery => (decayReputationScores t recovery, none)
  | .sync payload => (syncReputationWithBlocklist t payload, none)

/-- The abstract reputation: a score for every address. -/
abbrev Scores := BitVec 32 → Int

/-- A call on the abstract reputation. -/
def Scores.step (R : Scores) : ReputationCall → Scores × Option Int
  | .update ip damage _ _ =>
      (Function.update R ip (max 0 (min 100 (R ip - damage))),
        some (max 0 (min 100 (R ip - damage))))
  | .get ip => (R, some (R ip))
  | .decay recovery => (fun ip => min 100 (R ip + recovery), none)
  | .sync payload =>
      (fun ip => if R ip ≤ 20 ∧ ∀ b ∈ payload.listed, b.ip ≠ ip then 100 else R ip, none)

/-- The table represents the scores its lookups return. -/
structure Represents (t : ReputationTable) (R : Scores) : Prop where
  ok : TableOk t
  get : ∀ ip, getIpReputation t ip = R ip

theorem Represents.step {t : ReputationTable} {R : Scores} (h : Represents t R)
    (c : ReputationCall) (hc : c.Allowed) :
    Represents (reputationStep t c).1 (R.step c).1 ∧ (reputationStep t c).2 = (R.step c).2 := by
  cases c with
  | update ip damage threatType now =>
      obtain ⟨hok, hret, hget⟩ := h.ok.update ip damage threatType now
      rw [h.get ip, clampScore_eq] at hret
      refine ⟨⟨hok, fun k => ?_⟩, congrArg some hret⟩
      rw [reputationStep, hget k, h.get, h.get, clampScore_eq]
      exact (Function.update_apply ..).symm
  | get ip => exact ⟨h, congrArg some (h.get ip)⟩
  | decay recovery =>
      obtain ⟨hok, hget⟩ := h.ok.decay hc
      exact ⟨⟨hok, fun k => by rw [reputationStep, hget k, h.get, Scores.step]⟩, rfl⟩
  | sync payload =>
      obtain ⟨hok, hget⟩ := h.ok.sync payload
      exact ⟨⟨hok, fun k => by rw [reputationStep, hget k, h.get, Scores.step]⟩, rfl⟩

/-- **The table refines a total map.**  After any sequence of calls from the
empty table, an address occurs at most once and only in its own bucket,
stored scores lie in 0..100, and every lookup and every returned value is
that of the abstract scores, which start at 100 everywhere. -/
theorem reputation_refines_scores (calls : List ReputationCall)
    (hcalls : ∀ c ∈ calls, c.Allowed) :
    let t := (exec reputationStep initIpReputation calls).1
    let R := (exec Scores.step (fun _ => 100) calls).1
    ((entries t).map ReputationEntry.ip).Nodup ∧
      (∀ i, ∀ e ∈ t i, hashIp e.ip = i) ∧
      (∀ i, ∀ e ∈ t i, 0 ≤ e.score ∧ e.score ≤ 100) ∧
      (∀ ip, getIpReputation t ip = R ip) ∧
      (exec reputationStep initIpReputation calls).2 = (exec Scores.step (fun _ => 100) calls).2 := by
  have hinit : Represents initIpReputation (fun _ => 100) :=
    ⟨tableOk_init, fun _ => rfl⟩
  obtain ⟨hrep, hout⟩ := exec_simulates ReputationCall.Allowed Represents
    (fun _ _ c hc h => h.step c hc) hcalls hinit
  exact ⟨hrep.ok.placed.nodup_entries, hrep.ok.placed.home, hrep.ok.score, hrep.get, hout⟩

/-- The run of the module's own test: 100 - 30 - 60 + 20 = 30. -/
theorem reputation_refines_scores_testRun :
    let ip := 0x0c6433c6#32
    let calls := [.update ip 30 6 0, .update ip 60 7 0, .decay 20, .get ip]
    (∀ c ∈ calls, ReputationCall.Allowed c) ∧
      (exec reputationStep initIpReputation calls).2 = [some 70, some 10, none, some 30] := by
  intro ip calls
  have hcalls : ∀ c ∈ calls, ReputationCall.Allowed c := by
    simp [calls, ReputationCall.Allowed]
  exact ⟨hcalls, (reputation_refines_scores calls hcalls).2.2.2.2.trans (by decide)⟩

/-! ### The order of attacks -/

/-- The arguments of one call of `update_ip_reputation`. -/
structure Attack where
  ip : BitVec 32
  damage : Int
  threatType : Nat
  now : Nat

/-- The call that records the attack. -/
def Attack.call (a : Attack) : ReputationCall := .update a.ip a.damage a.threatType a.now

/-- All the damage the attacks do to one address. -/
def damageTo (attacks : Multiset Attack) (ip : BitVec 32) : Int :=
  ((attacks.filter fun a => a.ip = ip).map Attack.damage).sum

theorem damageTo_cons (a : Attack) (attacks : Multiset Attack) (ip : BitVec 32) :
    damageTo (a ::ₘ attacks) ip
      = (if a.ip = ip then a.damage else 0) + damageTo attacks ip := by
  by_cases h : a.ip = ip
  · simp [damageTo, h]
  · simp [damageTo, h]

theorem damageTo_nonneg {attacks : Multiset Attack} (h : ∀ a ∈ attacks, 0 ≤ a.damage)
    (ip : BitVec 32) : 0 ≤ damageTo attacks ip := by
  induction attacks using Multiset.induction_on with
  | empty => exact le_refl 0
  | cons a attacks ih =>
      have ha := h a (Multiset.mem_cons_self a attacks)
      have hrest := ih fun b hb => h b (Multiset.mem_cons_of_mem hb)
      rw [damageTo_cons]
      split <;> omega

/-- Attacks from any table in order: each address loses what is done to it, and
the lower clamp may as well be taken once, at the end. -/
theorem TableOk.attacks {t : ReputationTable} (h : TableOk t) (order : List Attack)
    (hdamage : ∀ a ∈ order, 0 ≤ a.damage) (ip : BitVec 32) :
    getIpReputation (exec reputationStep t (order.map Attack.call)).1 ip
      = max 0 (getIpReputation t ip - damageTo order ip) := by
  induction order generalizing t with
  | nil =>
      have hrange := h.getIpReputation_mem ip
      show getIpReputation t ip = max 0 (getIpReputation t ip - 0)
      omega
  | cons a order ih =>
      obtain ⟨hok, -, hget⟩ := h.update a.ip a.damage a.threatType a.now
      have hrange := h.getIpReputation_mem ip
      have ha := hdamage a List.mem_cons_self
      have hrest : ∀ b ∈ order, 0 ≤ b.damage := fun b hb => hdamage b (List.mem_cons_of_mem _ hb)
      have hsum : 0 ≤ damageTo order ip := damageTo_nonneg hrest ip
      rw [← Multiset.cons_coe, damageTo_cons]
      refine (ih hok hrest).trans ?_
      rw [hget ip]
      by_cases hip : ip = a.ip
      · -- damage only lowers the score, so the upper clamp is idle
        rw [if_pos hip, if_pos hip.symm, clampScore_eq, ← hip]
        omega
      · rw [if_neg hip, if_neg fun h => hip h.symm]
        omega

/-- **The score does not depend on the order of attacks.**  Whatever order the
attacks of a multiset come in, an address ends with 100 less the damage done
to it, and never below zero. -/
theorem attacks_in_any_order (attacks : Multiset Attack) (hdamage : ∀ a ∈ attacks, 0 ≤ a.damage)
    (order : List Attack) (horder : (order : Multiset Attack) = attacks) (ip : BitVec 32) :
    getIpReputation (exec reputationStep initIpReputation (order.map Attack.call)).1 ip
      = max 0 (100 - damageTo attacks ip) := by
  subst horder
  exact tableOk_init.attacks order hdamage ip

/-- Two addresses attacked in turn: 100 - 30 - 60 for the one, 0 for the other. -/
theorem attacks_in_any_order_two :
    let ip := 0x0c6433c6#32
    let other := 0x0100a8c0#32
    let order : List Attack := [⟨ip, 30, 6, 0⟩, ⟨other, 75, 8, 1⟩, ⟨ip, 60, 7, 2⟩, ⟨other, 75, 9, 3⟩]
    (∀ a ∈ (order : Multiset Attack), 0 ≤ a.damage) ∧
      getIpReputation (exec reputationStep initIpReputation (order.map Attack.call)).1 ip = 10 ∧
      getIpReputation (exec reputationStep initIpReputation (order.map Attack.call)).1 other = 0 := by
  intro ip other order
  have hdamage : ∀ a ∈ (order : Multiset Attack), 0 ≤ a.damage := by simp [order]
  refine ⟨hdamage, ?_, ?_⟩
  · exact (attacks_in_any_order order hdamage order rfl ip).trans (by decide)
  · exact (attacks_in_any_order order hdamage order rfl other).trans (by decide)

end Nullsploit
