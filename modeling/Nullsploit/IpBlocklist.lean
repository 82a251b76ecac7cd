/-
Nullsploit/IpBlocklist.lean

The blocklist of the firewall, kernel/ip_blocklist.c, built for userspace
(userspace_compat.h): 256 chained buckets, rebuilt on every push, scanned in
full on every packet.  A push also lets the reputation table forgive
(`sync_reputation_with_blocklist`), so both live in one firewall state.

`inspect_iff_inBlock` is the meaning of the blocklist.  The rest of the module
is about pushes and reputation: a push should forgive a low score only when
it unblocks the address.  The code asks something else, whether the address
is literally some entry's address, so the two agree exactly when every low
score is such an address or is being unblocked (`forgives_iff_lowScoresListed`).
-/
import Nullsploit.Auth
import Nullsploit.IpReputation

namespace Nullsploit

open Inet ChainTable Runs

/-! ### The table -/

/-- `1 << HASH_BITS`. -/
def blocklistBuckets : Nat := 256

/-- The state of the firewall that pushes change. -/
structure Firewall where
  reputation : ReputationTable
  blocklist : Table BlocklistEntry blocklistBuckets
  gBlockLocalIps : BitVec 32

/-- The state at start-up. -/
def Firewall.init : Firewall := ⟨initIpReputation, fun _ => [], 0⟩

/-- `hash_add_rcu(blocklist_hash, node, node->ip)`. -/
def hashAddRcu (t : Table BlocklistEntry blocklistBuckets) (e : BlocklistEntry) :
    Table BlocklistEntry blocklistBuckets :=
  let b : Fin blocklistBuckets := ⟨e.ip.toNat % blocklistBuckets, Nat.mod_lt _ (by decide)⟩
  Function.update t b (e :: t b)

/-- `update_ip_blocklist`, allocation succeeding. -/
def updateIpBlocklist (fw : Firewall) (payload : BlocklistPayload) : Firewall where
  reputation := syncReputationWithBlocklist fw.reputation payload
  gBlockLocalIps := payload.blockLocalIps
  blocklist :=
    (List.range (min payload.count maxBlocklistIps)).foldl
      (fun t i => hashAddRcu t (payload.entries i)) fun _ => []

/-- `inspect_ip_blocklist`. -/
def inspectIpBlocklist (shl : BitVec 8 → BitVec 32) (fw : Firewall) (srcIp : BitVec 32) : Bool :=
  (List.finRange blocklistBuckets).any fun b =>
    (fw.blocklist b).any fun curr => cidrMatch shl curr.ip curr.mask srcIp

/-- Before the first push nothing is matched. -/
theorem inspectIpBlocklist_of_empty (shl : BitVec 8 → BitVec 32) (fw : Firewall)
    (h : fw.blocklist = fun _ => []) (srcIp : BitVec 32) :
    inspectIpBlocklist shl fw srcIp = false := by
  simp [inspectIpBlocklist, h]

/-! ### What a push leaves in the table -/

theorem mem_hashAddRcu {t : Table BlocklistEntry blocklistBuckets} {e x : BlocklistEntry} :
    (∃ b, x ∈ hashAddRcu t e b) ↔ x = e ∨ ∃ b, x ∈ t b := by
  simp only [hashAddRcu]
  generalize (⟨e.ip.toNat % blocklistBuckets, _⟩ : Fin blocklistBuckets) = c
  constructor
  · rintro ⟨b, hb⟩
    by_cases hbc : b = c
    · subst hbc
      rw [Function.update_self, List.mem_cons] at hb
      exact hb.imp id fun h => ⟨_, h⟩
    · rw [Function.update_of_ne hbc] at hb
      exact Or.inr ⟨b, hb⟩
  · rintro (rfl | ⟨b, hb⟩)
    · exact ⟨c, by simp⟩
    · by_cases hbc : b = c
      · subst hbc
        exact ⟨b, by simp [hb]⟩
      · exact ⟨b, by rw [Function.update_of_ne hbc]; exact hb⟩

theorem mem_foldl_hashAddRcu {es : List BlocklistEntry}
    {t : Table BlocklistEntry blocklistBuckets} {x : BlocklistEntry} :
    (∃ b, x ∈ es.foldl hashAddRcu t b) ↔ x ∈ es ∨ ∃ b, x ∈ t b := by
  induction es generalizing t with
  | nil => simp
  | cons e es ih =>
      rw [List.foldl_cons, ih, mem_hashAddRcu, List.mem_cons]
      tauto

/-- Whatever bucket they fall in, the entries scanned after a push are the
first `MAX_BLOCKLIST_IPS` of the payload. -/
theorem mem_updateIpBlocklist {fw : Firewall} {p : BlocklistPayload} {x : BlocklistEntry} :
    (∃ b, x ∈ (updateIpBlocklist fw p).blocklist b) ↔ x ∈ p.listed.take maxBlocklistIps := by
  have hlist : p.listed.take maxBlocklistIps
      = (List.range (min p.count maxBlocklistIps)).map p.entries := by
    rw [BlocklistPayload.listed, ← List.map_take, List.take_range, Nat.min_comm]
  have hfold : (updateIpBlocklist fw p).blocklist
      = (p.listed.take maxBlocklistIps).foldl hashAddRcu fun _ => [] := by
    rw [hlist, List.foldl_map]
    rfl
  rw [hfold, mem_foldl_hashAddRcu]
  simp

theorem inspect_updateIpBlocklist (shl : BitVec 8 → BitVec 32) (fw : Firewall)
    (p : BlocklistPayload) (src : BitVec 32) :
    inspectIpBlocklist shl (updateIpBlocklist fw p) src
      = (p.listed.take maxBlocklistIps).any fun e => cidrMatch shl e.ip e.mask src := by
  rw [Bool.eq_iff_iff]
  simp only [inspectIpBlocklist, List.any_eq_true, List.mem_finRange, true_and]
  constructor
  · rintro ⟨b, e, he, hm⟩
    exact ⟨e, mem_updateIpBlocklist.mp ⟨b, he⟩, hm⟩
  · rintro ⟨e, he, hm⟩
    obtain ⟨b, hb⟩ := mem_updateIpBlocklist.mpr he
    exact ⟨b, e, hb, hm⟩

/-- After a well-formed push, an address is matched exactly when it lies in
the block of some entry. -/
theorem inspect_of_wellFormed (shl : BitVec 8 → BitVec 32) (fw : Firewall)
    {p : BlocklistPayload} (hp : p.WellFormed) (src : BitVec 32) :
    inspectIpBlocklist shl (updateIpBlocklist fw p) src = true
      ↔ ∃ e ∈ p.listed, InBlock e.ip e.mask.toNat src := by
  have hlen : p.listed.length ≤ maxBlocklistIps := by
    simpa [BlocklistPayload.listed] using hp.count_le
  rw [inspect_updateIpBlocklist, List.take_of_length_le hlen, List.any_eq_true]
  exact exists_congr fun e => and_congr_right fun he => cidrMatch_iff shl (hp.mask_le e he)

/-- **CIDR matching is exact.**  Whatever was pushed before, the last payload
decides: an address is matched if and only if it agrees with some entry on the
entry's first `mask` bits; and the whitelist check over the same entries
accepts the same addresses. -/
theorem inspect_iff_inBlock (shl : BitVec 8 → BitVec 32) (fw : Firewall)
    (ps : List BlocklistPayload) (p : BlocklistPayload) (hp : p.WellFormed) (src : BitVec 32) :
    (inspectIpBlocklist shl ((ps ++ [p]).foldl updateIpBlocklist fw) src = true
        ↔ ∃ e ∈ p.listed, InBlock e.ip e.mask.toNat src) ∧
      authCheckIp shl (p.listed.map fun e => ⟨e.ip, e.mask⟩) (inetNtop src)
        = inspectIpBlocklist shl ((ps ++ [p]).foldl updateIpBlocklist fw) src := by
  rw [List.foldl_append, List.foldl_cons, List.foldl_nil]
  have hinspect := inspect_of_wellFormed shl (ps.foldl updateIpBlocklist fw) hp src
  refine ⟨hinspect, ?_⟩
  rw [authCheckIp_inetNtop, List.any_map, Bool.eq_iff_iff, hinspect, List.any_eq_true]
  exact exists_congr fun e => and_congr_right fun he => cidrMatch_iff shl (hp.mask_le e he)

/-- The blocklist of the firewall's own test: one address and one network. -/
theorem inspect_iff_inBlock_testPayload :
    let p := BlocklistPayload.ofList 0 [⟨ofOctets 192 168 1 50, 32⟩, ⟨ofOctets 10 0 0 0, 8⟩]
    p.WellFormed ∧
      inspectIpBlocklist (fun _ => 0) (updateIpBlocklist Firewall.init p) (ofOctets 10 250 4 5) = true ∧
      inspectIpBlocklist (fun _ => 0) (updateIpBlocklist Firewall.init p) (ofOctets 11 0 0 1) = false := by
  intro p
  have hp : p.WellFormed := ⟨by decide, by rw [BlocklistPayload.listed_ofList]; decide⟩
  have key := fun src => (inspect_iff_inBlock (fun _ => 0) Firewall.init [] p hp src).1
  refine ⟨hp, (key _).mpr ?_, ?_⟩
  · rw [BlocklistPayload.listed_ofList]
    decide
  · rw [Bool.eq_false_iff]
    intro h
    have := (key _).mp h
    rw [BlocklistPayload.listed_ofList] at this
    exact absurd this (by decide)

/-! ### Pushes and reputation -/

/-- What happens to a running firewall: an attack costs reputation, time
heals, the agent pushes a blocklist. -/
inductive FirewallCall
  | attack (ip : BitVec 32) (damage : Int) (threatType now : Nat)
  | decay (recovery : Int)
  | push (payload : BlocklistPayload)

/-- Recovery amounts are not negative and pushed payloads are well formed. -/
def FirewallCall.Allowed : FirewallCall → Prop
  | .attack .. => True
  | .decay recovery => 0 ≤ recovery
  | .push payload => payload.WellFormed

/-- One call; there is no output to observe. -/
def firewallStep (fw : Firewall) : FirewallCall → Firewall × Unit
  | .attack ip damage threatType now =>
      ({ fw with reputation := (updateIpReputation fw.reputation ip damage threatType now).1 }, ())
  | .decay recovery =>
      ({ fw with reputation := decayReputationScores fw.reputation recovery }, ())
  | .push payload => (updateIpBlocklist fw payload, ())

theorem tableOk_firewallStep (fw : Firewall) (c : FirewallCall) (hc : c.Allowed)
    (h : TableOk fw.reputation) : TableOk (firewallStep fw c).1.reputation := by
  cases c with
  | attack ip damage threatType now => exact (h.update ip damage threatType now).1
  | decay recovery => exact (h.decay hc).1
  | push payload => exact (h.sync payload).1

/-- The address is blocked now and no longer after the push. -/
def Unblocks (shl : BitVec 8 → BitVec 32) (fw : Firewall) (payload : BlocklistPayload)
    (ip : BitVec 32) : Prop :=
  inspectIpBlocklist shl fw ip = true ∧
    inspectIpBlocklist shl (updateIpBlocklist fw payload) ip = false

/-- A push forgives only what it unblocks: a score that changes becomes 100
and belongs to an unblocked address, and an address with a score of at most 20
stays below the drop threshold unless it is unblocked. -/
structure ForgivesOnlyUnblocked (shl : BitVec 8 → BitVec 32) (fw : Firewall)
    (payload : BlocklistPayload) : Prop where
  changed : ∀ ip,
    getIpReputation (updateIpBlocklist fw payload).reputation ip ≠ getIpReputation fw.reputation ip →
      getIpReputation (updateIpBlocklist fw payload).reputation ip = 100 ∧
        Unblocks shl fw payload ip
  dropped : ∀ ip, getIpReputation fw.reputation ip ≤ 20 → ¬ Unblocks shl fw payload ip →
    getIpReputation (updateIpBlocklist fw payload).reputation ip ≤ 20

/-- Every address with a low score is literally the address of an entry of
the payload, or is blocked now and lies in no block of the payload. -/
def LowScoresListed (shl : BitVec 8 → BitVec 32) (fw : Firewall)
    (payload : BlocklistPayload) : Prop :=
  ∀ ip, getIpReputation fw.reputation ip ≤ 20 → (∀ e ∈ payload.listed, e.ip ≠ ip) →
    inspectIpBlocklist shl fw ip = true ∧ ∀ e ∈ payload.listed, ¬ InBlock e.ip e.mask.toNat ip

/-- One push, from any firewall whose reputation table is in order. -/
theorem forgives_iff_lowScoresListed (shl : BitVec 8 → BitVec 32) {fw : Firewall}
    (h : TableOk fw.reputation) {p : BlocklistPayload} (hp : p.WellFormed) :
    ForgivesOnlyUnblocked shl fw p ↔ LowScoresListed shl fw p := by
  have hget : ∀ ip, getIpReputation (updateIpBlocklist fw p).reputation ip
      = if getIpReputation fw.reputation ip ≤ 20 ∧ ∀ b ∈ p.listed, b.ip ≠ ip then 100
        else getIpReputation fw.reputation ip := (h.sync p).2
  have hunblock : ∀ ip, Unblocks shl fw p ip ↔
      inspectIpBlocklist shl fw ip = true ∧ ∀ e ∈ p.listed, ¬ InBlock e.ip e.mask.toNat ip := by
    intro ip
    rw [Unblocks, ← Bool.not_eq_true, inspect_of_wellFormed shl fw hp ip]
    simp only [not_exists, not_and]
  constructor
  · intro hf ip hlow hnot
    -- the score goes from at most 20 to 100, so the push must unblock
    have hraised := hget ip
    rw [if_pos ⟨hlow, hnot⟩] at hraised
    exact (hunblock ip).mp (hf.changed ip (by omega)).2
  · intro hlisted
    refine ⟨?_, ?_⟩
    · intro ip hne
      by_cases hc : getIpReputation fw.reputation ip ≤ 20 ∧ ∀ b ∈ p.listed, b.ip ≠ ip
      · exact ⟨by rw [hget ip, if_pos hc], (hunblock ip).mpr (hlisted ip hc.1 hc.2)⟩
      · rw [hget ip, if_neg hc] at hne
        exact absurd rfl hne
    · intro ip hlow hstill
      by_cases hc : getIpReputation fw.reputation ip ≤ 20 ∧ ∀ b ∈ p.listed, b.ip ≠ ip
      · exact absurd ((hunblock ip).mpr (hlisted ip hc.1 hc.2)) hstill
      · rw [hget ip, if_neg hc]
        exact hlow

/-- A property of the pushes of a run. -/
def AtPush (Q : Firewall → BlocklistPayload → Prop) (fw : Firewall) : FirewallCall → Prop
  | .push payload => Q fw payload
  | _ => True

/-- **When a low reputation is forgiven only by an unblock.**  In every run
from start-up, every push forgives only what it unblocks if and only if at
every push each low score belongs to an address that is an entry's own address
or is being unblocked. -/
theorem pushes_forgive_only_unblocked_iff (shl : BitVec 8 → BitVec 32)
    (calls : List FirewallCall) (hcalls : ∀ c ∈ calls, c.Allowed) :
    Along firewallStep (AtPush (ForgivesOnlyUnblocked shl)) Firewall.init calls
      ↔ Along firewallStep (AtPush (LowScoresListed shl)) Firewall.init calls := by
  refine along_congr FirewallCall.Allowed (fun fw => TableOk fw.reputation)
    tableOk_firewallStep ?_ hcalls tableOk_init
  intro fw c hc h
  cases c with
  | attack ip damage threatType now => exact Iff.rfl
  | decay recovery => exact Iff.rfl
  | push payload => exact forgives_iff_lowScoresListed shl h hc

/-- The run in which the attacker's own address is pushed. -/
theorem pushes_forgive_only_unblocked_listed_attacker :
    let attacker := ofOctets 198 51 100 12
    let calls := [.attack attacker 90 6 0, .push (.ofList 0 [⟨attacker, 32⟩])]
    (∀ c ∈ calls, FirewallCall.Allowed c) ∧
      Along firewallStep (AtPush (ForgivesOnlyUnblocked fun _ => 0)) Firewall.init calls := by
  intro attacker calls
  have hcalls : ∀ c ∈ calls, FirewallCall.Allowed c := by
    intro c hc
    rcases List.mem_pair.mp hc with rfl | rfl
    · trivial
    · exact ⟨by decide, by rw [BlocklistPayload.listed_ofList]; decide⟩
  refine ⟨hcalls, (pushes_forgive_only_unblocked_iff _ calls hcalls).mpr ⟨trivial, ?_, trivial⟩⟩
  intro ip hlow hnot
  rw [BlocklistPayload.listed_ofList] at hnot
  have hne : ip ≠ attacker := fun h => hnot ⟨attacker, 32⟩ (by simp) h.symm
  -- every other address still has score 100
  have hget := (tableOk_init.update attacker 90 6 0).2.2 ip
  rw [if_neg hne] at hget
  have h100 : getIpReputation initIpReputation ip = 100 := rfl
  simp only [firewallStep, Firewall.init] at hlow
  omega

/-- An attacker that was never blocked is forgiven by a push that does not
mention it. -/
theorem push_forgives_unlisted_attacker :
    let attacker := ofOctets 198 51 100 12
    let calls := [.attack attacker 90 6 0, .push (.ofList 0 [])]
    (∀ c ∈ calls, FirewallCall.Allowed c) ∧
      ¬ Along firewallStep (AtPush (ForgivesOnlyUnblocked fun _ => 0)) Firewall.init calls := by
  intro attacker calls
  refine ⟨?_, ?_⟩
  · intro c hc
    rcases List.mem_pair.mp hc with rfl | rfl
    · trivial
    · exact ⟨by decide, by rw [BlocklistPayload.listed_ofList]; simp⟩
  · rintro ⟨-, hpush, -⟩
    -- 100 - 90 = 10 before the push, 100 after it, and nothing was ever blocked
    have h := (hpush.changed attacker (by decide)).2.1
    simp [inspectIpBlocklist, firewallStep, Firewall.init] at h

end Nullsploit
