/-
Nullsploit/CidrMatch.lean

The CIDR comparison.  The same six lines stand in `inspect_ip_blocklist`
(kernel/ip_blocklist.c) and in `auth_check_ip` (soc-server/auth.c); here they
are one definition that both models use.

A mask above 32 makes the shift count negative, which C leaves undefined.
The model takes the word such a shift produces as a parameter `shl`, so that
whatever is proved holds for every compiler's choice.  For masks in 0..32 the
parameter is not consulted and the comparison is prefix membership
(`cidrMatch_iff`).
-/
import Nullsploit.Inet

namespace Nullsploit

open Inet

/-- `mask == 0 ? 0 : (~0U << (32 - mask))`; `shl` is the word for a mask
above 32. -/
def maskVal (shl : BitVec 8 → BitVec 32) (mask : BitVec 8) : BitVec 32 :=
  if mask = 0 then 0
  else if mask.toNat ≤ 32 then BitVec.allOnes 32 <<< (32 - mask.toNat)
  else shl mask

/-- Does the entry `ip/mask` match the address `src`? -/
def cidrMatch (shl : BitVec 8 → BitVec 32) (ip : BitVec 32) (mask : BitVec 8)
    (src : BitVec 32) : Bool :=
  if mask = 32 then ip = src
  else ntohl src &&& maskVal shl mask = ntohl ip &&& maskVal shl mask

/-- `src` lies in the block `ip/mask`: it has the block's first `mask` bits,
read in host order. -/
def InBlock (ip : BitVec 32) (mask : Nat) (src : BitVec 32) : Prop :=
  SamePrefix mask (ntohl src) (ntohl ip)

instance (ip : BitVec 32) (mask : Nat) (src : BitVec 32) : Decidable (InBlock ip mask src) :=
  inferInstanceAs (Decidable (SamePrefix mask (ntohl src) (ntohl ip)))

theorem inBlock_32_iff {ip src : BitVec 32} : InBlock ip 32 src ↔ src = ip := by
  rw [InBlock, samePrefix_32_iff, ntohl_inj]

theorem inBlock_self (ip : BitVec 32) (mask : Nat) : InBlock ip mask ip := fun _ _ => rfl

/-- For a prefix length, the comparison is membership in the block. -/
theorem cidrMatch_iff (shl : BitVec 8 → BitVec 32) {ip : BitVec 32} {mask : BitVec 8}
    {src : BitVec 32} (hmask : mask.toNat ≤ 32) :
    cidrMatch shl ip mask src = true ↔ InBlock ip mask.toNat src := by
  unfold cidrMatch
  by_cases h32 : mask = 32
  · -- the exact-address branch
    subst h32
    rw [if_pos rfl, decide_eq_true_iff]
    exact ⟨fun h => inBlock_32_iff.mpr h.symm, fun h => (inBlock_32_iff.mp h).symm⟩
  · rw [if_neg h32, decide_eq_true_iff, InBlock]
    by_cases h0 : mask = 0
    · subst h0
      simp [maskVal, SamePrefix]
    · rw [maskVal, if_neg h0, if_pos hmask]
      exact and_mask_eq_iff hmask _ _

end Nullsploit
