/-
Nullsploit/Cbc.lean

Cipher block chaining with PKCS#7 padding, over an arbitrary block
permutation.

Blocks are functions `Fin n → UInt8`; the permutation of blocks that a key
selects is a parameter `E`.  What the users of a cipher in this mode rely on
does not depend on it: decryption undoes encryption (`decrypt_encrypt`), and
the length of a ciphertext is a function of the length of the plaintext
(`length_encrypt`).
-/
import Mathlib.Data.List.GetD
import Mathlib.Data.List.OfFn
import Mathlib.Logic.Equiv.Defs

namespace Cbc

variable {n : Nat}

/-! ### Blocks -/

/-- A block of `n` bytes. -/
abbrev Block (n : Nat) := Fin n → UInt8

/-- Bytewise exclusive or. -/
def xor (x y : Block n) : Block n := fun i => x i ^^^ y i

theorem xor_xor (x y : Block n) : xor (xor x y) y = x := by
  funext i
  show x i ^^^ y i ^^^ y i = x i
  rw [UInt8.xor_assoc, UInt8.xor_self, UInt8.xor_zero]

/-- The first `n` bytes of a text as a block. -/
def toBlock (bs : List UInt8) : Block n := fun i => bs.getD i 0

/-- The first `k` blocks of a text. -/
def toBlocks : Nat → List UInt8 → List (Block n)
  | 0, _ => []
  | k + 1, bs => toBlock bs :: toBlocks k (bs.drop n)

/-- The text of a list of blocks. -/
def ofBlocks (bs : List (Block n)) : List UInt8 := bs.flatMap List.ofFn

theorem ofFn_toBlock {bs : List UInt8} (h : n ≤ bs.length) :
    List.ofFn (toBlock bs : Block n) = bs.take n := by
  apply List.ext_getElem
  · rw [List.length_ofFn, List.length_take, Nat.min_eq_left h]
  · intro i h₁ h₂
    rw [List.length_ofFn] at h₁
    rw [List.getElem_ofFn, List.getElem_take]
    exact List.getD_eq_getElem _ _ (h₁.trans_le h)

theorem toBlock_append (b : Block n) (bs : List UInt8) : toBlock (List.ofFn b ++ bs) = b := by
  funext i
  have hi : (i : Nat) < (List.ofFn b).length := by simp
  show (List.ofFn b ++ bs).getD i 0 = b i
  rw [List.getD_append _ _ _ _ hi]
  simp

theorem ofBlocks_toBlocks {k : Nat} {bs : List UInt8} (h : bs.length = n * k) :
    ofBlocks (toBlocks k bs : List (Block n)) = bs := by
  induction k generalizing bs with
  | zero => exact (List.length_eq_zero_iff.mp h).symm
  | succ k ih =>
      rw [Nat.mul_succ] at h
      show List.ofFn (toBlock bs : Block n) ++ ofBlocks (toBlocks k (bs.drop n)) = bs
      rw [ofFn_toBlock (by omega), ih (by rw [List.length_drop]; omega), List.take_append_drop]

theorem length_ofBlocks (bs : List (Block n)) : (ofBlocks bs).length = n * bs.length := by
  induction bs with
  | nil => rfl
  | cons b bs ih =>
      show (List.ofFn b ++ ofBlocks bs).length = _
      rw [List.length_append, List.length_ofFn, ih, List.length_cons, Nat.mul_succ, Nat.add_comm]

theorem toBlocks_ofBlocks (bs : List (Block n)) : toBlocks bs.length (ofBlocks bs) = bs := by
  induction bs with
  | nil => rfl
  | cons b bs ih =>
      show toBlock (List.ofFn b ++ ofBlocks bs)
        :: toBlocks bs.length ((List.ofFn b ++ ofBlocks bs).drop n) = b :: bs
      rw [toBlock_append, List.drop_left' (List.length_ofFn), ih]

theorem length_toBlocks (k : Nat) (bs : List UInt8) :
    (toBlocks k bs : List (Block n)).length = k := by
  induction k generalizing bs with
  | zero => rfl
  | succ k ih => rw [toBlocks, List.length_cons, ih]

/-! ### Padding -/

/-- PKCS#7: as many bytes as are missing to the next block boundary, at least
one, each with that number as its value. -/
def pad (n : Nat) (bs : List UInt8) : List UInt8 :=
  bs ++ List.replicate (n - bs.length % n) (UInt8.ofNat (n - bs.length % n))

/-- Remove the padding, if it is one. -/
def unpad (n : Nat) (bs : List UInt8) : Option (List UInt8) :=
  match bs.getLast? with
  | none => none
  | some b =>
      if 1 ≤ b.toNat ∧ b.toNat ≤ n ∧
          bs.drop (bs.length - b.toNat) = List.replicate b.toNat b then
        some (bs.take (bs.length - b.toNat))
      else none

theorem length_pad (hn : 0 < n) (bs : List UInt8) :
    (pad n bs).length = n * (bs.length / n + 1) := by
  have hmod := Nat.mod_lt bs.length hn
  have hdiv := Nat.div_add_mod bs.length n
  rw [pad, List.length_append, List.length_replicate, Nat.mul_succ]
  omega

theorem unpad_pad (hn : 0 < n) (h255 : n < 256) (bs : List UInt8) :
    unpad n (pad n bs) = some bs := by
  have hmod := Nat.mod_lt bs.length hn
  obtain ⟨k, hk, hk1, hkn⟩ : ∃ k, n - bs.length % n = k ∧ 1 ≤ k ∧ k ≤ n :=
    ⟨_, rfl, by omega, by omega⟩
  have hb : (UInt8.ofNat k).toNat = k := by
    rw [UInt8.toNat_ofNat']
    omega
  rw [pad, hk]
  have hlast : (bs ++ List.replicate k (UInt8.ofNat k)).getLast? = some (UInt8.ofNat k) := by
    rw [List.getLast?_append, List.getLast?_replicate, if_neg (by omega)]
    rfl
  have hlen : (bs ++ List.replicate k (UInt8.ofNat k)).length - k = bs.length := by
    rw [List.length_append, List.length_replicate, Nat.add_sub_cancel]
  rw [unpad, hlast]
  dsimp only
  rw [hb, hlen, List.drop_left, List.take_left, if_pos ⟨hk1, hkn, rfl⟩]

/-! ### Chaining -/

/-- Encrypt block after block, each mixed with the ciphertext before it. -/
def chain (E : Block n → Block n) : Block n → List (Block n) → List (Block n)
  | _, [] => []
  | iv, p :: ps => E (xor p iv) :: chain E (E (xor p iv)) ps

/-- Decrypt block after block. -/
def unchain (D : Block n → Block n) : Block n → List (Block n) → List (Block n)
  | _, [] => []
  | iv, c :: cs => xor (D c) iv :: unchain D c cs

theorem length_chain (E : Block n → Block n) (iv : Block n) (ps : List (Block n)) :
    (chain E iv ps).length = ps.length := by
  induction ps generalizing iv with
  | nil => rfl
  | cons p ps ih => rw [chain, List.length_cons, ih, List.length_cons]

theorem unchain_chain (E : Equiv.Perm (Block n)) (iv : Block n) (ps : List (Block n)) :
    unchain E.symm iv (chain E iv ps) = ps := by
  induction ps generalizing iv with
  | nil => rfl
  | cons p ps ih => rw [chain, unchain, Equiv.symm_apply_apply, xor_xor, ih]

/-! ### The mode -/

/-- Pad and encrypt. -/
def encrypt (E : Equiv.Perm (Block n)) (iv : Block n) (plain : List UInt8) : List UInt8 :=
  ofBlocks (chain E iv (toBlocks (plain.length / n + 1) (pad n plain)))

/-- Decrypt and remove the padding; a text that is not a positive number of
blocks is refused. -/
def decrypt (E : Equiv.Perm (Block n)) (iv : Block n) (cipher : List UInt8) : Option (List UInt8) :=
  if cipher = [] ∨ cipher.length % n ≠ 0 then none
  else unpad n (ofBlocks (unchain E.symm iv (toBlocks (cipher.length / n) cipher)))

theorem length_encrypt (E : Equiv.Perm (Block n)) (iv : Block n) (plain : List UInt8) :
    (encrypt E iv plain).length = n * (plain.length / n + 1) := by
  rw [encrypt, length_ofBlocks, length_chain, length_toBlocks]

theorem decrypt_encrypt (hn : 0 < n) (h255 : n < 256) (E : Equiv.Perm (Block n)) (iv : Block n)
    (plain : List UInt8) : decrypt E iv (encrypt E iv plain) = some plain := by
  have hlen := length_encrypt E iv plain
  have hk : (encrypt E iv plain).length / n = plain.length / n + 1 := by
    rw [hlen, Nat.mul_div_cancel_left _ hn]
  have hblocks : toBlocks ((encrypt E iv plain).length / n) (encrypt E iv plain)
      = chain E iv (toBlocks (plain.length / n + 1) (pad n plain)) := by
    have h := toBlocks_ofBlocks (chain E iv (toBlocks (plain.length / n + 1) (pad n plain)))
    rw [length_chain, length_toBlocks] at h
    rw [hk]
    exact h
  have hne : encrypt E iv plain ≠ [] := by
    apply List.ne_nil_of_length_pos
    rw [hlen]
    exact Nat.mul_pos hn (Nat.succ_pos _)
  rw [decrypt, if_neg (not_or.mpr ⟨hne, by rw [hlen, Nat.mul_mod_right]; simp⟩), hblocks,
    unchain_chain, ofBlocks_toBlocks (length_pad hn plain)]
  exact unpad_pad hn h255 plain

end Cbc
