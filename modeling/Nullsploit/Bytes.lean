/-
Nullsploit/Bytes.lean

Bytes in memory and on the wire.

* `leBytes` / `leNat`: a number as so many bytes, low byte first, and back;
  `beBytes` / `beNat` the same in network order.  Values that fit are read back
  (`leNat_leBytes`).
* `poke` / `peek`: a buffer as a total function from offsets, written at an
  offset and read from its start.  Filling a buffer piece by piece concatenates
  the pieces (`peek_poke`).

Nothing here knows what the bytes mean.
-/
import Mathlib.Data.List.Range
import Mathlib.Tactic.Ring

namespace Bytes

/-! ### Numbers -/

/-- The low `k` bytes of a number, low byte first. -/
def leBytes : Nat → Nat → List UInt8
  | 0, _ => []
  | k + 1, n => UInt8.ofNat n :: leBytes k (n / 256)

/-- The number written by bytes, low byte first. -/
def leNat : List UInt8 → Nat
  | [] => 0
  | b :: bs => b.toNat + 256 * leNat bs

/-- The low `k` bytes of a number in network order. -/
def beBytes (k n : Nat) : List UInt8 := (leBytes k n).reverse

/-- The number written by bytes in network order. -/
def beNat (bs : List UInt8) : Nat := leNat bs.reverse

@[simp] theorem length_leBytes (k n : Nat) : (leBytes k n).length = k := by
  induction k generalizing n with
  | zero => rfl
  | succ k ih => rw [leBytes, List.length_cons, ih]

theorem leNat_leBytes (k n : Nat) : leNat (leBytes k n) = n % 256 ^ k := by
  induction k generalizing n with
  | zero => rw [leBytes, leNat, pow_zero, Nat.mod_one]
  | succ k ih =>
      show (UInt8.ofNat n).toNat + 256 * leNat (leBytes k (n / 256)) = n % 256 ^ (k + 1)
      rw [ih, pow_succ', Nat.mod_mul]
      rfl

theorem leNat_lt (bs : List UInt8) : leNat bs < 256 ^ bs.length := by
  induction bs with
  | nil => exact Nat.one_pos
  | cons b bs ih =>
      have hb : b.toNat < 256 := b.toNat_lt
      rw [leNat, List.length_cons, pow_succ']
      omega

/-- A value that fits comes back. -/
theorem leNat_leBytes_of_lt {k n : Nat} (h : n < 256 ^ k) : leNat (leBytes k n) = n := by
  rw [leNat_leBytes, Nat.mod_eq_of_lt h]

@[simp] theorem length_beBytes (k n : Nat) : (beBytes k n).length = k := by
  rw [beBytes, List.length_reverse, length_leBytes]

theorem beNat_beBytes_of_lt {k n : Nat} (h : n < 256 ^ k) : beNat (beBytes k n) = n := by
  rw [beNat, beBytes, List.reverse_reverse, leNat_leBytes_of_lt h]

/-! ### Buffers -/

/-- A buffer, by offset. -/
abbrev Buffer := Nat → UInt8

/-- `memcpy(m + off, bs, len)`. -/
def poke (m : Buffer) (off : Nat) (bs : List UInt8) : Buffer := fun i =>
  if i < off then m i else bs.getD (i - off) (m i)

/-- The first `n` bytes. -/
def peek (m : Buffer) (n : Nat) : List UInt8 := (List.range n).map m

@[simp] theorem length_peek (m : Buffer) (n : Nat) : (peek m n).length = n := by
  rw [peek, List.length_map, List.length_range]

@[simp] theorem peek_zero (m : Buffer) : peek m 0 = [] := rfl

/-- Writing behind what was read so far extends it. -/
theorem peek_poke (m : Buffer) (n : Nat) (bs : List UInt8) :
    peek (poke m n bs) (n + bs.length) = peek m n ++ bs := by
  have hold : (List.range n).map (poke m n bs) = (List.range n).map m := by
    apply List.map_congr_left
    intro i hi
    exact if_pos (List.mem_range.mp hi)
  have hnew : (List.range bs.length).map (fun j => poke m n bs (n + j)) = bs := by
    apply List.ext_getElem
    · simp
    · intro j h₁ h₂
      simp [poke, List.getElem?_eq_getElem h₂]
  rw [peek, List.range_add, List.map_append, hold, List.map_map]
  exact congrArg _ hnew

@[simp] theorem poke_nil (m : Buffer) (off : Nat) : poke m off [] = m := by
  funext i
  simp [poke]

/-- Bytes written one at a time. -/
theorem poke_update (m : Buffer) (off : Nat) (b : UInt8) (bs : List UInt8) :
    poke (Function.update m off b) (off + 1) bs = poke m off (b :: bs) := by
  funext i
  unfold poke
  rcases Nat.lt_trichotomy i off with hlt | rfl | hgt
  · rw [if_pos (by omega), if_pos hlt, Function.update_of_ne (by omega)]
  · rw [if_pos (by omega), if_neg (by omega), Function.update_self, Nat.sub_self]
    rfl
  · rw [if_neg (by omega), if_neg (by omega), Function.update_of_ne (by omega),
      show i - off = (i - (off + 1)) + 1 by omega, List.getD_cons_succ]

end Bytes
