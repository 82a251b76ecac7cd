/-
Nullsploit/AesWrapper.lean

aes_wrapper.c, the same file in the agent and in the SOC: AES-256-CBC with
the initialisation vector in front of the ciphertext.

The cipher is OpenSSL's; the model takes the block permutation that the shared
key selects as a parameter `E` and the random vector as an argument.  What
follows holds for every permutation.
-/
import Nullsploit.Cbc

namespace Nullsploit

open Cbc

/-- `AES_BLOCK_SIZE`. -/
def aesBlockSize : Nat := 16

abbrev AesBlock := Block aesBlockSize

/-- `aes_encrypt`, when neither RAND_bytes nor an allocation fails. -/
def aesEncrypt (E : Equiv.Perm AesBlock) (iv : AesBlock) (plaintext : List UInt8) : List UInt8 :=
  List.ofFn iv ++ encrypt E iv plaintext

/-- `aes_decrypt`; `none` is -1. -/
def aesDecrypt (E : Equiv.Perm AesBlock) (ciphertext : List UInt8) : Option (List UInt8) :=
  if ciphertext.length < aesBlockSize then none
  else decrypt E (toBlock ciphertext) (ciphertext.drop aesBlockSize)

theorem length_aesEncrypt (E : Equiv.Perm AesBlock) (iv : AesBlock) (plaintext : List UInt8) :
    (aesEncrypt E iv plaintext).length = 16 + 16 * (plaintext.length / 16 + 1) := by
  rw [aesEncrypt, List.length_append, List.length_ofFn, length_encrypt]
  rfl

theorem aesDecrypt_aesEncrypt (E : Equiv.Perm AesBlock) (iv : AesBlock) (plaintext : List UInt8) :
    aesDecrypt E (aesEncrypt E iv plaintext) = some plaintext := by
  have hlen : ¬ (aesEncrypt E iv plaintext).length < aesBlockSize := by
    rw [length_aesEncrypt, aesBlockSize]
    omega
  rw [aesDecrypt, if_neg hlen, aesEncrypt, toBlock_append, List.drop_left' List.length_ofFn]
  exact decrypt_encrypt (by decide) (by decide) E iv plaintext

end Nullsploit
