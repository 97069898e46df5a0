import Racnet.Lib.Endian
import Racnet.Noise.Error
import Racnet.Primitives

namespace Racnet.Noise
open Lib

/-- A key and a nonce counter. -/
structure CipherState where
  k : Option (FixedBytes 32)
  n : UInt64
  deriving DecidableEq

/-- Four zero bytes, then the counter. -/
def nonceBytes (n : UInt64) : FixedBytes 12 :=
  ⟨List.replicate 4 0 ++ leBytes 8 n.toNat, by simp⟩

/-- The nonce that only `Rekey` uses. -/
def maxNonce : UInt64 := UInt64.ofNat (2 ^ 64 - 1)

theorem nonceBytes_injective {m n : UInt64} (same : nonceBytes m = nonceBytes n) : m = n := by
  have bytes := List.append_cancel_left (congrArg FixedBytes.bytes same)
  have small : ∀ n : UInt64, n.toNat < 256 ^ 8 := fun n => n.toNat_lt
  rw [← UInt64.toNat_inj, ← ofLe_leBytes (small m), bytes, ofLe_leBytes (small n)]

variable [ChaCha20Poly1305]

/-- The new key of `Rekey`: the beginning of an encrypted block of zeros, which is never refused. -/
def rekeyKey (key : FixedBytes 32) : FixedBytes 32 :=
  let block := (ChaCha20Poly1305.encrypt key (nonceBytes maxNonce) []
    (List.replicate 32 0)).get (ChaCha20Poly1305.encrypt_isSome _ _ _ _ (by simp [plaintextLimit]))
  ⟨block.take 32, by
    have length := ChaCha20Poly1305.length_encrypt _ _ _ _ block (Option.some_get _).symm
    rw [List.length_take, length]
    simp⟩

namespace CipherState

def new : CipherState := ⟨none, 0⟩

def initializeKey (_ : CipherState) (key : FixedBytes 32) : CipherState := ⟨some key, 0⟩

def nonce (cipher : CipherState) : UInt64 := cipher.n

/-- Encrypts; without a key this is the identity. -/
def encryptWithAd (cipher : CipherState) (ad plaintext : List UInt8) :
    Except NoiseError (List UInt8) × CipherState :=
  match cipher.k with
  | none => (.ok plaintext, cipher)
  | some key =>
    if cipher.n = maxNonce then (.error .nonceExhausted, cipher)
    else
      match ChaCha20Poly1305.encrypt key (nonceBytes cipher.n) ad plaintext with
      | none => (.error .decryptFailed, cipher)
      | some ciphertext => (.ok ciphertext, { cipher with n := cipher.n + 1 })

/-- Decrypts; on failure the nonce stays. -/
def decryptWithAd (cipher : CipherState) (ad ciphertext : List UInt8) :
    Except NoiseError (List UInt8) × CipherState :=
  match cipher.k with
  | none => (.ok ciphertext, cipher)
  | some key =>
    if cipher.n = maxNonce then (.error .nonceExhausted, cipher)
    else
      match ChaCha20Poly1305.decrypt key (nonceBytes cipher.n) ad ciphertext with
      | none => (.error .decryptFailed, cipher)
      | some plaintext => (.ok plaintext, { cipher with n := cipher.n + 1 })

/-- `Rekey`, which starts the nonce over. -/
def rekey (cipher : CipherState) : CipherState :=
  match cipher.k with
  | none => cipher
  | some key => cipher.initializeKey (rekeyKey key)

def rekeyPreservingNonce (cipher : CipherState) : CipherState :=
  { cipher.rekey with n := cipher.n }

end CipherState

end Racnet.Noise
