import Racnet.Lib.Bytes

/-!
The third-party primitives the program calls, as parameters of the model. A class carries the functions
and what their types promise; what a result relies on beyond that is a hypothesis of the result.
-/

namespace Racnet
open Lib

/-- `sha2::Sha256`. -/
class Sha256 where
  digest : List UInt8 → FixedBytes 32

/-- `ed25519_dalek`: which keys are accepted, and `VerifyingKey::verify_strict`. -/
class Ed25519 where
  isVerifyingKey : FixedBytes 32 → Bool
  verifyStrict : FixedBytes 32 → List UInt8 → FixedBytes 64 → Bool

/-- `ed25519_dalek::SigningKey`, given by its 32 bytes: its verifying key, and signatures. -/
class Ed25519Signer where
  verifyingKey : FixedBytes 32 → FixedBytes 32
  sign : FixedBytes 32 → List UInt8 → FixedBytes 64

/-- `hmac::Hmac<Sha256>` with a key of 32 bytes. -/
class HmacSha256 where
  mac : FixedBytes 32 → List UInt8 → FixedBytes 32

/-- `curve25519_dalek`: the base point and any point, multiplied by a clamped scalar. -/
class X25519 where
  mulBaseClamped : FixedBytes 32 → FixedBytes 32
  mulClamped : FixedBytes 32 → FixedBytes 32 → FixedBytes 32

/-- Both sides of an exchange compute the same point. -/
def DhCommutes [X25519] : Prop :=
  ∀ a b, X25519.mulClamped (X25519.mulBaseClamped a) b = X25519.mulClamped (X25519.mulBaseClamped b) a

/-- The length of an authentication tag. -/
def tagLen : Nat := 16

/-- Plaintexts from this length on, of `2 ^ 32 - 1` cipher blocks, are refused. -/
def plaintextLimit : Nat := 64 * (2 ^ 32 - 1)

/-- `chacha20poly1305`: the ciphertext is as long as the plaintext and the tag, and a plaintext within
the limit is not refused. -/
class ChaCha20Poly1305 where
  encrypt : FixedBytes 32 → FixedBytes 12 → List UInt8 → List UInt8 → Option (List UInt8)
  decrypt : FixedBytes 32 → FixedBytes 12 → List UInt8 → List UInt8 → Option (List UInt8)
  length_encrypt : ∀ key nonce aad msg out, encrypt key nonce aad msg = some out →
    out.length = msg.length + tagLen
  length_decrypt : ∀ key nonce aad msg out, decrypt key nonce aad msg = some out →
    msg.length = out.length + tagLen
  encrypt_isSome : ∀ key nonce aad msg, msg.length < plaintextLimit →
    (encrypt key nonce aad msg).isSome

/-- Decryption inverts encryption under the same key, nonce and associated data. -/
def DecryptInverts [ChaCha20Poly1305] : Prop :=
  ∀ key nonce aad msg out, ChaCha20Poly1305.encrypt key nonce aad msg = some out →
    ChaCha20Poly1305.decrypt key nonce aad out = some msg

end Racnet
