import Racnet.Primitives

namespace Racnet.Noise
open Lib

abbrev PublicKey := FixedBytes 32

structure Keypair where
  secret : FixedBytes 32
  publicKey : PublicKey
  deriving DecidableEq

namespace Keypair
variable [X25519]

def fromSecretBytes (bytes : FixedBytes 32) : Keypair := ⟨bytes, X25519.mulBaseClamped bytes⟩

def dh (pair : Keypair) (peer : PublicKey) : FixedBytes 32 := X25519.mulClamped peer pair.secret

end Keypair

/-- The identity of a peer. -/
abbrev Fingerprint := FixedBytes 32

def fingerprintOf [Sha256] (key : PublicKey) : Fingerprint := Sha256.digest key.bytes

end Racnet.Noise
