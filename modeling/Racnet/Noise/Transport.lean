import Racnet.Noise.Cipher

namespace Racnet.Noise
open Lib

def rekeyInterval : Nat := 1024

/-- Both directions of an established session. A failed decryption is for good. -/
structure TransportState where
  send : CipherState
  recv : CipherState
  hash : FixedBytes 32
  failed : Bool
  deriving DecidableEq

namespace TransportState

def new (send recv : CipherState) (hash : FixedBytes 32) : TransportState := ⟨send, recv, hash, false⟩

variable [ChaCha20Poly1305]

def rekeyIfDue (cipher : CipherState) : CipherState :=
  if 0 < cipher.nonce.toNat ∧ cipher.nonce.toNat % rekeyInterval = 0 then
    cipher.rekeyPreservingNonce
  else cipher

def encrypt (transport : TransportState) (plaintext : List UInt8) :
    Except NoiseError (List UInt8) × TransportState :=
  if transport.failed then (.error .decryptFailed, transport)
  else
    let (result, send) := (rekeyIfDue transport.send).encryptWithAd [] plaintext
    (result, { transport with send })

def decrypt (transport : TransportState) (ciphertext : List UInt8) :
    Except NoiseError (List UInt8) × TransportState :=
  if transport.failed then (.error .decryptFailed, transport)
  else
    let (result, recv) := (rekeyIfDue transport.recv).decryptWithAd [] ciphertext
    (result, { transport with recv, failed := result.isOk.not })

end TransportState

end Racnet.Noise
