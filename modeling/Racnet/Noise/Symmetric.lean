import Racnet.Noise.Cipher

namespace Racnet.Noise
open Lib

/-- `b"Noise_XX_25519_ChaChaPoly_SHA256"`. -/
def protocolName : List UInt8 :=
  [78, 111, 105, 115, 101, 95, 88, 88, 95, 50, 53, 53, 49, 57, 95, 67, 104, 97, 67, 104, 97, 80, 111,
    108, 121, 95, 83, 72, 65, 50, 53, 54]

/-- The HKDF with two outputs. -/
def hkdf2 [HmacSha256] (chainingKey : FixedBytes 32) (ikm : List UInt8) :
    FixedBytes 32 × FixedBytes 32 :=
  let temp := HmacSha256.mac chainingKey ikm
  let out1 := HmacSha256.mac temp [0x01]
  (out1, HmacSha256.mac temp (out1.bytes ++ [0x02]))

structure SymmetricState where
  ck : FixedBytes 32
  h : FixedBytes 32
  cipher : CipherState
  deriving DecidableEq

namespace SymmetricState

/-- A name of at most 32 bytes is padded with zeros, a longer one is hashed. -/
def initial [Sha256] (name : List UInt8) : SymmetricState :=
  let h : FixedBytes 32 :=
    if short : name.length ≤ 32 then ⟨name ++ List.replicate (32 - name.length) 0, by simp; omega⟩
    else Sha256.digest name
  ⟨h, h, .new⟩

def newForProtocol [Sha256] : SymmetricState := initial protocolName

def mixHash [Sha256] (symmetric : SymmetricState) (data : List UInt8) : SymmetricState :=
  { symmetric with h := Sha256.digest (symmetric.h.bytes ++ data) }

def mixKey [HmacSha256] (symmetric : SymmetricState) (ikm : List UInt8) : SymmetricState :=
  let (ck, tempK) := hkdf2 symmetric.ck ikm
  { symmetric with ck, cipher := symmetric.cipher.initializeKey tempK }

variable [Sha256] [ChaCha20Poly1305]

def encryptAndHash (symmetric : SymmetricState) (plaintext : List UInt8) :
    Except NoiseError (List UInt8 × SymmetricState) :=
  match symmetric.cipher.encryptWithAd symmetric.h.bytes plaintext with
  | (.error e, _) => .error e
  | (.ok ciphertext, cipher) =>
    .ok (ciphertext, { symmetric with cipher }.mixHash ciphertext)

/-- The ciphertext is mixed into the hash only after it authenticates. -/
def decryptAndHash (symmetric : SymmetricState) (ciphertext : List UInt8) :
    Except NoiseError (List UInt8 × SymmetricState) :=
  match symmetric.cipher.decryptWithAd symmetric.h.bytes ciphertext with
  | (.error e, _) => .error e
  | (.ok plaintext, cipher) => .ok (plaintext, { symmetric with cipher }.mixHash ciphertext)

omit [Sha256] [ChaCha20Poly1305] in
/-- The two transport ciphers and the handshake hash. -/
def split [HmacSha256] (symmetric : SymmetricState) : CipherState × CipherState × FixedBytes 32 :=
  let (tempK1, tempK2) := hkdf2 symmetric.ck []
  (CipherState.new.initializeKey tempK1, CipherState.new.initializeKey tempK2, symmetric.h)

end SymmetricState

end Racnet.Noise
