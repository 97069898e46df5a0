import Racnet.Lib.Exec
import Racnet.Noise.Dh
import Racnet.Noise.Symmetric
import Racnet.Noise.Transport

namespace Racnet.Noise
open Lib

inductive Role where
  | initiator
  | responder
  deriving DecidableEq, Repr

def dhLen : Nat := 32

/-- An XX handshake. The steps count from 1, and 4 means that it is finished. -/
structure HandshakeState where
  symmetric : SymmetricState
  s : Keypair
  e : Keypair
  re : Option PublicKey
  rs : Option PublicKey
  role : Role
  step : Nat
  deriving DecidableEq

namespace HandshakeState

def newXx [Sha256] (role : Role) (s e : Keypair) (prologue : List UInt8) : HandshakeState where
  symmetric := SymmetricState.newForProtocol.mixHash prologue
  s
  e
  re := none
  rs := none
  role
  step := 1

def ourTurnToWrite (hs : HandshakeState) : Bool :=
  match hs.role with
  | .initiator => hs.step = 1 ∨ hs.step = 3
  | .responder => hs.step = 2

def isFinished (hs : HandshakeState) : Bool := decide (hs.step > 3)

/-- The first 32 bytes, and the rest. The caller has checked the length. -/
def splitKey (bytes : List UInt8) : Option (PublicKey × List UInt8) :=
  if fits : dhLen ≤ bytes.length then
    some (⟨bytes.take dhLen, List.length_take_of_le fits⟩, bytes.drop dhLen)
  else none

/-- `split_at`, which panics past the end. -/
def splitAt (n : Nat) (bytes : List UInt8) : Option (List UInt8 × List UInt8) :=
  if n ≤ bytes.length then some (bytes.take n, bytes.drop n) else none

/-- A key that was decrypted: the `expect` on its length. -/
def asKey (bytes : List UInt8) : Option PublicKey :=
  if fits : bytes.length = 32 then some ⟨bytes, fits⟩ else none

variable [Sha256] [HmacSha256] [X25519] [ChaCha20Poly1305]

/-- The tokens of a step: what is written for them, and the symmetric state after them. -/
def writeTokens (hs : HandshakeState) : Except NoiseError (List UInt8 × SymmetricState) :=
  match hs.step with
  | 1 => .ok (hs.e.publicKey.bytes, hs.symmetric.mixHash hs.e.publicKey.bytes)
  | 2 =>
    let symmetric := hs.symmetric.mixHash hs.e.publicKey.bytes
    match hs.re with
    | none => .error .outOfOrder
    | some re => do
      let (encS, symmetric) ← (symmetric.mixKey (hs.e.dh re).bytes).encryptAndHash
        hs.s.publicKey.bytes
      .ok (hs.e.publicKey.bytes ++ encS, symmetric.mixKey (hs.s.dh re).bytes)
  | 3 => do
    let (encS, symmetric) ← hs.symmetric.encryptAndHash hs.s.publicKey.bytes
    match hs.re with
    | none => .error .outOfOrder
    | some re => .ok (encS, symmetric.mixKey (hs.s.dh re).bytes)
  -- not reached: it is not our turn
  | _ => .error .outOfOrder

/-- The next message. After an error the handshake is not used any more. -/
def writeMessage (hs : HandshakeState) (payload : List UInt8) :
    Except NoiseError (List UInt8 × HandshakeState) :=
  if hs.step > 3 ∨ ¬ hs.ourTurnToWrite then .error .outOfOrder
  else do
    let (out, symmetric) ← hs.writeTokens
    let (encPayload, symmetric) ← symmetric.encryptAndHash payload
    .ok (out ++ encPayload, { hs with symmetric, step := hs.step + 1 })

/-- The length of a message with an empty payload. -/
def expectedOverhead (hs : HandshakeState) : Nat :=
  match hs.step with
  | 1 => dhLen
  | 2 => dhLen + dhLen + tagLen + tagLen
  | 3 => dhLen + tagLen + tagLen
  | _ => 0

/-- The tokens of a step, read: the handshake after them, and what is left of the message. -/
def readTokens (hs : HandshakeState) (message : List UInt8) :
    Exec NoiseError (HandshakeState × List UInt8) :=
  match hs.step with
  | 1 => do
    let (re, rest) ← .orPanic (splitKey message)
    return ({ hs with symmetric := hs.symmetric.mixHash re.bytes, re := some re }, rest)
  | 2 => do
    let (re, rest) ← .orPanic (splitKey message)
    let symmetric := (hs.symmetric.mixHash re.bytes).mixKey (hs.e.dh re).bytes
    let (encS, rest) ← .orPanic (splitAt (dhLen + tagLen) rest)
    let (sPlain, symmetric) ← .lift (symmetric.decryptAndHash encS)
    let rs ← .orPanic (asKey sPlain)
    return ({ hs with
      symmetric := symmetric.mixKey (hs.e.dh rs).bytes
      re := some re
      rs := some rs }, rest)
  | 3 => do
    let (encS, rest) ← .orPanic (splitAt (dhLen + tagLen) message)
    let (sPlain, symmetric) ← .lift (hs.symmetric.decryptAndHash encS)
    let rs ← .orPanic (asKey sPlain)
    return ({ hs with symmetric := symmetric.mixKey (hs.e.dh rs).bytes, rs := some rs }, rest)
  | _ => .error .panic

/-- Reads the peer's next message and returns its payload. -/
def readMessage (hs : HandshakeState) (message : List UInt8) :
    Exec NoiseError (List UInt8 × HandshakeState) :=
  if hs.step > 3 ∨ hs.ourTurnToWrite then .fail .outOfOrder
  else if message.length < hs.expectedOverhead then .fail .badMessage
  else do
    let (hs, rest) ← hs.readTokens message
    let (payload, symmetric) ← .lift (hs.symmetric.decryptAndHash rest)
    return (payload, { hs with symmetric, step := hs.step + 1 })

omit [Sha256] [X25519] [ChaCha20Poly1305] in
/-- The transport and the peer's static key. The initiator sends on the first cipher. -/
def intoTransport (hs : HandshakeState) : Except NoiseError (TransportState × PublicKey) :=
  if ¬ hs.isFinished then .error .outOfOrder
  else
    match hs.rs with
    | none => .error .outOfOrder
    | some rs =>
      let (c1, c2, hash) := hs.symmetric.split
      match hs.role with
      | .initiator => .ok (.new c1 c2 hash, rs)
      | .responder => .ok (.new c2 c1 hash, rs)

omit [Sha256] [HmacSha256] [X25519] [ChaCha20Poly1305] in
def handshakeHash (hs : HandshakeState) : FixedBytes 32 := hs.symmetric.h

/-! ## The calls in place

`write_message` and `read_message` change the state they are called on. `write` and `read` are the same
calls with the state that an error leaves behind, which the results above drop. -/

omit [HmacSha256] [X25519] [ChaCha20Poly1305] in
def mixHash (hs : HandshakeState) (data : List UInt8) : HandshakeState :=
  { hs with symmetric := hs.symmetric.mixHash data }

omit [Sha256] [X25519] [ChaCha20Poly1305] in
def mixKey (hs : HandshakeState) (ikm : FixedBytes 32) : HandshakeState :=
  { hs with symmetric := hs.symmetric.mixKey ikm.bytes }

omit [HmacSha256] [X25519] in
/-- A cipher that refuses leaves the symmetric state as it was. -/
def encryptAndHash (hs : HandshakeState) (plaintext : List UInt8) :
    Except NoiseError (List UInt8) × HandshakeState :=
  match hs.symmetric.encryptAndHash plaintext with
  | .error e => (.error e, hs)
  | .ok (ciphertext, symmetric) => (.ok ciphertext, { hs with symmetric })

omit [HmacSha256] [X25519] in
def decryptAndHash (hs : HandshakeState) (ciphertext : List UInt8) :
    Exec NoiseError (List UInt8) × HandshakeState :=
  match hs.symmetric.decryptAndHash ciphertext with
  | .error e => (.fail e, hs)
  | .ok (plaintext, symmetric) => (.ok plaintext, { hs with symmetric })

def putTokens (hs : HandshakeState) : Except NoiseError (List UInt8) × HandshakeState :=
  match hs.step with
  | 1 => (.ok hs.e.publicKey.bytes, hs.mixHash hs.e.publicKey.bytes)
  | 2 =>
    match hs.re with
    | none => (.error .outOfOrder, hs.mixHash hs.e.publicKey.bytes)
    | some re =>
      match ((hs.mixHash hs.e.publicKey.bytes).mixKey (hs.e.dh re)).encryptAndHash
          hs.s.publicKey.bytes with
      | (.error e, left) => (.error e, left)
      | (.ok encS, left) => (.ok (hs.e.publicKey.bytes ++ encS), left.mixKey (hs.s.dh re))
  | 3 =>
    match hs.encryptAndHash hs.s.publicKey.bytes with
    | (.error e, left) => (.error e, left)
    | (.ok encS, left) =>
      match hs.re with
      | none => (.error .outOfOrder, left)
      | some re => (.ok encS, left.mixKey (hs.s.dh re))
  | _ => (.error .outOfOrder, hs)

def write (hs : HandshakeState) (payload : List UInt8) :
    Except NoiseError (List UInt8) × HandshakeState :=
  if hs.step > 3 ∨ ¬ hs.ourTurnToWrite then (.error .outOfOrder, hs)
  else
    match hs.putTokens with
    | (.error e, left) => (.error e, left)
    | (.ok out, left) =>
      match left.encryptAndHash payload with
      | (.error e, left) => (.error e, left)
      | (.ok encPayload, left) => (.ok (out ++ encPayload), { left with step := left.step + 1 })

/-- The end of a message, from the encrypted static key on. -/
def takeStatic (hs : HandshakeState) (message : List UInt8) :
    Exec NoiseError (List UInt8) × HandshakeState :=
  match splitAt (dhLen + tagLen) message with
  | none => (.error .panic, hs)
  | some (encS, rest) =>
    match hs.decryptAndHash encS with
    | (.error trap, left) => (.error trap, left)
    | (.ok sPlain, left) =>
      match asKey sPlain with
      | none => (.error .panic, left)
      | some rs => (.ok rest, { left with rs := some rs }.mixKey (hs.e.dh rs))

def takeTokens (hs : HandshakeState) (message : List UInt8) :
    Exec NoiseError (List UInt8) × HandshakeState :=
  match hs.step with
  | 1 =>
    match splitKey message with
    | none => (.error .panic, hs)
    | some (re, rest) => (.ok rest, { hs.mixHash re.bytes with re := some re })
  | 2 =>
    match splitKey message with
    | none => (.error .panic, hs)
    | some (re, rest) => ({ hs.mixHash re.bytes with re := some re }.mixKey (hs.e.dh re)).takeStatic rest
  | 3 => hs.takeStatic message
  | _ => (.error .panic, hs)

def read (hs : HandshakeState) (message : List UInt8) :
    Exec NoiseError (List UInt8) × HandshakeState :=
  if hs.step > 3 ∨ hs.ourTurnToWrite then (.fail .outOfOrder, hs)
  else if message.length < hs.expectedOverhead then (.fail .badMessage, hs)
  else
    match hs.takeTokens message with
    | (.error trap, left) => (.error trap, left)
    | (.ok rest, left) =>
      match left.decryptAndHash rest with
      | (.error trap, left) => (.error trap, left)
      | (.ok payload, left) => (.ok payload, { left with step := left.step + 1 })

end HandshakeState

end Racnet.Noise
