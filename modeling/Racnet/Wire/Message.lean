import Racnet.Wire.Payload

namespace Racnet.Wire
open Lib

/-! ## Padding -/

def blockSizes : List Nat := [256, 512, 1024, 2048]

def maxPaddedLen : Nat := 63488

def paddedLen (unpadded : Nat) : Option Nat :=
  if unpadded > maxPaddedLen then none
  else
    match blockSizes.find? (unpadded ≤ ·) with
    | some block => some block
    | none =>
      let padded := (unpadded + 2047) / 2048 * 2048
      if padded ≤ maxPaddedLen then some padded else none

def isPaddedLen (len : Nat) : Bool := paddedLen len = some len

/-! ## Messages -/

def headerLen : Nat := 3

inductive MsgType where
  | hello
  | handshake
  | gossipPush
  | reconInit
  | reconMsg
  | reconDone
  | error
  deriving DecidableEq, Repr

def MsgType.toU8 : MsgType → UInt8
  | hello => 0x01
  | handshake => 0x02
  | gossipPush => 0x10
  | reconInit => 0x20
  | reconMsg => 0x21
  | reconDone => 0x22
  | error => 0x70

def MsgType.tryFrom (value : UInt8) : Except WireError MsgType :=
  if value = 0x01 then .ok hello
  else if value = 0x02 then .ok handshake
  else if value = 0x10 then .ok gossipPush
  else if value = 0x20 then .ok reconInit
  else if value = 0x21 then .ok reconMsg
  else if value = 0x22 then .ok reconDone
  else if value = 0x70 then .ok error
  else .error (.unknownMsgType value)

namespace Message

def msgType : Message → MsgType
  | hello _ => .hello
  | handshake _ => .handshake
  | gossipPush _ => .gossipPush
  | reconInit _ => .reconInit
  | reconMsg _ => .reconMsg
  | reconDone _ => .reconDone
  | error _ => .error

def payloadBytes : Message → List UInt8
  | hello p => p.encode
  | handshake p => p.encode
  | gossipPush p => p.encode
  | reconInit p => p.encode
  | reconMsg p => p.encode
  | reconDone p => p.encode
  | error p => p.encode

end Message

/-- The lists that a message may not leave empty. -/
def validate : Message → Except WireError Unit
  | .hello h =>
    if h.versions = [] then .error (.schema "hello versions list must not be empty") else .ok ()
  | .gossipPush p =>
    if p.entries = [] then .error (.schema "gossip-push entries list must not be empty")
    else .ok ()
  | _ => .ok ()

/-- The type, the length of the payload, the payload, and zeros up to the padded length. -/
def encodeMessage (msg : Message) : Except WireError (List UInt8) := do
  validate msg
  match paddedLen (headerLen + msg.payloadBytes.length) with
  | none => .error .tooLarge
  | some padded =>
    .ok (msg.msgType.toU8 :: (beBytes 2 msg.payloadBytes.length ++ (msg.payloadBytes ++
      List.replicate (padded - (headerLen + msg.payloadBytes.length)) 0)))

/-- Reads the payload of a message of a known type. -/
def decodePayload : MsgType → Cbor.Reader Message
  | .hello, input => do let (p, rest) ← Hello.decode input; some (.hello p, rest)
  | .handshake, input => do let (p, rest) ← Handshake.decode input; some (.handshake p, rest)
  | .gossipPush, input => do let (p, rest) ← GossipPush.decode input; some (.gossipPush p, rest)
  | .reconInit, input => do let (p, rest) ← ReconInit.decode input; some (.reconInit p, rest)
  | .reconMsg, input => do let (p, rest) ← ReconMsg.decode input; some (.reconMsg p, rest)
  | .reconDone, input => do let (p, rest) ← ReconDone.decode input; some (.reconDone p, rest)
  | .error, input => do let (p, rest) ← ErrorMsg.decode input; some (.error p, rest)

/-- The text of a decoder error is the library's. -/
def cborError : WireError := .cbor "malformed item"

/-- The padding is not looked at, apart from its length. -/
def decodeMessage (body : List UInt8) : Except WireError Message :=
  match body with
  | type :: high :: low :: rest =>
    let payloadLen := ofBe [high, low]
    if body.length < 256 then .error (.badFrameLength body.length)
    else if paddedLen (headerLen + payloadLen) ≠ some body.length then
      .error (.badPayloadLength payloadLen)
    else do
      let msgType ← MsgType.tryFrom type
      match decodePayload msgType (rest.take payloadLen) with
      | none => .error cborError
      | some (msg, []) => do
        validate msg
        .ok msg
      | some (_, _ :: _) => .error .trailingBytes
  | _ => .error (.badFrameLength body.length)

end Racnet.Wire
