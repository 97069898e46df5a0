import Mathlib.Tactic.Common

namespace Racnet.Wire

inductive WireError where
  | tooLarge
  | badFrameLength (len : Nat)
  | badPayloadLength (len : Nat)
  | schema (reason : String)
  | unknownMsgType (type : UInt8)
  | cbor (reason : String)
  | trailingBytes
  | badSignature
  deriving DecidableEq, Repr

/-- The codes that an ERROR message carries. -/
inductive ErrorCode where
  | protocolViolation
  | versionIncompatible
  | badState
  | resourceLimit
  | internal
  deriving DecidableEq, Repr

def ErrorCode.toU64 : ErrorCode → UInt64
  | protocolViolation => 1
  | versionIncompatible => 2
  | badState => 3
  | resourceLimit => 4
  | internal => 5

end Racnet.Wire
