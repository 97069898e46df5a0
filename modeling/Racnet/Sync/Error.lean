import Racnet.Lib.Exec
import Racnet.Wire.Error

namespace Racnet.Sync

inductive SyncError where
  | storage
  | violation (reason : String)
  | resourceLimit
  | malformed (reason : String)
  | unsupportedVersion (version : UInt8)
  | frameLimitTooSmall (floor : Nat)
  | alreadyInitiated
  deriving DecidableEq, Repr

/-- The format `{:#04x}` of a byte. -/
def hexByte (byte : UInt8) : String :=
  "0x" ++ String.ofList [Nat.digitChar (byte.toNat / 16), Nat.digitChar (byte.toNat % 16)]

def SyncError.toString : SyncError → String
  | storage => "local storage unavailable"
  | violation reason => "protocol violation: " ++ reason
  | resourceLimit => "resource limit exceeded"
  | malformed reason => "malformed negentropy message: " ++ reason
  | unsupportedVersion version => "unsupported negentropy protocol version byte " ++ hexByte version
  | frameLimitTooSmall floor => "frame size limit below " ++ floor.repr ++ "-byte floor"
  | alreadyInitiated => "reconciliation already initiated"

open Wire in
/-- The code that a link reports before it closes. -/
def SyncError.errorCode : SyncError → ErrorCode
  | violation _ | malformed _ => .protocolViolation
  | storage => .internal
  | resourceLimit => .resourceLimit
  | unsupportedVersion _ | frameLimitTooSmall _ | alreadyInitiated => .internal

end Racnet.Sync
