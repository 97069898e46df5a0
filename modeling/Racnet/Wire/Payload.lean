import Racnet.Lib.Cbor.Skip
import Racnet.Wire.Entry

namespace Racnet.Wire

structure Hello where
  versions : List UInt64
  features : UInt64
  transports : List UInt64
  deriving DecidableEq

structure Handshake where
  msg : List UInt8
  deriving DecidableEq

structure GossipPush where
  entries : List Entry
  ttl : UInt64
  deriving DecidableEq

/-- A range of sort keys: from `since` on, and before `until_`. -/
structure SortKeyWindow where
  since : UInt64
  until_ : UInt64
  deriving DecidableEq

structure ReconInit where
  sid : UInt64
  window : SortKeyWindow
  msg : List UInt8
  deriving DecidableEq

structure ReconMsg where
  sid : UInt64
  msg : List UInt8
  deriving DecidableEq

structure ReconDone where
  sid : UInt64
  deriving DecidableEq

structure ErrorMsg where
  code : UInt64
  deriving DecidableEq

inductive Message where
  | hello (payload : Hello)
  | handshake (payload : Handshake)
  | gossipPush (payload : GossipPush)
  | reconInit (payload : ReconInit)
  | reconMsg (payload : ReconMsg)
  | reconDone (payload : ReconDone)
  | error (payload : ErrorMsg)
  deriving DecidableEq

/-! ## Encoding

The derived encoders write the fields in the order of their keys. -/

open Lib Lib.Cbor

def encodeU64 (n : UInt64) : List UInt8 := unsigned n.toNat

def Hello.encode (hello : Hello) : List UInt8 :=
  record [list encodeU64 hello.versions, encodeU64 hello.features, list encodeU64 hello.transports]

def Handshake.encode (handshake : Handshake) : List UInt8 := record [byteString handshake.msg]

def GossipPush.encode (push : GossipPush) : List UInt8 :=
  record [list Entry.toBytes push.entries, encodeU64 push.ttl]

def SortKeyWindow.encode (window : SortKeyWindow) : List UInt8 :=
  array 2 ++ (encodeU64 window.since ++ encodeU64 window.until_)

def ReconInit.encode (init : ReconInit) : List UInt8 :=
  record [encodeU64 init.sid, init.window.encode, byteString init.msg]

def ReconMsg.encode (recon : ReconMsg) : List UInt8 :=
  record [encodeU64 recon.sid, byteString recon.msg]

def ReconDone.encode (done : ReconDone) : List UInt8 := record [encodeU64 done.sid]

def ErrorMsg.encode (error : ErrorMsg) : List UInt8 := record [encodeU64 error.code]

/-! ## Decoding -/

/-- What becomes of fields with unknown keys. Of it only that it leaves no more input than it was given
is used. -/
@[irreducible] def skipUnknown : Skip := nested

def decodeU64 : Reader UInt64 := fun input => do
  let (n, rest) ← readUnsigned input
  some (UInt64.ofNat n, rest)

def Hello.decode : Reader Hello := fun input => do
  let ((versions, features, transports), rest) ←
    readRecord3 skipUnknown (readList decodeU64) decodeU64 (readList decodeU64) input
  some (⟨versions, features, transports⟩, rest)

def Handshake.decode : Reader Handshake := fun input => do
  let (msg, rest) ← readRecord1 skipUnknown readBytes input
  some (⟨msg⟩, rest)

def GossipPush.decode : Reader GossipPush := fun input => do
  let ((entries, ttl), rest) ← readRecord2 skipUnknown (readList Entry.decode) decodeU64 input
  some (⟨entries, ttl⟩, rest)

def SortKeyWindow.decode : Reader SortKeyWindow := fun input => do
  let ((since, until_), rest) ← readPair skipUnknown decodeU64 decodeU64 input
  some (⟨since, until_⟩, rest)

def ReconInit.decode : Reader ReconInit := fun input => do
  let ((sid, window, msg), rest) ← readRecord3 skipUnknown decodeU64 SortKeyWindow.decode readBytes input
  some (⟨sid, window, msg⟩, rest)

def ReconMsg.decode : Reader ReconMsg := fun input => do
  let ((sid, msg), rest) ← readRecord2 skipUnknown decodeU64 readBytes input
  some (⟨sid, msg⟩, rest)

def ReconDone.decode : Reader ReconDone := fun input => do
  let (sid, rest) ← readRecord1 skipUnknown decodeU64 input
  some (⟨sid⟩, rest)

def ErrorMsg.decode : Reader ErrorMsg := fun input => do
  let (code, rest) ← readRecord1 skipUnknown decodeU64 input
  some (⟨code⟩, rest)

end Racnet.Wire
