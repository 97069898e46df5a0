import Racnet.Noise.Handshake
import Racnet.Sync.Session
import Racnet.Wire.Frame

namespace Racnet.Link
open Lib Noise Store Sync Wire

def wireVersion : UInt64 := 1

/-- 24 hours. -/
def maxLifetimeUs : UInt64 := 86400000000

structure LinkDriverConfig where
  versions : List UInt64
  features : UInt64
  transports : List UInt64
  maxLifetimeUs : UInt64
  handshakeTimeoutUs : UInt64
  sync : SyncConfig
  deriving DecidableEq

def LinkDriverConfig.default : LinkDriverConfig where
  versions := [wireVersion]
  features := 0
  transports := [1]
  maxLifetimeUs := Link.maxLifetimeUs
  handshakeTimeoutUs := 30000000
  sync := .default

inductive CloseReason where
  | versionIncompatible
  | handshakeFailed
  | handshakeTimeout
  | badCiphertextLength
  | decryptFailed
  | protocolViolation (code : UInt64)
  | peerError (code : UInt64)
  | lifetimeExpired
  | nonceExhausted
  deriving DecidableEq, Repr

inductive LinkEvent where
  | established (remote : Noise.Fingerprint)
  | sync (event : SyncEvent)
  | closed (reason : CloseReason)
  deriving DecidableEq

structure LinkOutput where
  frames : List (List UInt8) := []
  events : List LinkEvent := []
  deriving DecidableEq

inductive LinkError where
  | notEstablished
  | notPermitted
  | sync (error : SyncError)
  deriving DecidableEq

def LinkError.toString : LinkError → String
  | notEstablished => "link not established"
  | notPermitted => "message type not permitted on an established link"
  | sync error => error.toString

inductive LinkState where
  | awaitPeerHello
  | handshaking (hs : HandshakeState)
  | transport (transport : TransportState)
  | closed (reason : CloseReason)

/-- One link. The keys are held until the handshake starts. -/
structure LinkDriver where
  role : LinkRole
  state : LinkState
  config : LinkDriverConfig
  decoder : FrameDecoder
  syncer : Syncer
  keys : Option (Keypair × Keypair)
  ourHelloBody : List UInt8
  remoteFingerprint : Option Noise.Fingerprint
  negotiatedVersion : Option UInt64
  openedAtUs : UInt64

namespace LinkDriver

/-! ## Reading the state -/

def new (role : LinkRole) (staticKeys ephemeral : Keypair) (config : LinkDriverConfig)
    (nowUs : UInt64) : LinkDriver where
  role
  state := .awaitPeerHello
  config
  decoder := .new
  syncer := .new role config.sync
  keys := some (staticKeys, ephemeral)
  ourHelloBody := []
  remoteFingerprint := none
  negotiatedVersion := none
  openedAtUs := nowUs

def isEstablished (driver : LinkDriver) : Bool :=
  match driver.state with
  | .transport _ => true
  | _ => false

def closeReason (driver : LinkDriver) : Option CloseReason :=
  match driver.state with
  | .closed reason => some reason
  | _ => none

/-- The state is `Closed`. -/
def isClosed (driver : LinkDriver) : Bool := driver.closeReason.isSome

/-! ## Closing and queueing

The functions below change the driver and the output, and return both. -/

/-- Drops all that is queued. -/
def closeSilently (driver : LinkDriver) (reason : CloseReason) (out : LinkOutput) :
    LinkDriver × LinkOutput :=
  ({ driver with state := .closed reason, keys := none },
    { frames := [], events := out.events ++ [.closed reason] })

def checkTimeouts (driver : LinkDriver) (nowUs : UInt64) (out : LinkOutput) :
    Bool × LinkDriver × LinkOutput :=
  if driver.isClosed then (true, driver, out)
  else if ¬ driver.isEstablished ∧
      nowUs.toNat - driver.openedAtUs.toNat ≥ driver.config.handshakeTimeoutUs.toNat then
    (true, driver.closeSilently .handshakeTimeout out)
  else if nowUs.toNat - driver.openedAtUs.toNat ≥ driver.config.maxLifetimeUs.toNat then
    (true, driver.closeSilently .lifetimeExpired out)
  else (false, driver, out)

def ourHello (driver : LinkDriver) : Message :=
  .hello ⟨driver.config.versions, driver.config.features, driver.config.transports⟩

/-- Panics when our own HELLO does not encode. -/
def queueHello (driver : LinkDriver) (out : LinkOutput) : Option (LinkDriver × LinkOutput) :=
  match encodeMessage driver.ourHello with
  | .error _ => none
  | .ok body =>
    some ({ driver with ourHelloBody := body },
      { out with frames := out.frames ++ [frameBytes body] })

def queueHandshakeFrame (driver : LinkDriver) (noiseMsg : List UInt8) (out : LinkOutput) :
    LinkDriver × LinkOutput :=
  match encodeFrame (.handshake ⟨noiseMsg⟩) with
  | .ok frame => (driver, { out with frames := out.frames ++ [frame] })
  | .error _ => driver.closeSilently .handshakeFailed out

section
variable [ChaCha20Poly1305]

def encryptFrame (transport : TransportState) (msg : Message) :
    Except NoiseError (List UInt8) × TransportState :=
  match encodeMessage msg with
  | .error _ => (.error .badMessage, transport)
  | .ok plaintext =>
    let (result, transport) := transport.encrypt plaintext
    (result.map frameBytes, transport)

/-- The ERROR frame of a close: encrypted inside the transport epoch, cleartext otherwise. -/
def errorFrame (driver : LinkDriver) (code : UInt64) : List (List UInt8) :=
  match driver.state with
  | .transport transport => (encryptFrame transport (.error ⟨code⟩)).1.toOption.toList
  | _ => (encodeFrame (.error ⟨code⟩)).toOption.toList

def closeWithError (driver : LinkDriver) (code : UInt64) (reason : CloseReason)
    (out : LinkOutput) : LinkDriver × LinkOutput :=
  ({ driver with state := .closed reason, keys := none },
    { frames := out.frames ++ driver.errorFrame code, events := out.events ++ [.closed reason] })

/-- Any failure to encrypt closes the link. -/
def queueEncrypted (driver : LinkDriver) (msg : Message) (out : LinkOutput) :
    LinkDriver × LinkOutput :=
  match driver.state with
  | .transport transport =>
    match encryptFrame transport msg with
    | (.ok frame, transport) =>
      ({ driver with state := .transport transport },
        { out with frames := out.frames ++ [frame] })
    | (.error _, _) => driver.closeSilently .nonceExhausted out
  | _ => (driver, out)

/-- The loop over the replies, which ends early when the link closes. -/
def queueReplies : LinkDriver → List Message → LinkOutput → LinkDriver × LinkOutput
  | driver, [], out => (driver, out)
  | driver, reply :: replies, out =>
    let (driver, out) := driver.queueEncrypted reply out
    if driver.isClosed then (driver, out) else queueReplies driver replies out

end

/-! ## Bodies

A handler is given the driver with its state parked as `Closed(HandshakeFailed)`. The result is `none`
where the program panics. -/

section
variable [Sha256] [HmacSha256] [X25519] [ChaCha20Poly1305]

/-- Whether a message is the one ERROR that the cleartext epoch carries. -/
def isVersionError : Message → Bool
  | .error err => err.code = 2
  | _ => false

omit [Sha256] [HmacSha256] [X25519] [ChaCha20Poly1305] in
/-- The responder answers with its own HELLO. -/
def answerHello (driver : LinkDriver) (out : LinkOutput) : Option (LinkDriver × LinkOutput) :=
  match driver.role with
  | .responder => driver.queueHello out
  | .initiator => some (driver, out)

/-- Starts the handshake once both HELLOs are known. -/
def beginHandshake (driver : LinkDriver) (body : List UInt8) (out : LinkOutput) :
    Option (LinkDriver × LinkOutput) :=
  match driver.keys with
  -- `keys.take().expect(..)`
  | none => none
  | some (staticKeys, ephemeral) =>
    let driver := { driver with keys := none }
    match driver.role with
    | .responder =>
      let hs := HandshakeState.newXx .responder staticKeys ephemeral (body ++ driver.ourHelloBody)
      some ({ driver with state := .handshaking hs }, out)
    | .initiator =>
      let hs := HandshakeState.newXx .initiator staticKeys ephemeral (driver.ourHelloBody ++ body)
      match hs.writeMessage [] with
      | .error _ => some (driver.closeSilently .handshakeFailed out)
      | .ok (noiseMsg, hs) =>
        let (driver, out) := driver.queueHandshakeFrame noiseMsg out
        some ({ driver with state := .handshaking hs }, out)

/-- The highest version of the peer that is one of ours. -/
def commonVersion (driver : LinkDriver) (hello : Hello) : Option UInt64 :=
  (hello.versions.filter fun version => decide (version ∈ driver.config.versions)).max?

def handleHelloBody (driver : LinkDriver) (body : List UInt8) (out : LinkOutput) :
    Option (LinkDriver × LinkOutput) :=
  match decodeMessage body with
  | .error _ => some (driver.closeSilently .handshakeFailed out)
  | .ok (.hello hello) =>
    match driver.commonVersion hello with
    | none => some (driver.closeWithError 2 .versionIncompatible out)
    | some version => do
      let (driver, out) ← { driver with negotiatedVersion := some version }.answerHello out
      driver.beginHandshake body out
  | .ok msg =>
    if isVersionError msg then some (driver.closeSilently .versionIncompatible out)
    else some (driver.closeSilently .handshakeFailed out)

/-- What follows a handshake message that was read: the next one is written, or the link is
established. -/
def advanceHandshake (driver : LinkDriver) (hs : HandshakeState) (out : LinkOutput) :
    LinkDriver × LinkOutput :=
  if hs.isFinished then
    match hs.intoTransport with
    | .error _ => driver.closeSilently .handshakeFailed out
    | .ok (transport, remoteStatic) =>
      let remote := fingerprintOf remoteStatic
      ({ driver with remoteFingerprint := some remote, state := .transport transport },
        { out with events := out.events ++ [.established remote] })
  else ({ driver with state := .handshaking hs }, out)

def handleHandshakeBody (driver : LinkDriver) (hs : HandshakeState) (body : List UInt8)
    (out : LinkOutput) : Option (LinkDriver × LinkOutput) :=
  match decodeMessage body with
  | .error _ => some (driver.closeSilently .handshakeFailed out)
  | .ok (.handshake handshake) =>
    match hs.readMessage handshake.msg with
    | .error .panic => none
    | .ok ([], hs) =>
      if hs.isFinished then some (driver.advanceHandshake hs out)
      else
        match hs.writeMessage [] with
        | .error _ => some (driver.closeSilently .handshakeFailed out)
        | .ok (noiseMsg, hs) =>
          let (driver, out) := driver.queueHandshakeFrame noiseMsg out
          some (driver.advanceHandshake hs out)
    | .ok (_ :: _, _) | .error (.err _) => some (driver.closeSilently .handshakeFailed out)
  | .ok msg =>
    if isVersionError msg then some (driver.closeSilently .versionIncompatible out)
    else some (driver.closeSilently .handshakeFailed out)

variable [Ed25519]

omit [HmacSha256] [X25519] in
/-- A message of the sync layer. Its events are kept also when it fails. -/
def handleSyncMessage (driver : LinkDriver) (store : EntryStore) (msg : Message)
    (out : LinkOutput) : Option (LinkDriver × EntryStore × LinkOutput) :=
  let handled := driver.syncer.handleMessageInto store msg {}
  let driver := { driver with syncer := handled.syncer }
  let out := { out with events := out.events ++ handled.output.events.map .sync }
  match handled.result with
  | .error .panic => none
  | .ok () =>
    let (driver, out) := driver.queueReplies handled.output.replies out
    some (driver, handled.store, out)
  | .error (.err err) =>
    let code := err.errorCode.toU64
    let (driver, out) := driver.closeWithError code (.protocolViolation code) out
    some (driver, handled.store, out)

omit [HmacSha256] [X25519] in
/-- Gate, decrypt, decode, and hand over to the sync layer. -/
def handleTransportBody (driver : LinkDriver) (transport : TransportState) (store : EntryStore)
    (body : List UInt8) (out : LinkOutput) : Option (LinkDriver × EntryStore × LinkOutput) :=
  if body.length < tagLen ∨ ¬ isPaddedLen (body.length - tagLen) then
    let (driver, out) := driver.closeSilently .badCiphertextLength out
    some (driver, store, out)
  else
    match transport.decrypt body with
    | (.error .nonceExhausted, _) =>
      let (driver, out) := driver.closeSilently .nonceExhausted out
      some (driver, store, out)
    | (.error _, _) =>
      let (driver, out) := driver.closeSilently .decryptFailed out
      some (driver, store, out)
    | (.ok plaintext, transport) =>
      let driver := { driver with state := .transport transport }
      match decodeMessage plaintext with
      | .error _ =>
        let (driver, out) := driver.closeWithError 1 (.protocolViolation 1) out
        some (driver, store, out)
      | .ok (.hello _) | .ok (.handshake _) =>
        let (driver, out) := driver.closeWithError 3 (.protocolViolation 3) out
        some (driver, store, out)
      | .ok (.error err) =>
        let (driver, out) := driver.closeSilently (.peerError err.code) out
        some (driver, store, out)
      | .ok msg => driver.handleSyncMessage store msg out

def handleBody (driver : LinkDriver) (store : EntryStore) (body : List UInt8) (out : LinkOutput) :
    Option (LinkDriver × EntryStore × LinkOutput) :=
  let parked := { driver with state := .closed .handshakeFailed }
  match driver.state with
  | .awaitPeerHello => do
    let (driver, out) ← parked.handleHelloBody body out
    some (driver, store, out)
  | .handshaking hs => do
    let (driver, out) ← parked.handleHandshakeBody hs body out
    some (driver, store, out)
  | .transport transport => parked.handleTransportBody transport store body out
  | .closed _ => some (driver, store, out)

/-- The loop over the complete bodies, which ends early when the link closes. Every body takes bytes
from the buffer, so its length is fuel enough. -/
def handleBodies : Nat → LinkDriver → EntryStore → LinkOutput →
    Option (LinkDriver × EntryStore × LinkOutput)
  | 0, driver, store, out => some (driver, store, out)
  | fuel + 1, driver, store, out =>
    match driver.decoder.nextBody with
    | (none, _) => some (driver, store, out)
    | (some body, decoder) => do
      let (driver, store, out) ← { driver with decoder }.handleBody store body out
      if driver.isClosed then some (driver, store, out) else handleBodies fuel driver store out

/-! ## Calls -/

omit [Sha256] [HmacSha256] [X25519] [ChaCha20Poly1305] [Ed25519] in
/-- The initiator opens with its HELLO. -/
def start (driver : LinkDriver) : Option (LinkDriver × LinkOutput) :=
  match driver.role, driver.state with
  | .initiator, .awaitPeerHello => driver.queueHello {}
  | _, _ => some (driver, {})

/-- Bytes of the stream, however they are cut. -/
def onBytes (driver : LinkDriver) (store : EntryStore) (bytes : List UInt8) (nowUs : UInt64) :
    Option (LinkDriver × EntryStore × LinkOutput) :=
  match driver.checkTimeouts nowUs {} with
  | (true, driver, out) => some (driver, store, out)
  | (false, driver, out) =>
    let driver := { driver with decoder := driver.decoder.push bytes }
    handleBodies driver.decoder.buf.length driver store out

omit [Sha256] [HmacSha256] [X25519] [ChaCha20Poly1305] [Ed25519] in
def onTick (driver : LinkDriver) (nowUs : UInt64) : LinkDriver × LinkOutput :=
  (driver.checkTimeouts nowUs {}).2

omit [HmacSha256] [X25519] [Ed25519] in
/-- Opens a session. The session stays open when the link closes over its first message. -/
def openSync (driver : LinkDriver) (store : EntryStore) (window : SortKeyWindow) :
    Exec LinkError (UInt64 × LinkOutput) × LinkDriver :=
  if ¬ driver.isEstablished then (.fail .notEstablished, driver)
  else
    match driver.syncer.openSession store window with
    | (.error .panic, syncer) => (.error .panic, { driver with syncer })
    | (.error (.err e), syncer) => (.fail (.sync e), { driver with syncer })
    | (.ok (sid, msg), syncer) =>
      let (driver, out) := { driver with syncer }.queueEncrypted msg {}
      (.ok (sid, out), driver)

omit [Sha256] [HmacSha256] [X25519] [Ed25519] in
/-- Sends a message. An ERROR closes the link. -/
def send (driver : LinkDriver) (msg : Message) : Except LinkError LinkOutput × LinkDriver :=
  if ¬ driver.isEstablished then (.error .notEstablished, driver)
  else
    match msg with
    | .hello _ | .handshake _ => (.error .notPermitted, driver)
    | .error error =>
      let (driver, out) := driver.closeWithError error.code (.protocolViolation error.code) {}
      (.ok out, driver)
    | msg =>
      let (driver, out) := driver.queueEncrypted msg {}
      (.ok out, driver)

end

end LinkDriver

end Racnet.Link
