import Racnet.Api.View
import Racnet.Link.Driver
import Racnet.Link.Limiter

namespace Racnet.Api
open Lib Noise Store Sync Wire Link

structure Identity where
  noiseSeed : List UInt8
  signingSeed : List UInt8

structure LinkOpen where
  linkId : UInt64
  initialFrames : List (List UInt8)

inductive CloseCause where
  | versionIncompatible
  | handshakeFailed
  | badCiphertextLength
  | decryptFailed
  | protocolViolation (code : UInt64)
  | peerError (code : UInt64)
  | lifetimeExpired
  | nonceExhausted
  | transportClosed
  | handshakeTimeout
  deriving DecidableEq, Repr

/-- What a call reports about a link. -/
inductive Event where
  | established (linkId : UInt64) (remoteFingerprint : List UInt8)
  | entryStored (linkId : UInt64) (entryId : List UInt8)
  | duplicateIgnored (linkId : UInt64) (entryId : List UInt8)
  | reconciled (linkId sessionId : UInt64) (haveIds needIds : List (List UInt8))
  | syncSessionClosed (linkId sessionId : UInt64) (openedByUs : Bool)
  | closed (linkId : UInt64) (cause : CloseCause)
  deriving DecidableEq

def Event.linkId : Event → UInt64
  | .established linkId _ | .entryStored linkId _ | .duplicateIgnored linkId _ | .reconciled linkId _ _ _
  | .syncSessionClosed linkId _ _ | .closed linkId _ => linkId

structure LinkIo where
  frames : List (List UInt8) := []
  events : List Event := []

structure SyncStart where
  sessionId : UInt64
  io : LinkIo

structure LinkStatus where
  established : Bool
  remoteFingerprint : Option (List UInt8)

inductive ApiError where
  | storage (reason : String)
  | invalidIdentity
  | unknownLink
  | notEstablished
  | syncRefused (reason : String)
  | invalidArgument (reason : String)
  | entropy
  deriving DecidableEq

/-- A key pair from the platform's entropy, which may be unavailable. -/
def freshEphemeral [X25519] (entropy : Option (FixedBytes 32)) : Except ApiError Keypair :=
  match entropy with
  | none => .error .entropy
  | some bytes => .ok (.fromSecretBytes bytes)

def closeCause : CloseReason → CloseCause
  | .versionIncompatible => .versionIncompatible
  | .handshakeFailed => .handshakeFailed
  | .handshakeTimeout => .handshakeTimeout
  | .badCiphertextLength => .badCiphertextLength
  | .decryptFailed => .decryptFailed
  | .protocolViolation code => .protocolViolation code
  | .peerError code => .peerError code
  | .lifetimeExpired => .lifetimeExpired
  | .nonceExhausted => .nonceExhausted

def mapEvent (linkId : UInt64) : LinkEvent → Event
  | .established remote => .established linkId remote.bytes
  | .sync (.stored id) => .entryStored linkId id.bytes
  | .sync (.duplicateIgnored id) => .duplicateIgnored linkId id.bytes
  | .sync (.reconciled sid haveIds needIds) =>
    .reconciled linkId sid (haveIds.map FixedBytes.bytes) (needIds.map FixedBytes.bytes)
  | .sync (.sessionClosed sid openedByUs) => .syncSessionClosed linkId sid openedByUs
  | .closed reason => .closed linkId (closeCause reason)

/-- A link and its ticket of the limiter, which is held until the handshake completes. -/
structure LiveLink where
  driver : LinkDriver
  ticket : Option UInt64

/-- A device. Every call holds the lock from its start to its end, so the calls follow one another. Where a
call panics its result is `none`. -/
structure Node where
  fingerprint : Noise.Fingerprint
  noiseSeed : FixedBytes 32
  signingKey : FixedBytes 32
  store : EntryStore
  limiter : HandshakeLimiter
  links : AList fun _ : UInt64 => LiveLink
  nextLinkId : UInt64
  lastNowUs : UInt64

namespace Node

/-! ## Keeping the tables -/

def clampNow (node : Node) (nowUs : UInt64) : UInt64 × Node :=
  let now := max node.lastNowUs nowUs
  (now, { node with lastNowUs := now })

/-- Removes a link, with its ticket if it never was established. -/
def retire (node : Node) (linkId : UInt64) : Node :=
  match node.links.lookup linkId with
  | none => node
  | some link =>
    let node := { node with links := node.links.erase linkId }
    match link.ticket with
    | none => node
    | some ticket => { node with limiter := node.limiter.closed ticket }

/-- The ticket of a link whose handshake completed. -/
def releaseTicket (node : Node) (linkId : UInt64) : Node :=
  match node.links.lookup linkId with
  | none => node
  | some link =>
    match link.ticket with
    | none => node
    | some ticket => { node with
        links := node.links.insert linkId { link with ticket := none }
        limiter := node.limiter.established ticket }

def settleEvent (linkId : UInt64) (node : Node) : Event → Node
  | .established _ _ => node.releaseTicket linkId
  | .closed _ _ => node.retire linkId
  | _ => node

def settle (node : Node) (linkId : UInt64) (events : List Event) : Node :=
  events.foldl (settleEvent linkId) node

/-- What follows a call of the driver of a link: its events are mapped and settled. -/
def afterCall (node : Node) (linkId : UInt64) (link : LiveLink) (driver : LinkDriver)
    (out : LinkOutput) : Node × LinkIo :=
  let io : LinkIo := ⟨out.frames, out.events.map (mapEvent linkId)⟩
  let node := { node with links := node.links.insert linkId { link with driver } }
  (node.settle linkId io.events, io)

/-! ## Calls -/

def asSeed (bytes : List UInt8) : Except ApiError (FixedBytes 32) :=
  if size : bytes.length = 32 then .ok ⟨bytes, size⟩ else .error .invalidIdentity

section
variable [Sha256] [HmacSha256] [X25519] [ChaCha20Poly1305] [Ed25519]

omit [HmacSha256] [ChaCha20Poly1305] [Ed25519] in
def new (identity : Identity) : Except ApiError Node := do
  let noiseSeed ← asSeed identity.noiseSeed
  let signingSeed ← asSeed identity.signingSeed
  .ok {
    fingerprint := fingerprintOf (Keypair.fromSecretBytes noiseSeed).publicKey
    noiseSeed
    signingKey := signingSeed
    store := EntryStore.new
    limiter := HandshakeLimiter.new .default
    links := ∅
    nextLinkId := 0
    lastNowUs := 0 }

omit [HmacSha256] [ChaCha20Poly1305] in
/-- `Node::open` with the journal in a file. -/
def openAt (identity : Identity) (hasParent : Bool) (file : File) : Option (Except ApiError Node) :=
  match new identity with
  | .error error => some (.error error)
  | .ok node =>
    match Journal.openFile hasParent file with
    | .ok store _ => some (.ok { node with store })
    | .error (.err error) _ => some (.error (.storage error.toString))
    | .error .panic _ => none

omit [Sha256] [HmacSha256] [ChaCha20Poly1305] [Ed25519] in
def connect (node : Node) (entropy : Option (FixedBytes 32)) (nowUs : UInt64) :
    Option (Node × Except ApiError LinkOpen) :=
  match freshEphemeral entropy with
  | .error error => some (node, .error error)
  | .ok ephemeral => do
    let (now, node) := node.clampNow nowUs
    let (driver, out) ← (LinkDriver.new .initiator (.fromSecretBytes node.noiseSeed) ephemeral
      .default now).start
    let linkId := node.nextLinkId
    let nextLinkId ← checked64 (linkId.toNat + 1)
    some ({ node with
      nextLinkId := UInt64.ofNat nextLinkId
      links := node.links.insert linkId ⟨driver, none⟩ }, .ok ⟨linkId, out.frames⟩)

omit [Sha256] [HmacSha256] [ChaCha20Poly1305] [Ed25519] in
def accept (node : Node) (entropy : Option (FixedBytes 32)) (remoteAddr : Address)
    (nowUs : UInt64) : Option (Node × Except ApiError (Option LinkOpen)) :=
  match freshEphemeral entropy with
  | .error error => some (node, .error error)
  | .ok ephemeral => do
    let (now, node) := node.clampNow nowUs
    let (limiter, admitted) ← node.limiter.admitRemote remoteAddr now
    let node := { node with limiter }
    match admitted with
    | none => some (node, .ok none)
    | some ticket => do
      let driver := LinkDriver.new .responder (.fromSecretBytes node.noiseSeed) ephemeral .default now
      let linkId := node.nextLinkId
      let nextLinkId ← checked64 (linkId.toNat + 1)
      some ({ node with
        nextLinkId := UInt64.ofNat nextLinkId
        links := node.links.insert linkId ⟨driver, some ticket⟩ }, .ok (some ⟨linkId, []⟩))

def onBytes (node : Node) (linkId : UInt64) (bytes : List UInt8) (nowUs : UInt64) :
    Option (Node × LinkIo) :=
  let (now, node) := node.clampNow nowUs
  match node.links.lookup linkId with
  | none => some (node, {})
  | some link => do
    let (driver, store, out) ← link.driver.onBytes node.store bytes now
    some ({ node with store }.afterCall linkId link driver out)

end

def onTransportClosed (node : Node) (linkId nowUs : UInt64) : Node × List Event :=
  let (_, node) := node.clampNow nowUs
  if linkId ∈ node.links then (node.retire linkId, [.closed linkId .transportClosed])
  else (node, [])

/-- The loop over the links of `tick`. -/
def tickLinks (now : UInt64) : List UInt64 → Node → Node × List Event
  | [], node => (node, [])
  | linkId :: linkIds, node =>
    match node.links.lookup linkId with
    | none => tickLinks now linkIds node
    | some link =>
      let (driver, out) := link.driver.onTick now
      let (node, io) := node.afterCall linkId link driver out
      let (node, events) := tickLinks now linkIds node
      (node, io.events ++ events)

/-- The loop over the expired tickets of `tick`. -/
def dropExpired : List UInt64 → Node → Node × List Event
  | [], node => (node, [])
  | ticket :: tickets, node =>
    match node.links.entries.find? fun e => e.2.ticket = some ticket with
    | none => dropExpired tickets node
    | some e =>
      let (node, events) := dropExpired tickets { node with links := node.links.erase e.1 }
      (node, .closed e.1 .handshakeTimeout :: events)

def tick (node : Node) (nowUs : UInt64) : Node × List Event :=
  let (now, node) := node.clampNow nowUs
  let (node, events) := tickLinks now node.links.keys node
  let (limiter, expired) := node.limiter.expire now
  let (node, more) := dropExpired expired { node with limiter }
  (node, events ++ more)

def linkStatus (node : Node) (linkId : UInt64) : Option LinkStatus :=
  (node.links.lookup linkId).map fun link =>
    ⟨link.driver.isEstablished, link.driver.remoteFingerprint.map FixedBytes.bytes⟩

def syncRefusal : LinkError → ApiError
  | .notEstablished => .notEstablished
  | other => .syncRefused other.toString

def startSync [Sha256] [ChaCha20Poly1305] (node : Node) (linkId : UInt64) (window : SyncWindow) :
    Option (Node × Except ApiError SyncStart) :=
  match node.links.lookup linkId with
  | none => some (node, .error .unknownLink)
  | some link =>
    match link.driver.openSync node.store window.into with
    | (.error .panic, _) => none
    | (.error (.err error), driver) =>
      some ({ node with links := node.links.insert linkId { link with driver } },
        .error (syncRefusal error))
    | (.ok (sessionId, out), driver) =>
      let (node, io) := node.afterCall linkId link driver out
      some (node, .ok ⟨sessionId, io⟩)

/-- An entry that does not fit into a frame is refused before it is stored. -/
def createEntry [Sha256] [Ed25519] [Ed25519Signer] (node : Node) (kind : UInt64)
    (payload : Vec UInt8) (sortKeyMs : UInt64) : Option (Node × Except ApiError EntryView) :=
  let entry := Entry.sign node.signingKey sortKeyMs kind payload
  match encodeFrame (.gossipPush ⟨[entry], 0⟩) with
  | .error _ => some (node, .error (.invalidArgument "payload too large to frame"))
  | .ok _ =>
    match node.store.insert entry with
    | (.error .panic, _) => none
    | (.ok _, store) => some ({ node with store }, .ok (entryView entry))
    | (.error (.err error), store) =>
      some ({ node with store }, .error (match error with
        | .storage _ | .capacity => .storage error.toString
        | .sortKeyReserved => .invalidArgument "sort key 2^64 - 1 is reserved"
        | .badSignature => .invalidArgument "entry failed self-verification"))

def entryCount (node : Node) : Nat := node.store.len

end Node

end Racnet.Api
