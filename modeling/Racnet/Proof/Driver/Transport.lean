import Racnet.Proof.Driver.Cleartext

/-!
# The transport epoch
-/

namespace Racnet.Proof.Driver
open Lib Noise Store Sync Wire Link

section
variable [ChaCha20Poly1305]

/-- The frames of messages, or `none` if one of them is not encrypted. -/
def encryptAll : TransportState → List Message → Option (List (List UInt8) × TransportState)
  | transport, [] => some ([], transport)
  | transport, msg :: msgs =>
    match LinkDriver.encryptFrame transport msg with
    | (.error _, _) => none
    | (.ok frame, transport) =>
      (encryptAll transport msgs).map fun (frames, transport) => (frame :: frames, transport)

theorem encryptAll_cons {transport last : TransportState} {msg : Message} {msgs : List Message}
    {frames : List (List UInt8)} (encrypted : encryptAll transport (msg :: msgs) = some (frames, last)) :
    ∃ frame next later, LinkDriver.encryptFrame transport msg = (.ok frame, next) ∧
      encryptAll next msgs = some (later, last) ∧ frames = frame :: later := by
  rw [encryptAll] at encrypted
  rcases first : LinkDriver.encryptFrame transport msg with ⟨error | frame, next⟩
  · rw [first] at encrypted
    cases encrypted
  · rw [first] at encrypted
    obtain ⟨⟨later, final⟩, rest, same⟩ := Option.map_eq_some_iff.mp encrypted
    cases same
    exact ⟨frame, next, later, rfl, rest, rfl⟩

theorem queueEncrypted_ok {driver : LinkDriver} {transport after : TransportState} {msg : Message}
    {frame : List UInt8} (established : driver.state = .transport transport)
    (encrypted : LinkDriver.encryptFrame transport msg = (.ok frame, after)) (out : LinkOutput) :
    driver.queueEncrypted msg out =
      ({ driver with state := .transport after }, { out with frames := out.frames ++ [frame] }) := by
  simp only [LinkDriver.queueEncrypted, established, encrypted]

theorem queueEncrypted_error {driver : LinkDriver} {transport after : TransportState}
    {msg : Message} {error : NoiseError} (established : driver.state = .transport transport)
    (refused : LinkDriver.encryptFrame transport msg = (.error error, after)) (out : LinkOutput) :
    driver.queueEncrypted msg out = driver.closeSilently .nonceExhausted out := by
  simp only [LinkDriver.queueEncrypted, established, refused]

theorem queueReplies_eq {driver : LinkDriver} {transport : TransportState}
    (established : driver.state = .transport transport) (replies : List Message)
    (out : LinkOutput) :
    driver.queueReplies replies out =
      match encryptAll transport replies with
      | some (frames, after) =>
        ({ driver with state := .transport after }, { out with frames := out.frames ++ frames })
      | none => driver.closeSilently .nonceExhausted out := by
  induction replies generalizing driver transport out with
  | nil =>
    rw [LinkDriver.queueReplies, encryptAll]
    dsimp only
    rw [← established, List.append_nil]
  | cons msg msgs ih =>
    rw [LinkDriver.queueReplies, encryptAll]
    rcases encrypted : LinkDriver.encryptFrame transport msg with ⟨_ | frame, after⟩
    · rw [queueEncrypted_error established encrypted]
      rfl
    · rw [queueEncrypted_ok established encrypted]
      dsimp only
      rw [if_neg (by simp [LinkDriver.isClosed, LinkDriver.closeReason]), ih rfl]
      rcases encryptAll after msgs with _ | ⟨frames, last⟩
      · rfl
      · simp

/-- The ERROR that ends a transport epoch, unless it is not encrypted. -/
def errorFrames (transport : TransportState) (code : UInt64) : List (List UInt8) :=
  (LinkDriver.encryptFrame transport (.error ⟨code⟩)).1.toOption.toList

theorem closeWithError_transport {driver : LinkDriver} {transport : TransportState}
    (established : driver.state = .transport transport) (code : UInt64) (reason : CloseReason)
    (out : LinkOutput) :
    driver.closeWithError code reason out = (closedWith driver reason,
      (Effect.refusal (errorFrames transport code) reason).on out) := by
  rw [LinkDriver.closeWithError, LinkDriver.errorFrame, established]
  rfl

variable [Sha256] [Ed25519]

def IsSync : Message → Prop
  | .gossipPush _ | .reconInit _ | .reconMsg _ | .reconDone _ => True
  | .hello _ | .handshake _ | .error _ => False

inductive TransportStep (driver : LinkDriver) (transport : TransportState) (store : EntryStore)
    (body : List UInt8) : LinkDriver → EntryStore → Effect → Prop where
  | dropped (reason : CloseReason) (early : reason = .badCiphertextLength ∨
      reason = .nonceExhausted ∧ (∃ after, transport.decrypt body = (.error .nonceExhausted, after)) ∨
      reason = .decryptFailed) :
      TransportStep driver transport store body (closedWith driver reason) store (.silence reason)
  | peerError (plaintext : List UInt8) (after : TransportState) (err : ErrorMsg)
      (decrypted : transport.decrypt body = (.ok plaintext, after))
      (decoded : decodeMessage plaintext = .ok (.error err)) :
      TransportStep driver transport store body (closedWith driver (.peerError err.code)) store
        (.silence (.peerError err.code))
  | violated (plaintext : List UInt8) (after : TransportState) (code : UInt64)
      (decrypted : transport.decrypt body = (.ok plaintext, after)) :
      TransportStep driver transport store body (closedWith driver (.protocolViolation code)) store
        (.refusal (errorFrames after code) (.protocolViolation code))
  | handled (plaintext : List UInt8) (after last : TransportState) (msg : Message)
      (handled : Syncer.Handled) (frames : List (List UInt8))
      (decrypted : transport.decrypt body = (.ok plaintext, after))
      (decoded : decodeMessage plaintext = .ok msg) (sync : IsSync msg)
      (ran : driver.syncer.handleMessageInto store msg {} = handled)
      (accepted : handled.result = .ok ())
      (encrypted : encryptAll after handled.output.replies = some (frames, last)) :
      TransportStep driver transport store body
        { driver with state := .transport last, syncer := handled.syncer } handled.store
        { frames, events := handled.output.events.map .sync }
  | exhausted (plaintext : List UInt8) (after : TransportState) (msg : Message)
      (handled : Syncer.Handled)
      (decrypted : transport.decrypt body = (.ok plaintext, after))
      (decoded : decodeMessage plaintext = .ok msg) (sync : IsSync msg)
      (ran : driver.syncer.handleMessageInto store msg {} = handled)
      (accepted : handled.result = .ok ())
      (failed : encryptAll after handled.output.replies = none) :
      TransportStep driver transport store body
        (closedWith { driver with syncer := handled.syncer } .nonceExhausted) handled.store
        ⟨true, [], handled.output.events.map .sync ++ [.closed .nonceExhausted]⟩
  | refused (plaintext : List UInt8) (after : TransportState) (msg : Message)
      (handled : Syncer.Handled) (err : SyncError)
      (decrypted : transport.decrypt body = (.ok plaintext, after))
      (decoded : decodeMessage plaintext = .ok msg) (sync : IsSync msg)
      (ran : driver.syncer.handleMessageInto store msg {} = handled)
      (rejected : handled.result = .error (.err err)) :
      TransportStep driver transport store body
        (closedWith { driver with syncer := handled.syncer }
          (.protocolViolation err.errorCode.toU64)) handled.store
        ⟨false, errorFrames after err.errorCode.toU64, handled.output.events.map .sync ++
          [.closed (.protocolViolation err.errorCode.toU64)]⟩

def StoreActs (handler : LinkOutput → Option (LinkDriver × EntryStore × LinkOutput))
    (Step : LinkDriver → EntryStore → Effect → Prop) : Prop :=
  (∀ out, handler out = none) ∨
    ∃ after store effect, Step after store effect ∧
      ∀ out, handler out = some (after, store, effect.on out)

theorem handleSyncMessage_eq {driver : LinkDriver} {after : TransportState} {store : EntryStore}
    {msg : Message} {handled : Syncer.Handled}
    (ran : driver.syncer.handleMessageInto store msg {} = handled) (out : LinkOutput) :
    LinkDriver.handleSyncMessage { driver with state := .transport after } store msg out =
      match handled.result with
      | .error .panic => none
      | .ok () =>
        let (driver, out) := LinkDriver.queueReplies
          { driver with state := .transport after, syncer := handled.syncer } handled.output.replies
          { out with events := out.events ++ handled.output.events.map .sync }
        some (driver, handled.store, out)
      | .error (.err err) =>
        let code := err.errorCode.toU64
        let (driver, out) := LinkDriver.closeWithError
          { driver with state := .transport after, syncer := handled.syncer } code
          (.protocolViolation code) { out with events := out.events ++ handled.output.events.map .sync }
        some (driver, handled.store, out) := by
  rewrite [LinkDriver.handleSyncMessage, ran]
  rcases handled.result with ⟨err | _⟩ | ⟨⟩ <;> rfl

theorem handleSyncMessage_acts {driver : LinkDriver} {transport after : TransportState}
    {store : EntryStore} {body plaintext : List UInt8} {msg : Message}
    (decrypted : transport.decrypt body = (.ok plaintext, after))
    (decoded : decodeMessage plaintext = .ok msg) (sync : IsSync msg) :
    StoreActs (LinkDriver.handleSyncMessage { driver with state := .transport after } store msg)
      (TransportStep driver transport store body) := by
  generalize ran : driver.syncer.handleMessageInto store msg {} = handled
  have unfolded := @handleSyncMessage_eq _ _ _ driver after store msg handled ran
  rcases result : handled.result with ⟨err | _⟩ | ⟨⟩
  · refine Or.inr ⟨_, _, _, .refused plaintext after msg handled err decrypted decoded sync ran result,
      fun out => ?_⟩
    rw [unfolded, result]
    dsimp only
    rw [@closeWithError_transport _ { driver with
      state := .transport after, syncer := handled.syncer } after rfl]
    simp [Effect.refusal, Effect.on, closedWith]
  · left
    intro out
    rw [unfolded, result]
  · have queued := @queueReplies_eq _ { driver with
      state := .transport after, syncer := handled.syncer } after rfl handled.output.replies
    rcases encrypted : encryptAll after handled.output.replies with _ | ⟨frames, last⟩
    · refine Or.inr ⟨_, _, _, .exhausted plaintext after msg handled decrypted decoded sync ran result
        encrypted, fun out => ?_⟩
      rw [unfolded, result]
      dsimp only
      rw [queued, encrypted]
      simp [Effect.on, closedWith, LinkDriver.closeSilently]
    · refine Or.inr ⟨_, _, _, .handled plaintext after last msg handled frames decrypted decoded sync ran
        result encrypted, fun out => ?_⟩
      rw [unfolded, result]
      dsimp only
      rw [queued, encrypted]
      simp [Effect.on]

theorem handleTransportBody_eq {driver : LinkDriver} {transport after : TransportState}
    {body plaintext : List UInt8} (gate : ¬ (body.length < tagLen ∨ ¬ isPaddedLen (body.length - tagLen)))
    (decrypted : transport.decrypt body = (.ok plaintext, after)) (store : EntryStore) (out : LinkOutput) :
    (parked driver).handleTransportBody transport store body out =
      match decodeMessage plaintext with
      | .error _ =>
        let (driver, out) := LinkDriver.closeWithError { driver with state := .transport after } 1
          (.protocolViolation 1) out
        some (driver, store, out)
      | .ok (.hello _) | .ok (.handshake _) =>
        let (driver, out) := LinkDriver.closeWithError { driver with state := .transport after } 3
          (.protocolViolation 3) out
        some (driver, store, out)
      | .ok (.error err) =>
        let (driver, out) := LinkDriver.closeSilently { driver with state := .transport after }
          (.peerError err.code) out
        some (driver, store, out)
      | .ok msg => LinkDriver.handleSyncMessage { driver with state := .transport after } store msg out := by
  rw [LinkDriver.handleTransportBody, if_neg gate, decrypted]
  rfl

theorem handleTransportBody_acts (driver : LinkDriver) (transport : TransportState)
    (store : EntryStore) (body : List UInt8) :
    StoreActs ((parked driver).handleTransportBody transport store body)
      (TransportStep driver transport store body) := by
  by_cases gate : body.length < tagLen ∨ ¬ isPaddedLen (body.length - tagLen)
  · refine Or.inr ⟨_, _, _, .dropped .badCiphertextLength (Or.inl rfl), fun out => ?_⟩
    rw [LinkDriver.handleTransportBody, if_pos gate]
    rfl
  rcases decrypted : transport.decrypt body with ⟨error | plaintext, after⟩
  · by_cases last : error = .nonceExhausted
    · subst last
      refine Or.inr ⟨_, _, _, .dropped .nonceExhausted (Or.inr (Or.inl ⟨rfl, after, decrypted⟩)),
        fun out => ?_⟩
      rw [LinkDriver.handleTransportBody, if_neg gate, decrypted]
      rfl
    · refine Or.inr ⟨_, _, _, .dropped .decryptFailed (Or.inr (Or.inr rfl)), fun out => ?_⟩
      rw [LinkDriver.handleTransportBody, if_neg gate, decrypted]
      cases error with
      | nonceExhausted => exact absurd rfl last
      | decryptFailed | badMessage | outOfOrder | entropy => rfl
  · have unfolded := @handleTransportBody_eq _ _ _ driver _ _ _ _ gate decrypted store
    have violated : ∀ code, (∀ out, (parked driver).handleTransportBody transport store body out =
        let (driver, out) := LinkDriver.closeWithError { driver with state := .transport after } code
          (.protocolViolation code) out
        some (driver, store, out)) →
        StoreActs ((parked driver).handleTransportBody transport store body)
          (TransportStep driver transport store body) := by
      intro code ran
      refine Or.inr ⟨_, _, _, .violated plaintext after code decrypted, fun out => ?_⟩
      rw [ran, @closeWithError_transport _ { driver with state := .transport after } after rfl]
      rfl
    cases decoded : decodeMessage plaintext with
    | error e =>
      refine violated 1 fun out => ?_
      rw [unfolded, decoded]
    | ok msg =>
      cases msg with
      | hello _ | handshake _ =>
        refine violated 3 fun out => ?_
        rw [unfolded, decoded]
      | error err =>
        refine Or.inr ⟨_, _, _, .peerError plaintext after err decrypted decoded, fun out => ?_⟩
        rw [unfolded, decoded]
        rfl
      | gossipPush _ | reconInit _ | reconMsg _ | reconDone _ =>
        have acts := @handleSyncMessage_acts _ _ _ driver transport after store body plaintext _
          decrypted decoded trivial
        convert acts using 1
        funext out
        rw [unfolded, decoded]

end

end Racnet.Proof.Driver
