import Racnet.Proof.Driver.Discipline

/-!
# What a driver reads and writes

The HANDSHAKE messages that a driver consumes, the messages that it decrypts and decodes, and the
messages that it encrypts. A frame that is encrypted may be dropped when the link closes.
-/

namespace Racnet.Proof.Driver
open Lib Noise Store Sync Wire Link

structure Log where
  handshakes : List Handshake := []
  decoded : List Message := []
  encrypted : List Message := []
  deriving DecidableEq

def Log.andThen (first second : Log) : Log where
  handshakes := first.handshakes ++ second.handshakes
  decoded := first.decoded ++ second.decoded
  encrypted := first.encrypted ++ second.encrypted

@[simp] theorem Log.andThen_empty (log : Log) : log.andThen {} = log := by
  simp [Log.andThen]

section
variable [ChaCha20Poly1305]

/-- The messages that are encrypted in turn, up to the first that is refused. -/
def accepted : TransportState → List Message → List Message
  | _, [] => []
  | transport, msg :: msgs =>
    match LinkDriver.encryptFrame transport msg with
    | (.ok _, transport) => msg :: accepted transport msgs
    | (.error _, _) => []

variable [Sha256] [Ed25519]

/-- What an established driver has to say to a message. -/
def answers (driver : LinkDriver) (store : EntryStore) : Message → List Message
  | .hello _ | .handshake _ => [.error ⟨3⟩]
  | .error _ => []
  | msg =>
    let handled := driver.syncer.handleMessageInto store msg {}
    match handled.result with
    | .ok () => handled.output.replies
    | .error (.err err) => [.error ⟨err.errorCode.toU64⟩]
    | .error .panic => []

def transportLog (driver : LinkDriver) (transport : TransportState) (store : EntryStore)
    (body : List UInt8) : Log :=
  if body.length < tagLen ∨ ¬ isPaddedLen (body.length - tagLen) then {}
  else
    match transport.decrypt body with
    | (.error _, _) => {}
    | (.ok plaintext, received) =>
      match decodeMessage plaintext with
      | .error _ => { encrypted := accepted received [.error ⟨1⟩] }
      | .ok msg => { decoded := [msg], encrypted := accepted received (answers driver store msg) }

def bodyLog (driver : LinkDriver) (store : EntryStore) (body : List UInt8) : Log :=
  match driver.state with
  | .handshaking _ =>
    match decodeMessage body with
    | .ok (.handshake handshake) => { handshakes := [handshake] }
    | _ => {}
  | .transport transport => transportLog driver transport store body
  | .awaitPeerHello | .closed _ => {}

theorem bodyLog_handshake (driver : LinkDriver) (store : EntryStore) {hs : HandshakeState}
    {body : List UInt8} {handshake : Handshake} (waiting : driver.state = .handshaking hs)
    (decoded : decodeMessage body = .ok (.handshake handshake)) :
    bodyLog driver store body = { handshakes := [handshake] } := by
  rw [bodyLog, waiting]
  dsimp only
  rw [decoded]

variable [HmacSha256] [X25519]

def bodiesLog : Nat → LinkDriver → EntryStore → Log
  | 0, _, _ => {}
  | fuel + 1, driver, store =>
    match driver.decoder.nextBody with
    | (none, _) => {}
    | (some body, decoder) =>
      let first := bodyLog { driver with decoder } store body
      match { driver with decoder }.handleBody store body {} with
      | none => first
      | some (after, store, _) =>
        if after.isClosed then first else first.andThen (bodiesLog fuel after store)

def callLog (driver : LinkDriver) (store : EntryStore) : Call → Log
  | .onBytes bytes nowUs =>
    if driver.isClosed ∨ (timeout driver nowUs).isSome then {}
    else
      let driver := { driver with decoder := driver.decoder.push bytes }
      bodiesLog driver.decoder.buf.length driver store
  | .openSync window =>
    match driver.state, (driver.syncer.openSession store window).1 with
    | .transport transport, .ok (_, msg) => { encrypted := accepted transport [msg] }
    | _, _ => {}
  | .send msg =>
    match driver.state, msg with
    | .transport _, .hello _ | .transport _, .handshake _ => {}
    | .transport transport, msg => { encrypted := accepted transport [msg] }
    | _, _ => {}
  | .start | .onTick _ => {}

end

/-! ## What is written -/

section
variable [ChaCha20Poly1305] {transport last : TransportState} {msgs : List Message}
  {frames : List (List UInt8)}

theorem encryptAll_accepted (transport : TransportState) (msgs : List Message) :
    ∃ frames last, encryptAll transport (accepted transport msgs) = some (frames, last) := by
  induction msgs generalizing transport with
  | nil => exact ⟨[], transport, rfl⟩
  | cons msg msgs ih =>
    rw [accepted]
    rcases encrypted : LinkDriver.encryptFrame transport msg with ⟨error | frame, next⟩
    · exact ⟨[], transport, rfl⟩
    · obtain ⟨frames, last, rest⟩ := ih next
      refine ⟨frame :: frames, last, ?_⟩
      dsimp only
      rw [encryptAll, encrypted]
      dsimp only
      rw [rest]
      rfl

theorem accepted_of_encryptAll (encrypted : encryptAll transport msgs = some (frames, last)) :
    accepted transport msgs = msgs := by
  induction msgs generalizing transport frames last with
  | nil => rfl
  | cons msg msgs ih =>
    obtain ⟨frame, next, later, first, rest, -⟩ := encryptAll_cons encrypted
    rw [accepted, first]
    dsimp only
    rw [ih rest]

/-- Messages are encrypted. Their frames are sent, or they are dropped and the link is closed. -/
def Writes (transport : TransportState) (msgs : List Message) (after : LinkDriver)
    (sent : List (List UInt8)) : Prop :=
  ∃ frames last, encryptAll transport msgs = some (frames, last) ∧
    (sent = frames ∨ sent = [] ∧ after.isClosed = true) ∧
    (after.isClosed = false → after.state = .transport last)

theorem writes_dropped (transport : TransportState) (msgs : List Message) {after : LinkDriver}
    (ended : after.isClosed = true) : Writes transport (accepted transport msgs) after [] := by
  obtain ⟨frames, last, encrypted⟩ := encryptAll_accepted transport msgs
  refine ⟨frames, last, encrypted, Or.inr ⟨rfl, ended⟩, fun open_ => ?_⟩
  cases ended.symm.trans open_

theorem writes_error (transport : TransportState) (code : UInt64) {after : LinkDriver}
    (ended : after.isClosed = true) :
    Writes transport (accepted transport [.error ⟨code⟩]) after (errorFrames transport code) := by
  rw [accepted, errorFrames]
  rcases encrypted : LinkDriver.encryptFrame transport (.error ⟨code⟩) with ⟨error | frame, next⟩
  · refine ⟨[], transport, rfl, Or.inl rfl, fun open_ => ?_⟩
    cases ended.symm.trans open_
  · refine ⟨[frame], next, ?_, Or.inl rfl, fun open_ => ?_⟩
    · dsimp only
      rw [accepted, encryptAll, encrypted]
      rfl
    · cases ended.symm.trans open_

end

/-! ## Established drivers -/

/-- The reasons for closing a link whose ends are out of step. -/
def desyncReasons : List CloseReason :=
  [.handshakeFailed, .versionIncompatible, .badCiphertextLength, .decryptFailed]

def Steady (driver : LinkDriver) : Prop := ∀ reason ∈ desyncReasons, driver.closeReason ≠ some reason

theorem steady_of_open {driver : LinkDriver} (open_ : driver.isClosed = false) : Steady driver := by
  intro reason _ closed
  rw [LinkDriver.isClosed, closed] at open_
  cases open_

theorem steady_of_reason {driver : LinkDriver} {reason : CloseReason}
    (closed : driver.closeReason = some reason) (other : reason ∉ desyncReasons) : Steady driver := by
  intro bad mem same
  cases closed.symm.trans same
  exact other mem

theorem isClosed_of_reason {driver : LinkDriver} {reason : CloseReason}
    (closed : driver.closeReason = some reason) :
    driver.isClosed = true := by
  rw [LinkDriver.isClosed, closed]
  rfl

structure Keeps (driver after : LinkDriver) : Prop where
  decoder : after.decoder = driver.decoder
  role : after.role = driver.role
  config : after.config = driver.config
  version : after.negotiatedVersion = driver.negotiatedVersion
  remote : after.remoteFingerprint = driver.remoteFingerprint

section
variable [ChaCha20Poly1305]

/-- What a driver does that has `msgs` to write. -/
structure Answers (driver : LinkDriver) (transport : TransportState) (msgs : List Message)
    (after : LinkDriver) (frames : List (List UInt8)) : Prop where
  writes : Writes transport msgs after frames
  keeps : Keeps driver after
  steady : Steady after

variable {driver after : LinkDriver} {transport : TransportState} {out : LinkOutput}

theorem answers_silent {reason : CloseReason} {msgs : List Message} {frames : List (List UInt8)}
    (quiet : frames = []) (closed : after.closeReason = some reason) (other : reason ∉ desyncReasons)
    (keeps : Keeps driver after) :
    Answers driver transport (accepted transport msgs) after frames := by
  subst quiet
  exact ⟨writes_dropped transport msgs (isClosed_of_reason closed), keeps,
    steady_of_reason closed other⟩

theorem answers_violation {code given : UInt64}
    (closed : after.closeReason = some (.protocolViolation given)) (keeps : Keeps driver after) :
    Answers driver transport (accepted transport [.error ⟨code⟩]) after (errorFrames transport code) :=
  ⟨writes_error transport code (isClosed_of_reason closed), keeps,
    steady_of_reason closed (by simp [desyncReasons])⟩

theorem answers_encryptAll {msgs : List Message} {frames : List (List UInt8)} {last : TransportState}
    (encrypted : encryptAll transport msgs = some (frames, last))
    (state : after.state = .transport last) (keeps : Keeps driver after) :
    Answers driver transport (accepted transport msgs) after frames := by
  rw [accepted_of_encryptAll encrypted]
  refine ⟨⟨_, _, encrypted, Or.inl rfl, fun _ => state⟩, keeps, steady_of_open ?_⟩
  rw [LinkDriver.isClosed, LinkDriver.closeReason, state]
  rfl

theorem queueEncrypted_answers (established : driver.state = .transport transport) (msg : Message) :
    Answers driver transport (accepted transport [msg]) (driver.queueEncrypted msg {}).1
      (driver.queueEncrypted msg {}).2.frames := by
  rcases encrypted : LinkDriver.encryptFrame transport msg with ⟨error | frame, next⟩
  · rw [queueEncrypted_error established encrypted]
    exact answers_silent rfl rfl (by decide) ⟨rfl, rfl, rfl, rfl, rfl⟩
  · rw [queueEncrypted_ok established encrypted]
    have all : encryptAll transport [msg] = some ([frame], next) := by
      rw [encryptAll, encrypted]
      rfl
    exact answers_encryptAll all rfl ⟨rfl, rfl, rfl, rfl, rfl⟩

theorem closeWithError_frames (established : driver.state = .transport transport) (code : UInt64)
    (reason : CloseReason) (events : List LinkEvent) :
    (driver.closeWithError code reason { events }).2.frames = errorFrames transport code := by
  rw [closeWithError_transport established]
  rfl

end

section
variable [Sha256] [Ed25519] {driver after : LinkDriver} {store store' : EntryStore} {msg : Message}
  {transport : TransportState} {out : LinkOutput}

theorem answers_sync (sync : IsSync msg) :
    answers driver store msg =
      match (driver.syncer.handleMessageInto store msg {}).result with
      | .ok () => (driver.syncer.handleMessageInto store msg {}).output.replies
      | .error (.err err) => [.error ⟨err.errorCode.toU64⟩]
      | .error .panic => [] := by
  cases msg with
  | hello _ | handshake _ | error _ => cases sync
  | gossipPush _ | reconInit _ | reconMsg _ | reconDone _ => rfl

variable [ChaCha20Poly1305]

theorem handleSyncMessage_answers (established : driver.state = .transport transport)
    (sync : IsSync msg)
    (ran : driver.handleSyncMessage store msg {} = some (after, store', out)) :
    Answers driver transport (accepted transport (answers driver store msg)) after out.frames := by
  rw [answers_sync sync]
  rw [LinkDriver.handleSyncMessage] at ran
  dsimp only at ran
  generalize driver.syncer.handleMessageInto store msg {} = handled at ran ⊢
  set synced : LinkDriver := { driver with syncer := handled.syncer }
  have established' : synced.state = .transport transport := established
  rcases result : handled.result with ⟨err | _⟩ | ⟨⟩
  · rw [result] at ran
    dsimp only at ran
    obtain ⟨rfl, same⟩ := Prod.mk.inj (Option.some.inj ran)
    rw [← (Prod.mk.inj same).2, closeWithError_frames established']
    exact answers_violation rfl ⟨rfl, rfl, rfl, rfl, rfl⟩
  · rw [result] at ran
    cases ran
  · rw [result] at ran
    dsimp only at ran
    rw [queueReplies_eq established'] at ran
    rcases encrypted : encryptAll transport handled.output.replies with _ | ⟨frames, last⟩
    · rw [encrypted] at ran
      cases ran
      exact answers_silent rfl rfl (by decide) ⟨rfl, rfl, rfl, rfl, rfl⟩
    · rw [encrypted] at ran
      cases ran
      exact answers_encryptAll encrypted rfl ⟨rfl, rfl, rfl, rfl, rfl⟩

variable [HmacSha256] [X25519]

theorem handleBody_answers {body plaintext : List UInt8} {received : TransportState}
    (established : driver.state = .transport transport)
    (gate : ¬ (body.length < tagLen ∨ ¬ isPaddedLen (body.length - tagLen)))
    (decrypted : transport.decrypt body = (.ok plaintext, received))
    (decoded : decodeMessage plaintext = .ok msg)
    (ran : driver.handleBody store body {} = some (after, store', out)) :
    bodyLog driver store body =
        { decoded := [msg], encrypted := accepted received (answers driver store msg) } ∧
      Answers driver received (accepted received (answers driver store msg)) after out.frames := by
  refine ⟨?_, ?_⟩
  · rw [bodyLog, established]
    dsimp only
    rw [transportLog, if_neg gate, decrypted]
    dsimp only
    rw [decoded]
  rw [LinkDriver.handleBody, established] at ran
  dsimp only at ran
  rw [LinkDriver.handleTransportBody, if_neg gate, decrypted] at ran
  dsimp only at ran
  rw [decoded] at ran
  set reading : LinkDriver := { driver with state := .transport received }
  cases msg with
  | hello _ | handshake _ =>
    cases ran
    rw [closeWithError_frames (rfl : reading.state = .transport received)]
    exact answers_violation rfl ⟨rfl, rfl, rfl, rfl, rfl⟩
  | error err =>
    cases ran
    exact answers_silent rfl rfl (by simp [desyncReasons]) ⟨rfl, rfl, rfl, rfl, rfl⟩
  | gossipPush _ | reconInit _ | reconMsg _ | reconDone _ =>
    have answered := handleSyncMessage_answers (rfl : reading.state = .transport received)
      (by trivial) ran
    obtain ⟨decoder, role, config, version, remote⟩ := answered.keeps
    exact ⟨answered.writes, ⟨decoder, role, config, version, remote⟩, answered.steady⟩

/-! ## Calls that bring no bytes -/

/-- What such a call does: nothing, or it closes the link, or it writes messages. -/
inductive Spoke (driver after : LinkDriver) (frames : List (List UInt8)) (log : Log) : Prop where
  | idle (same : after = driver) (quiet : frames = []) (empty : log = {})
  | shut (keeps : Keeps driver after) (reason : CloseReason)
      (closed : after.closeReason = some reason) (other : reason ∉ desyncReasons)
      (quiet : frames = []) (empty : log = {})
  | wrote (transport : TransportState) (msgs : List Message)
      (established : driver.state = .transport transport) (written : log = { encrypted := msgs })
      (answers : Answers driver transport msgs after frames)

omit [Sha256] [Ed25519] [HmacSha256] [X25519] in
theorem onTick_spoke (driver : LinkDriver) (nowUs : UInt64) :
    Spoke driver (driver.onTick nowUs).1 (driver.onTick nowUs).2.frames {} := by
  rw [LinkDriver.onTick]
  cases ended : driver.isClosed with
  | true =>
    rw [LinkDriver.checkTimeouts, if_pos ended]
    exact .idle rfl rfl rfl
  | false =>
    rw [checkTimeouts_eq ended, timeout]
    split_ifs
    · exact .shut ⟨rfl, rfl, rfl, rfl, rfl⟩ .handshakeTimeout rfl (by decide) rfl rfl
    · exact .shut ⟨rfl, rfl, rfl, rfl, rfl⟩ .lifetimeExpired rfl (by decide) rfl rfl
    · exact .idle rfl rfl rfl

theorem callLog_early (early : driver.isEstablished = false) (store : EntryStore) :
    (∀ window, callLog driver store (.openSync window) = {}) ∧ ∀ msg, callLog driver store (.send msg) = {} := by
  cases state : driver.state with
  | transport transport => simp [LinkDriver.isEstablished, state] at early
  | awaitPeerHello | handshaking | closed => simp [callLog, state]

theorem perform_openSync_spoke {window : SortKeyWindow}
    (ran : perform driver store (.openSync window) = some (after, store', out)) :
    Spoke driver after out.frames (callLog driver store (.openSync window)) := by
  rw [perform] at ran
  have opens := openSync_opens driver store window
  generalize driver.openSync store window = result at ran opens
  cases opens with
  | early unestablished =>
    cases ran
    exact .idle rfl rfl ((callLog_early unestablished store).1 window)
  | refused error refused =>
    cases ran
    refine .idle rfl rfl ?_
    rw [callLog, refused]
    cases driver.state <;> rfl
  | panicked => cases ran
  | opened transport sid msg syncer state opened =>
    cases ran
    obtain ⟨writes, keeps, steady⟩ := @queueEncrypted_answers _ { driver with syncer } transport state msg
    obtain ⟨decoder, role, config, version, remote⟩ := keeps
    refine .wrote transport (accepted transport [msg]) state ?_
      ⟨writes, ⟨decoder, role, config, version, remote⟩, steady⟩
    rw [callLog, state, opened]

theorem perform_send_spoke {msg : Message}
    (ran : perform driver store (.send msg) = some (after, store', out)) :
    Spoke driver after out.frames (callLog driver store (.send msg)) := by
  rw [perform] at ran
  cases established : driver.isEstablished with
  | false =>
    rw [LinkDriver.send.eq_def, if_pos (by simp [established])] at ran
    cases ran
    exact .idle rfl rfl ((callLog_early established store).2 msg)
  | true =>
    rw [LinkDriver.send.eq_def, if_neg (by simp [established])] at ran
    obtain ⟨transport, state⟩ := established_transport established
    cases msg with
    | hello _ | handshake _ =>
      cases ran
      exact .idle rfl rfl (by simp only [callLog, state])
    | error error =>
      dsimp only at ran
      rw [closeWithError_transport state] at ran
      cases ran
      refine .wrote transport (accepted transport [.error error]) state
        (by simp only [callLog, state]) ?_
      exact answers_violation rfl ⟨rfl, rfl, rfl, rfl, rfl⟩
    | gossipPush _ | reconInit _ | reconMsg _ | reconDone _ =>
      cases ran
      exact .wrote transport (accepted transport [_]) state (by simp only [callLog, state])
        (queueEncrypted_answers state _)

theorem perform_spoke {call : Call} (quiet : ∀ bytes nowUs, call ≠ .onBytes bytes nowUs)
    (started : call = .start → driver.role = .responder)
    (ran : perform driver store call = some (after, store', out)) :
    Spoke driver after out.frames (callLog driver store call) := by
  cases call with
  | onBytes bytes nowUs => exact absurd rfl (quiet bytes nowUs)
  | start =>
    rw [perform, LinkDriver.start, started rfl] at ran
    cases ran
    exact .idle rfl rfl rfl
  | onTick nowUs =>
    cases ran
    exact onTick_spoke driver nowUs
  | openSync window => exact perform_openSync_spoke ran
  | send msg => exact perform_send_spoke ran

end

end Racnet.Proof.Driver
