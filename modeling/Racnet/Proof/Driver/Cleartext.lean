import Racnet.Link.Driver
import Racnet.Proof.Format.RoundTrip

/-!
# What the driver does with a body

Every handler adds to the output or, when it closes the link silently, drops the frames that were queued.
So what it does is an effect that does not depend on the output so far.
-/

namespace Racnet.Proof.Driver
open Lib Noise Store Sync Wire Link
open Proof.Format (Refused encodeMessage_of_not_refused)

/-! ## Effects on the output -/

structure Effect where
  dropped : Bool := false
  frames : List (List UInt8) := []
  events : List LinkEvent := []

namespace Effect

def on (effect : Effect) (out : LinkOutput) : LinkOutput where
  frames := (if effect.dropped then [] else out.frames) ++ effect.frames
  events := out.events ++ effect.events

def andThen (first second : Effect) : Effect where
  dropped := first.dropped || second.dropped
  frames := (if second.dropped then [] else first.frames) ++ second.frames
  events := first.events ++ second.events

def silence (reason : CloseReason) : Effect := ⟨true, [], [.closed reason]⟩

def refusal (frames : List (List UInt8)) (reason : CloseReason) : Effect :=
  ⟨false, frames, [.closed reason]⟩

@[simp] theorem on_empty (out : LinkOutput) : on {} out = out := by
  simp [on]

theorem frames_on_new (effect : Effect) : (effect.on {}).frames = effect.frames := by
  rw [on, ite_self, List.nil_append]

theorem events_on_new (effect : Effect) : (effect.on {}).events = effect.events := List.nil_append _

theorem on_frames (frames : List (List UInt8)) (out : LinkOutput) :
    on { frames } out = { out with frames := out.frames ++ frames } := by
  simp [on]

theorem on_events (events : List LinkEvent) (out : LinkOutput) :
    on { events } out = { out with events := out.events ++ events } := by
  simp [on]

theorem on_andThen (first second : Effect) (out : LinkOutput) :
    (first.andThen second).on out = second.on (first.on out) := by
  cases first
  cases second
  rename_i firstDropped _ _ secondDropped _ _
  cases firstDropped <;> cases secondDropped <;> simp [on, andThen]

end Effect

def closedWith (driver : LinkDriver) (reason : CloseReason) : LinkDriver :=
  { driver with state := .closed reason, keys := none }

/-! ## Handshake messages are short -/

section
variable [Sha256] [HmacSha256] [X25519] [ChaCha20Poly1305]

omit [Sha256] [HmacSha256] [X25519] in
theorem length_encryptWithAd {cipher after : CipherState} {ad plaintext ciphertext : List UInt8}
    (ran : cipher.encryptWithAd ad plaintext = (.ok ciphertext, after)) :
    ciphertext.length ≤ plaintext.length + tagLen := by
  rw [CipherState.encryptWithAd] at ran
  cases keyed : cipher.k with
  | none =>
    rw [keyed] at ran
    rw [← Except.ok.inj (Prod.mk.inj ran).1]
    exact Nat.le_add_right _ _
  | some key =>
    rw [keyed] at ran
    dsimp only at ran
    split_ifs at ran with last
    · cases ran
    cases found : ChaCha20Poly1305.encrypt key (nonceBytes cipher.n) ad plaintext with
    | none =>
      rw [found] at ran
      cases ran
    | some sealedBytes =>
      rw [found] at ran
      rw [← Except.ok.inj (Prod.mk.inj ran).1]
      exact (ChaCha20Poly1305.length_encrypt _ _ _ _ _ found).le

omit [HmacSha256] [X25519] in
theorem length_encryptAndHash {symmetric after : SymmetricState} {plaintext ciphertext : List UInt8}
    (ran : symmetric.encryptAndHash plaintext = .ok (ciphertext, after)) :
    ciphertext.length ≤ plaintext.length + tagLen := by
  rw [SymmetricState.encryptAndHash] at ran
  rcases encrypted : symmetric.cipher.encryptWithAd symmetric.h.bytes plaintext with ⟨_ | out, cipher⟩
  · rw [encrypted] at ran
    cases ran
  · rw [encrypted] at ran
    obtain ⟨rfl, -⟩ := Prod.mk.inj (Except.ok.inj ran)
    exact length_encryptWithAd encrypted

theorem length_writeTokens {hs : HandshakeState} {out : List UInt8} {after : SymmetricState}
    (ran : hs.writeTokens = .ok (out, after)) : out.length ≤ 80 := by
  have key : ∀ key : PublicKey, key.bytes.length = 32 := fun key => key.length_eq
  have tag : tagLen = 16 := rfl
  rw [HandshakeState.writeTokens] at ran
  split at ran
  · obtain ⟨rfl, -⟩ := Prod.mk.inj (Except.ok.inj ran)
    rw [key]
    omega
  · cases known : hs.re with
    | none =>
      rw [known] at ran
      cases ran
    | some re =>
      rw [known] at ran
      obtain ⟨⟨encS, symmetric⟩, encrypted, ran⟩ := except_bind_ok ran
      obtain ⟨rfl, -⟩ := Prod.mk.inj (Except.ok.inj ran)
      have := length_encryptAndHash encrypted
      rw [List.length_append, key]
      rw [key] at this
      omega
  · obtain ⟨⟨encS, symmetric⟩, encrypted, ran⟩ := except_bind_ok ran
    have := length_encryptAndHash encrypted
    rw [key] at this
    cases known : hs.re with
    | none =>
      rw [known] at ran
      cases ran
    | some re =>
      rw [known] at ran
      obtain ⟨rfl, -⟩ := Prod.mk.inj (Except.ok.inj ran)
      omega
  · cases ran

theorem length_writeMessage {hs after : HandshakeState} {out : List UInt8}
    (ran : hs.writeMessage [] = .ok (out, after)) : out.length ≤ 96 := by
  rw [HandshakeState.writeMessage] at ran
  split_ifs at ran
  obtain ⟨⟨tokens, symmetric⟩, written, ran⟩ := except_bind_ok ran
  obtain ⟨⟨encPayload, symmetric'⟩, encrypted, ran⟩ := except_bind_ok ran
  obtain ⟨rfl, -⟩ := Prod.mk.inj (Except.ok.inj ran)
  have tag : tagLen = 16 := rfl
  have short := length_writeTokens written
  have tail := length_encryptAndHash encrypted
  rw [List.length_nil] at tail
  rw [List.length_append]
  omega

end

theorem encodeFrame_handshake {noiseMsg : List UInt8} (short : noiseMsg.length ≤ 96) :
    ∃ frame, encodeFrame (.handshake ⟨noiseMsg⟩) = .ok frame := by
  have size : (Message.handshake ⟨noiseMsg⟩).payloadBytes.length ≤ 123 := by
    have first := Cbor.length_head_le 5 1
    have second := Cbor.length_head_le 0 0
    have third := Cbor.length_head_le 2 noiseMsg.length
    simp only [Message.payloadBytes, Handshake.encode, Cbor.record, Cbor.map, Cbor.unsigned,
      Cbor.byteString, List.zipIdx_singleton, List.flatMap_cons, List.flatMap_nil, List.length_append,
      List.length_singleton, List.append_nil]
    omega
  have accepted : ¬ Refused (.handshake ⟨noiseMsg⟩) := by
    rintro (⟨p, other, -⟩ | ⟨p, other, -⟩ | large)
    · cases other
    · cases other
    · rw [maxPaddedLen, headerLen] at large
      omega
  obtain ⟨padded, -, -, -, encoded⟩ := encodeMessage_of_not_refused accepted
  rw [encodeFrame, encoded]
  exact ⟨_, rfl⟩

/-! ## The cleartext epoch -/

section

theorem encodeFrame_error_two : ∃ frame, encodeFrame (.error ⟨2⟩) = .ok frame := ⟨_, rfl⟩

theorem queueHandshakeFrame_ok {noiseMsg frame : List UInt8}
    (encoded : encodeFrame (.handshake ⟨noiseMsg⟩) = .ok frame) (driver : LinkDriver)
    (out : LinkOutput) :
    driver.queueHandshakeFrame noiseMsg out =
      (driver, { out with frames := out.frames ++ [frame] }) := by
  rw [LinkDriver.queueHandshakeFrame, encoded]

theorem queueHello_ok {driver : LinkDriver} {body : List UInt8}
    (encoded : encodeMessage driver.ourHello = .ok body) (out : LinkOutput) :
    driver.queueHello out = some ({ driver with ourHelloBody := body },
      { out with frames := out.frames ++ [frameBytes body] }) := by
  rw [LinkDriver.queueHello, encoded]

theorem queueHello_panic {driver : LinkDriver} {error : WireError}
    (refused : encodeMessage driver.ourHello = .error error) (out : LinkOutput) :
    driver.queueHello out = none := by
  rw [LinkDriver.queueHello, refused]

variable [Sha256] [HmacSha256] [X25519] [ChaCha20Poly1305]

/-- The reasons of a silent close before the transport epoch. -/
def EarlyReason (reason : CloseReason) : Prop :=
  reason = .handshakeFailed ∨ reason = .versionIncompatible

/-- What a driver that waits for the HELLO of its peer does with a body. -/
inductive HelloStep (driver : LinkDriver) (body : List UInt8) : LinkDriver → Effect → Prop where
  | failed (reason : CloseReason) (early : EarlyReason reason) :
      HelloStep driver body (closedWith driver reason) (.silence reason)
  | incompatible (hello : Hello) (frame : List UInt8)
      (decoded : decodeMessage body = .ok (.hello hello))
      (disjoint : driver.commonVersion hello = none)
      (encoded : encodeFrame (.error ⟨2⟩) = .ok frame) :
      HelloStep driver body (closedWith driver .versionIncompatible)
        (.refusal [frame] .versionIncompatible)
  | welcomed (hello : Hello) (version : UInt64) (ownBody : List UInt8) (s e : Keypair)
      (role : driver.role = .responder) (decoded : decodeMessage body = .ok (.hello hello))
      (common : driver.commonVersion hello = some version) (keys : driver.keys = some (s, e))
      (encoded : encodeMessage driver.ourHello = .ok ownBody) :
      HelloStep driver body
        { driver with
          negotiatedVersion := some version
          ourHelloBody := ownBody
          keys := none
          state := .handshaking (.newXx .responder s e (body ++ ownBody)) }
        { frames := [frameBytes ownBody] }
  | answered (hello : Hello) (version : UInt64) (s e : Keypair) (noiseMsg frame : List UInt8)
      (hs : HandshakeState) (role : driver.role = .initiator)
      (decoded : decodeMessage body = .ok (.hello hello))
      (common : driver.commonVersion hello = some version) (keys : driver.keys = some (s, e))
      (written : (HandshakeState.newXx .initiator s e (driver.ourHelloBody ++ body)).writeMessage [] =
        .ok (noiseMsg, hs))
      (encoded : encodeFrame (.handshake ⟨noiseMsg⟩) = .ok frame) :
      HelloStep driver body
        { driver with
          negotiatedVersion := some version
          keys := none
          state := .handshaking hs }
        { frames := [frame] }

/-- What a driver in the handshake does with a body. -/
inductive HandshakeStep (driver : LinkDriver) (hs : HandshakeState) (body : List UInt8) :
    LinkDriver → Effect → Prop where
  | failed (reason : CloseReason) (early : EarlyReason reason) :
      HandshakeStep driver hs body (closedWith driver reason) (.silence reason)
  | continued (handshake : Handshake) (read written : HandshakeState) (noiseMsg frame : List UInt8)
      (decoded : decodeMessage body = .ok (.handshake handshake))
      (reads : hs.readMessage handshake.msg = .ok ([], read)) (open_ : read.isFinished = false)
      (writes : read.writeMessage [] = .ok (noiseMsg, written)) (more : written.isFinished = false)
      (encoded : encodeFrame (.handshake ⟨noiseMsg⟩) = .ok frame) :
      HandshakeStep driver hs body { driver with state := .handshaking written }
        { frames := [frame] }
  | concluded (handshake : Handshake) (read written : HandshakeState) (noiseMsg frame : List UInt8)
      (transport : TransportState) (remote : PublicKey)
      (decoded : decodeMessage body = .ok (.handshake handshake))
      (reads : hs.readMessage handshake.msg = .ok ([], read)) (open_ : read.isFinished = false)
      (writes : read.writeMessage [] = .ok (noiseMsg, written)) (done : written.isFinished = true)
      (encoded : encodeFrame (.handshake ⟨noiseMsg⟩) = .ok frame)
      (split : written.intoTransport = .ok (transport, remote)) :
      HandshakeStep driver hs body
        { driver with
          remoteFingerprint := some (fingerprintOf remote)
          state := .transport transport }
        { frames := [frame], events := [.established (fingerprintOf remote)] }
  | finished (handshake : Handshake) (read : HandshakeState) (transport : TransportState)
      (remote : PublicKey) (decoded : decodeMessage body = .ok (.handshake handshake))
      (reads : hs.readMessage handshake.msg = .ok ([], read)) (done : read.isFinished = true)
      (split : read.intoTransport = .ok (transport, remote)) :
      HandshakeStep driver hs body
        { driver with
          remoteFingerprint := some (fingerprintOf remote)
          state := .transport transport }
        { events := [.established (fingerprintOf remote)] }

def parked (driver : LinkDriver) : LinkDriver := { driver with state := .closed .handshakeFailed }

/-- A handler panics whatever the output, or its effect is one that `Step` describes. -/
def Acts (handler : LinkOutput → Option (LinkDriver × LinkOutput))
    (Step : LinkDriver → Effect → Prop) : Prop :=
  (∀ out, handler out = none) ∨
    ∃ after effect, Step after effect ∧ ∀ out, handler out = some (after, effect.on out)

omit [Sha256] [HmacSha256] [X25519] [ChaCha20Poly1305] in
theorem Acts.of_silence {driver : LinkDriver} {Step : LinkDriver → Effect → Prop}
    {handler : LinkOutput → Option (LinkDriver × LinkOutput)} {reason : CloseReason}
    (step : Step (closedWith driver reason) (.silence reason))
    (ran : ∀ out, handler out = some (driver.closeSilently reason out)) : Acts handler Step :=
  Or.inr ⟨_, _, step, ran⟩

omit [Sha256] [HmacSha256] [X25519] [ChaCha20Poly1305] in
theorem Acts.of_other {driver : LinkDriver} {Step : LinkDriver → Effect → Prop}
    {handler : LinkOutput → Option (LinkDriver × LinkOutput)} (msg : Message)
    (failed : ∀ reason, EarlyReason reason → Step (closedWith driver reason) (.silence reason))
    (ran : ∀ out, handler out =
      if LinkDriver.isVersionError msg then some (driver.closeSilently .versionIncompatible out)
      else some (driver.closeSilently .handshakeFailed out)) : Acts handler Step := by
  by_cases two : LinkDriver.isVersionError msg = true
  · exact .of_silence (failed _ (Or.inr rfl)) fun out => (ran out).trans (if_pos two)
  · exact .of_silence (failed _ (Or.inl rfl)) fun out => (ran out).trans (if_neg two)

theorem writeMessage_first (s e : Keypair) (prologue : List UInt8) :
    ∃ noiseMsg hs, (HandshakeState.newXx .initiator s e prologue).writeMessage [] =
      .ok (noiseMsg, hs) := ⟨_, _, rfl⟩

theorem beginHandshake_acts {driver : LinkDriver} {body : List UInt8} {hello : Hello}
    {version : UInt64} (decoded : decodeMessage body = .ok (.hello hello))
    (common : driver.commonVersion hello = some version) (role : driver.role = .initiator) :
    Acts (LinkDriver.beginHandshake { parked driver with negotiatedVersion := some version } body)
      (HelloStep driver body) := by
  cases keys : driver.keys with
  | none =>
    left
    intro out
    simp [LinkDriver.beginHandshake, parked, keys]
  | some pair =>
    obtain ⟨s, e⟩ := pair
    obtain ⟨noiseMsg, hs, written⟩ := writeMessage_first s e (driver.ourHelloBody ++ body)
    obtain ⟨frame, encoded⟩ := encodeFrame_handshake (length_writeMessage written)
    refine Or.inr ⟨_, _, .answered hello version s e noiseMsg frame hs role decoded common keys
      written encoded, fun out => ?_⟩
    rw [Effect.on_frames]
    simp only [LinkDriver.beginHandshake, parked, keys, role, written,
      queueHandshakeFrame_ok encoded]

theorem welcome_acts {driver : LinkDriver} {body : List UInt8} {hello : Hello}
    {version : UInt64} (decoded : decodeMessage body = .ok (.hello hello))
    (common : driver.commonVersion hello = some version) (role : driver.role = .responder) :
    Acts (fun out => (LinkDriver.queueHello { parked driver with negotiatedVersion := some version }
      out).bind fun (driver, out) => driver.beginHandshake body out) (HelloStep driver body) := by
  cases encoded : encodeMessage driver.ourHello with
  | error e =>
    left
    intro out
    beta_reduce
    rw [@queueHello_panic { parked driver with negotiatedVersion := some version } e encoded]
    rfl
  | ok ownBody =>
    have queued : ∀ out, LinkDriver.queueHello
        { parked driver with negotiatedVersion := some version } out =
          some ({ parked driver with negotiatedVersion := some version, ourHelloBody := ownBody },
            { out with frames := out.frames ++ [frameBytes ownBody] }) :=
      @queueHello_ok { parked driver with negotiatedVersion := some version } ownBody encoded
    cases keys : driver.keys with
    | none =>
      left
      intro out
      beta_reduce
      rw [queued, Option.bind_some]
      simp only [LinkDriver.beginHandshake, parked, keys]
    | some pair =>
      obtain ⟨s, e⟩ := pair
      refine Or.inr ⟨_, _, .welcomed hello version ownBody s e role decoded common keys encoded,
        fun out => ?_⟩
      beta_reduce
      rw [queued, Option.bind_some, Effect.on_frames]
      simp only [LinkDriver.beginHandshake, parked, keys, role]

theorem greeting_acts {driver : LinkDriver} {body : List UInt8} {hello : Hello} {version : UInt64}
    (decoded : decodeMessage body = .ok (.hello hello))
    (common : driver.commonVersion hello = some version) :
    Acts ((parked driver).handleHelloBody body) (HelloStep driver body) := by
  have ran : (parked driver).handleHelloBody body = fun out =>
      (LinkDriver.answerHello { parked driver with negotiatedVersion := some version } out).bind
        fun (driver, out) => driver.beginHandshake body out := by
    funext out
    rw [LinkDriver.handleHelloBody, decoded]
    dsimp only
    rw [show (parked driver).commonVersion hello = some version from common]
    rfl
  rw [ran]
  cases role : driver.role with
  | initiator =>
    have started := beginHandshake_acts decoded common role
    simpa only [LinkDriver.answerHello, parked, role, Option.bind_some] using started
  | responder =>
    have welcomed := welcome_acts decoded common role
    simpa only [LinkDriver.answerHello, parked, role] using welcomed

theorem handleHelloBody_acts (driver : LinkDriver) (body : List UInt8) :
    Acts ((parked driver).handleHelloBody body) (HelloStep driver body) := by
  have failed : (∀ out, (parked driver).handleHelloBody body out =
      some ((parked driver).closeSilently .handshakeFailed out)) →
      Acts ((parked driver).handleHelloBody body) (HelloStep driver body) :=
    .of_silence (.failed _ (Or.inl rfl))
  cases decoded : decodeMessage body with
  | error e =>
    exact failed fun out => by rw [LinkDriver.handleHelloBody, decoded]
  | ok msg =>
    cases msg with
    | hello hello =>
      cases common : driver.commonVersion hello with
      | none =>
        obtain ⟨frame, encoded⟩ := encodeFrame_error_two
        refine Or.inr ⟨_, _, .incompatible hello frame decoded common encoded, fun out => ?_⟩
        have unlike : (parked driver).commonVersion hello = none := common
        simp only [LinkDriver.handleHelloBody, decoded, unlike, LinkDriver.closeWithError,
          LinkDriver.errorFrame, encoded]
        rfl
      | some version => exact greeting_acts decoded common
    | error err =>
      refine .of_other (.error err) .failed fun out => ?_
      rw [LinkDriver.handleHelloBody, decoded]
      rfl
    | handshake _ | gossipPush _ | reconInit _ | reconMsg _ | reconDone _ =>
      refine failed fun out => ?_
      rw [LinkDriver.handleHelloBody, decoded]
      rfl

theorem handleHandshakeBody_eq {driver : LinkDriver} {hs read : HandshakeState} {body : List UInt8}
    {handshake : Handshake} (decoded : decodeMessage body = .ok (.handshake handshake))
    (reads : hs.readMessage handshake.msg = .ok ([], read)) (open_ : read.isFinished = false)
    (out : LinkOutput) : (parked driver).handleHandshakeBody hs body out =
      match read.writeMessage [] with
      | .error _ => some ((parked driver).closeSilently .handshakeFailed out)
      | .ok (noiseMsg, hs) =>
        let (driver, out) := (parked driver).queueHandshakeFrame noiseMsg out
        some (driver.advanceHandshake hs out) := by
  rw [LinkDriver.handleHandshakeBody, decoded]
  dsimp only
  rw [reads]
  dsimp only
  rewrite [if_neg (by simp [open_])]
  rcases read.writeMessage [] with _ | ⟨noiseMsg, written⟩ <;> rfl

theorem answer_acts {driver : LinkDriver} {hs read : HandshakeState} {body : List UInt8}
    {handshake : Handshake} (decoded : decodeMessage body = .ok (.handshake handshake))
    (reads : hs.readMessage handshake.msg = .ok ([], read)) (open_ : read.isFinished = false) :
    Acts ((parked driver).handleHandshakeBody hs body) (HandshakeStep driver hs body) := by
  have ran := @handleHandshakeBody_eq _ _ _ _ driver _ _ _ _ decoded reads open_
  cases writes : read.writeMessage [] with
  | error e =>
    refine .of_silence (.failed .handshakeFailed (Or.inl rfl)) fun out => ?_
    rw [ran, writes]
    rfl
  | ok result =>
    obtain ⟨noiseMsg, written⟩ := result
    obtain ⟨frame, encoded⟩ := encodeFrame_handshake (length_writeMessage writes)
    have advanced : ∀ out, (parked driver).handleHandshakeBody hs body out =
        some ((parked driver).advanceHandshake written
          { out with frames := out.frames ++ [frame] }) := by
      intro out
      rw [ran, writes]
      dsimp only
      rw [queueHandshakeFrame_ok encoded]
    cases done : written.isFinished with
    | false =>
      refine Or.inr ⟨_, _, .continued handshake read written noiseMsg frame decoded reads open_
        writes done encoded, fun out => ?_⟩
      rw [advanced, LinkDriver.advanceHandshake, if_neg (by simp [done]), Effect.on_frames]
      rfl
    | true =>
      cases split : written.intoTransport with
      | error e =>
        refine .of_silence (.failed .handshakeFailed (Or.inl rfl)) fun out => ?_
        rw [advanced, LinkDriver.advanceHandshake, if_pos done, split]
        rfl
      | ok result =>
        obtain ⟨transport, remote⟩ := result
        refine Or.inr ⟨_, _, .concluded handshake read written noiseMsg frame transport remote
          decoded reads open_ writes done encoded split, fun out => ?_⟩
        rw [advanced, LinkDriver.advanceHandshake, if_pos done, split]
        rfl

theorem handleHandshakeBody_acts (driver : LinkDriver) (hs : HandshakeState) (body : List UInt8) :
    Acts ((parked driver).handleHandshakeBody hs body) (HandshakeStep driver hs body) := by
  have failed : (∀ out, (parked driver).handleHandshakeBody hs body out =
      some ((parked driver).closeSilently .handshakeFailed out)) →
      Acts ((parked driver).handleHandshakeBody hs body) (HandshakeStep driver hs body) :=
    .of_silence (.failed _ (Or.inl rfl))
  cases decoded : decodeMessage body with
  | error e =>
    exact failed fun out => by rw [LinkDriver.handleHandshakeBody, decoded]
  | ok msg =>
    cases msg with
    | handshake handshake =>
      cases reads : hs.readMessage handshake.msg with
      | error trap =>
        cases trap with
        | panic => exact Or.inl fun out => by simp only [LinkDriver.handleHandshakeBody, decoded, reads]
        | err e => exact failed fun out => by simp only [LinkDriver.handleHandshakeBody, decoded, reads]
      | ok result =>
        obtain ⟨payload, read⟩ := result
        cases payload with
        | cons byte rest =>
          exact failed fun out => by simp only [LinkDriver.handleHandshakeBody, decoded, reads]
        | nil =>
          cases done : read.isFinished with
          | false => exact answer_acts decoded reads done
          | true =>
            have advanced : ∀ out, (parked driver).handleHandshakeBody hs body out =
                some ((parked driver).advanceHandshake read out) := by
              intro out
              simp only [LinkDriver.handleHandshakeBody, decoded, reads, if_pos done]
            cases split : read.intoTransport with
            | error e =>
              refine failed fun out => ?_
              rw [advanced, LinkDriver.advanceHandshake, if_pos done, split]
            | ok result =>
              obtain ⟨transport, remote⟩ := result
              refine Or.inr ⟨_, _, .finished handshake read transport remote decoded reads
                done split, fun out => ?_⟩
              rw [advanced, LinkDriver.advanceHandshake, if_pos done, split,
                Effect.on_events]
              rfl
    | error err =>
      refine .of_other (.error err) .failed fun out => ?_
      rw [LinkDriver.handleHandshakeBody, decoded]
      rfl
    | hello _ | gossipPush _ | reconInit _ | reconMsg _ | reconDone _ =>
      refine failed fun out => ?_
      rw [LinkDriver.handleHandshakeBody, decoded]
      rfl

end

end Racnet.Proof.Driver
