import Racnet.Proof.Driver.Discipline

/-!
# Links that are closed over a nonce

A link is closed for an exhausted nonce whenever it cannot encrypt a message, also when the message
could not be encoded.
-/

namespace Racnet.Proof.Driver
open Lib Noise Store Sync Wire Link
open Proof.Channel (cipherAfter cipherAfter_zero encrypt_next encrypt_exhausted)
open Proof.Format (encodeMessage_of_not_refused encodeMessage_of_refused Refused le_of_paddedLen)

/-! ## Ciphers -/

theorem length_encodeMessage_lt {msg : Message} {body : List UInt8}
    (encoded : encodeMessage msg = .ok body) : body.length < plaintextLimit := by
  have accepted : ¬ Refused msg := fun refused => by
    obtain ⟨error, failed⟩ := encodeMessage_of_refused refused
    rw [failed] at encoded
    cases encoded
  obtain ⟨padded, found, -, -, encoded'⟩ := encodeMessage_of_not_refused accepted
  obtain ⟨enough, -, small⟩ := le_of_paddedLen found
  rw [← Except.ok.inj (encoded'.symm.trans encoded)]
  simp only [List.length_cons, List.length_append, length_beBytes, List.length_replicate]
  simp only [headerLen, maxPaddedLen, plaintextLimit] at *
  omega

section
variable [ChaCha20Poly1305]

theorem nonce_rekeyIfDue (cipher : CipherState) : (TransportState.rekeyIfDue cipher).n = cipher.n := by
  rw [TransportState.rekeyIfDue]
  split_ifs
  · rfl
  · rfl

theorem encryptFrame_refused {transport after : TransportState} {msg : Message} {error : NoiseError}
    (working : transport.failed = false)
    (refused : LinkDriver.encryptFrame transport msg = (.error error, after)) :
    transport.send.n = maxNonce ∨ ∃ cause, encodeMessage msg = .error cause := by
  cases encoded : encodeMessage msg with
  | error cause => exact Or.inr ⟨cause, rfl⟩
  | ok plaintext =>
    left
    by_contra fresh
    have short := length_encodeMessage_lt encoded
    rw [LinkDriver.encryptFrame, encoded] at refused
    dsimp only at refused
    rw [TransportState.encrypt, if_neg (by simp [working]), CipherState.encryptWithAd] at refused
    cases keyed : (TransportState.rekeyIfDue transport.send).k with
    | none =>
      rw [keyed] at refused
      cases refused
    | some key =>
      rw [keyed] at refused
      dsimp only at refused
      rw [nonce_rekeyIfDue, if_neg fresh] at refused
      obtain ⟨ciphertext, sealed⟩ := Option.isSome_iff_exists.mp
        (ChaCha20Poly1305.encrypt_isSome key (nonceBytes transport.send.n) [] plaintext short)
      rw [sealed] at refused
      cases refused

theorem decrypt_exhausted {transport after : TransportState} {body : List UInt8}
    (working : transport.failed = false)
    (refused : transport.decrypt body = (.error .nonceExhausted, after)) :
    transport.recv.n = maxNonce := by
  by_contra fresh
  rw [TransportState.decrypt, if_neg (by simp [working]), CipherState.decryptWithAd] at refused
  cases keyed : (TransportState.rekeyIfDue transport.recv).k with
  | none =>
    rw [keyed] at refused
    cases refused
  | some key =>
    rw [keyed] at refused
    dsimp only at refused
    rw [nonce_rekeyIfDue, if_neg fresh] at refused
    cases opened : ChaCha20Poly1305.decrypt key (nonceBytes transport.recv.n) [] body with
    | none =>
      rw [opened] at refused
      cases refused
    | some plaintext =>
      rw [opened] at refused
      cases refused

theorem working_decrypt {transport after : TransportState} {body plaintext : List UInt8}
    (decrypted : transport.decrypt body = (.ok plaintext, after)) : after.failed = false := by
  rw [TransportState.decrypt] at decrypted
  split_ifs at decrypted
  · cases decrypted
  · rcases outcome : (TransportState.rekeyIfDue transport.recv).decryptWithAd [] body with
      ⟨result, recv⟩
    rw [outcome] at decrypted
    obtain ⟨rfl, rfl⟩ := Prod.mk.inj decrypted
    rfl

theorem working_encryptFrame {transport after : TransportState} {msg : Message} {frame : List UInt8}
    (working : transport.failed = false)
    (encrypted : LinkDriver.encryptFrame transport msg = (.ok frame, after)) :
    after.failed = false := by
  cases encoded : encodeMessage msg with
  | error cause =>
    rw [LinkDriver.encryptFrame, encoded] at encrypted
    cases encrypted
  | ok plaintext =>
    rw [LinkDriver.encryptFrame, encoded] at encrypted
    dsimp only at encrypted
    rw [TransportState.encrypt, if_neg (by simp [working])] at encrypted
    rw [← (Prod.mk.inj encrypted).2]
    exact working

theorem working_encryptAll {transport last : TransportState} {msgs : List Message}
    {frames : List (List UInt8)} (working : transport.failed = false)
    (encrypted : encryptAll transport msgs = some (frames, last)) : last.failed = false := by
  induction msgs generalizing transport frames with
  | nil =>
    cases encrypted
    exact working
  | cons msg msgs ih =>
    obtain ⟨frame, next, later, first, rest, rfl⟩ := encryptAll_cons encrypted
    exact ih (working_encryptFrame working first) rest

theorem encryptAll_none {transport : TransportState} {msgs : List Message}
    (failed : encryptAll transport msgs = none) :
    ∃ sent msg later frames last error after, msgs = sent ++ msg :: later ∧
      encryptAll transport sent = some (frames, last) ∧
      LinkDriver.encryptFrame last msg = (.error error, after) := by
  induction msgs generalizing transport with
  | nil => cases failed
  | cons msg msgs ih =>
    rw [encryptAll] at failed
    rcases first : LinkDriver.encryptFrame transport msg with ⟨error | frame, next⟩
    · exact ⟨[], msg, msgs, [], transport, error, next, rfl, rfl, first⟩
    · rw [first] at failed
      obtain ⟨sent, stop, later, frames, last, error, after, rfl, encrypted, refused⟩ :=
        ih (Option.map_eq_none_iff.mp failed)
      refine ⟨msg :: sent, stop, later, frame :: frames, last, error, after, rfl, ?_, refused⟩
      rw [encryptAll, first]
      dsimp only
      rw [encrypted]
      rfl

end

/-! ## Where a call stops -/

section
variable [Sha256] [HmacSha256] [X25519] [ChaCha20Poly1305] [Ed25519]

/-- A cipher stops a driver over a body: `transport` does not decrypt it, or it does not encrypt a
reply to it. -/
inductive BodyStops (driver : LinkDriver) (store : EntryStore) (body : List UInt8) :
    Option Message → TransportState → Prop where
  | incoming (transport after : TransportState) (established : driver.state = .transport transport)
      (refused : transport.decrypt body = (.error .nonceExhausted, after)) :
      BodyStops driver store body none transport
  | reply (transport received last after : TransportState) (plaintext : List UInt8)
      (msg reply : Message) (sent later : List Message) (frames : List (List UInt8))
      (error : NoiseError) (established : driver.state = .transport transport)
      (decrypted : transport.decrypt body = (.ok plaintext, received))
      (decoded : decodeMessage plaintext = .ok msg)
      (replies : (driver.syncer.handleMessageInto store msg {}).output.replies =
        sent ++ reply :: later)
      (encrypted : encryptAll received sent = some (frames, last))
      (refused : LinkDriver.encryptFrame last reply = (.error error, after)) :
      BodyStops driver store body (some reply) last

inductive BodiesStop : LinkDriver → EntryStore → Option Message → TransportState → Prop where
  | now {driver : LinkDriver} {store : EntryStore} {body : List UInt8} {decoder : FrameDecoder}
      {msg : Option Message} {transport : TransportState}
      (next : driver.decoder.nextBody = (some body, decoder))
      (stops : BodyStops { driver with decoder } store body msg transport) :
      BodiesStop driver store msg transport
  | later {driver middle : LinkDriver} {store store₁ : EntryStore} {body : List UInt8}
      {decoder : FrameDecoder} {out out₁ : LinkOutput} {msg : Option Message}
      {transport : TransportState} (next : driver.decoder.nextBody = (some body, decoder))
      (handled : LinkDriver.handleBody { driver with decoder } store body out =
        some (middle, store₁, out₁))
      (rest : BodiesStop middle store₁ msg transport) : BodiesStop driver store msg transport

/-- In a call `transport` refuses a body, or it refuses the message `msg`. -/
inductive Stops (driver : LinkDriver) (store : EntryStore) :
    Call → Option Message → TransportState → Prop where
  | send {msg : Message} {transport after : TransportState} {error : NoiseError}
      (established : driver.state = .transport transport)
      (refused : LinkDriver.encryptFrame transport msg = (.error error, after)) :
      Stops driver store (.send msg) (some msg) transport
  | openSync {window : SortKeyWindow} {sid : UInt64} {msg : Message} {syncer : Syncer}
      {transport after : TransportState} {error : NoiseError}
      (established : driver.state = .transport transport)
      (opened : driver.syncer.openSession store window = (.ok (sid, msg), syncer))
      (refused : LinkDriver.encryptFrame transport msg = (.error error, after)) :
      Stops driver store (.openSync window) (some msg) transport
  | onBytes {bytes : List UInt8} {nowUs : UInt64} {msg : Option Message}
      {transport : TransportState}
      (stops : BodiesStop { driver with decoder := driver.decoder.push bytes } store msg transport) :
      Stops driver store (.onBytes bytes nowUs) msg transport

variable {driver after : LinkDriver} {store store' : EntryStore} {out out' : LinkOutput}

theorem BodyStep.stops {body : List UInt8} {effect : Effect}
    (step : BodyStep driver store body after store' effect)
    (closed : after.closeReason = some .nonceExhausted) :
    ∃ msg transport, BodyStops driver store body msg transport := by
  cases step with
  | hello waiting step =>
    cases step with
    | failed reason early => rcases early with rfl | rfl <;> cases closed
    | incompatible | welcomed | answered => cases closed
  | handshake hs waiting step =>
    cases step with
    | failed reason early => rcases early with rfl | rfl <;> cases closed
    | continued | concluded | finished => cases closed
  | transport transport established step =>
    cases step with
    | dropped reason early =>
      rcases early with rfl | ⟨rfl, received, refused⟩ | rfl
      · cases closed
      · exact ⟨none, transport, .incoming transport received established refused⟩
      · cases closed
    | peerError | violated | handled | refused => cases closed
    | exhausted plaintext received msg handled decrypted decoded sync ran accepted failed =>
      subst ran
      obtain ⟨sent, reply, later, frames, last, error, final, replies, encrypted, refused⟩ :=
        encryptAll_none failed
      exact ⟨some reply, last, .reply transport received last final plaintext msg reply sent later
        frames error established decrypted decoded replies encrypted refused⟩

theorem handleBody_stops {body : List UInt8} (open_ : driver.isClosed = false)
    (ran : driver.handleBody store body out = some (after, store', out'))
    (closed : after.closeReason = some .nonceExhausted) :
    ∃ msg transport, BodyStops driver store body msg transport := by
  rcases handleBody_acts open_ store body with panics | ⟨after', store₁, effect, step, handled⟩
  · rw [panics] at ran
    cases ran
  obtain ⟨rfl, -⟩ := Prod.mk.inj (Option.some.inj (ran.symm.trans (handled out)))
  exact step.stops closed

theorem handleBodies_stops {fuel : Nat} (open_ : driver.isClosed = false)
    (ran : LinkDriver.handleBodies fuel driver store out = some (after, store', out'))
    (closed : after.closeReason = some .nonceExhausted) :
    ∃ msg transport, BodiesStop driver store msg transport := by
  have still : driver.closeReason ≠ some .nonceExhausted := by
    intro same
    rw [LinkDriver.isClosed, same] at open_
    cases open_
  induction fuel generalizing driver store out with
  | zero =>
    cases ran
    exact absurd closed still
  | succ fuel ih =>
    rw [LinkDriver.handleBodies] at ran
    rcases next : driver.decoder.nextBody with ⟨_ | body, decoder⟩
    · rw [next] at ran
      cases ran
      exact absurd closed still
    · rw [next] at ran
      obtain ⟨⟨middle, store₁, out₁⟩, handled, ran⟩ := Option.bind_eq_some_iff.mp ran
      dsimp only at ran
      cases ended : middle.isClosed with
      | true =>
        rw [if_pos ended] at ran
        cases ran
        obtain ⟨msg, transport, stops⟩ :=
          @handleBody_stops _ _ _ _ _ { driver with decoder } _ _ _ _ _ _ open_ handled closed
        exact ⟨msg, transport, .now next stops⟩
      | false =>
        rw [if_neg (by simp [ended])] at ran
        have going : middle.closeReason ≠ some .nonceExhausted := by
          intro same
          rw [LinkDriver.isClosed, same] at ended
          cases ended
        obtain ⟨msg, transport, stops⟩ := ih ended ran going
        exact ⟨msg, transport, .later next handled stops⟩

theorem perform_stops {call : Call} (open_ : driver.closeReason = none)
    (ran : perform driver store call = some (after, store', out))
    (closed : after.closeReason = some .nonceExhausted) :
    ∃ msg transport, Stops driver store call msg transport := by
  have still : driver.closeReason ≠ some .nonceExhausted := by simp [open_]
  have running : driver.isClosed = false := by rw [LinkDriver.isClosed, open_]; rfl
  have timely : ∀ {reason nowUs}, timeout driver nowUs = some reason → reason ≠ .nonceExhausted := by
    rintro _ nowUs late rfl
    rw [timeout] at late
    split_ifs at late <;> cases late
  obtain ⟨effect, step, -⟩ := perform_step ran
  cases step with
  | idle | started => exact absurd closed still
  | expired reason _ late => exact absurd (Option.some.inj closed) (timely late)
  | sent | ended => cases closed
  | exhausted transport last syncer msg error established refused outgoing =>
    cases outgoing with
    | send => exact ⟨_, transport, .send established refused⟩
    | openSync opened => exact ⟨_, transport, .openSync established opened refused⟩
  | @bytes bytes nowUs _ _ _ step =>
    cases step with
    | inert ended => cases running.symm.trans ended
    | expired reason _ late => exact absurd (Option.some.inj closed) (timely late)
    | read _ inTime _ =>
      rw [perform, onBytes_inTime running inTime] at ran
      obtain ⟨msg, transport, stops⟩ := @handleBodies_stops _ _ _ _ _
        (withDecoder (driver.decoder.push bytes) driver) _ _ _ _ _ _ running ran closed
      exact ⟨msg, transport, .onBytes stops⟩

/-! ## The transport works until the link is closed -/

def Working (driver : LinkDriver) : Prop :=
  ∀ transport, driver.state = .transport transport → transport.failed = false

omit [Sha256] [HmacSha256] [X25519] [ChaCha20Poly1305] [Ed25519] in
theorem working_of_ne (early : ∀ transport, driver.state ≠ .transport transport) : Working driver :=
  fun transport state => absurd state (early transport)

omit [Sha256] [HmacSha256] [X25519] [ChaCha20Poly1305] [Ed25519] in
theorem working_of_state {transport : TransportState} (state : driver.state = .transport transport)
    (works : transport.failed = false) : Working driver := by
  intro other same
  cases state.symm.trans same
  exact works

omit [Sha256] [X25519] [ChaCha20Poly1305] [Ed25519] in
theorem working_intoTransport {hs : HandshakeState} {transport : TransportState} {remote : PublicKey}
    (split : hs.intoTransport = .ok (transport, remote)) : transport.failed = false := by
  rw [HandshakeState.intoTransport] at split
  split_ifs at split
  cases known : hs.rs with
  | none =>
    rw [known] at split
    cases split
  | some rs =>
    rw [known] at split
    cases role : hs.role <;>
    · rw [role] at split
      cases split
      rfl

theorem BodyStep.working {body : List UInt8} {effect : Effect}
    (step : BodyStep driver store body after store' effect) : Working after := by
  cases step with
  | hello waiting step => cases step <;> exact working_of_ne (by simp [closedWith])
  | handshake hs waiting step =>
    cases step with
    | failed | continued => exact working_of_ne (by simp [closedWith])
    | concluded _ _ _ _ _ _ _ _ _ _ _ _ _ split =>
      exact working_of_state rfl (working_intoTransport split)
    | finished _ _ _ _ _ _ _ split => exact working_of_state rfl (working_intoTransport split)
  | transport transport established step =>
    cases step with
    | dropped | peerError | violated | exhausted | refused =>
      exact working_of_ne (by simp [closedWith])
    | handled _ _ _ _ _ _ decrypted _ _ _ _ encrypted =>
      exact working_of_state rfl (working_encryptAll (working_decrypt decrypted) encrypted)

theorem Bodies.working {effect : Effect} (bodies : Bodies driver store after store' effect)
    (works : Working driver) : Working after := by
  induction bodies with
  | waiting incomplete => exact works
  | closed next step ended => exact step.working
  | more next step open_ rest ih => exact ih step.working

theorem CallStep.working {call : Call} {effect : Effect} (works : Working driver)
    (step : CallStep driver store call after store' effect) : Working after := by
  cases step with
  | idle | started => exact works
  | bytes step =>
    cases step with
    | inert => exact works
    | expired => exact working_of_ne (by simp [closedWith])
    | read open_ inTime bodies => exact bodies.working works
  | expired | exhausted | ended => exact working_of_ne (by simp [closedWith])
  | sent transport last syncer msg frame established encrypted =>
    exact working_of_state rfl (working_encryptFrame (works transport established) encrypted)

/-- Why a transport stops a call: it is at its last nonce, or the message has no encoding. -/
def Cause (msg : Option Message) (transport : TransportState) : Prop :=
  transport.send.n = maxNonce ∨ transport.recv.n = maxNonce ∨
    ∃ refused error, msg = some refused ∧ encodeMessage refused = .error error

omit [Sha256] [HmacSha256] [X25519] [Ed25519] in
theorem cause_of_refused {transport last : TransportState} {msg : Message} {error : NoiseError}
    (working : transport.failed = false)
    (refused : LinkDriver.encryptFrame transport msg = (.error error, last)) :
    Cause (some msg) transport := by
  rcases encryptFrame_refused working refused with exhausted | ⟨cause, failed⟩
  · exact Or.inl exhausted
  · exact Or.inr (Or.inr ⟨msg, cause, rfl, failed⟩)

omit [HmacSha256] [X25519] in
theorem BodyStops.cause {body : List UInt8} {msg : Option Message} {transport : TransportState}
    (stops : BodyStops driver store body msg transport) (works : Working driver) :
    Cause msg transport := by
  cases stops with
  | incoming _ _ established refused =>
    exact Or.inr (Or.inl (decrypt_exhausted (works transport established) refused))
  | reply _ _ _ _ _ _ _ _ _ _ _ _ decrypted _ _ encrypted refused =>
    exact cause_of_refused (working_encryptAll (working_decrypt decrypted) encrypted) refused

theorem handleBody_working {body : List UInt8}
    (ran : driver.handleBody store body out = some (after, store', out')) (works : Working driver) :
    Working after := by
  cases ended : driver.isClosed with
  | true =>
    obtain ⟨reason, closed⟩ := Option.isSome_iff_exists.mp ended
    cases state : driver.state with
    | closed reason =>
      rw [LinkDriver.handleBody, state] at ran
      cases ran
      exact works
    | awaitPeerHello | handshaking | transport => simp [LinkDriver.closeReason, state] at closed
  | false =>
    rcases handleBody_acts ended store body with panics | ⟨after', store₁, effect, step, handled⟩
    · rw [panics] at ran
      cases ran
    · obtain ⟨rfl, -⟩ := Prod.mk.inj (Option.some.inj (ran.symm.trans (handled out)))
      exact step.working

theorem BodiesStop.cause {msg : Option Message} {transport : TransportState}
    (stops : BodiesStop driver store msg transport) (works : Working driver) :
    Cause msg transport := by
  induction stops with
  | now next stops => exact stops.cause works
  | later next handled rest ih => exact ih (handleBody_working handled works)

theorem Stops.cause {call : Call} {msg : Option Message} {transport : TransportState}
    (stops : Stops driver store call msg transport) (works : Working driver) :
    Cause msg transport := by
  cases stops with
  | send established refused => exact cause_of_refused (works transport established) refused
  | openSync established _ refused => exact cause_of_refused (works transport established) refused
  | onBytes stops => exact stops.cause works

/-! ## Runs -/

/-- The driver after the calls of a run, in which the store may change between them in any way. -/
def runCalls : LinkDriver → List (EntryStore × Call) → Option LinkDriver
  | driver, [] => some driver
  | driver, (store, call) :: calls => do
    let (after, _, _) ← perform driver store call
    runCalls after calls

theorem runCalls_append (driver : LinkDriver) (first second : List (EntryStore × Call)) :
    runCalls driver (first ++ second) = (runCalls driver first).bind (runCalls · second) := by
  induction first generalizing driver with
  | nil => rfl
  | cons head calls ih =>
    rw [List.cons_append, runCalls, runCalls, Option.bind_eq_bind, Option.bind_assoc]
    exact congrArg _ (funext fun result => ih result.1)

theorem Working.run {calls : List (EntryStore × Call)} (works : Working driver)
    (ran : runCalls driver calls = some after) : Working after := by
  induction calls generalizing driver with
  | nil =>
    cases ran
    exact works
  | cons head calls ih =>
    obtain ⟨⟨middle, store', out⟩, performed, ran⟩ := Option.bind_eq_some_iff.mp ran
    obtain ⟨effect, step, -⟩ := perform_step performed
    exact ih (step.working works) ran

theorem perform_send_sync {transport : TransportState} {msg : Message}
    (established : driver.state = .transport transport) (sync : IsSync msg) :
    perform driver store (.send msg) =
      some ((driver.queueEncrypted msg {}).1, store, (driver.queueEncrypted msg {}).2) := by
  rw [perform, LinkDriver.send.eq_def, if_neg (by simp [LinkDriver.isEstablished, established])]
  cases msg with
  | hello _ | handshake _ | error _ => cases sync
  | gossipPush _ | reconInit _ | reconMsg _ | reconDone _ => rfl

theorem perform_send_refused {transport last : TransportState} {msg : Message} {error : NoiseError}
    (established : driver.state = .transport transport) (sync : IsSync msg)
    (refused : LinkDriver.encryptFrame transport msg = (.error error, last)) :
    perform driver store (.send msg) =
      some (closedWith driver .nonceExhausted, store, ⟨[], [.closed .nonceExhausted]⟩) := by
  rw [perform_send_sync established sync, queueEncrypted_error established refused]
  rfl

theorem runCalls_sends {transport : TransportState} {key : FixedBytes 32} {done : ReconDone}
    {body : List UInt8} (encoded : encodeMessage (.reconDone done) = .ok body) (n count : Nat)
    (room : count + n ≤ 2 ^ 64 - 1) (established : driver.state = .transport transport)
    (working : transport.failed = false) (send : transport.send = cipherAfter key count) :
    ∃ after last, runCalls driver (List.replicate n (store, .send (.reconDone done))) = some after ∧
      after.state = .transport last ∧ last.failed = false ∧
      last.send = cipherAfter key (count + n) := by
  induction n generalizing driver transport count with
  | zero => exact ⟨driver, transport, rfl, established, working, send⟩
  | succ n ih =>
    obtain ⟨ciphertext, -, encrypted⟩ := encrypt_next working send (by omega)
      (length_encodeMessage_lt encoded)
    have frame : LinkDriver.encryptFrame transport (.reconDone done) =
        (.ok (frameBytes ciphertext), { transport with send := cipherAfter key (count + 1) }) := by
      rw [LinkDriver.encryptFrame, encoded]
      dsimp only
      rw [encrypted]
      rfl
    obtain ⟨after, last, ran, state, works, sent⟩ := @ih
      { driver with state := .transport { transport with send := cipherAfter key (count + 1) } }
      { transport with send := cipherAfter key (count + 1) } (count + 1) (by omega) rfl working rfl
    refine ⟨after, last, ?_, state, works, by rw [sent]; congr 1; omega⟩
    rw [List.replicate_succ, runCalls,
      perform_send_sync established (show IsSync (.reconDone done) from trivial),
      queueEncrypted_ok established frame]
    exact ran

end

/-! ## A link that cannot encode, and one that has used its nonces -/

section
open StandIns

def handshakeCalls : List (EntryStore × Call) :=
  handshaken.elim [] fun talk => [(EntryStore.new, .start), (EntryStore.new, .onBytes talk.answer 0),
    (EntryStore.new, .onBytes talk.second 0)]

def unused (driver : LinkDriver) : Bool :=
  match driver.state with
  | .transport transport => !transport.failed && transport.send.k.isSome &&
      decide (transport.send.n = 0) && decide (transport.recv.n = 0)
  | _ => false

theorem handshakeCalls_established : ∃ driver transport key,
    runCalls (idleDriver .initiator) handshakeCalls = some driver ∧
      driver.state = .transport transport ∧ transport.failed = false ∧
      transport.send = cipherAfter key 0 ∧ transport.recv.n = 0 := by
  have established : (runCalls (idleDriver .initiator) handshakeCalls).any unused = true := by
    decide +kernel
  obtain ⟨driver, ran, holds⟩ := (Option.any_eq_true _ _).mp established
  rw [unused] at holds
  cases state : driver.state with
  | transport transport =>
    rw [state] at holds
    simp only [Bool.and_eq_true, Bool.not_eq_true', decide_eq_true_eq] at holds
    obtain ⟨⟨⟨working, keyed⟩, first⟩, none⟩ := holds
    obtain ⟨key, known⟩ := Option.isSome_iff_exists.mp keyed
    refine ⟨driver, transport, key, ran, state, working, ?_, none⟩
    rw [cipherAfter_zero, CipherState.initializeKey, ← known, ← first]
  | awaitPeerHello | handshaking | closed =>
    rw [state] at holds
    cases holds

/-- A push of no entries closes a link that has not used a nonce yet. -/
theorem empty_push_exhausts : ∃ calls driver transport after out,
    runCalls (idleDriver .initiator) calls = some driver ∧ driver.state = .transport transport ∧
      transport.send.n.toNat = 0 ∧ transport.recv.n.toNat = 0 ∧
      perform driver EntryStore.new (.send (.gossipPush ⟨[], 1⟩)) =
        some (after, EntryStore.new, out) ∧
      .closed .nonceExhausted ∈ out.events := by
  obtain ⟨driver, transport, key, ran, state, -, send, recv⟩ := handshakeCalls_established
  have refused : LinkDriver.encryptFrame transport (.gossipPush ⟨[], 1⟩) =
      (.error .badMessage, transport) := rfl
  refine ⟨handshakeCalls, driver, transport, closedWith driver .nonceExhausted,
    ⟨[], [.closed .nonceExhausted]⟩, ran, state, ?_, ?_, ?_, List.mem_singleton_self _⟩
  · rw [send]
    rfl
  · rw [recv]
    rfl
  · exact perform_send_refused state trivial refused

end

end Racnet.Proof.Driver
