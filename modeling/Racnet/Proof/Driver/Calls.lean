import Racnet.Proof.Driver.Trace

/-!
# The calls of a driver
-/

namespace Racnet.Proof.Driver
open Lib Noise Store Sync Wire Link

inductive Call where
  | start
  | onBytes (bytes : List UInt8) (nowUs : UInt64)
  | onTick (nowUs : UInt64)
  | openSync (window : SortKeyWindow)
  | send (msg : Message)

section
variable [Sha256] [HmacSha256] [X25519] [ChaCha20Poly1305] [Ed25519]

def perform (driver : LinkDriver) (store : EntryStore) :
    Call → Option (LinkDriver × EntryStore × LinkOutput)
  | .start => driver.start.map fun (driver, out) => (driver, store, out)
  | .onBytes bytes nowUs => driver.onBytes store bytes nowUs
  | .onTick nowUs =>
    let (driver, out) := driver.onTick nowUs
    some (driver, store, out)
  | .openSync window =>
    match driver.openSync store window with
    | (.ok (_, out), driver) => some (driver, store, out)
    | (.error (.err _), driver) => some (driver, store, {})
    | (.error .panic, _) => none
  | .send msg =>
    match driver.send msg with
    | (.ok out, driver) => some (driver, store, out)
    | (.error _, driver) => some (driver, store, {})

/-- The message that a call has the driver send, and the syncer that has made it. -/
inductive Outgoing (driver : LinkDriver) (store : EntryStore) : Call → Syncer → Message → Prop where
  | send (msg : Message) : Outgoing driver store (.send msg) driver.syncer msg
  | openSync {window : SortKeyWindow} {sid : UInt64} {syncer : Syncer} {msg : Message}
      (opened : driver.syncer.openSession store window = (.ok (sid, msg), syncer)) :
      Outgoing driver store (.openSync window) syncer msg

inductive CallStep (driver : LinkDriver) (store : EntryStore) :
    Call → LinkDriver → EntryStore → Effect → Prop where
  | idle {call : Call} : CallStep driver store call driver store {}
  | started (body : List UInt8) (role : driver.role = .initiator)
      (waiting : driver.state = .awaitPeerHello)
      (encoded : encodeMessage driver.ourHello = .ok body) :
      CallStep driver store .start { driver with ourHelloBody := body } store
        { frames := [frameBytes body] }
  | bytes {bytes : List UInt8} {nowUs : UInt64} {after : LinkDriver} {store' : EntryStore}
      {effect : Effect} (step : BytesStep driver store bytes nowUs after store' effect) :
      CallStep driver store (.onBytes bytes nowUs) after store' effect
  | expired {nowUs : UInt64} (reason : CloseReason) (open_ : driver.isClosed = false)
      (late : timeout driver nowUs = some reason) :
      CallStep driver store (.onTick nowUs) (closedWith driver reason) store (.silence reason)
  | sent {call : Call} (transport after : TransportState) (syncer : Syncer) (msg : Message)
      (frame : List UInt8) (established : driver.state = .transport transport)
      (encrypted : LinkDriver.encryptFrame transport msg = (.ok frame, after))
      (outgoing : Outgoing driver store call syncer msg) :
      CallStep driver store call { driver with syncer, state := .transport after } store
        { frames := [frame] }
  | exhausted {call : Call} (transport after : TransportState) (syncer : Syncer) (msg : Message)
      (error : NoiseError) (established : driver.state = .transport transport)
      (refused : LinkDriver.encryptFrame transport msg = (.error error, after))
      (outgoing : Outgoing driver store call syncer msg) :
      CallStep driver store call (closedWith { driver with syncer } .nonceExhausted) store
        (.silence .nonceExhausted)
  | ended (transport : TransportState) (code : UInt64)
      (established : driver.state = .transport transport) :
      CallStep driver store (.send (.error ⟨code⟩)) (closedWith driver (.protocolViolation code))
        store (.refusal (errorFrames transport code) (.protocolViolation code))

variable {driver after : LinkDriver} {store store' : EntryStore}

omit [Sha256] [HmacSha256] [X25519] [ChaCha20Poly1305] [Ed25519] in
theorem start_eq (driver : LinkDriver) :
    driver.start = some (driver, {}) ∨
      driver.role = .initiator ∧ driver.state = .awaitPeerHello ∧ driver.start = driver.queueHello {} := by
  cases role : driver.role <;> cases state : driver.state <;> simp [LinkDriver.start, role, state]

omit [Sha256] [HmacSha256] [X25519] [ChaCha20Poly1305] [Ed25519] in
theorem established_transport (established : driver.isEstablished = true) :
    ∃ transport, driver.state = .transport transport := by
  cases state : driver.state with
  | transport transport => exact ⟨transport, rfl⟩
  | awaitPeerHello | handshaking | closed => simp [LinkDriver.isEstablished, state] at established

omit [HmacSha256] [X25519] [ChaCha20Poly1305] [Ed25519] in
theorem openSession_error {syncer after : Syncer} {window : SortKeyWindow} {trap : Trap SyncError}
    (ran : syncer.openSession store window = (.error trap, after)) : after = syncer := by
  rw [Syncer.openSession] at ran
  split_ifs at ran with full
  · exact (Prod.mk.inj ran).2.symm
  cases initiated : syncer.sealedEngine store window >>= Negentropy.initiate with
  | error trap =>
    rw [initiated] at ran
    exact (Prod.mk.inj ran).2.symm
  | ok result =>
    rw [initiated] at ran
    dsimp only at ran
    split_ifs at ran
    · cases (Prod.mk.inj ran).1
    · exact (Prod.mk.inj ran).2.symm

/-- What `openSync` answers, and the driver after it. -/
inductive SyncOpens (driver : LinkDriver) (store : EntryStore) (window : SortKeyWindow) :
    Exec LinkError (UInt64 × LinkOutput) × LinkDriver → Prop where
  | early (unestablished : driver.isEstablished = false) :
      SyncOpens driver store window (.fail .notEstablished, driver)
  | refused (error : SyncError)
      (refused : driver.syncer.openSession store window = (.error (.err error), driver.syncer)) :
      SyncOpens driver store window (.fail (.sync error), driver)
  | panicked : SyncOpens driver store window (.error .panic, driver)
  | opened (transport : TransportState) (sid : UInt64) (msg : Message) (syncer : Syncer)
      (established : driver.state = .transport transport)
      (opened : driver.syncer.openSession store window = (.ok (sid, msg), syncer)) :
      SyncOpens driver store window
        (.ok (sid, (LinkDriver.queueEncrypted { driver with syncer } msg {}).2),
          (LinkDriver.queueEncrypted { driver with syncer } msg {}).1)

omit [HmacSha256] [X25519] [Ed25519] in
theorem openSync_opens (driver : LinkDriver) (store : EntryStore) (window : SortKeyWindow) :
    SyncOpens driver store window (driver.openSync store window) := by
  rw [LinkDriver.openSync]
  cases established : driver.isEstablished with
  | false => exact .early established
  | true =>
    rw [if_neg (by simp)]
    obtain ⟨transport, state⟩ := established_transport established
    rcases opened : driver.syncer.openSession store window with ⟨⟨error | _⟩ | ⟨sid, msg⟩, syncer⟩
    · cases openSession_error opened
      exact .refused error opened
    · cases openSession_error opened
      exact .panicked
    · exact .opened transport sid msg syncer state opened

theorem queueEncrypted_step {transport : TransportState} {syncer : Syncer} {msg : Message} {call : Call}
    (established : driver.state = .transport transport) (outgoing : Outgoing driver store call syncer msg) :
    ∃ after effect, CallStep driver store call after store effect ∧
      LinkDriver.queueEncrypted { driver with syncer } msg {} = (after, effect.on {}) := by
  rcases encrypted : LinkDriver.encryptFrame transport msg with ⟨error | frame, last⟩
  · refine ⟨_, _, .exhausted transport last syncer msg error established encrypted outgoing, ?_⟩
    rw [@queueEncrypted_error _ { driver with syncer } _ _ _ _ established encrypted]
    rfl
  · refine ⟨_, _, .sent transport last syncer msg frame established encrypted outgoing, ?_⟩
    rw [@queueEncrypted_ok _ { driver with syncer } _ _ _ _ established encrypted, Effect.on_frames]

theorem perform_start {out : LinkOutput} (ran : perform driver store .start = some (after, store', out)) :
    ∃ effect, CallStep driver store .start after store' effect ∧ out = effect.on {} := by
  rw [perform] at ran
  rcases start_eq driver with idle | ⟨role, waiting, started⟩
  · rw [idle] at ran
    cases ran
    exact ⟨_, .idle, rfl⟩
  · rw [started] at ran
    cases encoded : encodeMessage driver.ourHello with
    | error error =>
      rw [queueHello_panic encoded] at ran
      cases ran
    | ok body =>
      rw [queueHello_ok encoded] at ran
      cases ran
      exact ⟨_, .started body role waiting encoded, rfl⟩

theorem perform_onTick {nowUs : UInt64} {out : LinkOutput}
    (ran : perform driver store (.onTick nowUs) = some (after, store', out)) :
    ∃ effect, CallStep driver store (.onTick nowUs) after store' effect ∧ out = effect.on {} := by
  rw [perform, LinkDriver.onTick] at ran
  cases ended : driver.isClosed with
  | true =>
    rw [LinkDriver.checkTimeouts, if_pos ended] at ran
    cases ran
    exact ⟨_, .idle, rfl⟩
  | false =>
    rw [checkTimeouts_eq ended] at ran
    cases late : timeout driver nowUs with
    | none =>
      rw [late] at ran
      cases ran
      exact ⟨_, .idle, rfl⟩
    | some reason =>
      rw [late] at ran
      cases ran
      exact ⟨_, .expired reason ended late, rfl⟩

theorem perform_openSync {window : SortKeyWindow} {out : LinkOutput}
    (ran : perform driver store (.openSync window) = some (after, store', out)) :
    ∃ effect, CallStep driver store (.openSync window) after store' effect ∧ out = effect.on {} := by
  rw [perform] at ran
  have opens := openSync_opens driver store window
  generalize driver.openSync store window = result at ran opens
  cases opens with
  | early | refused =>
    cases ran
    exact ⟨_, .idle, rfl⟩
  | panicked => cases ran
  | opened transport sid msg syncer established opened =>
    obtain ⟨last, effect, step, queued⟩ := queueEncrypted_step established (.openSync opened)
    rw [queued] at ran
    cases ran
    exact ⟨effect, step, rfl⟩

theorem perform_send {msg : Message} {out : LinkOutput}
    (ran : perform driver store (.send msg) = some (after, store', out)) :
    ∃ effect, CallStep driver store (.send msg) after store' effect ∧ out = effect.on {} := by
  rw [perform, LinkDriver.send.eq_def] at ran
  cases established : driver.isEstablished with
  | false =>
    rw [if_pos (by simp [established])] at ran
    cases ran
    exact ⟨_, .idle, rfl⟩
  | true =>
    rw [if_neg (by simp [established])] at ran
    obtain ⟨transport, state⟩ := established_transport established
    obtain ⟨last, effect, step, queued⟩ :=
      @queueEncrypted_step _ _ _ _ _ driver store _ _ msg _ state (.send msg)
    cases msg with
    | hello _ | handshake _ =>
      cases ran
      exact ⟨_, .idle, rfl⟩
    | error error =>
      dsimp only at ran
      rw [closeWithError_transport state] at ran
      cases ran
      exact ⟨_, .ended transport error.code state, rfl⟩
    | gossipPush _ | reconInit _ | reconMsg _ | reconDone _ =>
      dsimp only at ran
      rw [queued] at ran
      cases ran
      exact ⟨effect, step, rfl⟩

theorem perform_step {call : Call} {out : LinkOutput}
    (ran : perform driver store call = some (after, store', out)) :
    ∃ effect, CallStep driver store call after store' effect ∧ out = effect.on {} := by
  cases call with
  | start => exact perform_start ran
  | onBytes bytes nowUs =>
    obtain ⟨effect, step, rfl⟩ := onBytes_step ran
    exact ⟨effect, .bytes step, rfl⟩
  | onTick nowUs => exact perform_onTick ran
  | openSync window => exact perform_openSync ran
  | send msg => exact perform_send ran

theorem CallStep.follows {call : Call} {effect : Effect}
    (step : CallStep driver store call after store' effect) :
    (phaseOf driver).follow effect.events = some (phaseOf after) := by
  cases step with
  | idle => rfl
  | started body role waiting encoded => rfl
  | bytes step => exact step.follows
  | @expired nowUs reason open_ late =>
    exact (@BytesStep.expired _ _ _ _ _ driver store [] nowUs reason open_ late).follows
  | sent _ _ _ _ _ established | exhausted _ _ _ _ _ established | ended _ _ established =>
    rw [phaseOf, established]
    rfl

theorem CallStep.role {call : Call} {effect : Effect}
    (step : CallStep driver store call after store' effect) : after.role = driver.role := by
  cases step with
  | bytes step => exact step.keeps.1
  | idle | started | expired | sent | exhausted | ended => rfl

theorem onTick_follows (driver : LinkDriver) (nowUs : UInt64) :
    (driver.onTick nowUs).1.role = driver.role ∧
      (phaseOf driver).follow (driver.onTick nowUs).2.events = some (phaseOf (driver.onTick nowUs).1) := by
  -- the store plays no part in a tick
  obtain ⟨effect, step, same⟩ := @perform_onTick _ _ _ _ _ driver (driver.onTick nowUs).1 .new .new nowUs
    (driver.onTick nowUs).2 rfl
  rw [same]
  exact ⟨step.role, step.follows⟩

theorem CallStep.inert {call : Call} {effect : Effect}
    (step : CallStep driver store call after store' effect) (ended : driver.isClosed = true) :
    after = driver ∧ store' = store ∧ effect = {} := by
  have closedState : ∀ transport, driver.state ≠ .transport transport := by
    intro transport established
    simp [LinkDriver.isClosed, LinkDriver.closeReason, established] at ended
  cases step with
  | idle => exact ⟨rfl, rfl, rfl⟩
  | started body role waiting encoded =>
    simp [LinkDriver.isClosed, LinkDriver.closeReason, waiting] at ended
  | bytes step =>
    cases step with
    | inert => exact ⟨rfl, rfl, rfl⟩
    | expired reason open_ late => cases ended.symm.trans open_
    | read open_ inTime bodies => cases ended.symm.trans open_
  | expired reason open_ late => cases ended.symm.trans open_
  | sent transport _ _ _ _ established | exhausted transport _ _ _ _ established
  | ended transport _ established => exact absurd established (closedState transport)

end

/-! ## A handshake -/

section
open StandIns

/-- What an initiator and a responder tell each other in turn, and the two when they are established. -/
structure Handshaken where
  hello : List UInt8
  answer : List UInt8
  first : List UInt8
  second : List UInt8
  third : List UInt8
  initiator : LinkDriver
  responder : LinkDriver

/-- A driver that is given bytes, and what it says to them. -/
def tell (driver : LinkDriver) (bytes : List UInt8) : Option (LinkDriver × List UInt8) :=
  (perform driver EntryStore.new (.onBytes bytes 0)).map fun (after, _, out) => (after, out.frames.flatten)

def handshaken : Option Handshaken := do
  let (initiator, _, start) ← perform (idleDriver .initiator) EntryStore.new .start
  let hello := start.frames.flatten
  let (responder, answer) ← tell (idleDriver .responder) hello
  let (initiator, first) ← tell initiator answer
  let (responder, second) ← tell responder first
  let (initiator, third) ← tell initiator second
  let (responder, _) ← tell responder third
  some { hello, answer, first, second, third, initiator, responder }

def messageBytes (driver : LinkDriver) (msg : Message) : List UInt8 :=
  ((perform driver EntryStore.new (.send msg)).map fun (_, _, out) => out.frames.flatten).getD []

end

end Racnet.Proof.Driver
