import Racnet.Proof.Channel.Lockstep
import Racnet.Proof.Driver.Transport
import Racnet.Proof.Format.Reassembly
import Racnet.Proof.Storage.Window

/-!
# The bodies of a stream
-/

namespace Racnet.Proof.Driver
open Lib Noise Store Sync Wire Link
open Proof.Format (nextBody_shorter)

section

theorem Acts.with_store {handler : LinkOutput → Option (LinkDriver × LinkOutput)}
    {Step : LinkDriver → Effect → Prop} (acts : Acts handler Step) (store : EntryStore)
    {Step' : LinkDriver → EntryStore → Effect → Prop}
    (lift : ∀ after effect, Step after effect → Step' after store effect) :
    StoreActs (fun out => do
      let (driver, out) ← handler out
      some (driver, store, out)) Step' := by
  rcases acts with panics | ⟨after, effect, step, ran⟩
  · left
    intro out
    simp [panics]
  · refine Or.inr ⟨after, store, effect, lift after effect step, fun out => ?_⟩
    simp [ran]

variable [Sha256] [HmacSha256] [X25519] [ChaCha20Poly1305] [Ed25519]

/-- What a driver that is not closed does with a body. -/
inductive BodyStep (driver : LinkDriver) (store : EntryStore) (body : List UInt8) :
    LinkDriver → EntryStore → Effect → Prop where
  | hello {after : LinkDriver} {effect : Effect} (waiting : driver.state = .awaitPeerHello)
      (step : HelloStep driver body after effect) : BodyStep driver store body after store effect
  | handshake {after : LinkDriver} {effect : Effect} (hs : HandshakeState)
      (waiting : driver.state = .handshaking hs) (step : HandshakeStep driver hs body after effect) :
      BodyStep driver store body after store effect
  | transport {after : LinkDriver} {store' : EntryStore} {effect : Effect}
      (transport : TransportState) (established : driver.state = .transport transport)
      (step : TransportStep driver transport store body after store' effect) :
      BodyStep driver store body after store' effect

theorem handleBody_acts {driver : LinkDriver} (open_ : driver.isClosed = false)
    (store : EntryStore) (body : List UInt8) :
    StoreActs (driver.handleBody store body) (BodyStep driver store body) := by
  cases state : driver.state with
  | awaitPeerHello =>
    have acts := (handleHelloBody_acts driver body).with_store store
      fun after effect step => BodyStep.hello state step
    convert acts using 1
    funext out
    rw [LinkDriver.handleBody, state]
    rfl
  | handshaking hs =>
    have acts := (handleHandshakeBody_acts driver hs body).with_store store
      fun after effect step => BodyStep.handshake hs state step
    convert acts using 1
    funext out
    rw [LinkDriver.handleBody, state]
    rfl
  | transport transport =>
    have same : driver.handleBody store body =
        (parked driver).handleTransportBody transport store body := by
      funext out
      rw [LinkDriver.handleBody, state]
      rfl
    rw [same]
    rcases handleTransportBody_acts driver transport store body with
      panics | ⟨after, store', effect, step, ran⟩
    · exact Or.inl panics
    · exact Or.inr ⟨after, store', effect, .transport transport state step, ran⟩
  | closed reason => simp [LinkDriver.isClosed, LinkDriver.closeReason, state] at open_

/-! ## The loop over the bodies -/

theorem BodyStep.keeps {driver after : LinkDriver} {store store' : EntryStore} {body : List UInt8}
    {effect : Effect} (step : BodyStep driver store body after store' effect) :
    after.decoder = driver.decoder ∧ after.role = driver.role ∧ after.config = driver.config ∧
      after.openedAtUs = driver.openedAtUs := by
  cases step with
  | hello waiting step => cases step <;> exact ⟨rfl, rfl, rfl, rfl⟩
  | handshake hs waiting step => cases step <;> exact ⟨rfl, rfl, rfl, rfl⟩
  | transport transport established step => cases step <;> exact ⟨rfl, rfl, rfl, rfl⟩

/-- The bodies that a driver takes from its buffer, until there is no complete one or the link is
closed. -/
inductive Bodies : LinkDriver → EntryStore → LinkDriver → EntryStore → Effect → Prop where
  | waiting {driver : LinkDriver} {store : EntryStore}
      (incomplete : driver.decoder.nextBody.1 = none) : Bodies driver store driver store {}
  | closed {driver after : LinkDriver} {store store' : EntryStore} {body : List UInt8}
      {decoder : FrameDecoder} {effect : Effect}
      (next : driver.decoder.nextBody = (some body, decoder))
      (step : BodyStep { driver with decoder } store body after store' effect)
      (ended : after.isClosed = true) : Bodies driver store after store' effect
  | more {driver middle after : LinkDriver} {store store₁ store₂ : EntryStore} {body : List UInt8}
      {decoder : FrameDecoder} {first second : Effect}
      (next : driver.decoder.nextBody = (some body, decoder))
      (step : BodyStep { driver with decoder } store body middle store₁ first)
      (open_ : middle.isClosed = false) (rest : Bodies middle store₁ after store₂ second) :
      Bodies driver store after store₂ (first.andThen second)

theorem handleBodies_eq {fuel : Nat} {driver : LinkDriver} {decoder : FrameDecoder} {body : List UInt8}
    (next : driver.decoder.nextBody = (some body, decoder)) (store : EntryStore) (out : LinkOutput) :
    LinkDriver.handleBodies (fuel + 1) driver store out =
      (LinkDriver.handleBody { driver with decoder } store body out).bind
        fun (driver, store, out) => if driver.isClosed then some (driver, store, out)
          else LinkDriver.handleBodies fuel driver store out := by
  rw [LinkDriver.handleBodies, next]
  rfl

theorem handleBodies_acts {fuel : Nat} {driver : LinkDriver} (open_ : driver.isClosed = false)
    (enough : driver.decoder.buf.length ≤ fuel) (store : EntryStore) :
    StoreActs (LinkDriver.handleBodies fuel driver store) (Bodies driver store) := by
  induction fuel generalizing driver store with
  | zero =>
    have empty : driver.decoder.buf = [] := List.length_eq_zero_iff.mp (Nat.le_zero.mp enough)
    refine Or.inr ⟨_, _, _, .waiting (by simp [FrameDecoder.nextBody, empty]), fun out => ?_⟩
    rw [LinkDriver.handleBodies, Effect.on_empty]
  | succ fuel ih =>
    rcases next : driver.decoder.nextBody with ⟨_ | body, decoder⟩
    · refine Or.inr ⟨_, _, _, .waiting (by rw [next]), fun out => ?_⟩
      rw [LinkDriver.handleBodies, next, Effect.on_empty]
    have shorter := nextBody_shorter next
    have unfolded := @handleBodies_eq _ _ _ _ _ fuel _ _ _ next store
    rcases @handleBody_acts _ _ _ _ _ { driver with decoder } open_ store body with
      panics | ⟨middle, store₁, first, step, ran⟩
    · left
      intro out
      rw [unfolded, panics]
      rfl
    cases ended : middle.isClosed with
    | true =>
      refine Or.inr ⟨_, _, _, .closed next step ended, fun out => ?_⟩
      rw [unfolded, ran, Option.bind_some]
      exact if_pos ended
    | false =>
      have decoded : middle.decoder = decoder := step.keeps.1
      have continued : ∀ out, LinkDriver.handleBodies (fuel + 1) driver store out =
          LinkDriver.handleBodies fuel middle store₁ (first.on out) := by
        intro out
        rw [unfolded, ran, Option.bind_some]
        exact if_neg (by simp [ended])
      rcases ih ended (by rw [decoded]; omega) store₁ with
        panics | ⟨after, store₂, second, rest, ran'⟩
      · left
        intro out
        rw [continued, panics]
      · refine Or.inr ⟨_, _, _, .more next step ended rest, fun out => ?_⟩
        rw [continued, ran', Effect.on_andThen]

/-! ## Calls of `on_bytes` -/

def timeout (driver : LinkDriver) (nowUs : UInt64) : Option CloseReason :=
  if ¬ driver.isEstablished ∧
      nowUs.toNat - driver.openedAtUs.toNat ≥ driver.config.handshakeTimeoutUs.toNat then
    some .handshakeTimeout
  else if nowUs.toNat - driver.openedAtUs.toNat ≥ driver.config.maxLifetimeUs.toNat then
    some .lifetimeExpired
  else none

omit [Sha256] [HmacSha256] [X25519] [ChaCha20Poly1305] [Ed25519] in
theorem checkTimeouts_eq {driver : LinkDriver} (open_ : driver.isClosed = false) (nowUs : UInt64)
    (out : LinkOutput) :
    driver.checkTimeouts nowUs out =
      match timeout driver nowUs with
      | some reason => (true, closedWith driver reason, (Effect.silence reason).on out)
      | none => (false, driver, out) := by
  rw [LinkDriver.checkTimeouts, if_neg (by simp [open_]), timeout]
  split_ifs <;> rfl

inductive BytesStep (driver : LinkDriver) (store : EntryStore) (bytes : List UInt8)
    (nowUs : UInt64) : LinkDriver → EntryStore → Effect → Prop where
  | inert (ended : driver.isClosed = true) : BytesStep driver store bytes nowUs driver store {}
  | expired (reason : CloseReason) (open_ : driver.isClosed = false)
      (late : timeout driver nowUs = some reason) :
      BytesStep driver store bytes nowUs (closedWith driver reason) store (.silence reason)
  | read {after : LinkDriver} {store' : EntryStore} {effect : Effect}
      (open_ : driver.isClosed = false) (inTime : timeout driver nowUs = none)
      (bodies : Bodies { driver with decoder := driver.decoder.push bytes } store after store' effect) :
      BytesStep driver store bytes nowUs after store' effect

theorem Bodies.keeps {driver after : LinkDriver} {store store' : EntryStore} {effect : Effect}
    (bodies : Bodies driver store after store' effect) :
    after.role = driver.role ∧ after.config = driver.config ∧
      after.openedAtUs = driver.openedAtUs := by
  induction bodies with
  | waiting incomplete => exact ⟨rfl, rfl, rfl⟩
  | closed next step ended => exact step.keeps.2
  | more next step open_ rest ih =>
    obtain ⟨-, role, config, openedAt⟩ := step.keeps
    exact ⟨ih.1.trans role, ih.2.1.trans config, ih.2.2.trans openedAt⟩

theorem BytesStep.keeps {driver after : LinkDriver} {store store' : EntryStore}
    {bytes : List UInt8} {nowUs : UInt64} {effect : Effect}
    (step : BytesStep driver store bytes nowUs after store' effect) :
    after.role = driver.role ∧ after.config = driver.config ∧
      after.openedAtUs = driver.openedAtUs := by
  cases step with
  | inert ended => exact ⟨rfl, rfl, rfl⟩
  | expired reason open_ late => exact ⟨rfl, rfl, rfl⟩
  | read open_ inTime bodies => exact bodies.keeps

theorem onBytes_acts (driver : LinkDriver) (store : EntryStore) (bytes : List UInt8)
    (nowUs : UInt64) :
    driver.onBytes store bytes nowUs = none ∨
      ∃ after store' effect, BytesStep driver store bytes nowUs after store' effect ∧
        driver.onBytes store bytes nowUs = some (after, store', effect.on {}) := by
  cases ended : driver.isClosed with
  | true =>
    refine Or.inr ⟨_, _, _, .inert ended, ?_⟩
    rw [LinkDriver.onBytes, LinkDriver.checkTimeouts, if_pos ended]
    rfl
  | false =>
    cases late : timeout driver nowUs with
    | some reason =>
      refine Or.inr ⟨_, _, _, .expired reason ended late, ?_⟩
      rw [LinkDriver.onBytes, checkTimeouts_eq ended, late]
    | none =>
      have unfolded : driver.onBytes store bytes nowUs =
          LinkDriver.handleBodies (driver.decoder.push bytes).buf.length
            { driver with decoder := driver.decoder.push bytes } store {} := by
        rw [LinkDriver.onBytes, checkTimeouts_eq ended, late]
      rcases @handleBodies_acts _ _ _ _ _ (driver.decoder.push bytes).buf.length
        { driver with decoder := driver.decoder.push bytes } ended le_rfl store with
        panics | ⟨after, store', effect, bodies, ran⟩
      · left
        rw [unfolded, panics]
      · refine Or.inr ⟨_, _, _, .read ended late bodies, ?_⟩
        rw [unfolded, ran]

theorem onBytes_step {driver after : LinkDriver} {store store' : EntryStore} {bytes : List UInt8}
    {nowUs : UInt64} {out : LinkOutput}
    (ran : driver.onBytes store bytes nowUs = some (after, store', out)) :
    ∃ effect, BytesStep driver store bytes nowUs after store' effect ∧ out = effect.on {} := by
  rcases onBytes_acts driver store bytes nowUs with panics | ⟨after', store₁, effect, step, ran'⟩
  · rw [panics] at ran
    cases ran
  · rw [ran] at ran'
    cases ran'
    exact ⟨effect, step, rfl⟩

end

/-! ## Stand-ins -/

@[reducible] def plainMac : HmacSha256 where
  mac key _ := key

@[reducible] def plainCurve : X25519 where
  mulBaseClamped secret := secret
  mulClamped point scalar := ⟨List.zipWith (· + ·) point.bytes scalar.bytes, by
    rw [List.length_zipWith, point.length_eq, scalar.length_eq, Nat.min_self]⟩

namespace StandIns

scoped instance digest : Sha256 := Proof.Storage.keyDigest
scoped instance signatures : Ed25519 := Proof.Storage.trusting
scoped instance code : HmacSha256 := plainMac
scoped instance curve : X25519 := plainCurve
scoped instance cipher : ChaCha20Poly1305 := Proof.Channel.shiftCipher

end StandIns

def idleDriver (role : LinkRole) : LinkDriver :=
  LinkDriver.new role ⟨FixedBytes.zero 32, FixedBytes.zero 32⟩ ⟨FixedBytes.zero 32, FixedBytes.zero 32⟩
    .default 0

end Racnet.Proof.Driver
