import Racnet.Proof.Driver.Exhaustion
import Racnet.Proof.Driver.Sessions
import Racnet.Proof.Sessions.Framing
import Racnet.Proof.Storage.Growth

/-!
# Messages of a driver that fit in a frame
-/

namespace Racnet.Proof.Driver
open Lib Noise Store Sync Wire Link
open Proof.Channel (encrypt_exhausted)
open Proof.Format (Framable framable_of_decodeMessage)
open Proof.Sessions (Encodes Fitting fitting_default Limited limited_new TableStep openSession_step
  abortSession_table handleMessageInto_table handleMessageInto_rule openSession_encodes replies_encode)
open Proof.Storage (Admissible Grown Program held_of_insert)

section
variable [Sha256] [Ed25519]

/-- The syncers with the default configuration, over stores that grow in any way in between. -/
inductive SyncerRun : Syncer → Prop where
  | new (role : LinkRole) : SyncerRun (.new role .default)
  | opened {syncer : Syncer} {store : EntryStore} (window : SortKeyWindow) (run : SyncerRun syncer)
      (grown : Grown (.running store)) : SyncerRun (syncer.openSession store window).2
  | aborted {syncer : Syncer} (sid : UInt64) (run : SyncerRun syncer) :
      SyncerRun (syncer.abortSession sid).2
  | handled {syncer : Syncer} {store : EntryStore} (msg : Message) (run : SyncerRun syncer)
      (grown : Grown (.running store)) : SyncerRun (syncer.handleMessageInto store msg {}).syncer

theorem SyncerRun.limited {syncer : Syncer} (run : SyncerRun syncer) : Limited syncer := by
  induction run with
  | new role => exact limited_new role fitting_default
  | opened window run grown ih => exact ih.step (openSession_step _ _ window).table
  | aborted sid run ih => exact ih.step (abortSession_table _ sid)
  | handled msg run grown ih => exact ih.step (handleMessageInto_table _ _ msg {})

theorem SyncerRun.replies {syncer : Syncer} {store : EntryStore} (run : SyncerRun syncer)
    (grown : Grown (.running store)) (msg : Message) :
    ∀ reply ∈ (syncer.handleMessageInto store msg {}).output.replies, Encodes reply :=
  replies_encode run.limited (fun _ _ held => grown.framed.get held) msg

/-- A syncer and a store that have been used in the ways of a node only. -/
structure Sane (syncer : Syncer) (store : EntryStore) : Prop where
  run : SyncerRun syncer
  grown : Grown (.running store)

/-- All that the syncer answers from the store fits in a frame. -/
structure Deliverable (syncer : Syncer) (store : EntryStore) : Prop where
  limited : Limited syncer
  framable : ∀ id entry, store.get id = some entry → Framable entry

theorem Sane.deliverable {syncer : Syncer} {store : EntryStore} (sane : Sane syncer store) :
    Deliverable syncer store :=
  ⟨sane.run.limited, fun _ _ held => sane.grown.framed.get held⟩

/-- What every message of the peer keeps of a syncer and its store. -/
def Kept (Good : Syncer → EntryStore → Prop) : Prop :=
  ∀ syncer store body msg, decodeMessage body = .ok msg → Good syncer store →
    Good (syncer.handleMessageInto store msg {}).syncer (syncer.handleMessageInto store msg {}).store

theorem kept_sane : Kept Sane := by
  intro syncer store body msg decoded sane
  refine ⟨sane.run.handled msg sane.grown, ?_⟩
  refine handleMessageInto_rule (P := fun store => Grown (.running store)) syncer ?_ sane.grown
  rintro push rfl store entry mem grown
  exact grown.inserted (.received decoded mem)

theorem kept_deliverable : Kept Deliverable := by
  intro syncer store body msg decoded deliverable
  refine ⟨deliverable.limited.step (handleMessageInto_table _ _ msg {}), ?_⟩
  refine handleMessageInto_rule (P := fun store => ∀ id entry, store.get id = some entry → Framable entry)
    syncer ?_ deliverable.framable
  rintro push rfl store entry mem framable id other held
  rcases held_of_insert held with old | rfl
  · exact framable id other old
  · exact framable_of_decodeMessage decoded other mem

end

section
variable [Sha256] [HmacSha256] [X25519] [ChaCha20Poly1305] [Ed25519]
  {driver after : LinkDriver} {store store' : EntryStore} {Good : Syncer → EntryStore → Prop}

theorem BodyStep.kept {body : List UInt8} {effect : Effect} (kept : Kept Good)
    (step : BodyStep driver store body after store' effect) (good : Good driver.syncer store) :
    Good after.syncer store' := by
  cases step with
  | hello waiting step => cases step <;> exact good
  | handshake hs waiting step => cases step <;> exact good
  | transport transport established step =>
    cases step with
    | dropped | peerError | violated => exact good
    | handled _ _ _ msg _ _ _ decoded _ ran =>
      subst ran
      exact kept _ _ _ msg decoded good
    | exhausted _ _ msg _ _ decoded _ ran =>
      subst ran
      exact kept _ _ _ msg decoded good
    | refused _ _ msg _ _ _ decoded _ ran =>
      subst ran
      exact kept _ _ _ msg decoded good

theorem Bodies.kept {effect : Effect} (kept : Kept Good) (bodies : Bodies driver store after store' effect)
    (good : Good driver.syncer store) : Good after.syncer store' := by
  induction bodies with
  | waiting incomplete => exact good
  | closed next step ended => exact step.kept kept good
  | more next step open_ rest ih => exact ih (step.kept kept good)

theorem BytesStep.kept {bytes : List UInt8} {nowUs : UInt64} {effect : Effect} (kept : Kept Good)
    (step : BytesStep driver store bytes nowUs after store' effect) (good : Good driver.syncer store) :
    Good after.syncer store' := by
  cases step with
  | inert | expired => exact good
  | read open_ inTime bodies => exact bodies.kept kept good

theorem handleBody_kept {body : List UInt8} {out out' : LinkOutput} (kept : Kept Good)
    (ran : driver.handleBody store body out = some (after, store', out')) (good : Good driver.syncer store) :
    Good after.syncer store' := by
  cases ended : driver.isClosed with
  | true =>
    obtain ⟨reason, closed⟩ := Option.isSome_iff_exists.mp ended
    cases state : driver.state with
    | closed reason =>
      rw [LinkDriver.handleBody, state] at ran
      cases ran
      exact good
    | awaitPeerHello | handshaking | transport => simp [LinkDriver.closeReason, state] at closed
  | false =>
    rcases handleBody_acts ended store body with panics | ⟨after', store₁, effect, step, handled⟩
    · rw [panics] at ran
      cases ran
    · obtain ⟨rfl, same⟩ := Prod.mk.inj (Option.some.inj (ran.symm.trans (handled out)))
      obtain ⟨rfl, -⟩ := Prod.mk.inj same
      exact step.kept kept good

/-! ## No message is too long -/

theorem BodiesStop.encodes {stopped : Option Message} {transport : TransportState}
    (stops : BodiesStop driver store stopped transport) (deliverable : Deliverable driver.syncer store) :
    ∀ msg ∈ stopped, Encodes msg := by
  induction stops with
  | now next stops =>
    intro msg mem
    cases stops with
    | incoming => cases mem
    | reply _ _ _ _ _ incoming reply sent later _ _ _ _ _ replies =>
      cases mem
      have listed : msg ∈ (_ : List Message) ++ msg :: later := List.mem_append_right sent
        List.mem_cons_self
      exact replies_encode deliverable.limited deliverable.framable incoming msg (replies ▸ listed)
  | later next handled rest ih => exact ih (handleBody_kept kept_deliverable handled deliverable)

theorem Stops.encodes {call : Call} {stopped : Option Message} {transport : TransportState}
    (stops : Stops driver store call stopped transport) (deliverable : Deliverable driver.syncer store)
    (given : ∀ msg, call = .send msg → Encodes msg) : ∀ msg ∈ stopped, Encodes msg := by
  intro msg mem
  cases stops with
  | send =>
    cases mem
    exact given msg rfl
  | openSync established opened refused =>
    cases mem
    exact openSession_encodes opened
  | onBytes stops => exact stops.encodes deliverable msg mem

theorem Deliverable.exhausted {call : Call} {out : LinkOutput}
    (deliverable : Deliverable driver.syncer store) (works : Working driver)
    (given : ∀ msg, call = .send msg → Encodes msg)
    (ran : perform driver store call = some (after, store', out))
    (closes : .closed .nonceExhausted ∈ out.events) :
    ∃ msg transport, Stops driver store call msg transport ∧
      (transport.send.n.toNat = 2 ^ 64 - 1 ∨ transport.recv.n.toNat = 2 ^ 64 - 1) := by
  obtain ⟨effect, step, rfl⟩ := perform_step ran
  rw [effect.events_on_new, step.closed_iff] at closes
  obtain ⟨msg, transport, stops⟩ := perform_stops closes.1 ran closes.2
  refine ⟨msg, transport, stops, ?_⟩
  rcases stops.cause works with exhausted | exhausted | ⟨refused, error, rfl, failed⟩
  · exact Or.inl (by rw [exhausted]; rfl)
  · exact Or.inr (by rw [exhausted]; rfl)
  · obtain ⟨body, encoded⟩ := stops.encodes deliverable given refused rfl
    cases failed.symm.trans encoded

/-! ## Runs -/

theorem limited_run {calls : List (EntryStore × Call)} (limited : Limited driver.syncer)
    (ran : runCalls driver calls = some after) : Limited after.syncer := by
  induction calls generalizing driver with
  | nil =>
    cases ran
    exact limited
  | cons head calls ih =>
    obtain ⟨⟨middle, store', out⟩, performed, ran⟩ := Option.bind_eq_some_iff.mp ran
    obtain ⟨effect, step, -⟩ := perform_step performed
    exact ih (limited.steps step.table) ran

variable {role : LinkRole} {s e : Keypair} {config : LinkDriverConfig} {openedAtUs : UInt64}
  {calls : List (EntryStore × Call)} {call : Call} {out : LinkOutput}

/-- A link whose configuration and store keep its answers within a frame, and that is given nothing to send
that has no encoding, is closed for an exhausted nonce only when one is at its end. -/
theorem nonceExhausted_of_encodable (fitting : Fitting config.sync)
    (ran : runCalls (.new role s e config openedAtUs) calls = some driver)
    (framable : ∀ id entry, store.get id = some entry → Framable entry)
    (given : ∀ msg, call = .send msg → Encodes msg)
    (last : perform driver store call = some (after, store', out))
    (closes : .closed .nonceExhausted ∈ out.events) :
    ∃ msg transport, Stops driver store call msg transport ∧
      (transport.send.n.toNat = 2 ^ 64 - 1 ∨ transport.recv.n.toNat = 2 ^ 64 - 1) := by
  have works : Working driver := Working.run (working_of_ne (by simp [LinkDriver.new])) ran
  have limited : Limited driver.syncer := limited_run (limited_new role fitting) ran
  exact Deliverable.exhausted ⟨limited, framable⟩ works given last closes

end

/-! ## A link that has used its nonces -/

section
open StandIns

theorem framable_storeOf : ∀ id entry, (Storage.storeOf 3).get id = some entry → Framable entry := by
  have all : ∀ item ∈ (Storage.storeOf 3).entries.entries,
      headerLen + (5 + item.2.toBytes.length) ≤ maxPaddedLen := by decide +kernel
  exact fun id entry held => all ⟨id, entry⟩ (AList.mem_lookup_iff.mp held)

/-- A link over a store of three entries that has sent as many messages as it has nonces. -/
theorem nonceExhausted_of_encodable_sends : ∃ calls driver msg transport,
    runCalls (idleDriver .initiator) calls = some driver ∧
      Stops driver (Storage.storeOf 3) (.send (.reconDone ⟨7⟩)) msg transport ∧
      (transport.send.n.toNat = 2 ^ 64 - 1 ∨ transport.recv.n.toNat = 2 ^ 64 - 1) := by
  obtain ⟨first, begun, key, handshake, state, working, send, -⟩ := handshakeCalls_established
  obtain ⟨body, encoded⟩ : ∃ body, encodeMessage (.reconDone ⟨7⟩) = .ok body := ⟨_, rfl⟩
  obtain ⟨driver, last, sends, reached, works, used⟩ := @runCalls_sends _ _ _ _ _ first EntryStore.new
    begun key ⟨7⟩ body encoded (2 ^ 64 - 1) 0 (by omega) state working send
  rw [Nat.zero_add] at used
  have refused : LinkDriver.encryptFrame last (.reconDone ⟨7⟩) = (.error .nonceExhausted, last) := by
    rw [LinkDriver.encryptFrame, encoded]
    dsimp only
    rw [encrypt_exhausted works used]
    rfl
  have ran : runCalls (idleDriver .initiator) (handshakeCalls ++
      List.replicate (2 ^ 64 - 1) (EntryStore.new, .send (.reconDone ⟨7⟩))) = some driver := by
    rw [runCalls_append, handshake, Option.bind_some, sends]
  obtain ⟨msg, transport, stops, exhausted⟩ := nonceExhausted_of_encodable fitting_default ran
    framable_storeOf (by rintro msg ⟨⟩; exact ⟨body, encoded⟩)
    (perform_send_refused reached (show IsSync (.reconDone ⟨7⟩) from trivial) refused)
    (List.mem_singleton_self _)
  exact ⟨_, driver, msg, transport, ran, stops, exhausted⟩

end

end Racnet.Proof.Driver
