import Racnet.Proof.Driver.Bodies

/-!
# The events of a link

A link reports that it is established at most once, then events of the sync layer, and at last that it
is closed.
-/

namespace Racnet.Proof.Driver
open Lib Noise Store Sync Wire Link

inductive Phase where
  | early
  | established
  | closed
  deriving DecidableEq

def phaseOf (driver : LinkDriver) : Phase :=
  match driver.state with
  | .awaitPeerHello | .handshaking _ => .early
  | .transport _ => .established
  | .closed _ => .closed

/-- The phase after an event that may be reported in a phase. -/
def Phase.next : Phase → LinkEvent → Option Phase
  | .early, .established _ => some .established
  | .early, .closed _ => some .closed
  | .established, .sync _ => some .established
  | .established, .closed _ => some .closed
  | _, _ => none

def Phase.follow : Phase → List LinkEvent → Option Phase
  | phase, [] => some phase
  | phase, event :: events => (phase.next event).bind (·.follow events)

theorem follow_append (phase : Phase) (first second : List LinkEvent) :
    phase.follow (first ++ second) = (phase.follow first).bind (·.follow second) := by
  induction first generalizing phase with
  | nil => rfl
  | cons event events ih =>
    rw [List.cons_append, Phase.follow, Phase.follow, Option.bind_assoc]
    exact congrArg _ (funext fun next => ih next)

theorem follow_sync (events : List SyncEvent) :
    Phase.established.follow (events.map .sync) = some .established := by
  induction events with
  | nil => rfl
  | cons event events ih => exact ih

theorem follow_sync_closed (events : List SyncEvent) (reason : CloseReason) :
    Phase.established.follow (events.map .sync ++ [.closed reason]) = some .closed := by
  rw [follow_append, follow_sync]
  rfl

theorem isClosed_iff {driver : LinkDriver} : driver.isClosed = true ↔ phaseOf driver = .closed := by
  cases state : driver.state <;>
    simp [LinkDriver.isClosed, LinkDriver.closeReason, phaseOf, state]

theorem isEstablished_iff {driver : LinkDriver} :
    driver.isEstablished = true ↔ phaseOf driver = .established := by
  cases state : driver.state <;> simp [LinkDriver.isEstablished, phaseOf, state]

theorem follow_closed {events : List LinkEvent} {phase : Phase}
    (followed : Phase.closed.follow events = some phase) : events = [] := by
  cases events with
  | nil => rfl
  | cons event events => cases event <;> cases followed

theorem follow_established {events : List LinkEvent} {phase : Phase}
    (followed : Phase.established.follow events = some phase) :
    phase = .established ∨ phase = .closed := by
  induction events with
  | nil => exact Or.inl (Option.some.inj followed).symm
  | cons event events ih =>
    cases event with
    | established remote => cases followed
    | sync event => exact ih followed
    | closed reason =>
      change Phase.closed.follow events = some phase at followed
      rw [follow_closed followed] at followed
      exact Or.inr (Option.some.inj followed).symm

theorem closed_last {phase last : Phase} {events : List LinkEvent}
    (followed : phase.follow events = some last) {i : Nat} {reason : CloseReason}
    (found : events[i]? = some (.closed reason)) : i + 1 = events.length := by
  induction events generalizing phase i with
  | nil => simp at found
  | cons event events ih =>
    rw [Phase.follow, Option.bind_eq_some_iff] at followed
    obtain ⟨next, stepped, followed⟩ := followed
    cases i with
    | zero =>
      obtain rfl := Option.some.inj found
      have ended : next = .closed := by
        cases phase <;> cases stepped <;> rfl
      rw [ended] at followed
      rw [follow_closed followed]
      rfl
    | succ i =>
      have later : events[i]? = some (.closed reason) := by simpa using found
      rw [List.length_cons, ← ih followed later]

section
variable [Sha256] [HmacSha256] [X25519] [ChaCha20Poly1305] [Ed25519]
  {driver after : LinkDriver} {store store' : EntryStore} {effect : Effect}

theorem BodyStep.follows {body : List UInt8}
    (step : BodyStep driver store body after store' effect) :
    (phaseOf driver).follow effect.events = some (phaseOf after) := by
  cases step with
  | hello waiting step =>
    rw [phaseOf, waiting]
    cases step <;> rfl
  | handshake hs waiting step =>
    rw [phaseOf, waiting]
    cases step <;> rfl
  | transport transport established step =>
    rw [phaseOf, established]
    cases step with
    | dropped | peerError | violated => rfl
    | handled => exact follow_sync _
    | exhausted | refused => exact follow_sync_closed _ _

theorem Bodies.follows (bodies : Bodies driver store after store' effect) :
    (phaseOf driver).follow effect.events = some (phaseOf after) := by
  induction bodies with
  | waiting incomplete => rfl
  | closed next step ended => exact step.follows
  | @more driver middle after store store₁ store₂ body decoder first second next step open_ rest ih =>
    have followed : (phaseOf driver).follow first.events = some (phaseOf middle) := step.follows
    rw [Effect.andThen, follow_append, followed]
    exact ih

/-! ## Calls -/

theorem BytesStep.follows {bytes : List UInt8} {nowUs : UInt64}
    (step : BytesStep driver store bytes nowUs after store' effect) :
    (phaseOf driver).follow effect.events = some (phaseOf after) := by
  cases step with
  | inert ended => rfl
  | expired reason open_ late =>
    have phase : phaseOf driver ≠ .closed := fun ended => by
      rw [isClosed_iff.mpr ended] at open_
      cases open_
    cases state : phaseOf driver with
    | early => rfl
    | established => rfl
    | closed => exact absurd state phase
  | read open_ inTime bodies => exact bodies.follows

end

end Racnet.Proof.Driver
