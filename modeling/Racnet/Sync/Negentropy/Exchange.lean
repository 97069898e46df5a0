import Racnet.Lib.Ranks
import Racnet.Sync.Negentropy.Ranges

/-!
# An exchange between two engines

The initiator's first message, and then rounds of one `reconcile` on either side, until the initiator
has no reply.
-/

namespace Racnet.Sync
open Lib Store

variable [Sha256]

/-- An exchange between two rounds. -/
structure Exchange where
  initiator : Negentropy SealedVec
  responder : Negentropy SealedVec
  /-- The message on its way to the responder; `none` once the initiator is done. -/
  message : Option (List UInt8)
  /-- What the initiator's rounds have returned so far. -/
  rounds : List Round

namespace Exchange

def haveIds (x : Exchange) : List EntryId := x.rounds.flatMap Round.haveIds

def needIds (x : Exchange) : List EntryId := x.rounds.flatMap Round.needIds

/-- Two engines over the sealed sets, and the first message. -/
def start (ours theirs : Vec Item) (limitA limitB : Option Nat) : Exec SyncError Exchange := do
  let a ← .lift (Negentropy.new (SealedVec.new ours) limitA)
  let responder ← .lift (Negentropy.new (SealedVec.new theirs) limitB)
  let (initiator, message) ← a.initiate
  return { initiator, responder, message := some message, rounds := [] }

/-- One round: the responder answers and the initiator reads the answer. A responder without a reply
would be a panic of the driver. -/
def step (x : Exchange) : Exec SyncError Exchange :=
  match x.message with
  | none => .ok x
  | some message => do
    let response ← x.responder.reconcile message
    let reply ← .orPanic response.reply
    let round ← x.initiator.reconcile reply
    return { x with message := round.reply, rounds := x.rounds ++ [round] }

def run : Nat → Exchange → Exec SyncError Exchange
  | 0, x => .ok x
  | n + 1, x => do
    let x ← x.run n
    x.step

/-- A message that is on its way in the round that starts with `x`, with the sets of its sender and
its receiver. -/
inductive InFlight (x : Exchange) : SealedVec → SealedVec → List UInt8 → Prop where
  | asked {message : List UInt8} (sent : x.message = some message) :
      x.InFlight x.initiator.store x.responder.store message
  | answered {message reply : List UInt8} {response : Round} (sent : x.message = some message)
      (answer : x.responder.reconcile message = .ok response) (replied : response.reply = some reply) :
      x.InFlight x.responder.store x.initiator.store reply

end Exchange

/-! ## Assumptions and conditions -/

/-- The item sets that an exchange is meant for: no item sits at the infinite timestamp, and an id
determines its sort key. -/
structure Reconcilable (ours theirs : Vec Item) : Prop where
  finite : ∀ item ∈ ours.toList ++ theirs.toList, item.sortKey ≠ tsInfinity
  determined : ∀ x ∈ ours.toList ++ theirs.toList, ∀ y ∈ ours.toList ++ theirs.toList,
    x.id = y.id → x.sortKey = y.sortKey

/-- Range fingerprints of the two sets are equal only when the ids under them are. -/
def CollisionFree (ours theirs : List Item) : Prop :=
  ∀ i j k l,
    SealedVec.fingerprintOf ((ours.take j).drop i) = SealedVec.fingerprintOf ((theirs.take l).drop k) →
      ∀ id, id ∈ ((ours.take j).drop i).map Item.id ↔ id ∈ ((theirs.take l).drop k).map Item.id

/-- A message whose last fingerprint is that of all its receiver's items in the range it stands for,
which is from the end of the range before it on, and not that of all its sender's. -/
def Misleads (sender receiver : List Item) (message : List UInt8) : Prop :=
  ∃ before bound fp, messageRanges message = .ok (before ++ [⟨bound, .fingerprint fp⟩]) ∧
    fp = SealedVec.fingerprintOf
      (between (boundAsItem (boundAfter before)) (boundAsItem bound) receiver) ∧
    fp ≠ SealedVec.fingerprintOf
      (between (boundAsItem (boundAfter before)) (boundAsItem bound) sender)

/-! ## The exchange on ranges -/

/-- An exchange between two rounds, with messages as ranges. -/
structure Talk where
  message : Option (List WireRange)
  haveIds : List EntryId
  needIds : List EntryId

namespace Talk

def start (initiator : Side) : Talk := ⟨some initiator.initiate, [], []⟩

def step (initiator responder : Side) (t : Talk) : Talk :=
  match t.message with
  | none => t
  | some ranges =>
    let response := (responder.answerRanges .start ranges).out
    let answer := initiator.answerRanges .start response
    { message := initiator.reply answer
      haveIds := t.haveIds ++ answer.haveIds
      needIds := t.needIds ++ answer.needIds }

def run (initiator responder : Side) : Nat → Talk
  | 0 => start initiator
  | n + 1 => (run initiator responder n).step initiator responder

end Talk

end Racnet.Sync
