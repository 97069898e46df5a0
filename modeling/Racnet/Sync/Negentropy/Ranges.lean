import Racnet.Sync.Negentropy.Engine

/-!
# Messages as lists of ranges

A second definition of the engine, above the bytes: a message is the list of its ranges, a range is
its upper bound and what is said about the items below it, and one round maps the ranges received to
the ranges sent. The byte counts that the frame budget looks at are kept as arithmetic. That the
engine on bytes computes exactly this is proved in `Racnet.Proof.Negentropy.Refinement`.
-/

namespace Racnet.Sync
open Lib Store

inductive Payload where
  | skip
  | fingerprint (fp : Fingerprint)
  | idList (ids : List EntryId)
  deriving DecidableEq

@[ext]
structure WireRange where
  bound : Bound
  payload : Payload
  deriving DecidableEq

/-! ## The wire form -/

def boundBytes (last : UInt64) (bound : Bound) : List UInt8 :=
  (BoundCodec.encode { lastTsOut := last } bound).2

def payloadBytes : Payload → List UInt8
  | .skip => writeVarint modeSkip
  | .fingerprint fp => writeVarint modeFingerprint ++ fp.bytes
  | .idList ids => writeVarint modeIdList ++ writeVarint ids.length ++ ids.flatMap FixedBytes.bytes

def rangesBytes (last : UInt64) : List WireRange → List UInt8
  | [] => []
  | r :: rs => boundBytes last r.bound ++ payloadBytes r.payload ++ rangesBytes r.bound.ts rs

def messageBytes (ranges : List WireRange) : List UInt8 := protocolVersion :: rangesBytes 0 ranges

/-- The payload after its mode. -/
def readPayload (mode : Nat) (cursor : List UInt8) : Exec SyncError (Payload × List UInt8) :=
  if mode = modeSkip then .ok (.skip, cursor)
  else if mode = modeFingerprint then
    if fits : fingerprintSize ≤ cursor.length then
      .ok (.fingerprint ⟨cursor.take fingerprintSize, List.length_take_of_le fits⟩,
        cursor.drop fingerprintSize)
    else .fail (.malformed "fingerprint ends prematurely")
  else if mode = modeIdList then do
    let (numIds, cursor) ← readVarint cursor
    if numIds > cursor.length / idSize then .fail (.malformed "id list longer than the message")
    else
      let (ids, cursor) ← .orPanic (readIds numIds cursor [])
      return (.idList ids, cursor)
  else .fail (.malformed "unknown range mode")

def readRanges : Nat → BoundCodec → List UInt8 → Exec SyncError (List WireRange)
  | _, _, [] => .ok []
  | 0, _, _ :: _ => .error .panic
  | fuel + 1, codec, cursor => do
    let (codec, bound, cursor) ← codec.decode cursor
    let (mode, cursor) ← readVarint cursor
    let (payload, cursor) ← readPayload mode cursor
    let ranges ← readRanges fuel codec cursor
    return ⟨bound, payload⟩ :: ranges

/-- The ranges of a message, as `reconcile` reads them. -/
def messageRanges (message : List UInt8) : Exec SyncError (List WireRange) :=
  readRanges message.tail.length {} message.tail

/-- Where a range after these ranges begins. -/
def boundAfter (ranges : List WireRange) : Bound :=
  (ranges.getLast?.map WireRange.bound).getD (Bound.fromTs 0)

def varintLen (n : Nat) : Nat := if n = 0 then 1 else (n.log2 + 7) / 7

def boundLen (last : UInt64) (bound : Bound) : Nat :=
  (if bound.ts = tsInfinity then 1 else varintLen (bound.ts.toNat - last.toNat + 1)) +
    varintLen bound.idPrefix.length + bound.idPrefix.length

def payloadLen : Payload → Nat
  | .skip => 1
  | .fingerprint _ => 17
  | .idList ids => 1 + varintLen ids.length + 32 * ids.length

def rangesLen (last : UInt64) : List WireRange → Nat
  | [] => 0
  | r :: rs => boundLen last r.bound + payloadLen r.payload + rangesLen r.bound.ts rs

def messageLen (ranges : List WireRange) : Nat := 1 + rangesLen 0 ranges

/-! ## One round -/

def bucketStart (numElems i : Nat) : Nat := i * (numElems / buckets) + min i (numElems % buckets)

/-- The bound `split_range` puts before the item at `rank`. -/
def separator (items : List Item) (rank : Nat) : Bound :=
  (do
    let prev ← items[rank - 1]?
    let next ← items[rank]?
    Bound.minSeparating prev.sortKey prev.id next.sortKey next.id).getD Bound.infinity

def overBudget (limit : Option Nat) (len : Nat) : Bool :=
  limit.any fun limit => decide (limit - frameMargin < len)

/-- How many of `count` ids the responder lists before it stops at the budget. -/
def listedCount (limit : Option Nat) (fullLen count : Nat) : Nat :=
  match limit with
  | none => count
  | some limit =>
    if limit - frameMargin < fullLen then 0
    else min count ((limit - frameMargin - fullLen) / 32 + 1)

/-- What one side has said and learnt after the ranges read so far. -/
structure Answer where
  out : List WireRange
  prevRank : Nat
  prevBound : Bound
  skip : Bool
  haveIds : List EntryId
  needIds : List EntryId

def Answer.start : Answer where
  out := []
  prevRank := 0
  prevBound := Bound.fromTs 0
  skip := false
  haveIds := []
  needIds := []

/-- The Skip range still to be sent before anything else can be. -/
def Answer.pending (a : Answer) : List WireRange :=
  if a.skip then [⟨a.prevBound, .skip⟩] else []

/-- One side of an exchange. -/
structure Side where
  items : List Item
  limit : Option Nat
  isInitiator : Bool

namespace Side

variable [Sha256]

def slice (side : Side) (lo hi : Nat) : List Item := (side.items.take hi).drop lo

def rangeFingerprint (side : Side) (lo hi : Nat) : Fingerprint :=
  SealedVec.fingerprintOf (side.slice lo hi)

def bucketRange (side : Side) (lower upper : Nat) (upperBound : Bound) (i : Nat) : WireRange :=
  let lo := lower + bucketStart (upper - lower) i
  let hi := lower + bucketStart (upper - lower) (i + 1)
  { bound := if hi = upper then upperBound else separator side.items hi
    payload := .fingerprint (side.rangeFingerprint lo hi) }

def splitRanges (side : Side) (lower upper : Nat) (upperBound : Bound) : List WireRange :=
  if upper - lower < idListThreshold then
    [⟨upperBound, .idList ((side.slice lower upper).map Item.id)⟩]
  else (List.range buckets).map (side.bucketRange lower upper upperBound)

def rankOf (side : Side) (from_ : Nat) (bound : Bound) : Nat :=
  from_ + partitionPoint (side.items.drop from_) fun item => decide (item < boundAsItem bound)

/-- The responder's own id list for `lower..upper`: the range, and the rank where it ends. -/
def listRange (side : Side) (fullLen lower upper : Nat) (bound : Bound) : WireRange × Nat :=
  let listed := listedCount side.limit fullLen (upper - lower)
  let ids := (side.slice lower (lower + listed)).map Item.id
  if listed = upper - lower then (⟨bound, .idList ids⟩, upper)
  else
    let endBound := (side.items[lower + listed]?.map fun item =>
      Bound.atItem item.sortKey item.id).getD bound
    (⟨endBound, .idList ids⟩, lower + listed)

/-- What is done about one range: the new state, the rank where the range ends, and the ranges that
still have to pass the budget. -/
def answerRange (side : Side) (a : Answer) (r : WireRange) : Answer × Nat × List WireRange :=
  let lower := a.prevRank
  let upper := side.rankOf a.prevRank r.bound
  match r.payload with
  | .skip => ({ a with skip := true }, upper, [])
  | .fingerprint fp =>
    if fp ≠ side.rangeFingerprint lower upper then
      ({ a with skip := false }, upper, a.pending ++ side.splitRanges lower upper r.bound)
    else ({ a with skip := true }, upper, [])
  | .idList ids =>
    if side.isInitiator then
      let ours := (side.slice lower upper).map Item.id
      ({ a with
        skip := true
        haveIds := a.haveIds ++ ours.filter fun id => decide (id ∉ ids)
        needIds := a.needIds ++ ids.filter fun id => decide (id ∉ ours) }, upper, [])
    else
      let (listed, upper) := side.listRange (messageLen a.out) lower upper r.bound
      ({ a with skip := false, out := a.out ++ (a.pending ++ [listed]) }, upper, [])

/-- The range that stands for everything after `upper` once the budget is spent. -/
def continuation (side : Side) (upper : Nat) : WireRange :=
  ⟨Bound.infinity, .fingerprint (side.rangeFingerprint upper side.items.length)⟩

/-- One round. A range whose answer would exceed the budget is not answered. -/
def answerRanges (side : Side) : Answer → List WireRange → Answer
  | a, [] => a
  | a, r :: rs =>
    let (a', upper, dropped) := side.answerRange a r
    if overBudget side.limit (messageLen (a'.out ++ dropped)) then
      { a' with out := a'.out ++ [side.continuation upper] }
    else
      side.answerRanges
        { a' with out := a'.out ++ dropped, prevRank := upper, prevBound := r.bound } rs

/-- The first message. -/
def initiate (side : Side) : List WireRange :=
  side.splitRanges 0 side.items.length Bound.infinity

/-- The message to send back; an initiator with nothing left to say sends none. -/
def reply (side : Side) (a : Answer) : Option (List WireRange) :=
  if side.isInitiator = true ∧ a.out = [] then none else some a.out

/-- The outcome of one message, with the reply as bytes. -/
def round (side : Side) (ranges : List WireRange) : Round :=
  let a := side.answerRanges .start ranges
  { reply := (side.reply a).map messageBytes, haveIds := a.haveIds, needIds := a.needIds }

end Side

/-- The range-level view of an engine over a snapshot. -/
def sideOf (ne : Negentropy SealedVec) : Side := ⟨ne.store.items, ne.frameLimit, ne.isInitiator⟩

end Racnet.Sync
