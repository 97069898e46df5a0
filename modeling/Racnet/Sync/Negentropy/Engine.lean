import Racnet.Sync.Negentropy.Store

namespace Racnet.Sync
open Lib Store NegentropyStore

def protocolVersion : UInt8 := 0x61

/-- Number of fingerprint buckets a mismatched range splits into. -/
def buckets : Nat := 16

/-- Ranges smaller than this are sent as id lists. -/
def idListThreshold : Nat := buckets * 2

def frameMargin : Nat := 200

def frameLimitFloor : Nat := 4096

def modeSkip : Nat := 0
def modeFingerprint : Nat := 1
def modeIdList : Nat := 2

/-- The outcome of one incoming message. -/
structure Round where
  reply : Option (List UInt8)
  haveIds : List EntryId
  needIds : List EntryId
  deriving DecidableEq

/-- An engine over one item set. Between rounds it keeps nothing but the initiator flag. -/
structure Negentropy (S : Type) where
  store : S
  frameLimit : Option Nat
  isInitiator : Bool

/-- Whether an output of `len` bytes exceeds the budget; the subtraction panics on underflow. -/
def exceedsLimit (limit : Option Nat) (len : Nat) : Option Bool :=
  match limit with
  | none => some false
  | some limit => do
    let budget ← checkedSub limit frameMargin
    return decide (len > budget)

/-- Emits the pending Skip range, if any: the flag, the codec and the bytes. -/
def flushSkip (skip : Bool) (prevBound : Bound) (codec : BoundCodec) :
    Bool × BoundCodec × List UInt8 :=
  if skip then
    let (codec, bytes) := codec.encode prevBound
    (false, codec, bytes ++ writeVarint modeSkip)
  else (skip, codec, [])

/-- The state the loop of `reconcile` carries from one range to the next. -/
structure Progress where
  full : List UInt8
  codec : BoundCodec
  prevRank : Nat
  prevBound : Bound
  skip : Bool
  haveIds : List EntryId
  needIds : List EntryId

def Progress.start : Progress where
  full := [protocolVersion]
  codec := {}
  prevRank := 0
  prevBound := Bound.fromTs 0
  skip := false
  haveIds := []
  needIds := []

/-- The ids of an id list, without repetitions, in order of first appearance. -/
def readIds : Nat → List UInt8 → List EntryId → Option (List EntryId × List UInt8)
  | 0, cursor, theirOrder => some (theirOrder, cursor)
  | k + 1, cursor, theirOrder =>
    if fits : idSize ≤ cursor.length then
      let id : EntryId := ⟨cursor.take idSize, List.length_take_of_le fits⟩
      readIds k (cursor.drop idSize) (if id ∈ theirOrder then theirOrder else theirOrder ++ [id])
    else none

section Engine
variable {S : Type} [NegentropyStore S]

def bucketStep (store : S) (upper : Nat) (upperBound : Bound)
    (itemsPerBucket bucketsWithExtra : Nat) (state : Nat × BoundCodec × List UInt8) (i : Nat) :
    Option (Nat × BoundCodec × List UInt8) := do
  let (curr, codec, out) := state
  let bucketSize := itemsPerBucket + if i < bucketsWithExtra then 1 else 0
  let fp ← fingerprint store curr (curr + bucketSize)
  let curr := curr + bucketSize
  let nextBound ←
    if curr = upper then some upperBound
    else do
      let prev ← itemAt store (← checkedSub curr 1)
      let next ← itemAt store curr
      Bound.minSeparating prev.sortKey prev.id next.sortKey next.id
  let (codec, bytes) := codec.encode nextBound
  return (curr, codec, out ++ (bytes ++ writeVarint modeFingerprint ++ fp.bytes))

/-- Covers `lower..upper` in the output: an id list when small, sixteen buckets otherwise. -/
def splitRange (store : S) (lower upper : Nat) (upperBound : Bound) (codec : BoundCodec) :
    Option (BoundCodec × List UInt8) := do
  let numElems ← checkedSub upper lower
  if numElems < idListThreshold then
    let (codec, bytes) := codec.encode upperBound
    let ids ← forEach store lower upper (fun out _ item => some (out ++ item.id.bytes, true)) []
    return (codec, bytes ++ writeVarint modeIdList ++ writeVarint numElems ++ ids)
  else
    let (_, codec, out) ← (List.range buckets).foldlM
      (bucketStep store upper upperBound (numElems / buckets) (numElems % buckets))
      (lower, codec, [])
    return (codec, out)

namespace Negentropy

def new (store : S) (frameLimit : Option Nat) : Except SyncError (Negentropy S) :=
  if frameLimit.any (fun limit => decide (limit < frameLimitFloor)) then
    .error (.frameLimitTooSmall frameLimitFloor)
  else .ok { store, frameLimit, isInitiator := false }

/-- Marks the engine the initiator and returns the first message. -/
def initiate (ne : Negentropy S) : Exec SyncError (Negentropy S × List UInt8) :=
  if ne.isInitiator then .fail .alreadyInitiated
  else do
    let (_, out) ← .orPanic (splitRange ne.store 0 (len ne.store) Bound.infinity {})
    return ({ ne with isInitiator := true }, protocolVersion :: out)

/-- A Fingerprint range. The results of the `answer` functions are the progress, the end of the
range, the output not yet appended, and the unread input. -/
def answerFingerprint (ne : Negentropy S) (p : Progress) (lower upper : Nat) (currBound : Bound)
    (cursor : List UInt8) : Exec SyncError (Progress × Nat × List UInt8 × List UInt8) :=
  if cursor.length < fingerprintSize then .fail (.malformed "fingerprint ends prematurely")
  else do
    let theirFp := cursor.take fingerprintSize
    let cursor := cursor.drop fingerprintSize
    let ours ← .orPanic (fingerprint ne.store lower upper)
    if theirFp ≠ ours.bytes then
      let (skip, codec, flushed) := flushSkip p.skip p.prevBound p.codec
      let (codec, out) ← .orPanic (splitRange ne.store lower upper currBound codec)
      return ({ p with skip, codec }, upper, flushed ++ out, cursor)
    else return ({ p with skip := true }, upper, [], cursor)

/-- The initiator's visitor: ids the peer lists too are removed from `theirs`, the others are had. -/
def compareIds (state : List EntryId × List EntryId) (_ : Nat) (item : Item) :
    Option ((List EntryId × List EntryId) × Bool) :=
  let (theirs, haveIds) := state
  if item.id ∈ theirs then some ((theirs.erase item.id, haveIds), true)
  else some ((theirs, haveIds ++ [item.id]), true)

structure Response where
  endBound : Bound
  upper : Nat
  responseIds : List UInt8
  numResponse : Nat

/-- The responder's visitor: list the item, or stop at it when the budget is exceeded. -/
def listId (limit : Option Nat) (fullLen : Nat) (r : Response) (rank : Nat) (item : Item) :
    Option (Response × Bool) := do
  if ← exceedsLimit limit (fullLen + r.responseIds.length) then
    return ({ r with endBound := Bound.atItem item.sortKey item.id, upper := rank }, false)
  else
    return ({ r with
      responseIds := r.responseIds ++ item.id.bytes
      numResponse := r.numResponse + 1 }, true)

/-- An IdList range. The responder appends its list to `full` before the budget is checked. -/
def answerIdList (ne : Negentropy S) (p : Progress) (lower upper : Nat) (currBound : Bound)
    (cursor : List UInt8) : Exec SyncError (Progress × Nat × List UInt8 × List UInt8) := do
  let (numIds, cursor) ← readVarint cursor
  if numIds > cursor.length / idSize then .fail (.malformed "id list longer than the message")
  else
    let (theirOrder, cursor) ← .orPanic (readIds numIds cursor [])
    if ne.isInitiator then
      let (theirs, haveIds) ← .orPanic
        (forEach ne.store lower upper compareIds (theirOrder, p.haveIds))
      let needIds := p.needIds ++ theirOrder.filter fun id => decide (id ∈ theirs)
      return ({ p with skip := true, haveIds, needIds }, upper, [], cursor)
    else
      let (skip, codec, flushed) := flushSkip p.skip p.prevBound p.codec
      let r ← .orPanic (forEach ne.store lower upper (listId ne.frameLimit p.full.length)
        { endBound := currBound, upper, responseIds := [], numResponse := 0 })
      let (codec, bytes) := codec.encode r.endBound
      let o := flushed ++
        (bytes ++ writeVarint modeIdList ++ writeVarint r.numResponse ++ r.responseIds)
      return ({ p with skip, codec, full := p.full ++ o }, r.upper, [], cursor)

def answer (ne : Negentropy S) (p : Progress) (lower upper : Nat) (currBound : Bound) (mode : Nat)
    (cursor : List UInt8) : Exec SyncError (Progress × Nat × List UInt8 × List UInt8) :=
  if mode = modeSkip then .ok ({ p with skip := true }, upper, [], cursor)
  else if mode = modeFingerprint then ne.answerFingerprint p lower upper currBound cursor
  else if mode = modeIdList then ne.answerIdList p lower upper currBound cursor
  else .fail (.malformed "unknown range mode")

/-- One pass of the loop of `reconcile`; the flag is its `break`. -/
def reconcileRange (ne : Negentropy S) (p : Progress) (cursor : List UInt8) :
    Exec SyncError (Bool × Progress × List UInt8) := do
  let n := len ne.store
  let (codec, currBound, cursor) ← p.codec.decode cursor
  let (mode, cursor) ← readVarint cursor
  let lower := p.prevRank
  let upper ← .orPanic (lowerBound ne.store p.prevRank n currBound)
  let (p, upper, o, cursor) ← ne.answer { p with codec } lower upper currBound mode cursor
  if ← .orPanic (exceedsLimit ne.frameLimit (p.full.length + o.length)) then
    -- The output of this range is dropped; one fingerprint covers everything after `upper`.
    let remaining ← .orPanic (fingerprint ne.store upper n)
    let (codec, bytes) := p.codec.encode Bound.infinity
    let full := p.full ++ (bytes ++ writeVarint modeFingerprint ++ remaining.bytes)
    return (true, { p with full, codec }, cursor)
  else
    return (false, { p with full := p.full ++ o, prevRank := upper, prevBound := currBound }, cursor)

/-- Every pass reads at least one byte, so the length of the message is fuel enough. -/
def reconcileLoop (ne : Negentropy S) : Nat → Progress → List UInt8 → Exec SyncError Progress
  | _, p, [] => .ok p
  | 0, _, _ :: _ => .error .panic
  | fuel + 1, p, cursor => do
    let (stop, p, cursor) ← ne.reconcileRange p cursor
    if stop then return p else ne.reconcileLoop fuel p cursor

/-- Processes one incoming message. The engine itself does not change. -/
def reconcile (ne : Negentropy S) (msg : List UInt8) : Exec SyncError Round :=
  match msg with
  | [] => .fail (.malformed "empty message")
  | version :: cursor =>
    if ¬ (0x60 ≤ version.toNat ∧ version.toNat ≤ 0x6F) then
      .fail (.malformed "invalid protocol version byte")
    else if version ≠ protocolVersion then
      if ne.isInitiator then .fail (.unsupportedVersion version)
      else .ok { reply := some [protocolVersion], haveIds := [], needIds := [] }
    else do
      let p ← ne.reconcileLoop cursor.length Progress.start cursor
      let reply := if ne.isInitiator ∧ p.full.length = 1 then none else some p.full
      return { reply, haveIds := p.haveIds, needIds := p.needIds }

end Negentropy

end Engine

end Racnet.Sync
