import Racnet.Proof.Negentropy.Answer

/-!
# The engine on bytes computes the engine on ranges

The state of the byte loop is the encoding of the state of the range loop (`progressOf`), every pass
over the encoding of a range takes one encoding to the next, and so does a whole message.
-/

namespace Racnet.Proof.Negentropy
open Lib Store Sync

/-! ## The budget -/

/-- A frame limit that `Negentropy::new` accepts. -/
def LimitOk (limit : Option Nat) : Prop := ∀ l ∈ limit, frameLimitFloor ≤ l

theorem exceedsLimit_eq {limit : Option Nat} (ok : LimitOk limit) (len : Nat) :
    exceedsLimit limit len = some (overBudget limit len) := by
  cases limit with
  | none => rfl
  | some limit =>
    have floor : frameLimitFloor ≤ limit := ok limit rfl
    have le : frameMargin ≤ limit := le_trans (by decide) floor
    simp [exceedsLimit, checkedSub_of_le le, overBudget]

/-! ## Visitors -/

def listing (limit : Option Nat) (fullLen rank : Nat) (items : List Item)
    (r : Negentropy.Response) : Negentropy.Response :=
  let listed := listedCount limit (fullLen + r.responseIds.length) items.length
  { endBound := (items[listed]?.map fun item => Bound.atItem item.sortKey item.id).getD r.endBound
    upper := if listed = items.length then r.upper else rank + listed
    responseIds := r.responseIds ++ ((items.take listed).map Item.id).flatMap FixedBytes.bytes
    numResponse := r.numResponse + listed }

theorem visit_listId {limit : Option Nat} (ok : LimitOk limit) (fullLen rank : Nat)
    (items : List Item) (r : Negentropy.Response) :
    visitFrom (Negentropy.listId limit fullLen) rank items r =
      some (listing limit fullLen rank items r) := by
  induction items generalizing rank r with
  | nil => simp [visitFrom, listing, listedCount_zero]
  | cons item items ih =>
    rw [visitFrom, Negentropy.listId, exceedsLimit_eq ok]
    by_cases exceeded : overBudget limit (fullLen + r.responseIds.length) = true
    · simp [exceeded, listing, listedCount_succ]
    · simp only [Option.bind_eq_bind, Option.bind_some, exceeded, Bool.false_eq_true, if_false,
        Option.pure_def, if_true, ih]
      simp only [listing, List.length_cons, listedCount_succ, exceeded, Bool.false_eq_true, if_false,
        List.length_append, item.id.length_eq, ← Nat.add_assoc]
      rw [Nat.add_comm 1]
      simp [Nat.add_assoc, Nat.add_comm 1]

theorem visit_compareIds (rank : Nat) (items : List Item) (theirs had : List EntryId)
    (nodup : theirs.Nodup) (unique : (items.map Item.id).Nodup) :
    visitFrom Negentropy.compareIds rank items (theirs, had) =
      some (theirs.filter fun id => decide (id ∉ items.map Item.id),
        had ++ (items.map Item.id).filter fun id => decide (id ∉ theirs)) := by
  induction items generalizing rank theirs had with
  | nil => simp [visitFrom]
  | cons item items ih =>
    rw [List.map_cons, List.nodup_cons] at unique
    by_cases mem : item.id ∈ theirs
    · have walk : visitFrom Negentropy.compareIds rank (item :: items) (theirs, had) =
          visitFrom Negentropy.compareIds (rank + 1) items (theirs.erase item.id, had) := by
        simp [visitFrom, Negentropy.compareIds, mem]
      have left : (theirs.erase item.id).filter (fun id => decide (id ∉ items.map Item.id)) =
          theirs.filter fun id => decide (id ∉ (item :: items).map Item.id) := by
        rw [nodup.erase_eq_filter, List.filter_filter]
        apply List.filter_congr
        intro id _
        rw [Bool.eq_iff_iff]
        simp [and_comm]
      have right : (items.map Item.id).filter (fun id => decide (id ∉ theirs.erase item.id)) =
          ((item :: items).map Item.id).filter fun id => decide (id ∉ theirs) := by
        rw [List.map_cons, List.filter_cons_of_neg (by simpa using mem)]
        apply List.filter_congr
        intro id listed
        have ne : id ≠ item.id := fun same => unique.1 (same ▸ listed)
        simp [List.mem_erase_of_ne ne]
      rw [walk, ih (rank + 1) _ had (nodup.erase _) unique.2, left, right]
    · have walk : visitFrom Negentropy.compareIds rank (item :: items) (theirs, had) =
          visitFrom Negentropy.compareIds (rank + 1) items (theirs, had ++ [item.id]) := by
        simp [visitFrom, Negentropy.compareIds, mem]
      have left : theirs.filter (fun id => decide (id ∉ items.map Item.id)) =
          theirs.filter fun id => decide (id ∉ (item :: items).map Item.id) := by
        apply List.filter_congr
        intro id listed
        have ne : id ≠ item.id := fun same => mem (same ▸ listed)
        simp [ne]
      rw [walk, ih (rank + 1) _ _ nodup unique.2, left, List.map_cons,
        List.filter_cons_of_pos (by simpa using mem), List.append_assoc, List.singleton_append]

theorem listRange_eq {side : Side} (fullLen : Nat) {lower upper : Nat} (order : lower ≤ upper)
    (inside : upper ≤ side.items.length) (bound : Bound) :
    ∃ ids, side.listRange fullLen lower upper bound =
        (⟨(listing side.limit fullLen lower (side.slice lower upper) ⟨bound, upper, [], 0⟩).endBound,
          .idList ids⟩,
          (listing side.limit fullLen lower (side.slice lower upper) ⟨bound, upper, [], 0⟩).upper) ∧
      (listing side.limit fullLen lower (side.slice lower upper) ⟨bound, upper, [], 0⟩).responseIds =
        ids.flatMap FixedBytes.bytes ∧
      (listing side.limit fullLen lower (side.slice lower upper) ⟨bound, upper, [], 0⟩).numResponse =
        ids.length := by
  have count : (side.slice lower upper).length = upper - lower := length_slice inside
  have le := listedCount_le side.limit fullLen (upper - lower)
  simp only [listing, List.length_nil, Nat.add_zero, count, List.nil_append, Nat.zero_add,
    Side.listRange]
  set listed := listedCount side.limit fullLen (upper - lower) with hlisted
  have taken : (side.slice lower upper).take listed = side.slice lower (lower + listed) := by
    rw [Side.slice, Side.slice, List.take_drop, List.take_take, Nat.min_eq_left (by omega)]
  refine ⟨(side.slice lower (lower + listed)).map Item.id, ?_, by rw [taken], ?_⟩
  · split_ifs with all
    · have beyond : (side.slice lower upper)[listed]? = none :=
        List.getElem?_eq_none (by omega)
      rw [beyond]
      rfl
    · have inner : (side.slice lower upper)[listed]? = side.items[lower + listed]? := by
        rw [Side.slice, List.getElem?_drop, List.getElem?_take_of_lt (by omega)]
      rw [inner]
  · rw [List.length_map, length_slice (by omega)]
    omega

/-! ## Messages the engine reads -/

/-- What the decoder needs of a payload: the count fits, and no id is listed twice. -/
def Payload.Readable : Payload → Prop
  | .idList ids => ids.length < 2 ^ 64 ∧ ids.Nodup
  | _ => True

theorem Payload.Readable.fits {payload : Payload} (readable : Payload.Readable payload) :
    Payload.Fits payload := by
  cases payload with
  | skip => trivial
  | fingerprint fp => trivial
  | idList ids => exact readable.1

/-- Bounds whose timestamps do not decrease, over readable payloads. -/
def Readable : UInt64 → List WireRange → Prop
  | _, [] => True
  | last, r :: rs =>
    last.toNat ≤ r.bound.ts.toNat ∧ Payload.Readable r.payload ∧ Readable r.bound.ts rs

def payloadMode : Payload → Nat
  | .skip => modeSkip
  | .fingerprint _ => modeFingerprint
  | .idList _ => modeIdList

def payloadBody : Payload → List UInt8
  | .skip => []
  | .fingerprint fp => fp.bytes
  | .idList ids => writeVarint ids.length ++ ids.flatMap FixedBytes.bytes

theorem payloadBytes_eq (payload : Payload) :
    payloadBytes payload = writeVarint (payloadMode payload) ++ payloadBody payload := by
  cases payload with
  | skip => simp [payloadBytes, payloadMode, payloadBody]
  | fingerprint fp => rfl
  | idList ids => simp [payloadBytes, payloadMode, payloadBody]

theorem payloadMode_lt (payload : Payload) : payloadMode payload < 2 ^ 64 := by
  cases payload with
  | skip => decide
  | fingerprint fp => exact (by decide : modeFingerprint < 2 ^ 64)
  | idList ids => exact (by decide : modeIdList < 2 ^ 64)

theorem rangesBytes_ne_nil (last : UInt64) (r : WireRange) (ranges : List WireRange) :
    rangesBytes last (r :: ranges) ≠ [] := by
  intro empty
  have front := boundLen_pos last r.bound
  simp only [rangesBytes, List.append_eq_nil_iff] at empty
  rw [← length_boundBytes, empty.1.1] at front
  exact absurd front (lt_irrefl 0)

/-! ## The ranges of a message -/

theorem readPayload_payloadBody (payload : Payload) (readable : Payload.Readable payload)
    (rest : List UInt8) :
    readPayload (payloadMode payload) (payloadBody payload ++ rest) = .ok (payload, rest) := by
  cases payload with
  | skip => rfl
  | fingerprint fp =>
    have fits := Nat.not_lt.mp (fp.not_length_append_lt rest)
    rw [payloadMode, readPayload, if_neg (by decide : ¬ modeFingerprint = modeSkip), if_pos rfl]
    simp only [payloadBody, dif_pos fits, fp.take_append, fp.drop_append]
  | idList ids =>
    have enough : ¬ ids.length > (ids.flatMap FixedBytes.bytes ++ rest).length / idSize := by
      rw [List.length_append, length_flatMap_bytes, idSize]
      omega
    have read := readIds_flatMap ids [] (by simpa using readable.2) rest
    rw [List.nil_append] at read
    rw [payloadMode, readPayload, if_neg (by decide : ¬ modeIdList = modeSkip),
      if_neg (by decide : ¬ modeIdList = modeFingerprint), if_pos rfl, payloadBody,
      List.append_assoc, readVarint_writeVarint _ readable.1, Exec.ok_bind]
    simp only [if_neg enough, read, Exec.orPanic_some, Exec.ok_bind]
    rfl

theorem readRanges_rangesBytes (ranges : List WireRange) {codec : BoundCodec}
    (readable : Readable codec.lastTsIn ranges) {fuel : Nat}
    (enough : (rangesBytes codec.lastTsIn ranges).length ≤ fuel) :
    readRanges fuel codec (rangesBytes codec.lastTsIn ranges) = .ok ranges := by
  induction ranges generalizing codec fuel with
  | nil => rw [rangesBytes, readRanges]
  | cons r rs ih =>
    obtain ⟨order, payload, later⟩ := readable
    have front := length_boundBytes codec.lastTsIn r.bound
    have positive := boundLen_pos codec.lastTsIn r.bound
    have unread := rangesBytes_ne_nil codec.lastTsIn r rs
    simp only [rangesBytes, List.length_append] at enough unread
    obtain ⟨fuel, rfl⟩ : ∃ k, fuel = k + 1 := ⟨fuel - 1, by omega⟩
    rw [rangesBytes, readRanges.eq_3 _ _ _ unread, payloadBytes_eq, List.append_assoc, List.append_assoc,
      decode_boundBytes codec r.bound order]
    simp only [Exec.ok_bind, readVarint_writeVarint _ (payloadMode_lt r.payload),
      readPayload_payloadBody r.payload payload]
    rw [@ih { codec with lastTsIn := r.bound.ts } later _ (by dsimp only; omega)]
    rfl

theorem messageRanges_messageBytes {ranges : List WireRange} (readable : Readable 0 ranges) :
    messageRanges (messageBytes ranges) = .ok ranges :=
  @readRanges_rangesBytes ranges {} readable _ le_rfl

structure SideOk (side : Side) : Prop where
  limit : LimitOk side.limit
  size : side.items.length < 2 ^ 64
  unique : (side.items.map Item.id).Nodup
  sorted : side.items.Pairwise (· < ·)
  finite : ∀ item ∈ side.items, item.sortKey ≠ tsInfinity

theorem SideOk.slice_readable {side : Side} (ok : SideOk side) (lo hi : Nat) :
    Payload.Readable (.idList ((side.slice lo hi).map Item.id)) := by
  have sub := slice_sublist side lo hi
  refine ⟨?_, ok.unique.sublist (sub.map Item.id)⟩
  rw [List.length_map]
  exact lt_of_le_of_lt sub.length_le ok.size

/-! ## The loop state -/

/-- The state of the byte loop that stands for `a` when the last timestamp read is `lastIn`. -/
def progressOf (a : Answer) (lastIn : UInt64) : Progress where
  full := messageBytes a.out
  codec := { lastTsIn := lastIn, lastTsOut := lastTs 0 a.out }
  prevRank := a.prevRank
  prevBound := a.prevBound
  skip := a.skip
  haveIds := a.haveIds
  needIds := a.needIds

/-- `progressOf` with the codec already past the ranges that still have to pass the budget. -/
def proposed (a : Answer) (lastIn : UInt64) (dropped : List WireRange) : Progress :=
  { progressOf a lastIn with codec := advance (progressOf a lastIn).codec dropped }

theorem proposed_nil (a : Answer) (lastIn : UInt64) : proposed a lastIn [] = progressOf a lastIn :=
  rfl

def skipped (skip : Bool) (bound : Bound) : List WireRange := if skip then [⟨bound, .skip⟩] else []

theorem flushSkip_eq (skip : Bool) (bound : Bound) (codec : BoundCodec) :
    flushSkip skip bound codec =
      (false, advance codec (skipped skip bound),
        rangesBytes codec.lastTsOut (skipped skip bound)) := by
  cases skip <;> simp [flushSkip, skipped, advance, rangesBytes, payloadBytes, lastTs]

theorem flushSkip_pending (a : Answer) (lastIn : UInt64) :
    flushSkip a.skip a.prevBound (progressOf a lastIn).codec =
      (false, advance (progressOf a lastIn).codec a.pending,
        rangesBytes (lastTs 0 a.out) a.pending) :=
  flushSkip_eq a.skip a.prevBound (progressOf a lastIn).codec

theorem messageBytes_append (xs ys : List WireRange) :
    messageBytes (xs ++ ys) = messageBytes xs ++ rangesBytes (lastTs 0 xs) ys := by
  rw [messageBytes, messageBytes, rangesBytes_append, List.cons_append]

/-! ## Lookups -/

variable [Sha256]

theorem lowerBound_sealedVec (ne : Negentropy SealedVec) {start : Nat}
    (inside : start ≤ ne.store.items.length) (bound : Bound) :
    NegentropyStore.lowerBound ne.store start (NegentropyStore.len ne.store) bound =
      some ((sideOf ne).rankOf start bound) := by
  change (slice ne.store.items start ne.store.items.length).bind _ = _
  rw [slice_of_le inside le_rfl, List.take_length]
  rfl

theorem forEach_sealedVec {σ : Type} (ne : Negentropy SealedVec) {lo hi : Nat} (order : lo ≤ hi)
    (inside : hi ≤ ne.store.items.length) (f : σ → Nat → Item → Option (σ × Bool)) (state : σ) :
    NegentropyStore.forEach ne.store lo hi f state =
      visitFrom f lo ((sideOf ne).slice lo hi) state := by
  change (slice ne.store.items lo hi).bind _ = _
  rw [slice_of_le order inside]
  rfl

theorem SideOk.splitRanges_readable {side : Side} (ok : SideOk side) (lower upper : Nat)
    (bound : Bound) (r : WireRange) (mem : r ∈ side.splitRanges lower upper bound) :
    Payload.Readable r.payload := by
  rw [Side.splitRanges] at mem
  split_ifs at mem with small
  · rw [List.mem_singleton] at mem
    subst mem
    exact ok.slice_readable lower upper
  · obtain ⟨i, -, rfl⟩ := List.mem_map.mp mem
    trivial

/-! ## One pass of the loop -/

section Step

variable {ne : Negentropy SealedVec} {a : Answer} {bound : Bound} {lastIn : UInt64}

theorem answerFingerprint_spec (inside : a.prevRank ≤ ne.store.items.length) (fp : Fingerprint)
    (rest : List UInt8) {a' : Answer} {upper : Nat} {dropped : List WireRange}
    (step : (sideOf ne).answerRange a ⟨bound, .fingerprint fp⟩ = (a', upper, dropped)) :
    ne.answerFingerprint (progressOf a lastIn) a.prevRank ((sideOf ne).rankOf a.prevRank bound)
        bound (fp.bytes ++ rest) =
      .ok (proposed a' lastIn dropped, upper, rangesBytes (lastTs 0 a'.out) dropped, rest) := by
  have order := le_rankOf (sideOf ne) a.prevRank bound
  have limit : (sideOf ne).rankOf a.prevRank bound ≤ ne.store.items.length :=
    @rankOf_le (sideOf ne) _ inside bound
  have different : fp.bytes ≠ ((sideOf ne).rangeFingerprint a.prevRank
      ((sideOf ne).rankOf a.prevRank bound)).bytes ↔ fp ≠ (sideOf ne).rangeFingerprint a.prevRank
      ((sideOf ne).rankOf a.prevRank bound) := not_congr FixedBytes.ext_iff.symm
  rw [Negentropy.answerFingerprint, if_neg (fp.not_length_append_lt rest),
    fingerprint_sealedVec order limit (sideOf ne) rfl, Exec.orPanic_some, Exec.ok_bind,
    fp.take_append, fp.drop_append]
  simp only [Side.answerRange] at step
  by_cases mismatch : fp ≠ (sideOf ne).rangeFingerprint a.prevRank
      ((sideOf ne).rankOf a.prevRank bound)
  · rw [if_pos mismatch] at step
    simp only [Prod.mk.injEq] at step
    obtain ⟨rfl, rfl, rfl⟩ := step
    rw [if_pos (different.mpr mismatch)]
    have flush := flushSkip_pending a lastIn
    simp only [progressOf] at flush ⊢
    simp only [flush, splitRange_spec bound order limit (sideOf ne) rfl, Exec.orPanic_some,
      Exec.ok_bind, advance_append, rangesBytes_append, proposed, progressOf]
    rfl
  · rw [if_neg mismatch] at step
    simp only [Prod.mk.injEq] at step
    obtain ⟨rfl, rfl, rfl⟩ := step
    rw [if_neg (mt different.mp mismatch)]
    rfl

theorem answerIdList_spec (ok : SideOk (sideOf ne)) (inside : a.prevRank ≤ ne.store.items.length)
    (fits : ∀ r ∈ a.out, Payload.Fits r.payload) {ids : List EntryId}
    (readable : Payload.Readable (.idList ids)) (rest : List UInt8) {a' : Answer} {upper : Nat}
    {dropped : List WireRange}
    (step : (sideOf ne).answerRange a ⟨bound, .idList ids⟩ = (a', upper, dropped)) :
    ne.answerIdList (progressOf a lastIn) a.prevRank ((sideOf ne).rankOf a.prevRank bound)
        bound (writeVarint ids.length ++ ids.flatMap FixedBytes.bytes ++ rest) =
      .ok (proposed a' lastIn dropped, upper, rangesBytes (lastTs 0 a'.out) dropped, rest) := by
  have order := le_rankOf (sideOf ne) a.prevRank bound
  have limit : (sideOf ne).rankOf a.prevRank bound ≤ ne.store.items.length :=
    @rankOf_le (sideOf ne) _ inside bound
  have enough : ¬ ids.length > (ids.flatMap FixedBytes.bytes ++ rest).length / idSize := by
    rw [List.length_append, length_flatMap_bytes, idSize]
    omega
  have read := readIds_flatMap ids [] (by simpa using readable.2) rest
  rw [List.nil_append] at read
  rw [Negentropy.answerIdList, List.append_assoc, readVarint_writeVarint _ readable.1, Exec.ok_bind]
  simp only [if_neg enough, read, Exec.orPanic_some, Exec.ok_bind]
  simp only [Side.answerRange] at step
  by_cases initiator : ne.isInitiator = true
  · rw [if_pos (show (sideOf ne).isInitiator = true from initiator)] at step
    simp only [Prod.mk.injEq] at step
    obtain ⟨rfl, rfl, rfl⟩ := step
    have unique : (((sideOf ne).slice a.prevRank ((sideOf ne).rankOf a.prevRank bound)).map
        Item.id).Nodup := (ok.slice_readable _ _).2
    have need : ids.filter (fun id => decide (id ∈ ids.filter fun id => decide (id ∉
        ((sideOf ne).slice a.prevRank ((sideOf ne).rankOf a.prevRank bound)).map Item.id))) =
          ids.filter fun id => decide (id ∉
            ((sideOf ne).slice a.prevRank ((sideOf ne).rankOf a.prevRank bound)).map Item.id) := by
      apply List.filter_congr
      intro id mem
      simp only [List.mem_filter, mem, true_and, decide_eq_true_eq]
    rw [if_pos initiator, forEach_sealedVec ne order limit,
      visit_compareIds _ _ _ _ readable.2 unique]
    simp only [Exec.orPanic_some, Exec.ok_bind, need]
    rfl
  · rw [if_neg (show ¬ (sideOf ne).isInitiator = true from initiator)] at step
    simp only [Prod.mk.injEq] at step
    obtain ⟨rfl, rfl, rfl⟩ := step
    have flush := flushSkip_pending a lastIn
    have full : (progressOf a lastIn).full.length = messageLen a.out :=
      length_messageBytes a.out fits
    obtain ⟨listed, sent, bytes, count⟩ := listRange_eq (messageLen a.out) order
      (show _ ≤ (sideOf ne).items.length from limit) bound
    rw [if_neg initiator, forEach_sealedVec ne order limit, full, @visit_listId ne.frameLimit ok.limit]
    simp only [progressOf] at flush ⊢
    simp only [flush, Exec.orPanic_some, Exec.ok_bind, sent, proposed_nil, progressOf,
      messageBytes_append, rangesBytes_append, encode_eq]
    simp only [show ne.frameLimit = (sideOf ne).limit from rfl, bytes, count, rangesBytes,
      payloadBytes, lastTs_append, List.append_nil, List.append_assoc, advance]
    rfl

theorem answer_spec (lastIn : UInt64) (ok : SideOk (sideOf ne)) (inside : a.prevRank ≤ ne.store.items.length)
    (fits : ∀ r ∈ a.out, Payload.Fits r.payload) {r : WireRange}
    (readable : Payload.Readable r.payload) (rest : List UInt8) {a' : Answer} {upper : Nat}
    {dropped : List WireRange} (step : (sideOf ne).answerRange a r = (a', upper, dropped)) :
    ne.answer (progressOf a lastIn) a.prevRank ((sideOf ne).rankOf a.prevRank r.bound) r.bound
        (payloadMode r.payload) (payloadBody r.payload ++ rest) =
      .ok (proposed a' lastIn dropped, upper, rangesBytes (lastTs 0 a'.out) dropped, rest) := by
  rcases r with ⟨bound, payload⟩
  cases payload with
  | skip =>
    simp only [Side.answerRange, Prod.mk.injEq] at step
    obtain ⟨rfl, rfl, rfl⟩ := step
    rfl
  | fingerprint fp => exact answerFingerprint_spec inside fp rest step
  | idList ids => exact answerIdList_spec ok inside fits readable rest step

end Step

theorem answerRange_fits {side : Side} (ok : SideOk side) {a : Answer} {r : WireRange}
    (inside : a.prevRank ≤ side.items.length) (fits : ∀ r ∈ a.out, Payload.Fits r.payload)
    {a' : Answer} {upper : Nat} {dropped : List WireRange}
    (step : AnswerStep side a r a' upper dropped) :
    upper ≤ side.items.length ∧ ∀ r ∈ a'.out ++ dropped, Payload.Fits r.payload := by
  have pending : ∀ r ∈ a.pending, Payload.Fits r.payload := by
    intro r mem
    rw [Answer.pending] at mem
    split_ifs at mem with skip
    · rw [List.mem_singleton] at mem
      subst mem
      trivial
    · exact absurd mem List.not_mem_nil
  cases step with
  | skip bound => exact ⟨rankOf_le inside bound, by simpa using fits⟩
  | agree bound => exact ⟨rankOf_le inside bound, by simpa using fits⟩
  | split bound fp differ =>
    refine ⟨rankOf_le inside bound, fun r mem => ?_⟩
    rcases List.mem_append.mp mem with old | new
    · exact fits r old
    · rcases List.mem_append.mp new with skipped | split
      · exact pending r skipped
      · exact (ok.splitRanges_readable _ _ _ r split).fits
  | compare bound ids initiator => exact ⟨rankOf_le inside bound, by simpa using fits⟩
  | list bound ids responder mid endBound lower upper stop =>
    refine ⟨le_trans upper (rankOf_le inside bound), fun r mem => ?_⟩
    rw [List.append_nil] at mem
    rcases List.mem_append.mp mem with old | new
    · exact fits r old
    · rcases List.mem_append.mp new with skipped | listed
      · exact pending r skipped
      · rw [List.mem_singleton.mp listed]
        exact (ok.slice_readable _ _).fits

theorem reconcileRange_spec {ne : Negentropy SealedVec} (ok : SideOk (sideOf ne)) {a : Answer}
    (inside : a.prevRank ≤ ne.store.items.length) (fits : ∀ r ∈ a.out, Payload.Fits r.payload)
    {lastIn : UInt64} {r : WireRange} (order : lastIn.toNat ≤ r.bound.ts.toNat)
    (readable : Payload.Readable r.payload) (rest : List UInt8) {a' : Answer} {upper : Nat}
    {dropped : List WireRange} (step : (sideOf ne).answerRange a r = (a', upper, dropped)) :
    ne.reconcileRange (progressOf a lastIn)
        (boundBytes lastIn r.bound ++ payloadBytes r.payload ++ rest) =
      if overBudget ne.frameLimit (messageLen (a'.out ++ dropped)) then
        .ok (true, progressOf { a' with out := a'.out ++ [(sideOf ne).continuation upper] }
          r.bound.ts, rest)
      else
        .ok (false, progressOf { a' with
          out := a'.out ++ dropped, prevRank := upper, prevBound := r.bound } r.bound.ts, rest) := by
  obtain ⟨limit, sendable⟩ : upper ≤ ne.store.items.length ∧ _ := answerRange_fits ok inside fits
    (@answerRange_step _ (sideOf ne) _ _ _ _ _ inside step)
  have total : (proposed a' r.bound.ts dropped).full.length +
      (rangesBytes (lastTs 0 a'.out) dropped).length = messageLen (a'.out ++ dropped) := by
    rw [← length_messageBytes _ sendable, messageBytes_append, List.length_append]
    rfl
  have decoded := decode_boundBytes (progressOf a lastIn).codec r.bound order
    (writeVarint (payloadMode r.payload) ++ (payloadBody r.payload ++ rest))
  have answered := answer_spec r.bound.ts ok inside fits readable rest step
  rw [payloadBytes_eq, Negentropy.reconcileRange, List.append_assoc, List.append_assoc]
  simp only [progressOf] at decoded answered ⊢
  rw [decoded, Exec.ok_bind]
  simp only [readVarint_writeVarint _ (payloadMode_lt r.payload), Exec.ok_bind,
    lowerBound_sealedVec ne inside r.bound, Exec.orPanic_some, answered]
  simp only [total, @exceedsLimit_eq ne.frameLimit ok.limit, Exec.orPanic_some,
    Exec.ok_bind]
  by_cases exceeded : overBudget ne.frameLimit (messageLen (a'.out ++ dropped)) = true
  · rw [if_pos exceeded, if_pos exceeded, show NegentropyStore.len ne.store = ne.store.items.length from rfl,
      @fingerprint_sealedVec _ ne.store _ _ limit le_rfl (sideOf ne) rfl]
    simp only [Exec.orPanic_some, Exec.ok_bind, encode_eq, messageBytes_append, lastTs_append,
      rangesBytes, payloadBytes, Side.continuation, List.append_nil, List.append_assoc]
    rfl
  · rw [if_neg exceeded, if_neg exceeded]
    simp only [progressOf, proposed, messageBytes_append, lastTs_append, advance]
    rfl

/-! ## Whole messages -/

omit [Sha256] in
theorem reconcileLoop_unread {S : Type} [NegentropyStore S] (ne : Negentropy S) (fuel : Nat) (p : Progress)
    {cursor : List UInt8} (unread : cursor ≠ []) :
    ne.reconcileLoop (fuel + 1) p cursor = (do
      let (stop, p, cursor) ← ne.reconcileRange p cursor
      if stop then return p else ne.reconcileLoop fuel p cursor) := by
  rw [Negentropy.reconcileLoop]
  exact unread

theorem reconcileLoop_spec {ne : Negentropy SealedVec} (ok : SideOk (sideOf ne))
    (ranges : List WireRange) {lastIn : UInt64} (readable : Readable lastIn ranges) {a : Answer}
    (inside : a.prevRank ≤ ne.store.items.length) (fits : ∀ r ∈ a.out, Payload.Fits r.payload)
    {fuel : Nat} (enough : (rangesBytes lastIn ranges).length ≤ fuel) :
    ∃ lastIn', ne.reconcileLoop fuel (progressOf a lastIn) (rangesBytes lastIn ranges) =
      .ok (progressOf ((sideOf ne).answerRanges a ranges) lastIn') ∧
        ∀ r ∈ ((sideOf ne).answerRanges a ranges).out, Payload.Fits r.payload := by
  induction ranges generalizing lastIn a fuel with
  | nil => exact ⟨lastIn, by rw [rangesBytes, Negentropy.reconcileLoop]; rfl, fits⟩
  | cons r rs ih =>
    obtain ⟨order, payload, later⟩ := readable
    have front := length_boundBytes lastIn r.bound
    have positive := boundLen_pos lastIn r.bound
    have unread := rangesBytes_ne_nil lastIn r rs
    simp only [rangesBytes, List.length_append] at enough unread
    obtain ⟨fuel, rfl⟩ : ∃ k, fuel = k + 1 := ⟨fuel - 1, by omega⟩
    rcases step : (sideOf ne).answerRange a r with ⟨a', upper, dropped⟩
    obtain ⟨limit, sendable⟩ : upper ≤ ne.store.items.length ∧ _ :=
      answerRange_fits ok inside fits (@answerRange_step _ (sideOf ne) _ _ _ _ _ inside step)
    rw [rangesBytes, reconcileLoop_unread ne fuel _ unread,
      reconcileRange_spec ok inside fits order payload _ step]
    by_cases exceeded : overBudget ne.frameLimit (messageLen (a'.out ++ dropped)) = true
    · rw [if_pos exceeded, answerRanges_of_over step rs exceeded]
      refine ⟨r.bound.ts, rfl, fun r' mem => ?_⟩
      rcases List.mem_append.mp mem with old | new
      · exact sendable r' (List.mem_append_left _ old)
      · rw [List.mem_singleton.mp new]
        trivial
    · rw [if_neg exceeded, answerRanges_of_room step rs exceeded]
      exact ih later (a := { a' with out := _, prevRank := upper, prevBound := r.bound }) limit
        sendable (by omega)

/-- On the bytes of readable ranges `reconcile` reports no error, does not panic, and answers with
the bytes of the ranges that `answerRanges` gives. -/
theorem reconcile_spec {ne : Negentropy SealedVec} (ok : SideOk (sideOf ne))
    {ranges : List WireRange} (readable : Readable 0 ranges) :
    ne.reconcile (messageBytes ranges) = .ok ((sideOf ne).round ranges) := by
  obtain ⟨lastIn, loop, fits⟩ := reconcileLoop_spec ok ranges readable (a := Answer.start)
    (Nat.zero_le _) (by simp [Answer.start]) (le_refl (rangesBytes 0 ranges).length)
  have empty : (progressOf ((sideOf ne).answerRanges .start ranges) lastIn).full.length = 1 ↔
      ((sideOf ne).answerRanges .start ranges).out = [] := by
    rw [← messageLen_eq_one, ← length_messageBytes _ fits]
    rfl
  rw [messageBytes, Negentropy.reconcile, if_neg (by decide), if_neg (by decide)]
  rw [show Progress.start = progressOf Answer.start 0 from rfl, loop, Exec.ok_bind]
  simp only [empty, Side.round, Side.reply, show (sideOf ne).isInitiator = ne.isInitiator from rfl]
  split_ifs with done <;> rfl

theorem initiate_spec {ne : Negentropy SealedVec} (fresh : ne.isInitiator = false) :
    ne.initiate = .ok ({ ne with isInitiator := true }, messageBytes (sideOf ne).initiate) := by
  have split := splitRange_spec Bound.infinity (Nat.zero_le ne.store.items.length) le_rfl
    (sideOf ne) rfl {}
  rw [Negentropy.initiate, if_neg (by simp [fresh]),
    show NegentropyStore.len ne.store = ne.store.items.length from rfl, split]
  rfl

end Racnet.Proof.Negentropy
