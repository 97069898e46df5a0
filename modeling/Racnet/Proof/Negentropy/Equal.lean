import Racnet.Proof.Negentropy.Replies

/-!
# Equal sets

Two engines over the same items agree after one message each. Nothing is asked of the hash: what the
fingerprints are compared with are the fingerprints of the same runs of items.
-/

namespace Racnet.Proof.Negentropy
open Lib Store Sync

variable [Sha256]

/-! ## Matching fingerprints -/

theorem answerFingerprint_matches {ne : Negentropy SealedVec} (p : Progress) {lower upper : Nat}
    (bound : Bound) {fp : Fingerprint}
    (ours : NegentropyStore.fingerprint ne.store lower upper = some fp) (rest : List UInt8) :
    ne.answerFingerprint p lower upper bound (fp.bytes ++ rest) =
      .ok ({ p with skip := true }, upper, [], rest) := by
  rw [Negentropy.answerFingerprint, if_neg (fp.not_length_append_lt rest), ours, Exec.orPanic_some,
    Exec.ok_bind, fp.take_append, fp.drop_append, if_neg (by simp)]
  rfl

omit [Sha256] in
theorem not_overBudget {limit : Option Nat} (ok : LimitOk limit) {len : Nat} (short : len ≤ 3896) :
    ¬ overBudget limit len = true := by
  cases limit with
  | none => simp [overBudget]
  | some limit =>
    have floor : 4096 ≤ limit := ok limit rfl
    rw [overBudget, Option.any_some, decide_eq_true_eq, frameMargin]
    omega

section Matching
variable {ne : Negentropy SealedVec} (ok : LimitOk ne.frameLimit)
include ok

theorem reconcileRange_matches {p : Progress} {lo : Item}
    (reached : p.prevRank = rank ne.store.items lo) (last : p.codec.lastTsIn = lo.sortKey)
    (short : p.full.length = 1) {r : WireRange} (order : lo ≤ pos r)
    (same : Matches ne.store.items lo r) (rest : List UInt8) :
    ne.reconcileRange p (boundBytes lo.sortKey r.bound ++ payloadBytes r.payload ++ rest) =
      .ok (false, { p with
        codec := { p.codec with lastTsIn := r.bound.ts }
        prevRank := rank ne.store.items (pos r)
        prevBound := r.bound
        skip := true }, rest) := by
  have inside : p.prevRank ≤ ne.store.items.length := by
    rw [reached]
    exact rank_le_length _ _
  have upper : (sideOf ne).rankOf p.prevRank r.bound = rank ne.store.items (pos r) := by
    rw [reached]
    exact rankOf_rank (sideOf ne) order
  have later : p.codec.lastTsIn.toNat ≤ r.bound.ts.toNat := by
    rw [last]
    exact Item.sortKey_le_of_le order
  have ours : NegentropyStore.fingerprint ne.store p.prevRank (rank ne.store.items (pos r)) =
      some (SealedVec.fingerprintOf (between lo (pos r) ne.store.items)) := by
    rw [fingerprint_sealedVec (reached ▸ rank_mono _ order) (rank_le_length _ _) (sideOf ne) rfl,
      Side.rangeFingerprint, Side.slice, reached]
    exact congrArg _ (congrArg _ (slice_rank ne.store.sorted lo (pos r)))
  rw [Negentropy.reconcileRange, ← last, List.append_assoc, decode_boundBytes p.codec r.bound later,
    same, payloadBytes, List.append_assoc]
  simp only [Exec.ok_bind]
  rw [readVarint_writeVarint _ (by decide), Exec.ok_bind]
  simp only [lowerBound_sealedVec ne inside r.bound, upper, Exec.orPanic_some, Exec.ok_bind]
  rw [Negentropy.answer, if_neg (by decide), if_pos rfl, answerFingerprint_matches _ _ ours]
  simp only [Exec.ok_bind, exceedsLimit_eq ok, Exec.orPanic_some, List.length_nil, Nat.add_zero, short,
    List.append_nil]
  rw [if_neg (not_overBudget ok (by decide))]
  rfl

theorem reconcileLoop_matches (ranges : List WireRange) {lo : Item}
    (laid : Segments pos (Matches ne.store.items) lo ranges) {p : Progress}
    (reached : p.prevRank = rank ne.store.items lo) (last : p.codec.lastTsIn = lo.sortKey)
    (short : p.full.length = 1) {fuel : Nat}
    (enough : (rangesBytes lo.sortKey ranges).length ≤ fuel) :
    ∃ p', ne.reconcileLoop fuel p (rangesBytes lo.sortKey ranges) = .ok p' ∧
      p'.full = p.full ∧ p'.haveIds = p.haveIds ∧ p'.needIds = p.needIds := by
  induction ranges generalizing lo p fuel with
  | nil => exact ⟨p, by rw [rangesBytes, Negentropy.reconcileLoop], rfl, rfl, rfl⟩
  | cons r rs ih =>
    obtain ⟨order, same, later⟩ := laid
    have front := length_boundBytes lo.sortKey r.bound
    have positive := boundLen_pos lo.sortKey r.bound
    have unread := rangesBytes_ne_nil lo.sortKey r rs
    simp only [rangesBytes, List.length_append] at enough unread
    obtain ⟨fuel, rfl⟩ : ∃ k, fuel = k + 1 := ⟨fuel - 1, by omega⟩
    rw [rangesBytes, reconcileLoop_unread ne fuel p unread,
      reconcileRange_matches ok reached last short order same]
    exact ih (p := { p with
      codec := { p.codec with lastTsIn := r.bound.ts }
      prevRank := rank ne.store.items (pos r)
      prevBound := r.bound
      skip := true }) later rfl rfl short (show (rangesBytes r.bound.ts rs).length ≤ fuel by omega)

theorem reconcile_matches {ranges : List WireRange}
    (laid : Segments pos (Matches ne.store.items) bottom ranges) :
    ne.reconcile (messageBytes ranges) =
      .ok ⟨if ne.isInitiator then none else some [protocolVersion], [], []⟩ := by
  obtain ⟨p, ran, full, haves, needs⟩ := @reconcileLoop_matches _ _ ok ranges bottom laid .start
    (rank_bottom _).symm rfl rfl _ le_rfl
  rw [messageBytes, Negentropy.reconcile, if_neg (by decide), if_neg (by decide),
    show rangesBytes 0 ranges = rangesBytes bottom.sortKey ranges from rfl, ran, Exec.ok_bind, full,
    haves, needs]
  cases ne.isInitiator <;> rfl

end Matching

/-! ## Large sets -/

theorem reconcile_initiate_large {vec : SealedVec} (finite : ∀ item ∈ vec.items, item.sortKey ≠ tsInfinity)
    (large : ¬ vec.items.length < idListThreshold) {limit : Option Nat} (ok : LimitOk limit)
    (other : Option Nat) :
    Negentropy.reconcile ⟨vec, limit, false⟩ (messageBytes (sideOf ⟨vec, other, true⟩).initiate) =
      .ok ⟨some [protocolVersion], [], []⟩ := by
  have lower : rank vec.items bottom = 0 := rank_bottom _
  have upper : rank vec.items top = vec.items.length :=
    rank_eq_length fun item mem => lt_top (finite item mem)
  have laid := @buckets_segments (sideOf ⟨vec, other, true⟩) vec.sorted bottom top
    (by rwa [show (sideOf ⟨vec, other, true⟩).items = vec.items from rfl, lower, upper]) _
    Bound.infinity rfl
  rw [show (sideOf ⟨vec, other, true⟩).items = vec.items from rfl, lower, upper] at laid
  have first : (sideOf ⟨vec, other, true⟩).initiate = (List.range buckets).map
      ((sideOf ⟨vec, other, true⟩).bucketRange 0 vec.items.length Bound.infinity) :=
    if_neg (by rwa [Nat.sub_zero])
  rw [first]
  exact @reconcile_matches _ ⟨vec, limit, false⟩ ok _ laid

/-! ## Small sets -/

omit [Sha256] in
theorem listedCount_all {limit : Option Nat} (ok : LimitOk limit) {count : Nat}
    (small : count < idListThreshold) : listedCount limit 1 count = count := by
  cases limit with
  | none => rfl
  | some limit =>
    have floor : 4096 ≤ limit := ok limit rfl
    rw [idListThreshold, buckets] at small
    rw [listedCount, frameMargin, if_neg (by omega)]
    omega

omit [Sha256] in
theorem messageLen_list {ids : List EntryId} (small : ids.length < idListThreshold) :
    messageLen [⟨Bound.infinity, .idList ids⟩] ≤ 3896 := by
  rw [idListThreshold, buckets] at small
  have digits := @varintLen_le ids.length 1 (by decide) (by omega)
  have bound : boundLen 0 Bound.infinity = 2 := rfl
  rw [messageLen, rangesLen, rangesLen, payloadLen, bound]
  omega

section Small
variable {side : Side} (ok : SideOk side)
include ok

omit [Sha256] in
theorem rankOf_infinity : side.rankOf 0 Bound.infinity = side.items.length := by
  rw [← rank_bottom side.items, rankOf_rank side bottom_lt_top.le]
  exact ok.rank_top

omit [Sha256] ok in
theorem slice_all : side.slice 0 side.items.length = side.items := by
  rw [Side.slice, List.take_length, List.drop_zero]

theorem round_answer (small : side.items.length < idListThreshold)
    (responder : side.isInitiator = false) (ids : List EntryId) :
    side.round [⟨Bound.infinity, .idList ids⟩] =
      ⟨some (messageBytes [⟨Bound.infinity, .idList (side.items.map Item.id)⟩]), [], []⟩ := by
  have all : listedCount side.limit (messageLen []) (side.items.length - 0) = side.items.length - 0 :=
    listedCount_all ok.limit small
  have listed : side.listRange (messageLen []) 0 side.items.length Bound.infinity =
      (⟨Bound.infinity, .idList (side.items.map Item.id)⟩, side.items.length) := by
    rw [Side.listRange, if_pos all, all, Nat.sub_zero, Nat.zero_add, slice_all]
  have answered : side.answerRange .start ⟨Bound.infinity, .idList ids⟩ =
      ({ Answer.start with out := [⟨Bound.infinity, .idList (side.items.map Item.id)⟩] },
        side.items.length, []) := by
    simp only [Side.answerRange, Answer.start, rankOf_infinity ok, responder, Bool.false_eq_true,
      if_false, listed]
    rfl
  have room := not_overBudget ok.limit (messageLen_list
    (show (side.items.map Item.id).length < idListThreshold by rwa [List.length_map]))
  rw [Side.round, answerRanges_of_room answered [] room, Side.reply]
  exact congrArg (fun reply => (⟨reply, [], []⟩ : Round))
    (by rw [if_neg (by simp [responder])]; rfl)

theorem round_cancel (initiator : side.isInitiator = true) :
    side.round [⟨Bound.infinity, .idList (side.items.map Item.id)⟩] = ⟨none, [], []⟩ := by
  have nothing : (side.items.map Item.id).filter
      (fun id => decide (id ∉ side.items.map Item.id)) = [] := by
    rw [List.filter_eq_nil_iff]
    intro id mem
    simpa using mem
  have answered : side.answerRange .start ⟨Bound.infinity, .idList (side.items.map Item.id)⟩ =
      ({ Answer.start with skip := true }, side.items.length, []) := by
    simp only [Side.answerRange, Answer.start, rankOf_infinity ok, initiator, if_true, slice_all,
      nothing, List.append_nil]
  have room : ¬ overBudget side.limit (messageLen ([] ++ [])) = true :=
    not_overBudget ok.limit (by decide)
  rw [Side.round, answerRanges_of_room answered [] room, Side.reply]
  exact congrArg (fun reply => (⟨reply, [], []⟩ : Round))
    (by rw [if_pos ⟨initiator, rfl⟩]; rfl)

end Small

theorem equal_small {items : Vec Item} {limitA limitB : Option Nat}
    (ok : PairOk (initiatorSide items limitA) (responderSide items limitB))
    (small : (SealedVec.new items).items.length < idListThreshold) :
    ∃ reply, Negentropy.reconcile ⟨SealedVec.new items, limitB, false⟩
        (messageBytes (initiatorSide items limitA).initiate) = .ok ⟨some reply, [], []⟩ ∧
      Negentropy.reconcile ⟨SealedVec.new items, limitA, true⟩ reply = .ok ⟨none, [], []⟩ := by
  have first : (initiatorSide items limitA).initiate =
      [⟨Bound.infinity, .idList ((SealedVec.new items).items.map Item.id)⟩] := by
    have listed : (initiatorSide items limitA).items.length - 0 < idListThreshold := small
    rw [Side.initiate, Side.splitRanges, if_pos listed, slice_all]
    rfl
  have readable : Readable 0 [⟨Bound.infinity, .idList ((SealedVec.new items).items.map Item.id)⟩] := by
    have listed := ok.ours.slice_readable 0 (initiatorSide items limitA).items.length
    rw [slice_all] at listed
    exact ⟨Nat.zero_le _, listed, trivial⟩
  refine ⟨messageBytes [⟨Bound.infinity, .idList ((SealedVec.new items).items.map Item.id)⟩], ?_, ?_⟩
  · rw [first, @reconcile_spec _ ⟨SealedVec.new items, limitB, false⟩ ok.theirs _ readable]
    exact congrArg _ (round_answer ok.theirs small rfl _)
  · rw [@reconcile_spec _ ⟨SealedVec.new items, limitA, true⟩ ok.ours _ readable]
    exact congrArg _ (round_cancel ok.ours rfl)

/-! ## One round trip -/

omit [Sha256] in
theorem SealedVec.new_congr {ours theirs : Vec Item} (same : ∀ x, x ∈ ours.toList ↔ x ∈ theirs.toList) :
    SealedVec.new ours = SealedVec.new theirs := by
  have items : (SealedVec.new ours).items = (SealedVec.new theirs).items :=
    (SealedVec.new ours).sorted.eq_of_mem_iff (SealedVec.new theirs).sorted fun x => by
      rw [SealedVec.mem_new, SealedVec.mem_new, same]
  rwa [SealedVec.mk.injEq]

/-- Both sides hold the same items. The responder answers the first message, and with that answer
the initiator is done and reports no difference. Ids that repeat under other sort keys would be
reported by a set so small that its ids are listed. -/
theorem equal_sets_finish {ours theirs : Vec Item} {limitA limitB : Option Nat}
    (same : ∀ x, x ∈ ours.toList ↔ x ∈ theirs.toList)
    (finite : ∀ item ∈ ours.toList, item.sortKey ≠ tsInfinity)
    (distinct : (∀ x ∈ ours.toList, ∀ y ∈ ours.toList, x.id = y.id → x.sortKey = y.sortKey) ∨
      32 ≤ (SealedVec.new ours).items.length)
    (okA : LimitOk limitA) (okB : LimitOk limitB) :
    ∃ x, (Exchange.start ours theirs limitA limitB >>= Exchange.run 1) = .ok x ∧
      x.message = none ∧ x.rounds = [⟨none, [], []⟩] := by
  have finite' : ∀ item ∈ (SealedVec.new ours).items, item.sortKey ≠ tsInfinity :=
    fun item mem => finite item (SealedVec.mem_new.mp mem)
  obtain ⟨reply, there, back⟩ : ∃ reply,
      Negentropy.reconcile ⟨SealedVec.new ours, limitB, false⟩
        (messageBytes (initiatorSide ours limitA).initiate) = .ok ⟨some reply, [], []⟩ ∧
      Negentropy.reconcile ⟨SealedVec.new ours, limitA, true⟩ reply = .ok ⟨none, [], []⟩ := by
    by_cases large : (SealedVec.new ours).items.length < idListThreshold
    · have sets : Reconcilable ours ours := by
        have determined := distinct.resolve_right (Nat.not_le.mpr large)
        constructor
        · simpa only [List.mem_append, or_self] using finite
        · simpa only [List.mem_append, or_self] using determined
      have ok := Reconcilable.pairOk sets okA okB
      exact equal_small ok large
    · exact ⟨_, reconcile_initiate_large finite' large okB limitA,
        @reconcile_matches _ ⟨SealedVec.new ours, limitA, true⟩ okA [] trivial⟩
  refine ⟨{ initiator := ⟨SealedVec.new ours, limitA, true⟩
            responder := ⟨SealedVec.new ours, limitB, false⟩
            message := none
            rounds := [⟨none, [], []⟩] }, ?_, rfl, rfl⟩
  rw [start_eq ours theirs okA okB, ← SealedVec.new_congr same]
  simp only [Exec.ok_bind, Exchange.run, Exchange.step, there, Exec.orPanic_some, back,
    List.nil_append]
  rfl

omit [Sha256] in
theorem equal_sets_finish_reversed :
    ∃ theirs : Vec Item, theirs.toList = fortyItems.toList.reverse ∧
      ∃ x, (@Exchange.start tailDigest fortyItems theirs (some 4096) none >>=
        @Exchange.run tailDigest 1) = .ok x ∧ x.message = none ∧ x.rounds = [⟨none, [], []⟩] := by
  refine ⟨⟨fortyItems.toList.reverse, List.length_reverse.trans_lt fortyItems.length_lt⟩, rfl, ?_⟩
  refine @equal_sets_finish tailDigest fortyItems _ (some 4096) none (fun x => List.mem_reverse.symm) ?_
    (Or.inr ?_) (by simp [LimitOk, frameLimitFloor]) (by simp [LimitOk])
  · intro item mem
    obtain ⟨i, -, rfl⟩ := List.mem_map.mp mem
    exact (by decide : (0 : UInt64) ≠ tsInfinity)
  · rw [sealed_of_sorted (sorted_allOf (by decide))]
    decide

omit [Sha256] in
def loneItem : Item := ⟨0, ⟨List.replicate 31 0 ++ [1], rfl⟩⟩

omit [Sha256] in
def twinVec : Vec Item := ⟨[loneItem, { loneItem with sortKey := 1 }], by decide⟩

omit [Sha256] in
/-- Both sides hold the two items, and the initiator still reports that the responder lacks one: the
peer's list names the id once, and the second item under it finds it taken. -/
theorem twin_ids_reported :
    (∀ item ∈ twinVec.toList, item.sortKey ≠ tsInfinity) ∧
      ∃ x, (@Exchange.start tailDigest twinVec twinVec none none >>=
        @Exchange.run tailDigest 1) = .ok x ∧ x.rounds = [⟨none, [loneItem.id], []⟩] := by
  refine ⟨by decide, ?_⟩
  have ran : ((@Exchange.start tailDigest twinVec twinVec none none >>=
      @Exchange.run tailDigest 1).map fun x => x.rounds) = .ok [⟨none, [loneItem.id], []⟩] := by
    decide +kernel
  cases outcome : (@Exchange.start tailDigest twinVec twinVec none none >>= @Exchange.run tailDigest 1) with
  | error trap =>
    rw [outcome] at ran
    exact absurd ran (by simp [Except.map])
  | ok x =>
    rw [outcome] at ran
    exact ⟨x, rfl, Except.ok.inj ran⟩

end Racnet.Proof.Negentropy
