import Racnet.Proof.Negentropy.Termination

/-!
# The engine on arbitrary bytes

Whatever the message, the engine does not panic. An engine that did not open the exchange reports no
differences and always replies; a reply stays within the frame limit and encodes a list of ranges.
-/

namespace Racnet.Proof.Negentropy
open Lib Store Sync

/-! ## Parsing -/

theorem readVarintLoop_safe (res : Nat) (input : List UInt8) :
    Exec.Safe (fun out => out.2.length < input.length) (readVarintLoop res input) := by
  induction input generalizing res with
  | nil => exact Exec.safe_fail _
  | cons byte rest ih =>
    rw [readVarintLoop]
    split_ifs
    · exact Exec.safe_fail _
    · exact Nat.lt_succ_self _
    · exact (ih _).mono fun out shorter => Nat.lt_succ_of_lt shorter

theorem readVarint_safe (input : List UInt8) :
    Exec.Safe (fun out => out.2.length < input.length) (readVarint input) :=
  readVarintLoop_safe 0 input

theorem decode_safe (codec : BoundCodec) (input : List UInt8) :
    Exec.Safe (fun out => out.1.lastTsOut = codec.lastTsOut ∧ out.2.2.length < input.length)
      (codec.decode input) := by
  rw [BoundCodec.decode]
  refine (readVarint_safe input).bind fun first shorter => ?_
  refine (readVarint_safe first.2).bind fun second shorter' => ?_
  dsimp only
  by_cases long : second.1 > idSize
  · rw [if_pos long]
    exact Exec.safe_fail _
  by_cases short : second.2.length < second.1
  · rw [if_neg long, if_pos short]
    exact Exec.safe_fail _
  · have fits : (second.2.take second.1).length ≤ idSize :=
      le_trans (List.length_take_le _ _) (Nat.not_lt.mp long)
    rw [if_neg long, if_neg short, Bound.new, dif_pos fits]
    simp only [Exec.orPanic_some, Exec.ok_bind, Exec.safe_pure, List.length_drop, true_and]
    omega

theorem readIds_of_le {count : Nat} {cursor : List UInt8} (enough : count * idSize ≤ cursor.length)
    (seen : List EntryId) :
    ∃ ids rest, readIds count cursor seen = some (ids, rest) ∧ rest.length ≤ cursor.length := by
  induction count generalizing cursor seen with
  | zero => exact ⟨seen, cursor, rfl, le_rfl⟩
  | succ count ih =>
    rw [Nat.succ_mul] at enough
    have fits : idSize ≤ cursor.length := le_trans (Nat.le_add_left _ _) enough
    rw [readIds, dif_pos fits]
    obtain ⟨ids, rest, ran, shorter⟩ := @ih (cursor.drop idSize)
      (by rw [List.length_drop]; omega)
      (if (⟨cursor.take idSize, List.length_take_of_le fits⟩ : EntryId) ∈ seen then seen
        else seen ++ [⟨cursor.take idSize, List.length_take_of_le fits⟩])
    rw [List.length_drop] at shorter
    exact ⟨ids, rest, ran, by omega⟩

/-! ## Errors -/

section Errors
variable {S : Type} [NegentropyStore S] {P : SyncError → Prop}
  (malformed : ∀ reason, P (.malformed reason)) (version : ∀ version, P (.unsupportedVersion version))
include malformed

theorem readVarintLoop_reports (res : Nat) (input : List UInt8) :
    Exec.Reports P (readVarintLoop res input) := by
  induction input generalizing res with
  | nil => exact Exec.reports_fail.mpr (malformed _)
  | cons byte rest ih =>
    rw [readVarintLoop]
    split_ifs
    · exact Exec.reports_fail.mpr (malformed _)
    · exact Exec.reports_ok _
    · exact ih _

theorem decode_reports (codec : BoundCodec) (input : List UInt8) :
    Exec.Reports P (codec.decode input) := by
  rw [BoundCodec.decode]
  refine (readVarintLoop_reports malformed 0 input).bind fun first => ?_
  refine (readVarintLoop_reports malformed 0 first.2).bind fun second => ?_
  dsimp only
  split_ifs
  · exact Exec.reports_fail.mpr (malformed _)
  · exact Exec.reports_fail.mpr (malformed _)
  · exact (Exec.reports_orPanic _).bind fun _ => Exec.reports_pure _
  · exact (Exec.reports_orPanic _).bind fun _ => Exec.reports_pure _

theorem answer_reports (ne : Negentropy S) (p : Progress) (lower upper : Nat) (bound : Bound)
    (mode : Nat) (cursor : List UInt8) :
    Exec.Reports P (ne.answer p lower upper bound mode cursor) := by
  rw [Negentropy.answer]
  split_ifs
  · exact Exec.reports_ok _
  · rw [Negentropy.answerFingerprint]
    split_ifs
    · exact Exec.reports_fail.mpr (malformed _)
    · refine (Exec.reports_orPanic _).bind fun ours => ?_
      split_ifs
      · exact (Exec.reports_orPanic _).bind fun _ => Exec.reports_pure _
      · exact Exec.reports_pure _
  · rw [Negentropy.answerIdList]
    refine (readVarintLoop_reports malformed 0 cursor).bind fun first => ?_
    dsimp only
    split_ifs
    · exact Exec.reports_fail.mpr (malformed _)
    · refine (Exec.reports_orPanic _).bind fun _ => ?_
      exact (Exec.reports_orPanic _).bind fun _ => Exec.reports_pure _
    · refine (Exec.reports_orPanic _).bind fun _ => ?_
      exact (Exec.reports_orPanic _).bind fun _ => Exec.reports_pure _
  · exact Exec.reports_fail.mpr (malformed _)

theorem reconcileRange_reports (ne : Negentropy S) (p : Progress) (cursor : List UInt8) :
    Exec.Reports P (ne.reconcileRange p cursor) := by
  rw [Negentropy.reconcileRange]
  refine (decode_reports malformed p.codec cursor).bind fun decoded => ?_
  refine (readVarintLoop_reports malformed 0 decoded.2.2).bind fun mode => ?_
  refine (Exec.reports_orPanic _).bind fun upper => ?_
  refine (answer_reports malformed ne _ _ _ _ _ _).bind fun answered => ?_
  refine (Exec.reports_orPanic _).bind fun exceeds => ?_
  split_ifs
  · exact (Exec.reports_orPanic _).bind fun _ => Exec.reports_pure _
  · exact Exec.reports_pure _

theorem reconcileLoop_reports (ne : Negentropy S) (fuel : Nat) (p : Progress)
    (cursor : List UInt8) : Exec.Reports P (ne.reconcileLoop fuel p cursor) := by
  induction fuel generalizing p cursor with
  | zero =>
    cases cursor with
    | nil => exact Exec.reports_ok _
    | cons byte rest => rintro error ⟨⟩
  | succ fuel ih =>
    cases cursor with
    | nil => exact Exec.reports_ok _
    | cons byte rest =>
      rw [reconcileLoop_unread ne fuel p (List.cons_ne_nil byte rest)]
      refine (reconcileRange_reports malformed ne p (byte :: rest)).bind fun range => ?_
      dsimp only
      split_ifs
      · exact Exec.reports_pure _
      · exact ih _ _

include version in
theorem reconcile_reports (ne : Negentropy S) (msg : List UInt8) :
    Exec.Reports P (ne.reconcile msg) := by
  cases msg with
  | nil => exact Exec.reports_fail.mpr (malformed _)
  | cons byte cursor =>
    rw [Negentropy.reconcile]
    split_ifs
    · exact Exec.reports_fail.mpr (version _)
    · exact Exec.reports_ok _
    · exact (reconcileLoop_reports malformed ne _ _ _).bind fun _ => Exec.reports_pure _
    · exact Exec.reports_fail.mpr (malformed _)

end Errors

/-! ## One range -/

theorem length_skipped_le (skip : Bool) (bound : Bound) (codec : BoundCodec) :
    (rangesBytes codec.lastTsOut (skipped skip bound)).length ≤ 44 := by
  cases skip with
  | false => exact Nat.zero_le _
  | true =>
    have := boundLen_le codec.lastTsOut bound
    have mode : (writeVarint modeSkip).length = 1 := rfl
    simp only [skipped, if_true, rangesBytes, payloadBytes, List.append_nil, List.length_append,
      length_boundBytes, mode]
    omega

theorem skipped_fits (skip : Bool) (bound : Bound) :
    ∀ r ∈ skipped skip bound, Payload.Fits r.payload := by
  cases skip with
  | false => simp [skipped]
  | true => simp [skipped, Payload.Fits]

theorem visit_compareIds_some (rank : Nat) (items : List Item) (state : List EntryId × List EntryId) :
    ∃ out, visitFrom Negentropy.compareIds rank items state = some out := by
  induction items generalizing rank state with
  | nil => exact ⟨state, rfl⟩
  | cons item items ih =>
    obtain ⟨theirs, had⟩ := state
    rw [visitFrom, Negentropy.compareIds]
    dsimp only
    split_ifs
    · exact ih (rank + 1) _
    · exact ih (rank + 1) _

theorem listedCount_bytes_le {limit : Nat} (fullLen count : Nat) (inside : fullLen ≤ limit - frameMargin) :
    fullLen + 32 * listedCount (some limit) fullLen count ≤ limit - frameMargin + 32 := by
  rw [listedCount, if_neg (by omega)]
  have := Nat.min_le_right count ((limit - frameMargin - fullLen) / 32 + 1)
  omega

theorem listing_ids (limit : Option Nat) (fullLen rank upper : Nat) (items : List Item)
    (bound : Bound) :
    ∃ ids : List EntryId,
      (listing limit fullLen rank items ⟨bound, upper, [], 0⟩).responseIds =
        ids.flatMap FixedBytes.bytes ∧
      (listing limit fullLen rank items ⟨bound, upper, [], 0⟩).numResponse = ids.length := by
  have le := listedCount_le limit fullLen items.length
  refine ⟨(items.take (listedCount limit fullLen items.length)).map Item.id, ?_, ?_⟩
  · simp only [listing, List.length_nil, Nat.add_zero, List.nil_append]
  · simp only [listing, List.length_nil, Nat.add_zero, Nat.zero_add, List.length_map,
      List.length_take, Nat.min_eq_left le]

theorem length_responseIds (limit : Option Nat) (fullLen rank upper : Nat) (items : List Item)
    (bound : Bound) :
    (listing limit fullLen rank items ⟨bound, upper, [], 0⟩).responseIds.length =
      32 * listedCount limit fullLen items.length := by
  have le := listedCount_le limit fullLen items.length
  simp only [listing, List.length_nil, Nat.add_zero, List.nil_append, length_flatMap_bytes,
    List.length_map, List.length_take, Nat.min_eq_left le]

theorem length_listed_le {full flushed : List UInt8} {limit : Nat} (flush : flushed.length ≤ 44)
    {r : Negentropy.Response} (ids : r.responseIds.length = 32 * r.numResponse)
    (few : r.numResponse < 2 ^ 64)
    (within : full.length + 32 * r.numResponse ≤ limit - frameMargin + 32) (last : UInt64) :
    (full ++ (flushed ++ (boundBytes last r.endBound ++ writeVarint modeIdList ++
      writeVarint r.numResponse ++ r.responseIds))).length ≤ limit - frameMargin + 130 := by
  have digits : varintLen r.numResponse ≤ 10 := varintLen_le (by omega) (by omega)
  have bound := boundLen_le last r.endBound
  have mode : (writeVarint modeIdList).length = 1 := rfl
  simp only [List.length_append, length_boundBytes, mode, ids, length_writeVarint few]
  omega

theorem listing_upper_le {limit : Option Nat} {fullLen rank upper : Nat} {items : List Item}
    (count : rank + items.length = upper) (bound : Bound) :
    (listing limit fullLen rank items ⟨bound, upper, [], 0⟩).upper ≤ upper := by
  have le := listedCount_le limit fullLen items.length
  simp only [listing, List.length_nil, Nat.add_zero]
  split_ifs <;> omega

/-! ## The output -/

/-- The bytes are the wire form of some ranges, whose bounds may be out of order. -/
def Sendable (bytes : List UInt8) : Prop :=
  ∃ ranges, bytes = messageBytes ranges ∧ ∀ r ∈ ranges, Payload.Fits r.payload

/-- The bytes are sendable, and `last` is where a further range would continue. -/
def Continues (bytes : List UInt8) (last : UInt64) : Prop :=
  ∃ ranges, bytes = messageBytes ranges ∧ last = lastTs 0 ranges ∧ ∀ r ∈ ranges, Payload.Fits r.payload

theorem Continues.sendable {bytes : List UInt8} {last : UInt64} (continues : Continues bytes last) :
    Sendable bytes := by
  obtain ⟨ranges, wire, -, fits⟩ := continues
  exact ⟨ranges, wire, fits⟩

theorem Continues.append {bytes : List UInt8} {last : UInt64} (continues : Continues bytes last)
    {more : List WireRange} (fits : ∀ r ∈ more, Payload.Fits r.payload) :
    Continues (bytes ++ rangesBytes last more) (lastTs last more) := by
  obtain ⟨ranges, rfl, rfl, fits'⟩ := continues
  refine ⟨ranges ++ more, (messageBytes_append ranges more).symm, (lastTs_append 0 ranges more).symm, ?_⟩
  simpa only [List.forall_mem_append] using ⟨fits', fits⟩

theorem Sendable.append_infinity {bytes : List UInt8} (sendable : Sendable bytes) (last : UInt64)
    (fp : Fingerprint) :
    Sendable (bytes ++ (boundBytes last Bound.infinity ++ writeVarint modeFingerprint ++ fp.bytes)) := by
  obtain ⟨ranges, rfl, fits⟩ := sendable
  refine ⟨ranges ++ [⟨Bound.infinity, .fingerprint fp⟩], ?_, ?_⟩
  · rw [messageBytes_append, rangesBytes, rangesBytes, List.append_nil, payloadBytes,
      List.append_assoc]
    rfl
  · simpa only [List.forall_mem_append, List.forall_mem_singleton] using ⟨fits, trivial⟩

theorem Continues.append_list {bytes : List UInt8} {last : UInt64} (continues : Continues bytes last)
    {r : Negentropy.Response} {ids : List EntryId} (listed : r.responseIds = ids.flatMap FixedBytes.bytes)
    (number : r.numResponse = ids.length) (few : r.numResponse < 2 ^ 64) :
    Continues (bytes ++ (boundBytes last r.endBound ++ writeVarint modeIdList ++
      writeVarint r.numResponse ++ r.responseIds)) r.endBound.ts := by
  have fits : Payload.Fits (.idList ids) := show ids.length < 2 ^ 64 from number ▸ few
  have appended := @Continues.append _ _ continues [⟨r.endBound, .idList ids⟩] (by simpa using fits)
  rw [show lastTs last [⟨r.endBound, .idList ids⟩] = r.endBound.ts from rfl] at appended
  simpa only [rangesBytes, payloadBytes, List.append_nil, List.append_assoc, listed, number]
    using appended

/-! ## One range, answered -/

variable [Sha256]

/-- What holds of the progress before a range is read. -/
structure Bounded (ne : Negentropy SealedVec) (p : Progress) : Prop where
  inside : p.prevRank ≤ ne.store.items.length
  silent : ne.isInitiator = false → p.haveIds = [] ∧ p.needIds = []
  small : ∀ limit ∈ ne.frameLimit, p.full.length ≤ limit - frameMargin
  written : Continues p.full p.codec.lastTsOut

/-- What holds after it was answered: the list of a responder may pass the budget by one id. -/
structure Answered (ne : Negentropy SealedVec) (cursor : List UInt8)
    (out : Progress × Nat × List UInt8 × List UInt8) : Prop where
  inside : out.2.1 ≤ ne.store.items.length
  silent : ne.isInitiator = false → out.1.haveIds = [] ∧ out.1.needIds = []
  small : ∀ limit ∈ ne.frameLimit, out.1.full.length ≤ limit - frameMargin + 130
  sendable : Sendable out.1.full
  written : Continues (out.1.full ++ out.2.2.1) out.1.codec.lastTsOut
  shorter : out.2.2.2.length ≤ cursor.length

omit [Sha256] in
theorem Bounded.unanswered {ne : Negentropy SealedVec} {p p' : Progress} (bounded : Bounded ne p)
    (full : p'.full = p.full) (codec : p'.codec = p.codec)
    (silent : ne.isInitiator = false → p'.haveIds = [] ∧ p'.needIds = []) {upper : Nat}
    (inside : upper ≤ ne.store.items.length) {cursor rest : List UInt8}
    (shorter : rest.length ≤ cursor.length) : Answered ne cursor (p', upper, [], rest) where
  inside := inside
  silent := silent
  small limit mem := by
    rw [full]
    exact le_trans (bounded.small limit mem) (Nat.le_add_right _ _)
  sendable := by
    rw [full]
    exact bounded.written.sendable
  written := by
    rw [List.append_nil, full, codec]
    exact bounded.written
  shorter := shorter

theorem splitRanges_fits (side : Side) (lower upper : Nat) (bound : Bound) :
    ∀ r ∈ side.splitRanges lower upper bound, Payload.Fits r.payload := by
  intro r mem
  rw [Side.splitRanges] at mem
  split_ifs at mem with small
  · rw [List.mem_singleton] at mem
    subst mem
    have count : (side.slice lower upper).length ≤ upper - lower := by
      rw [Side.slice, List.length_drop, List.length_take]
      omega
    simp only [idListThreshold, buckets] at small
    change ((side.slice lower upper).map Item.id).length < 2 ^ 64
    rw [List.length_map]
    omega
  · obtain ⟨i, -, rfl⟩ := List.mem_map.mp mem
    trivial

section Step
variable {ne : Negentropy SealedVec} {p : Progress} (bounded : Bounded ne p) {upper : Nat}
  (order : p.prevRank ≤ upper) (inside : upper ≤ ne.store.items.length)
include bounded order inside

theorem answerFingerprint_safe (bound : Bound) (cursor : List UInt8) :
    Exec.Safe (Answered ne cursor) (ne.answerFingerprint p p.prevRank upper bound cursor) := by
  rw [Negentropy.answerFingerprint]
  split_ifs with short
  · exact Exec.safe_fail _
  · have unread : (cursor.drop fingerprintSize).length ≤ cursor.length := by
      rw [List.length_drop]
      omega
    rw [fingerprint_sealedVec order inside (sideOf ne) rfl]
    simp only [Exec.orPanic_some, Exec.ok_bind]
    split_ifs
    · rw [flushSkip_eq]
      dsimp only
      rw [splitRange_spec bound order inside (sideOf ne) rfl]
      simp only [Exec.orPanic_some, Exec.ok_bind, Exec.safe_pure]
      have flushed := bounded.written.append (skipped_fits p.skip p.prevBound)
      have written := flushed.append (splitRanges_fits (sideOf ne) p.prevRank upper bound)
      refine ⟨inside, bounded.silent, fun limit mem => ?_, bounded.written.sendable, ?_, unread⟩
      · exact le_trans (bounded.small limit mem) (Nat.le_add_right _ _)
      · rw [List.append_assoc] at written
        exact written
    · rw [Exec.safe_pure]
      exact bounded.unanswered (by rfl) (by rfl) (by exact bounded.silent) inside unread

theorem answerIdList_safe (ok : LimitOk ne.frameLimit) (bound : Bound) (cursor : List UInt8) :
    Exec.Safe (Answered ne cursor) (ne.answerIdList p p.prevRank upper bound cursor) := by
  rw [Negentropy.answerIdList]
  refine (readVarint_safe cursor).bind fun first shorter => ?_
  dsimp only
  by_cases long : first.1 > first.2.length / idSize
  · rw [if_pos long]
    exact Exec.safe_fail _
  have enough : first.1 * idSize ≤ first.2.length :=
    le_trans (Nat.mul_le_mul_right _ (Nat.not_lt.mp long)) (Nat.div_mul_le_self _ _)
  obtain ⟨theirOrder, rest, read, shorter'⟩ := readIds_of_le enough []
  have unread : rest.length ≤ cursor.length := by omega
  rw [if_neg long, read]
  simp only [Exec.orPanic_some, Exec.ok_bind]
  by_cases role : ne.isInitiator = true
  · rw [if_pos role, forEach_sealedVec ne order inside]
    obtain ⟨⟨theirs, had⟩, walked⟩ :=
      visit_compareIds_some p.prevRank ((sideOf ne).slice p.prevRank upper) (theirOrder, p.haveIds)
    rw [walked]
    simp only [Exec.orPanic_some, Exec.ok_bind, Exec.safe_pure]
    exact bounded.unanswered (by rfl) (by rfl) (fun responder => absurd role (by simp [responder]))
      inside unread
  · rw [if_neg role, forEach_sealedVec ne order inside, visit_listId ok, flushSkip_eq]
    simp only [Exec.orPanic_some, Exec.ok_bind, Exec.safe_pure]
    have count : ((sideOf ne).slice p.prevRank upper).length = upper - p.prevRank :=
      length_slice inside
    have most := listedCount_le ne.frameLimit p.full.length (upper - p.prevRank)
    have stored := ne.store.length_lt
    have total : (listing ne.frameLimit p.full.length p.prevRank
        ((sideOf ne).slice p.prevRank upper) ⟨bound, upper, [], 0⟩).numResponse =
          listedCount ne.frameLimit p.full.length (upper - p.prevRank) := by
      simp only [listing, List.length_nil, Nat.add_zero, Nat.zero_add, count]
    obtain ⟨ids, listed, number⟩ := listing_ids ne.frameLimit p.full.length p.prevRank upper
      ((sideOf ne).slice p.prevRank upper) bound
    have written := (bounded.written.append (skipped_fits p.skip p.prevBound)).append_list listed number
      (by rw [total]; omega)
    rw [List.append_assoc] at written
    rw [encode_eq]
    refine ⟨le_trans (listing_upper_le (by omega) bound) inside, bounded.silent,
      fun limit mem => ?_, ?_, ?_, unread⟩
    · have within := bounded.small limit mem
      rw [Option.mem_def] at mem
      refine length_listed_le (length_skipped_le p.skip p.prevBound p.codec) ?_ ?_ ?_ _
      · rw [length_responseIds, total, count]
      · rw [total]
        omega
      · rw [total, mem]
        exact listedCount_bytes_le p.full.length (upper - p.prevRank) within
    · exact written.sendable
    · rw [List.append_nil]
      exact written

theorem answer_safe (ok : LimitOk ne.frameLimit) (bound : Bound) (mode : Nat)
    (cursor : List UInt8) :
    Exec.Safe (Answered ne cursor) (ne.answer p p.prevRank upper bound mode cursor) := by
  rw [Negentropy.answer]
  split_ifs
  · rw [Exec.safe_ok]
    exact bounded.unanswered (by rfl) (by rfl) (by exact bounded.silent) inside le_rfl
  · exact answerFingerprint_safe bounded order inside bound cursor
  · exact answerIdList_safe bounded order inside ok bound cursor
  · exact Exec.safe_fail _

end Step

/-! ## A whole message -/

/-- What holds once the last range was answered. -/
structure Finished (ne : Negentropy SealedVec) (p : Progress) : Prop where
  silent : ne.isInitiator = false → p.haveIds = [] ∧ p.needIds = []
  small : ∀ limit ∈ ne.frameLimit, p.full.length ≤ limit
  sendable : Sendable p.full

omit [Sha256] in
theorem Bounded.finished {ne : Negentropy SealedVec} {p : Progress} (bounded : Bounded ne p) :
    Finished ne p :=
  ⟨bounded.silent, fun limit mem => le_trans (bounded.small limit mem) (Nat.sub_le _ _),
    bounded.written.sendable⟩

theorem reconcileRange_safe {ne : Negentropy SealedVec} (ok : LimitOk ne.frameLimit) {p : Progress}
    (bounded : Bounded ne p) (cursor : List UInt8) :
    Exec.Safe (fun (stop, p', rest) => rest.length < cursor.length ∧
      (if stop then Finished ne p' else Bounded ne p')) (ne.reconcileRange p cursor) := by
  rw [Negentropy.reconcileRange]
  refine (decode_safe p.codec cursor).bind ?_
  rintro decoded ⟨sameOut, shorter⟩
  refine (readVarint_safe decoded.2.2).bind fun mode shorter' => ?_
  rw [lowerBound_sealedVec ne bounded.inside]
  simp only [Exec.orPanic_some, Exec.ok_bind]
  have renewed : Bounded ne { p with codec := decoded.1 } := ⟨bounded.inside, bounded.silent,
    bounded.small, by rw [sameOut]; exact bounded.written⟩
  refine (answer_safe renewed (le_rankOf _ _ _) (rankOf_le bounded.inside _) ok _ _ _).bind ?_
  rintro ⟨p', upper, out, rest⟩ ⟨inside, silent, small, sendable, written, unread⟩
  dsimp only at inside silent small sendable written unread ⊢
  rw [exceedsLimit_eq ok]
  simp only [Exec.orPanic_some, Exec.ok_bind]
  by_cases exceeded : overBudget ne.frameLimit (p'.full.length + out.length) = true
  · have remaining : NegentropyStore.fingerprint ne.store upper (NegentropyStore.len ne.store) =
        some ((sideOf ne).rangeFingerprint upper ne.store.items.length) :=
      fingerprint_sealedVec inside (le_refl _) (sideOf ne) rfl
    rw [if_pos exceeded, remaining]
    simp only [Exec.orPanic_some, Exec.ok_bind, Exec.safe_pure, if_true]
    rw [encode_eq]
    refine ⟨by omega, silent, fun limit mem => ?_, sendable.append_infinity p'.codec.lastTsOut _⟩
    have floor := ok limit mem
    have full := small limit mem
    have last : (boundBytes p'.codec.lastTsOut Bound.infinity).length = 2 := rfl
    have mode : (writeVarint modeFingerprint).length = 1 := rfl
    simp only [List.length_append, last, mode, FixedBytes.length_eq, fingerprintSize]
    simp only [frameLimitFloor, frameMargin] at floor full
    omega
  · rw [if_neg exceeded]
    simp only [Exec.safe_pure, Bool.false_eq_true, if_false]
    refine ⟨by omega, inside, silent, fun limit mem => ?_, written⟩
    rw [Option.mem_def] at mem
    rw [mem, overBudget, Option.any_some, decide_eq_true_eq] at exceeded
    rw [List.length_append]
    omega

theorem reconcileLoop_safe {ne : Negentropy SealedVec} (ok : LimitOk ne.frameLimit) (fuel : Nat)
    {p : Progress} (bounded : Bounded ne p) {cursor : List UInt8} (enough : cursor.length ≤ fuel) :
    Exec.Safe (Finished ne) (ne.reconcileLoop fuel p cursor) := by
  induction fuel generalizing p cursor with
  | zero =>
    rw [List.length_eq_zero_iff.mp (Nat.le_zero.mp enough)]
    exact bounded.finished
  | succ fuel ih =>
    cases cursor with
    | nil => exact bounded.finished
    | cons byte rest =>
      rw [reconcileLoop_unread ne fuel p (List.cons_ne_nil byte rest)]
      refine (reconcileRange_safe ok bounded (byte :: rest)).bind ?_
      rintro ⟨stop, p', rest'⟩ ⟨shorter, holds⟩
      dsimp only at shorter holds ⊢
      cases stop with
      | true => exact holds
      | false =>
        simp only [List.length_cons] at shorter enough
        exact ih holds (by omega)

/-- One round on any message. -/
structure Answering (ne : Negentropy SealedVec) (round : Round) : Prop where
  silent : ne.isInitiator = false → round.haveIds = [] ∧ round.needIds = [] ∧ round.reply.isSome
  small : ∀ limit ∈ ne.frameLimit, ∀ reply ∈ round.reply, reply.length ≤ limit
  sendable : ∀ reply ∈ round.reply, Sendable reply

theorem reconcile_safe {ne : Negentropy SealedVec} (ok : LimitOk ne.frameLimit) (msg : List UInt8) :
    Exec.Safe (Answering ne) (ne.reconcile msg) := by
  have start : Bounded ne .start := by
    refine ⟨Nat.zero_le _, fun _ => ⟨rfl, rfl⟩, fun limit mem => ?_, [], rfl, rfl, by simp⟩
    have floor := ok limit mem
    have one : Progress.start.full.length = 1 := rfl
    simp only [frameLimitFloor, frameMargin] at floor ⊢
    omega
  have ranges : ∀ cursor, Exec.Safe (Answering ne) (do
      let p ← ne.reconcileLoop cursor.length Progress.start cursor
      let reply := if ne.isInitiator ∧ p.full.length = 1 then none else some p.full
      return { reply, haveIds := p.haveIds, needIds := p.needIds }) := by
    intro cursor
    refine (reconcileLoop_safe ok cursor.length start le_rfl).bind fun p finished => ?_
    refine ⟨fun responder => ?_, fun limit mem reply found => ?_, fun reply found => ?_⟩
    · have silent := finished.silent responder
      simp only [responder, Bool.false_eq_true, false_and, if_false, Option.isSome_some]
      exact ⟨silent.1, silent.2, trivial⟩
    · dsimp only at found
      split_ifs at found
      · cases found
      · rw [← Option.some.inj found]
        exact finished.small limit mem
    · dsimp only at found
      split_ifs at found
      · cases found
      · rw [← Option.some.inj found]
        exact finished.sendable
  rw [Negentropy.reconcile.eq_def]
  cases msg with
  | nil => exact Exec.safe_fail _
  | cons version cursor =>
    dsimp only
    by_cases known : 0x60 ≤ version.toNat ∧ version.toNat ≤ 0x6F
    · by_cases same : version = protocolVersion
      · rw [if_neg (not_not.mpr known), if_neg (not_not.mpr same)]
        exact ranges cursor
      · rw [if_neg (not_not.mpr known), if_pos same]
        by_cases role : ne.isInitiator = true
        · rw [if_pos role]
          exact Exec.safe_fail _
        · rw [if_neg role]
          refine ⟨fun _ => ⟨rfl, rfl, rfl⟩, fun limit mem reply found => ?_, fun reply found => ?_⟩
          · have floor := ok limit mem
            obtain rfl := Option.some.inj found
            simp only [frameLimitFloor] at floor
            simp only [List.length_singleton]
            omega
          · obtain rfl := Option.some.inj found
            exact ⟨[], rfl, by simp⟩
    · rw [if_pos known]
      exact Exec.safe_fail _

theorem splitRanges_infinity_len (side : Side) (lower upper : Nat) (last : UInt64) :
    rangesLen last (side.splitRanges lower upper Bound.infinity) ≤ 996 := by
  rw [Side.splitRanges]
  split_ifs with small
  · have count : (side.slice lower upper).length ≤ upper - lower := by
      rw [Side.slice, List.length_drop, List.length_take]
      omega
    simp only [idListThreshold, buckets] at small
    have digits := @varintLen_le _ 1 (by decide)
      (show (side.slice lower upper).length < 2 ^ (7 * 1) by omega)
    have bound : boundLen last Bound.infinity = 2 := rfl
    simp only [rangesLen, payloadLen, List.length_map, bound]
    omega
  · have total := rangesLen_le last
      ((List.range buckets).map (side.bucketRange lower upper Bound.infinity))
    rw [List.map_map, show ((fun r => 43 + payloadLen r.payload) ∘
      side.bucketRange lower upper Bound.infinity) = fun _ => 60 from rfl] at total
    exact le_trans total (by decide)

theorem initiate_short {ne : Negentropy SealedVec} (fresh : ne.isInitiator = false) :
    ∃ msg, ne.initiate = .ok ({ ne with isInitiator := true }, msg) ∧ msg.length ≤ 1000 := by
  refine ⟨_, initiate_spec fresh, ?_⟩
  rw [Side.initiate, length_messageBytes _ (splitRanges_fits _ _ _ _), messageLen]
  have ranges := splitRanges_infinity_len (sideOf ne) 0 (sideOf ne).items.length 0
  omega

theorem initiate_sendable {ne engine : Negentropy SealedVec} {msg : List UInt8}
    (started : ne.initiate = .ok (engine, msg)) : Sendable msg := by
  cases fresh : ne.isInitiator with
  | true =>
    rw [Negentropy.initiate, if_pos fresh] at started
    cases started
  | false =>
    obtain ⟨-, rfl⟩ := Prod.mk.inj (Except.ok.inj ((initiate_spec fresh).symm.trans started))
    exact ⟨_, rfl, splitRanges_fits _ _ _ _⟩

end Racnet.Proof.Negentropy
