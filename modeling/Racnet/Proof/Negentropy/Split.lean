import Racnet.Proof.Negentropy.Codec
import Racnet.Proof.Negentropy.Separator

namespace Racnet.Proof.Negentropy
open Lib Store Sync

/-! ## Walking a slice -/

theorem visit_ids (rank : Nat) (items : List Item) (out : List UInt8) :
    visitFrom (fun out _ item => some (out ++ item.id.bytes, true)) rank items out =
      some (out ++ (items.map Item.id).flatMap FixedBytes.bytes) := by
  induction items generalizing rank out with
  | nil => simp [visitFrom]
  | cons item items ih => simp [visitFrom, ih]

/-! ## Buckets -/

theorem bucketStart_succ (numElems i : Nat) :
    bucketStart numElems (i + 1) = bucketStart numElems i +
      (numElems / buckets + if i < numElems % buckets then 1 else 0) := by
  simp only [bucketStart, Nat.add_mul, Nat.one_mul]
  split_ifs <;> omega

theorem bucketStart_zero (numElems : Nat) : bucketStart numElems 0 = 0 := by
  simp [bucketStart]

theorem bucketStart_mono (numElems : Nat) : Monotone (bucketStart numElems) := by
  apply monotone_nat_of_le_succ
  intro i
  rw [bucketStart_succ]
  exact Nat.le_add_right _ _

theorem bucketStart_buckets (numElems : Nat) : bucketStart numElems buckets = numElems := by
  simp only [bucketStart, buckets]
  omega

theorem bucketStart_le (numElems : Nat) {i : Nat} (le : i ≤ buckets) :
    bucketStart numElems i ≤ numElems := by
  have := bucketStart_mono numElems le
  rwa [bucketStart_buckets] at this

theorem bucketStart_lt_succ {numElems : Nat} (large : ¬ numElems < idListThreshold) (i : Nat) :
    bucketStart numElems i + 2 ≤ bucketStart numElems (i + 1) := by
  rw [bucketStart_succ]
  simp only [idListThreshold, buckets] at large ⊢
  omega

theorem separator_spec {items : List Item} (sorted : items.Pairwise (· < ·)) {rank : Nat}
    (pos : 0 < rank) (inside : rank < items.length) :
    Bound.minSeparating items[rank - 1].sortKey items[rank - 1].id items[rank].sortKey
        items[rank].id = some (separator items rank) ∧
      items[rank - 1] < boundAsItem (separator items rank) ∧
      boundAsItem (separator items rank) ≤ items[rank] := by
  have order : items[rank - 1] < items[rank] :=
    List.pairwise_iff_getElem.mp sorted (rank - 1) rank (by omega) inside (by omega)
  obtain ⟨bound, found, above, below⟩ := minSeparating_spec order
  have value : separator items rank = bound := by
    simp [separator, List.getElem?_eq_getElem inside,
      List.getElem?_eq_getElem (show rank - 1 < items.length by omega), found]
  rw [value]
  exact ⟨found, above, below⟩

variable [Sha256]

theorem fingerprint_sealedVec {store : SealedVec} {lo hi : Nat} (order : lo ≤ hi)
    (inside : hi ≤ store.items.length) (side : Side) (same : side.items = store.items) :
    NegentropyStore.fingerprint store lo hi = some (side.rangeFingerprint lo hi) := by
  change (slice store.items lo hi).bind _ = _
  rw [slice_of_le order inside, Option.bind_some]
  simp only [Side.rangeFingerprint, Side.slice, same]
  rfl

theorem bucketStep_spec {store : SealedVec} {lower upper : Nat} (upperBound : Bound)
    (order : lower ≤ upper) (inside : upper ≤ store.items.length)
    (large : ¬ upper - lower < idListThreshold) (side : Side) (same : side.items = store.items)
    {i : Nat} (bucket : i < buckets) (codec : BoundCodec) (out : List UInt8) :
    bucketStep store upper upperBound ((upper - lower) / buckets) ((upper - lower) % buckets)
        (lower + bucketStart (upper - lower) i, codec, out) i =
      some (lower + bucketStart (upper - lower) (i + 1),
        advance codec [side.bucketRange lower upper upperBound i],
        out ++ rangesBytes codec.lastTsOut [side.bucketRange lower upper upperBound i]) := by
  have next : lower + bucketStart (upper - lower) i + ((upper - lower) / buckets +
      if i < (upper - lower) % buckets then 1 else 0) =
        lower + bucketStart (upper - lower) (i + 1) := by
    rw [bucketStart_succ, Nat.add_assoc]
  have grows := bucketStart_lt_succ large i
  have limit : bucketStart (upper - lower) (i + 1) ≤ upper - lower := bucketStart_le _ bucket
  have fp : NegentropyStore.fingerprint store (lower + bucketStart (upper - lower) i)
      (lower + bucketStart (upper - lower) (i + 1)) =
        some (side.rangeFingerprint (lower + bucketStart (upper - lower) i)
          (lower + bucketStart (upper - lower) (i + 1))) :=
    fingerprint_sealedVec (by omega) (by omega) side same
  simp only [bucketStep, next, fp, Option.bind_eq_bind, Option.bind_some, encode_eq, advance,
    Side.bucketRange, rangesBytes, payloadBytes, lastTs, List.append_nil, List.append_assoc]
  split_ifs with last
  · rfl
  · have before : lower + bucketStart (upper - lower) (i + 1) < store.items.length := by omega
    have found := (separator_spec store.sorted (by omega) before).1
    rw [checkedSub_of_le (by omega), same]
    simp only [NegentropyStore.itemAt, Option.bind_some, List.getElem?_eq_getElem before,
      List.getElem?_eq_getElem (show lower + bucketStart (upper - lower) (i + 1) - 1 <
        store.items.length by omega), found]
    rfl

theorem bucketFold_spec {store : SealedVec} {lower upper : Nat} (upperBound : Bound)
    (order : lower ≤ upper) (inside : upper ≤ store.items.length)
    (large : ¬ upper - lower < idListThreshold) (side : Side) (same : side.items = store.items)
    (codec : BoundCodec) (j : Nat) (le : j ≤ buckets) :
    (List.range j).foldlM
        (bucketStep store upper upperBound ((upper - lower) / buckets) ((upper - lower) % buckets))
        (lower, codec, []) =
      some (lower + bucketStart (upper - lower) j,
        advance codec ((List.range j).map (side.bucketRange lower upper upperBound)),
        rangesBytes codec.lastTsOut
          ((List.range j).map (side.bucketRange lower upper upperBound))) := by
  induction j with
  | zero =>
    rw [bucketStart_zero]
    rfl
  | succ j ih =>
    rw [List.range_succ, List.foldlM_append, ih (by omega)]
    simp only [Option.bind_eq_bind, Option.bind_some, List.foldlM_cons, List.foldlM_nil,
      bucketStep_spec upperBound order inside large side same (show j < buckets by omega),
      List.map_append, List.map_cons, List.map_nil, advance_append, rangesBytes_append]
    rfl

theorem splitRange_spec {store : SealedVec} {lower upper : Nat} (upperBound : Bound)
    (order : lower ≤ upper) (inside : upper ≤ store.items.length) (side : Side)
    (same : side.items = store.items) (codec : BoundCodec) :
    splitRange store lower upper upperBound codec =
      some (advance codec (side.splitRanges lower upper upperBound),
        rangesBytes codec.lastTsOut (side.splitRanges lower upper upperBound)) := by
  rw [splitRange, checkedSub_of_le order]
  simp only [Option.bind_eq_bind, Option.bind_some]
  by_cases small : upper - lower < idListThreshold
  · have walk : NegentropyStore.forEach store lower upper
        (fun out _ item => some (out ++ item.id.bytes, true)) ([] : List UInt8) =
          some (((side.slice lower upper).map Item.id).flatMap FixedBytes.bytes) := by
      change (slice store.items lower upper).bind _ = _
      rw [slice_of_le order inside, Option.bind_some, visit_ids, List.nil_append, Side.slice, same]
    have count : (side.slice lower upper).length = upper - lower := by
      rw [Side.slice, same, List.length_drop, List.length_take]
      omega
    rw [if_pos small, walk]
    simp only [Side.splitRanges, if_pos small, Option.bind_some, encode_eq, rangesBytes,
      payloadBytes, List.length_map, count, List.append_nil, List.append_assoc]
    rfl
  · rw [if_neg small, bucketFold_spec upperBound order inside small side same codec buckets le_rfl]
    simp only [Side.splitRanges, if_neg small, Option.bind_some]
    rfl

end Racnet.Proof.Negentropy
