import Racnet.Lib.Segments
import Racnet.Lib.Weight
import Racnet.Proof.Negentropy.Refinement

/-!
# Where the ranges of a message lie

A range covers the items from the end of the range before it up to its own bound. Ranks and bounds
say the same thing: the slice between two ranks is what lies between the two bounds.
-/

namespace Racnet.Proof.Negentropy
open Lib Store Sync

/-! ## Positions -/

def pos (r : WireRange) : Item := boundAsItem r.bound

def bottom : Item := boundAsItem (Bound.fromTs 0)

def top : Item := boundAsItem Bound.infinity

theorem bottom_le (item : Item) : bottom ≤ item := by
  rw [bottom, boundAsItem_fromTs, Item.le_iff]
  rcases Nat.eq_zero_or_pos item.sortKey.toNat with zero | positive
  · exact Or.inr ⟨zero.symm, FixedBytes.zero_le item.id⟩
  · exact Or.inl positive

theorem lt_top {item : Item} (finite : item.sortKey ≠ tsInfinity) : item < top := by
  rw [top, Bound.infinity, boundAsItem_fromTs]
  apply Item.lt_of_sortKey_lt
  rw [tsInfinity_toNat]
  exact ts_lt_of_ne finite

theorem bottom_lt_top : bottom < top := by
  rw [bottom, boundAsItem_fromTs]
  exact lt_top (by decide)

theorem rank_bottom (items : List Item) : rank items bottom = 0 :=
  rank_eq_zero fun item _ => bottom_le item

namespace SideOk

variable {side : Side} (ok : SideOk side)
include ok

theorem rank_top : rank side.items top = side.items.length :=
  rank_eq_length fun item mem => lt_top (ok.finite item mem)

theorem slice_eq (lo hi : Item) :
    side.slice (rank side.items lo) (rank side.items hi) = between lo hi side.items :=
  slice_rank ok.sorted lo hi

end SideOk

theorem rankOf_rank (side : Side) {p : Item} {bound : Bound} (order : p ≤ boundAsItem bound) :
    side.rankOf (rank side.items p) bound = rank side.items (boundAsItem bound) :=
  rank_add_takeWhile side.items order

/-! ## Splitting -/

/-- The positions at which `split_range` cuts the stretch from `p` to `q`. -/
def cutPoint (side : Side) (p q : Item) (j : Nat) : Item :=
  if j = 0 then p
  else if j = buckets then q
  else boundAsItem (separator side.items (rank side.items p +
    bucketStart (rank side.items q - rank side.items p) j))

/-- The payload is the fingerprint of what `items` holds from `lo` to the end of the range. -/
def Matches [Sha256] (items : List Item) (lo : Item) (r : WireRange) : Prop :=
  r.payload = .fingerprint (SealedVec.fingerprintOf (between lo (pos r) items))

/-- What a range says about the sender's items under it, exactly. -/
def Exact [Sha256] (items : List Item) (lo : Item) (r : WireRange) : Prop :=
  r.payload = .fingerprint (SealedVec.fingerprintOf (between lo (pos r) items)) ∨
    r.payload = .idList ((between lo (pos r) items).map Item.id)

section Cuts

variable {side : Side} (sorted : side.items.Pairwise (· < ·)) {p q : Item}
  (large : ¬ rank side.items q - rank side.items p < idListThreshold)
include sorted large

theorem rank_cutPoint {j : Nat} (le : j ≤ buckets) :
    rank side.items (cutPoint side p q j) =
      rank side.items p + bucketStart (rank side.items q - rank side.items p) j := by
  set num := rank side.items q - rank side.items p with hnum
  have sized : idListThreshold ≤ num := Nat.not_lt.mp large
  have positive : 0 < idListThreshold := by decide
  rw [cutPoint]
  split_ifs with first last
  · rw [first, bucketStart_zero, Nat.add_zero]
  · rw [last, bucketStart_buckets]
    omega
  · rw [← hnum]
    have lower := bucketStart_lt_succ large (j - 1)
    rw [Nat.sub_add_cancel (Nat.pos_of_ne_zero first)] at lower
    have upper := bucketStart_lt_succ large j
    have total := bucketStart_le num (show j + 1 ≤ buckets by omega)
    have limit := rank_le_length side.items q
    have inside : rank side.items p + bucketStart num j < side.items.length := by omega
    obtain ⟨-, above, below⟩ := separator_spec sorted (by omega) inside
    apply rank_eq inside.le
    · intro i h lt
      refine lt_of_le_of_lt ?_ above
      rcases Nat.lt_or_ge i (rank side.items p + bucketStart num j - 1) with early | latest
      · exact (List.pairwise_iff_getElem.mp sorted _ _ h _ early).le
      · have : i = rank side.items p + bucketStart num j - 1 := by omega
        subst this
        exact le_rfl
    · intro _
      exact below

theorem cutPoint_lt_succ {j : Nat} (lt : j < buckets) :
    cutPoint side p q j < cutPoint side p q (j + 1) := by
  apply lt_of_rank_lt side.items
  rw [rank_cutPoint sorted large lt.le,
    rank_cutPoint sorted large (show j + 1 ≤ buckets from lt)]
  have := bucketStart_lt_succ large j
  omega

theorem cutPoint_le {j : Nat} (le : j ≤ buckets) : cutPoint side p q j ≤ q := by
  induction le using Nat.decreasingInduction with
  | self => rw [cutPoint, if_neg (by decide), if_pos rfl]
  | of_succ j lt ih => exact le_trans (cutPoint_lt_succ sorted large lt).le ih

theorem between_cutPoint_ne_nil {j : Nat} (lt : j < buckets) :
    between (cutPoint side p q j) (cutPoint side p q (j + 1)) side.items ≠ [] := by
  have grows := bucketStart_lt_succ large j
  have limit := rank_le_length side.items (cutPoint side p q (j + 1))
  rw [← slice_rank sorted, ← Side.slice, ← List.length_pos_iff_ne_nil, length_slice limit, rank_cutPoint sorted large lt.le,
    rank_cutPoint sorted large (show j + 1 ≤ buckets from lt)]
  omega

omit sorted in
theorem bucketRange_pos [Sha256] {bound : Bound} (ends : boundAsItem bound = q) {j : Nat}
    (lt : j < buckets) :
    pos (side.bucketRange (rank side.items p) (rank side.items q) bound j) =
      cutPoint side p q (j + 1) := by
  have sized : idListThreshold ≤ rank side.items q - rank side.items p := Nat.not_lt.mp large
  have positive : 0 < idListThreshold := by decide
  simp only [pos, Side.bucketRange, cutPoint, Nat.succ_ne_zero, if_false]
  by_cases last : j + 1 = buckets
  · rw [last, if_pos rfl, bucketStart_buckets, if_pos (by omega), ends]
  · have upper := bucketStart_lt_succ large (j + 1)
    have total := bucketStart_le (rank side.items q - rank side.items p)
      (show j + 1 + 1 ≤ buckets by omega)
    rw [if_neg last, if_neg (by omega)]

theorem buckets_segments [Sha256] {bound : Bound} (ends : boundAsItem bound = q) :
    Segments pos (Matches side.items) p ((List.range buckets).map
      (side.bucketRange (rank side.items p) (rank side.items q) bound)) := by
  have first : cutPoint side p q 0 = p := if_pos rfl
  have laid := @Segments.of_cuts _ _ pos _ (Matches side.items) buckets
    (side.bucketRange (rank side.items p) (rank side.items q) bound) (cutPoint side p q) ?_
  · rw [first] at laid
    exact laid.1
  · intro j lt
    have stop := bucketRange_pos large ends lt
    refine ⟨stop, (cutPoint_lt_succ sorted large lt).le, ?_⟩
    rw [Matches, stop, ← slice_rank sorted, ← Side.slice, rank_cutPoint sorted large lt.le,
      rank_cutPoint sorted large (show j + 1 ≤ buckets from lt)]
    rfl

end Cuts

variable [Sha256] {side : Side} (ok : SideOk side) {union : List Item}
  (subset : side.items ⊆ union) {p q : Item} {bound : Bound}
include ok subset

theorem splitRanges_segments (order : p ≤ q) (ends : boundAsItem bound = q)
    (weighty : 0 < weight top union p q) :
    Segments pos (fun lo r => Exact side.items lo r ∧ 0 < weight top union lo (pos r) ∧ pos r ≤ q)
        p (side.splitRanges (rank side.items p) (rank side.items q) bound) ∧
      endOf pos p (side.splitRanges (rank side.items p) (rank side.items q) bound) = q := by
  rw [Side.splitRanges]
  split_ifs with small
  · subst ends
    refine ⟨⟨order, ⟨Or.inr ?_, weighty, le_rfl⟩, trivial⟩, rfl⟩
    rw [ok.slice_eq]
    rfl
  · have first : cutPoint side p q 0 = p := if_pos rfl
    have last : cutPoint side p q buckets = q := by rw [cutPoint, if_neg (by decide), if_pos rfl]
    have laid := @Segments.of_cuts _ _ pos _
      (fun lo r => 0 < weight top union lo (pos r) ∧ pos r ≤ q) buckets
      (side.bucketRange (rank side.items p) (rank side.items q) bound) (cutPoint side p q) ?_
    · rw [first, last] at laid
      refine ⟨((buckets_segments ok.sorted small ends).and laid.1).imp ?_, laid.2⟩
      rintro lo r - ⟨fingerprint, weights⟩
      exact ⟨Or.inl fingerprint, weights⟩
    · intro j lt
      have stop := bucketRange_pos small ends lt
      obtain ⟨item, mem⟩ := List.exists_mem_of_ne_nil _ (between_cutPoint_ne_nil ok.sorted small lt)
      obtain ⟨held, above, below⟩ := mem_between.mp mem
      rw [stop]
      exact ⟨rfl, (cutPoint_lt_succ ok.sorted small lt).le, weight_pos_of_mem (subset held) above below,
        cutPoint_le ok.sorted small lt⟩

theorem splitRanges_head (ends : boundAsItem bound = q) (below : q ≤ top) :
    ∃ r rest, side.splitRanges (rank side.items p) (rank side.items q) bound = r :: rest ∧
      (weight top union p (pos r) < weight top union p q ∧ r.payload ≠ .skip ∨
        pos r = q ∧ ∃ ids, r.payload = .idList ids) := by
  rw [Side.splitRanges]
  split_ifs with small
  · exact ⟨_, [], rfl, Or.inr ⟨ends, _, rfl⟩⟩
  · refine ⟨side.bucketRange (rank side.items p) (rank side.items q) bound 0,
      ((List.range 15).map Nat.succ).map
        (side.bucketRange (rank side.items p) (rank side.items q) bound), rfl, Or.inl ⟨?_, ?_⟩⟩
    · have stop := bucketRange_pos small ends (show 0 < buckets by decide)
      have grows := cutPoint_lt_succ ok.sorted small (show 0 < buckets by decide)
      rw [show cutPoint side p q 0 = p from if_pos rfl] at grows
      obtain ⟨item, mem⟩ := List.exists_mem_of_ne_nil _
        (between_cutPoint_ne_nil ok.sorted small (show 1 < buckets by decide))
      obtain ⟨held, above, before⟩ := mem_between.mp mem
      have rest : 0 < weight top union (cutPoint side p q 1) q :=
        weight_pos_of_mem (subset held) above
          (lt_of_lt_of_le before (cutPoint_le ok.sorted small (show 2 ≤ buckets by decide)))
      rw [stop, weight_add union grows.le (cutPoint_le ok.sorted small (show 1 ≤ buckets by decide)) below]
      exact Nat.lt_add_of_pos_right rest
    · simp [Side.bucketRange]

end Racnet.Proof.Negentropy
