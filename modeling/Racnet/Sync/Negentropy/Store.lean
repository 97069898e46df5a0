import Mathlib.Data.List.Destutter
import Mathlib.Data.List.Sort
import Racnet.Store.Order
import Racnet.Sync.Negentropy.Bound
import Racnet.Sync.Negentropy.Fingerprint

namespace Racnet.Sync
open Lib Store

/-- The item set an engine works over. `none` is a panic. A visitor of `forEach` threads its captured
state, may itself panic, and stops the walk by returning `false`. -/
class NegentropyStore (S : Type) where
  len : S → Nat
  itemAt : S → Nat → Option Item
  lowerBound : S → Nat → Nat → Bound → Option Nat
  fingerprint : S → Nat → Nat → Option Fingerprint
  forEach : {σ : Type} → S → Nat → Nat → (σ → Nat → Item → Option (σ × Bool)) → σ → Option σ

/-- A bound expressed as an item: `bound_as_item`. -/
def boundAsItem (bound : Bound) : Item := ⟨bound.ts, bound.paddedId⟩

/-- `slice::partition_point` on a slice the predicate partitions. -/
def partitionPoint {α : Type} (xs : List α) (p : α → Bool) : Nat := (xs.takeWhile p).length

/-- The walk of `for_each` over the items from `rank` on. -/
def visitFrom {σ : Type} (f : σ → Nat → Item → Option (σ × Bool)) : Nat → List Item → σ → Option σ
  | _, [], state => some state
  | rank, item :: rest, state => do
    let (state, more) ← f state rank item
    if more then visitFrom f (rank + 1) rest state else some state

/-- A sorted, duplicate-free snapshot. -/
structure SealedVec where
  items : List Item
  sorted : items.Pairwise (· < ·)
  length_lt : items.length < 2 ^ 64

namespace SealedVec

theorem sorted_dedup (items : List Item) :
    ((items.insertionSort (· ≤ ·)).destutter (· ≠ ·)).Pairwise (· < ·) := by
  set sorted := items.insertionSort (· ≤ ·)
  have ascending : sorted.Pairwise (· ≤ ·) := List.pairwise_insertionSort (· ≤ ·) items
  have kept : (sorted.destutter (· ≠ ·)).Pairwise (· ≤ ·) :=
    ascending.sublist (sorted.destutter_sublist (· ≠ ·))
  have apart : (sorted.destutter (· ≠ ·)).IsChain (· ≠ ·) := sorted.isChain_destutter (· ≠ ·)
  rw [← List.isChain_iff_pairwise, List.isChain_iff_getElem]
  intro i h
  exact lt_of_le_of_ne (List.pairwise_iff_getElem.mp kept i (i + 1) _ h (Nat.lt_succ_self i))
    (List.isChain_iff_getElem.mp apart i h)

theorem length_sorted_dedup_le (items : List Item) :
    ((items.insertionSort (· ≤ ·)).destutter (· ≠ ·)).length ≤ items.length := by
  have kept := (List.destutter_sublist (· ≠ ·) (items.insertionSort (· ≤ ·))).length_le
  rwa [List.length_insertionSort] at kept

/-- `SealedVec::new`: `sort_unstable`, then `dedup`. -/
def new (items : Vec Item) : SealedVec where
  items := (items.toList.insertionSort (· ≤ ·)).destutter (· ≠ ·)
  sorted := sorted_dedup items.toList
  length_lt := lt_of_le_of_lt (length_sorted_dedup_le items.toList) items.length_lt

theorem mem_new {items : Vec Item} {x : Item} : x ∈ (new items).items ↔ x ∈ items.toList := by
  have sorted := List.pairwise_insertionSort (· ≤ ·) items.toList
  change x ∈ (items.toList.insertionSort (· ≤ ·)).destutter (· ≠ ·) ↔ _
  rw [sorted.destutter_eq_dedup, List.mem_dedup, List.mem_insertionSort]

variable [Sha256]

/-- The fingerprint of a run of items. -/
def fingerprintOf (items : List Item) : Fingerprint :=
  (items.foldl (fun sum item => sum.addId item.id) IdSum.zero).fingerprint items.length

instance : NegentropyStore SealedVec where
  len s := s.items.length
  itemAt s rank := s.items[rank]?
  lowerBound s lo hi bound := do
    let range ← slice s.items lo hi
    return lo + partitionPoint range (fun item => decide (item < boundAsItem bound))
  fingerprint s lo hi := do
    let range ← slice s.items lo hi
    return fingerprintOf range
  forEach s lo hi f state := do
    let range ← slice s.items lo hi
    visitFrom f lo range state

end SealedVec

/-- The live index. An index whose root is out of range has no length; `insert` builds none. -/
instance [Sha256] : NegentropyStore OrderIndex where
  len s := s.len.getD 0
  itemAt s rank := s.itemAt rank
  lowerBound s lo hi bound := do
    let rank ← s.lowerBound (boundAsItem bound)
    -- `clamp` asserts that its limits are in order
    if lo ≤ hi then some (max lo (min rank hi)) else none
  fingerprint s lo hi := do
    let (count, sum) ← s.summary lo hi
    return sum.fingerprint count
  forEach s lo hi f state := s.visitRange lo hi f state

end Racnet.Sync
