import Racnet.Proof.Negentropy.Exchange
import Racnet.Proof.Storage.Index

/-!
# The live index and the sealed snapshot

Two stores that answer the same are interchangeable under the engine.
-/

namespace Racnet.Proof.Storage
open Lib Store Sync NegentropyStore

/-- Two stores that answer every query in the same way. -/
structure Interchangeable {S T : Type} [NegentropyStore S] [NegentropyStore T] (s : S) (t : T) :
    Prop where
  len : len s = len t
  itemAt : ∀ rank, itemAt s rank = itemAt t rank
  lowerBound : ∀ lo hi bound, hi ≤ NegentropyStore.len t →
    lowerBound s lo hi bound = lowerBound t lo hi bound
  fingerprint : ∀ lo hi, fingerprint s lo hi = fingerprint t lo hi
  forEach : ∀ (σ : Type) lo hi (f : σ → Nat → Item → Option (σ × Bool)) (state : σ),
    forEach s lo hi f state = forEach t lo hi f state

/-! ## The engine -/

section Engine

variable {S T : Type} [NegentropyStore S] [NegentropyStore T] {s : S} {t : T}
  (same : Interchangeable s t)
include same

theorem splitRange_congr (lower upper : Nat) (bound : Bound) (codec : BoundCodec) :
    splitRange s lower upper bound codec = splitRange t lower upper bound codec := by
  have step : bucketStep s = bucketStep t := by
    funext upper bound perBucket extra state i
    simp only [bucketStep, same.fingerprint, same.itemAt]
  simp only [splitRange, same.forEach, step]

variable (limit : Option Nat) (initiator : Bool)

theorem answer_congr (p : Progress) (lower upper : Nat) (bound : Bound) (mode : Nat)
    (cursor : List UInt8) :
    Negentropy.answer ⟨s, limit, initiator⟩ p lower upper bound mode cursor =
      Negentropy.answer ⟨t, limit, initiator⟩ p lower upper bound mode cursor := by
  simp only [Negentropy.answer, Negentropy.answerFingerprint, Negentropy.answerIdList,
    splitRange_congr same, same.fingerprint, same.forEach]

theorem reconcileRange_congr (p : Progress) (cursor : List UInt8) :
    Negentropy.reconcileRange ⟨s, limit, initiator⟩ p cursor =
      Negentropy.reconcileRange ⟨t, limit, initiator⟩ p cursor := by
  simp only [Negentropy.reconcileRange, answer_congr same, same.fingerprint, same.len,
    same.lowerBound _ _ _ le_rfl]

theorem reconcileLoop_congr (fuel : Nat) (p : Progress) (cursor : List UInt8) :
    Negentropy.reconcileLoop ⟨s, limit, initiator⟩ fuel p cursor =
      Negentropy.reconcileLoop ⟨t, limit, initiator⟩ fuel p cursor := by
  induction fuel generalizing p cursor with
  | zero => cases cursor <;> rfl
  | succ fuel ih =>
    cases cursor with
    | nil => rfl
    | cons byte cursor =>
      simp only [Negentropy.reconcileLoop, reconcileRange_congr same, ih]

theorem reconcile_congr (msg : List UInt8) :
    Negentropy.reconcile ⟨s, limit, initiator⟩ msg =
      Negentropy.reconcile ⟨t, limit, initiator⟩ msg := by
  cases msg with
  | nil => rfl
  | cons version cursor => simp only [Negentropy.reconcile, reconcileLoop_congr same]

theorem initiate_congr : ∃ after, ∃ outcome : Exec SyncError (List UInt8),
    Negentropy.initiate ⟨s, limit, initiator⟩ = outcome.map (fun out => (⟨s, limit, after⟩, out)) ∧
      Negentropy.initiate ⟨t, limit, initiator⟩ =
        outcome.map (fun out => (⟨t, limit, after⟩, out)) := by
  cases initiator with
  | true => exact ⟨true, .fail .alreadyInitiated, rfl, rfl⟩
  | false =>
    simp only [Negentropy.initiate, splitRange_congr same, same.len]
    cases splitRange t 0 (NegentropyStore.len t) Bound.infinity {} with
    | none => exact ⟨true, .error .panic, rfl, rfl⟩
    | some out => exact ⟨true, .ok (protocolVersion :: out.2), rfl, rfl⟩

end Engine

inductive Call where
  | initiate
  | reconcile (msg : List UInt8)

/-- What the calls on one engine return, in order. A call that fails leaves the engine as it is. -/
def results {S : Type} [NegentropyStore S] (ne : Negentropy S) :
    List Call → List (Exec SyncError (List UInt8 ⊕ Round))
  | [] => []
  | .initiate :: calls =>
    match ne.initiate with
    | .ok (ne, msg) => .ok (.inl msg) :: results ne calls
    | .error trap => .error trap :: results ne calls
  | .reconcile msg :: calls => (ne.reconcile msg).map .inr :: results ne calls

theorem results_congr {S T : Type} [NegentropyStore S] [NegentropyStore T] {s : S} {t : T}
    (same : Interchangeable s t) (limit : Option Nat) (initiator : Bool) (calls : List Call) :
    results ⟨s, limit, initiator⟩ calls = results ⟨t, limit, initiator⟩ calls := by
  induction calls generalizing initiator with
  | nil => rfl
  | cons call calls ih =>
    cases call with
    | initiate =>
      obtain ⟨after, outcome, left, right⟩ := initiate_congr same limit initiator
      rw [results, results, left, right]
      cases outcome with
      | error trap => exact congrArg _ (ih initiator)
      | ok msg => exact congrArg _ (ih after)
    | reconcile msg => rw [results, results, reconcile_congr same, ih]

/-! ## The two stores -/

theorem insertAll_new {items : List Item} (short : items.length < 2 ^ 32 - 1) :
    ∃ index t isNew, insertAll OrderIndex.new items = some (index, isNew) ∧ Keeps index t ∧
      (∀ x, x ∈ t.toList ↔ x ∈ items) ∧ isNew.length = items.length ∧
      ∀ k item, items[k]? = some item → isNew[k]? = some (decide (item ∉ items.take k)) := by
  obtain ⟨index, t, isNew, ran, keeps, mem, count, flags⟩ := insertAll_spec keeps_new
    (show OrderIndex.new.nodes.length + items.length ≤ nilIndex by
      rw [OrderIndex.new, List.length_nil, Nat.zero_add, nilIndex]
      exact short.le)
  refine ⟨index, t, isNew, ran, keeps, fun x => ?_, count, fun k item found => ?_⟩
  · rw [mem]
    simp
  · rw [flags k item found]
    simp

section Stores

variable [Sha256] {index : OrderIndex} {t : LabelTree Item}

theorem Keeps.interchangeable (keeps : Keeps index t) {sealed : SealedVec}
    (same : t.toList = sealed.items) : Interchangeable index sealed where
  len := by
    change index.len.getD 0 = sealed.items.length
    rw [keeps.len, same, Option.getD_some]
  itemAt rank := by
    change index.itemAt rank = sealed.items[rank]?
    rw [keeps.itemAt, same]
  lowerBound lo hi bound inside := by
    change hi ≤ sealed.items.length at inside
    change (index.lowerBound (boundAsItem bound)).bind _ = (slice sealed.items lo hi).bind _
    rw [keeps.lowerBound, Option.bind_some, same]
    by_cases order : lo ≤ hi
    · rw [if_pos order, slice_of_le order inside, Option.bind_some,
        ← rank_slice sealed.sorted order inside]
      rfl
    · rw [if_neg order, slice, if_neg fun range => order range.1, Option.bind_none]
  fingerprint lo hi := by
    change (index.summary lo hi).bind _ = (slice sealed.items lo hi).bind _
    rw [keeps.summary, same]
    cases slice sealed.items lo hi with
    | none => rfl
    | some range => exact congrArg some (fingerprintOf_eq range).symm
  forEach σ lo hi f state := by
    change index.visitRange lo hi f state = (slice sealed.items lo hi).bind _
    rw [keeps.visitRange, same]

theorem Keeps.interchangeable_new (keeps : Keeps index t) {vec : Vec Item}
    (mem : ∀ x, x ∈ t.toList ↔ x ∈ vec.toList) : Interchangeable index (SealedVec.new vec) := by
  refine keeps.interchangeable (keeps.sorted.eq_of_mem_iff (SealedVec.new vec).sorted fun x => ?_)
  rw [mem, SealedVec.mem_new]

/-- An index filled by fewer than 2^32 - 1 insertions reports each new item and no other as new, and
no query and no engine tells it from the snapshot of the same items. -/
theorem index_interchangeable {items : List Item} (short : items.length < 2 ^ 32 - 1) :
    ∃ index isNew, insertAll OrderIndex.new items = some (index, isNew) ∧
      isNew.length = items.length ∧
      (∀ k item, items[k]? = some item → isNew[k]? = some (decide (item ∉ items.take k))) ∧
      ∀ vec : Vec Item, vec.toList.Perm items →
        Interchangeable index (SealedVec.new vec) ∧
        ∀ limit initiator calls,
          results (⟨index, limit, initiator⟩ : Negentropy OrderIndex) calls =
            results (⟨SealedVec.new vec, limit, initiator⟩ : Negentropy SealedVec) calls := by
  obtain ⟨index, t, isNew, ran, keeps, mem, count, flags⟩ := insertAll_new short
  refine ⟨index, isNew, ran, count, flags, fun vec perm => ?_⟩
  have alike : Interchangeable index (SealedVec.new vec) :=
    keeps.interchangeable_new fun x => by rw [mem, perm.mem_iff]
  exact ⟨alike, fun limit initiator calls => results_congr alike limit initiator calls⟩

end Stores

def descendingItems : List Item :=
  (Negentropy.allOf Negentropy.third 16).reverse ++ [Negentropy.markedItem Negentropy.third 7]

theorem index_interchangeable_descending :
    letI := Negentropy.tailDigest
    ∃ index, insertAll OrderIndex.new descendingItems = some (index, List.replicate 16 true ++ [false]) ∧
      ∀ vec : Vec Item, vec.toList = descendingItems.reverse →
        Interchangeable index (SealedVec.new vec) ∧
        ∀ limit initiator calls,
          results (⟨index, limit, initiator⟩ : Negentropy OrderIndex) calls =
            results (⟨SealedVec.new vec, limit, initiator⟩ : Negentropy SealedVec) calls := by
  let _ := Negentropy.tailDigest
  have flagged : (insertAll OrderIndex.new descendingItems).map Prod.snd =
      some (List.replicate 16 true ++ [false]) := by decide +kernel
  obtain ⟨index, isNew, ran, -, -, alike⟩ := @index_interchangeable _ descendingItems (by decide)
  rw [ran, Option.map_some, Option.some.injEq] at flagged
  subst flagged
  exact ⟨index, ran, fun vec reversed => alike vec (reversed ▸ List.reverse_perm _)⟩

end Racnet.Proof.Storage
