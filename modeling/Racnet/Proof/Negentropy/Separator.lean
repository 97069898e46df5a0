import Racnet.Sync.Negentropy.Store

namespace Racnet.Proof.Negentropy
open Lib Store Sync

def sharedLen (as bs : List UInt8) : Nat := ((as.zip bs).takeWhile fun p => p.1 == p.2).length

theorem sharedLen_cons_same (a : UInt8) (as bs : List UInt8) :
    sharedLen (a :: as) (a :: bs) = sharedLen as bs + 1 := by
  simp [sharedLen]

theorem sharedLen_cons_ne {a b : UInt8} (ne : a ≠ b) (as bs : List UInt8) :
    sharedLen (a :: as) (b :: bs) = 0 := by
  simp [sharedLen, ne]

theorem cut_between (as bs : List UInt8) (size : as.length = bs.length)
    (lt : bytesLt as bs = true) :
    sharedLen as bs < bs.length ∧
      as.map UInt8.toNat < (bs.take (sharedLen as bs + 1) ++
        List.replicate (bs.length - (sharedLen as bs + 1)) 0).map UInt8.toNat ∧
      (bs.take (sharedLen as bs + 1) ++
        List.replicate (bs.length - (sharedLen as bs + 1)) 0).map UInt8.toNat ≤
          bs.map UInt8.toNat := by
  induction as generalizing bs with
  | nil =>
    cases bs with
    | nil => simp [bytesLt] at lt
    | cons b bs => simp at size
  | cons a as ih =>
    cases bs with
    | nil => simp at size
    | cons b bs =>
      by_cases same : a = b
      · subst same
        have tail : bytesLt as bs = true := by simpa [bytesLt] using lt
        obtain ⟨short, above, below⟩ := ih bs (by simpa using size) tail
        rw [sharedLen_cons_same]
        refine ⟨by simpa using short, ?_, ?_⟩
        · simp only [List.take_succ_cons, List.length_cons, Nat.add_sub_add_right,
            List.cons_append, List.map_cons]
          exact List.cons_lt_cons_iff.mpr (Or.inr ⟨rfl, above⟩)
        · simp only [List.take_succ_cons, List.length_cons, Nat.add_sub_add_right,
            List.cons_append, List.map_cons]
          exact List.cons_le_cons _ below
      · have head : a.toNat < b.toNat := by
          have ne : a.toNat ≠ b.toNat := fun h => same (UInt8.toNat_inj.mp h)
          simpa [bytesLt, ne] using lt
        rw [sharedLen_cons_ne same]
        refine ⟨by simp, ?_, ?_⟩
        · simp only [Nat.zero_add, List.take_succ_cons, List.take_zero, List.cons_append,
            List.map_cons]
          exact List.cons_lt_cons_iff.mpr (Or.inl head)
        · simp only [Nat.zero_add, List.take_succ_cons, List.take_zero, List.cons_append,
            List.nil_append, List.length_cons, Nat.add_sub_cancel, List.map_cons,
            List.map_replicate]
          have zeros := FixedBytes.replicate_zero_le (bs.map UInt8.toNat)
          rw [List.length_map] at zeros
          exact List.cons_le_cons _ zeros

theorem sharedLen_lt_of_between (as bs cut : List UInt8) (size : as.length = bs.length)
    (short : cut.length ≤ bs.length)
    (above : as.map UInt8.toNat <
      (cut ++ List.replicate (bs.length - cut.length) 0).map UInt8.toNat)
    (below : (cut ++ List.replicate (bs.length - cut.length) 0).map UInt8.toNat ≤
      bs.map UInt8.toNat) : sharedLen as bs < cut.length := by
  induction as generalizing bs cut with
  | nil =>
    obtain rfl := List.length_eq_zero_iff.mp size.symm
    obtain rfl := List.length_eq_zero_iff.mp (Nat.le_zero.mp short)
    exact absurd above (lt_irrefl _)
  | cons a as ih =>
    cases bs with
    | nil => simp at size
    | cons b bs =>
      cases cut with
      | nil =>
        have zeros := FixedBytes.replicate_zero_le ((a :: as).map UInt8.toNat)
        rw [List.length_map, size] at zeros
        simp only [List.nil_append, List.length_nil, Nat.sub_zero, List.map_replicate,
          UInt8.toNat_zero] at above
        exact absurd above (not_lt.mpr zeros)
      | cons c cut =>
        by_cases same : a = b
        · subst same
          simp only [List.cons_append, List.length_cons, Nat.add_sub_add_right,
            List.map_cons] at above below
          rw [List.cons_lt_cons_iff] at above
          rw [← not_lt, List.cons_lt_cons_iff, not_or] at below
          obtain ⟨head, tail⟩ := above.resolve_left below.1
          rw [sharedLen_cons_same, List.length_cons, Nat.add_lt_add_iff_right]
          exact ih bs cut (by simpa using size) (by simpa using short) tail
            (not_lt.mp fun past => below.2 ⟨head, past⟩)
        · rw [sharedLen_cons_ne same]
          exact Nat.succ_pos _

theorem boundAsItem_fromTs (ts : UInt64) :
    boundAsItem (Bound.fromTs ts) = ⟨ts, FixedBytes.zero 32⟩ := by
  simp [boundAsItem, Bound.fromTs, Bound.paddedId, FixedBytes.zero, idSize]

theorem boundAsItem_atItem (item : Item) :
    boundAsItem (Bound.atItem item.sortKey item.id) = item := by
  apply Item.ext
  · rfl
  · apply FixedBytes.ext
    simp [boundAsItem, Bound.atItem, Bound.paddedId, idSize, item.id.length_eq]

theorem itemIsBefore_iff (bound : Bound) (item : Item) :
    bound.itemIsBefore item.sortKey item.id = true ↔ item < boundAsItem bound := by
  rw [Item.lt_iff, Bound.itemIsBefore]
  by_cases same : item.sortKey = bound.ts
  · simp [same, boundAsItem]
  · have ne : item.sortKey.toNat ≠ bound.ts.toNat := fun h => same (UInt64.toNat_inj.mp h)
    simp [same, ne, boundAsItem]

theorem minSeparating_spec {prev next : Item} (lt : prev < next) :
    ∃ bound, Bound.minSeparating prev.sortKey prev.id next.sortKey next.id = some bound ∧
      prev < boundAsItem bound ∧ boundAsItem bound ≤ next := by
  rcases (Item.lt_iff prev next).mp lt with keys | ⟨keys, ids⟩
  · have ne : next.sortKey ≠ prev.sortKey := fun h => by rw [h] at keys; omega
    refine ⟨Bound.fromTs next.sortKey, by simp [Bound.minSeparating, ne], ?_, ?_⟩
    · rw [boundAsItem_fromTs]
      exact Item.lt_of_sortKey_lt keys
    · rw [boundAsItem_fromTs, Item.le_iff]
      exact Or.inr ⟨rfl, FixedBytes.zero_le next.id⟩
  · have same : next.sortKey = prev.sortKey := (UInt64.toNat_inj.mp keys).symm
    have size : prev.id.bytes.length = next.id.bytes.length := by
      rw [prev.id.length_eq, next.id.length_eq]
    obtain ⟨short, above, below⟩ := cut_between prev.id.bytes next.id.bytes size
      ((bytesLt_iff _ _).mpr ids)
    set k := sharedLen prev.id.bytes next.id.bytes with hk
    have total : next.id.bytes.length = 32 := next.id.length_eq
    have cut : (next.id.bytes.take (k + 1)).length = k + 1 :=
      List.length_take_of_le (by omega)
    have fits : (next.id.bytes.take (k + 1)).length ≤ idSize := by
      rw [cut]
      simp only [idSize]
      omega
    refine ⟨⟨next.sortKey, next.id.bytes.take (k + 1), fits⟩, ?_, ?_, ?_⟩
    · have range : slice next.id.bytes 0 (k + 1) = some (next.id.bytes.take (k + 1)) := by
        rw [slice_of_le (Nat.zero_le _) (by omega), List.drop_zero]
      simp only [Bound.minSeparating, same, ne_eq, not_true_eq_false, if_false]
      rw [show ((prev.id.bytes.zip next.id.bytes).takeWhile fun p => p.1 == p.2).length = k
        from hk.symm, range]
      simp only [Option.bind_eq_bind, Option.bind_some, Bound.new, dif_pos fits]
    · rw [Item.lt_iff]
      refine Or.inr ⟨keys, ?_⟩
      rw [FixedBytes.lt_def]
      simpa [boundAsItem, Bound.paddedId, idSize, cut, total] using above
    · rw [Item.le_iff]
      refine Or.inr ⟨rfl, ?_⟩
      rw [FixedBytes.le_def]
      simpa [boundAsItem, Bound.paddedId, idSize, cut, total] using below

theorem length_minSeparating {prev next : Item} {bound : Bound}
    (cut : Bound.minSeparating prev.sortKey prev.id next.sortKey next.id = some bound) :
    bound.ts = next.sortKey ∧ (bound.idPrefix = [] ∨ prev.sortKey = next.sortKey ∧
      bound.idPrefix.length ≤ sharedLen prev.id.bytes next.id.bytes + 1) := by
  by_cases same : next.sortKey = prev.sortKey
  · simp only [Bound.minSeparating, same, ne_eq, not_true_eq_false, if_false,
      Option.bind_eq_bind, Option.bind_eq_some_iff] at cut
    obtain ⟨bytes, taken, made⟩ := cut
    rw [slice, Option.ite_none_right_eq_some] at taken
    obtain rfl := Option.some.inj taken.2
    rw [Bound.new, Option.dite_none_right_eq_some] at made
    obtain ⟨fits, made⟩ := made
    obtain rfl := Option.some.inj made
    exact ⟨same.symm, Or.inr ⟨same.symm, by simp [sharedLen]⟩⟩
  · simp only [Bound.minSeparating, same, ne_eq, not_false_eq_true, if_true,
      Option.some.injEq] at cut
    subst cut
    exact ⟨rfl, Or.inl rfl⟩

/-- `min_separating` finds the shortest bound at its timestamp that has the first item before it
and the second one not, and never slices past the end of an id. -/
theorem minSeparating_minimal {prev curr : Item} (lt : prev < curr) :
    (∃ bound, Bound.minSeparating prev.sortKey prev.id curr.sortKey curr.id = some bound ∧
      bound.itemIsBefore prev.sortKey prev.id = true ∧
      bound.itemIsBefore curr.sortKey curr.id = false ∧
      ∀ other : Bound, other.ts = bound.ts →
        other.itemIsBefore prev.sortKey prev.id = true →
        other.itemIsBefore curr.sortKey curr.id = false →
          bound.idPrefix.length ≤ other.idPrefix.length) ∧
    ∀ (item : Item) (bound : Bound),
      bound.itemIsBefore item.sortKey item.id = decide (item < boundAsItem bound) := by
  have agrees (item : Item) (bound : Bound) :
      bound.itemIsBefore item.sortKey item.id = decide (item < boundAsItem bound) :=
    Bool.eq_iff_iff.mpr ((itemIsBefore_iff bound item).trans (decide_eq_true_iff).symm)
  obtain ⟨bound, made, above, below⟩ := minSeparating_spec lt
  refine ⟨⟨bound, made, ?_, ?_, ?_⟩, agrees⟩
  · rw [agrees, decide_eq_true above]
  · rw [agrees, decide_eq_false (not_lt.mpr below)]
  · intro other ts before after
    rw [agrees, decide_eq_true_iff] at before
    rw [agrees, decide_eq_false_iff_not, not_lt] at after
    obtain ⟨key, empty | ⟨keys, len⟩⟩ := length_minSeparating made
    · rw [empty]
      exact Nat.zero_le _
    · -- The other bound has the items' own sort key, so its padded id lies between theirs.
      have size : prev.id.bytes.length = curr.id.bytes.length :=
        prev.id.length_eq.trans curr.id.length_eq.symm
      have fits : other.idPrefix.length ≤ curr.id.bytes.length := by
        rw [curr.id.length_eq]
        exact other.idPrefix_le
      have tsKey : (boundAsItem other).sortKey = curr.sortKey := ts.trans key
      have low := (Item.lt_iff _ _).mp before
      have high := (Item.le_iff _ _).mp after
      rw [tsKey, keys] at low
      rw [tsKey] at high
      have past := sharedLen_lt_of_between prev.id.bytes curr.id.bytes other.idPrefix size fits
        (by simpa [boundAsItem, Bound.paddedId, FixedBytes.lt_def, idSize, curr.id.length_eq]
          using low)
        (by simpa [boundAsItem, Bound.paddedId, FixedBytes.le_def, idSize, curr.id.length_eq]
          using high)
      omega

theorem minSeparating_minimal_zeros :
    ∃ bound, Bound.minSeparating 7 (FixedBytes.zero 32) 7 IdSum.one = some bound ∧
      bound.itemIsBefore 7 (FixedBytes.zero 32) = true := by
  obtain ⟨⟨bound, made, before, -⟩, -⟩ := @minSeparating_minimal
    ⟨7, FixedBytes.zero 32⟩ ⟨7, IdSum.one⟩ (by decide)
  exact ⟨bound, made, before⟩

end Racnet.Proof.Negentropy
