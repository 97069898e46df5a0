import Racnet.Proof.Negentropy.Split

/-!
# What one range can lead to

The cases of `answerRange`, and of the list a responder sends, stated once.
-/

namespace Racnet.Proof.Negentropy
open Lib Store Sync

/-! ## The listing stops at the budget -/

theorem listedCount_zero (limit : Option Nat) (fullLen : Nat) : listedCount limit fullLen 0 = 0 := by
  cases limit with
  | none => rfl
  | some limit => simp [listedCount]

theorem listedCount_succ (limit : Option Nat) (fullLen count : Nat) :
    listedCount limit fullLen (count + 1) =
      if overBudget limit fullLen then 0 else 1 + listedCount limit (fullLen + 32) count := by
  cases limit with
  | none => simp [listedCount, overBudget, Nat.add_comm]
  | some limit =>
    simp only [listedCount, overBudget, Option.any_some, decide_eq_true_eq]
    split_ifs <;> omega

theorem listedCount_le (limit : Option Nat) (fullLen count : Nat) :
    listedCount limit fullLen count ≤ count := by
  cases limit with
  | none => exact le_rfl
  | some limit =>
    simp only [listedCount]
    split_ifs <;> omega

theorem overBudget_of_listedCount_lt {limit : Option Nat} {fullLen count : Nat}
    (short : listedCount limit fullLen count < count) :
    overBudget limit (fullLen + 32 * listedCount limit fullLen count) = true := by
  cases limit with
  | none => exact absurd short (lt_irrefl _)
  | some limit =>
    rw [overBudget, Option.any_some, decide_eq_true_eq]
    simp only [listedCount] at short ⊢
    split_ifs at short ⊢ with exceeded <;> omega

/-! ## Ranks and slices -/

theorem le_rankOf (side : Side) (start : Nat) (bound : Bound) : start ≤ side.rankOf start bound :=
  Nat.le_add_right _ _

theorem rankOf_le {side : Side} {start : Nat} (inside : start ≤ side.items.length)
    (bound : Bound) : side.rankOf start bound ≤ side.items.length := by
  have le := (List.takeWhile_sublist (l := side.items.drop start)
    fun item => decide (item < boundAsItem bound)).length_le
  rw [List.length_drop] at le
  rw [Side.rankOf, partitionPoint]
  omega

theorem length_slice {side : Side} {lo hi : Nat} (inside : hi ≤ side.items.length) :
    (side.slice lo hi).length = hi - lo := by
  rw [Side.slice, List.length_drop, List.length_take, Nat.min_eq_left inside]

theorem slice_sublist (side : Side) (lo hi : Nat) : (side.slice lo hi).Sublist side.items :=
  (List.drop_sublist _ _).trans (List.take_sublist _ _)

theorem listRange_spec {side : Side} (fullLen : Nat) {lower upper : Nat} (order : lower ≤ upper)
    (inside : upper ≤ side.items.length) (bound : Bound) :
    ∃ mid endBound, lower ≤ mid ∧ mid ≤ upper ∧
      side.listRange fullLen lower upper bound =
        (⟨endBound, .idList ((side.slice lower mid).map Item.id)⟩, mid) ∧
      (mid = upper ∧ endBound = bound ∨
        ∃ item, side.items[mid]? = some item ∧ mid < upper ∧
          endBound = Bound.atItem item.sortKey item.id ∧
          overBudget side.limit (fullLen + 32 * (mid - lower)) = true) := by
  have le := listedCount_le side.limit fullLen (upper - lower)
  by_cases all : listedCount side.limit fullLen (upper - lower) = upper - lower
  · refine ⟨upper, bound, order, le_rfl, ?_, Or.inl ⟨rfl, rfl⟩⟩
    rw [Side.listRange, if_pos all, all, Nat.add_sub_cancel' order]
  · have short : listedCount side.limit fullLen (upper - lower) < upper - lower :=
      lt_of_le_of_ne le all
    have exceeded := overBudget_of_listedCount_lt short
    set listed := listedCount side.limit fullLen (upper - lower) with hlisted
    have found := List.getElem?_eq_getElem (show lower + listed < side.items.length by omega)
    refine ⟨lower + listed, _, by omega, by omega, ?_,
      Or.inr ⟨_, found, by omega, rfl, by rwa [Nat.add_sub_cancel_left]⟩⟩
    simp only [Side.listRange, ← hlisted, if_neg all, found, Option.map_some, Option.getD_some]

variable [Sha256]

inductive AnswerStep (side : Side) (a : Answer) :
    WireRange → Answer → Nat → List WireRange → Prop
  | skip (bound : Bound) :
      AnswerStep side a ⟨bound, .skip⟩ { a with skip := true } (side.rankOf a.prevRank bound) []
  | agree (bound : Bound) :
      AnswerStep side a
        ⟨bound, .fingerprint (side.rangeFingerprint a.prevRank (side.rankOf a.prevRank bound))⟩
        { a with skip := true } (side.rankOf a.prevRank bound) []
  | split (bound : Bound) (fp : Fingerprint)
      (differ : fp ≠ side.rangeFingerprint a.prevRank (side.rankOf a.prevRank bound)) :
      AnswerStep side a ⟨bound, .fingerprint fp⟩ { a with skip := false }
        (side.rankOf a.prevRank bound)
        (a.pending ++ side.splitRanges a.prevRank (side.rankOf a.prevRank bound) bound)
  | compare (bound : Bound) (ids : List EntryId) (initiator : side.isInitiator = true) :
      AnswerStep side a ⟨bound, .idList ids⟩
        { a with
          skip := true
          haveIds := a.haveIds ++ ((side.slice a.prevRank (side.rankOf a.prevRank bound)).map
            Item.id).filter fun id => decide (id ∉ ids)
          needIds := a.needIds ++ ids.filter fun id => decide (id ∉
            (side.slice a.prevRank (side.rankOf a.prevRank bound)).map Item.id) }
        (side.rankOf a.prevRank bound) []
  | list (bound : Bound) (ids : List EntryId) (responder : side.isInitiator = false) (mid : Nat)
      (endBound : Bound) (lower : a.prevRank ≤ mid) (upper : mid ≤ side.rankOf a.prevRank bound)
      (stop : mid = side.rankOf a.prevRank bound ∧ endBound = bound ∨
        ∃ item, side.items[mid]? = some item ∧ mid < side.rankOf a.prevRank bound ∧
          endBound = Bound.atItem item.sortKey item.id ∧
          overBudget side.limit (messageLen a.out + 32 * (mid - a.prevRank)) = true) :
      AnswerStep side a ⟨bound, .idList ids⟩
        { a with
          skip := false
          out := a.out ++ (a.pending ++
            [⟨endBound, .idList ((side.slice a.prevRank mid).map Item.id)⟩]) }
        mid []

theorem answerRange_step {side : Side} {a a' : Answer} {r : WireRange} {upper : Nat}
    {dropped : List WireRange} (inside : a.prevRank ≤ side.items.length)
    (step : side.answerRange a r = (a', upper, dropped)) :
    AnswerStep side a r a' upper dropped := by
  rcases r with ⟨bound, payload⟩
  cases payload with
  | skip =>
    cases step
    exact .skip bound
  | fingerprint fp =>
    simp only [Side.answerRange] at step
    split_ifs at step with differ
    · cases step
      exact .split bound fp differ
    · cases step
      rw [not_ne_iff.mp differ]
      exact .agree bound
  | idList ids =>
    simp only [Side.answerRange] at step
    split_ifs at step with initiator
    · cases step
      exact .compare bound ids initiator
    · obtain ⟨mid, endBound, lower, above, sent, stop⟩ := listRange_spec (messageLen a.out)
        (le_rankOf side a.prevRank bound) (rankOf_le inside bound) bound
      rw [sent] at step
      cases step
      exact .list bound ids (by simpa using initiator) _ endBound lower above stop

section Ranges

variable {side : Side} {a a' : Answer} {r : WireRange} {upper : Nat} {dropped : List WireRange}
  (answered : side.answerRange a r = (a', upper, dropped))
include answered

theorem answerRanges_of_over (rs : List WireRange)
    (exceeded : overBudget side.limit (messageLen (a'.out ++ dropped)) = true) :
    side.answerRanges a (r :: rs) =
      { a' with out := a'.out ++ [side.continuation upper] } := by
  rw [Side.answerRanges]
  simp only [answered, if_pos exceeded]

theorem answerRanges_of_room (rs : List WireRange)
    (room : ¬ overBudget side.limit (messageLen (a'.out ++ dropped)) = true) :
    side.answerRanges a (r :: rs) = side.answerRanges
      { a' with out := a'.out ++ dropped, prevRank := upper, prevBound := r.bound } rs := by
  rw [Side.answerRanges]
  simp only [answered, if_neg room]

end Ranges

section Out

variable {side : Side} {a a' : Answer} {r : WireRange} {upper : Nat} {dropped : List WireRange}
  (step : AnswerStep side a r a' upper dropped)
include step

theorem AnswerStep.quiet (skip : a'.skip = true) : a'.out = a.out ∧ dropped = [] := by
  cases step with
  | skip bound => exact ⟨rfl, rfl⟩
  | agree bound => exact ⟨rfl, rfl⟩
  | compare bound ids initiator => exact ⟨rfl, rfl⟩
  | split bound fp differ => exact absurd skip (by simp)
  | list bound ids responder _ endBound lower within stop => exact absurd skip (by simp)

theorem AnswerStep.of_dropped (cut : dropped ≠ []) :
    a'.out = a.out ∧ upper = side.rankOf a.prevRank r.bound := by
  cases step with
  | skip bound => exact ⟨rfl, rfl⟩
  | agree bound => exact ⟨rfl, rfl⟩
  | compare bound ids initiator => exact ⟨rfl, rfl⟩
  | split bound fp differ => exact ⟨rfl, rfl⟩
  | list bound ids responder _ endBound lower within stop => exact absurd rfl cut

end Out

end Racnet.Proof.Negentropy
