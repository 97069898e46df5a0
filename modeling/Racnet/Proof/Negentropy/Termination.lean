import Mathlib.Data.Prod.Lex
import Mathlib.Order.WellFounded
import Racnet.Proof.Negentropy.Safety

/-!
# Every message is lighter than the one before it

A message weighs what is left from its first open range on, then what is under that range, then how
far the range is from being compared. A reply answers the first open range it reads before the
budget can be spent, so it is lighter or it is empty.
-/

namespace Racnet.Proof.Negentropy
open Lib Store Sync

/-! ## Sizes -/

theorem rangesLen_le (last : UInt64) (ranges : List WireRange) :
    rangesLen last ranges ≤ (ranges.map fun r => 43 + payloadLen r.payload).sum := by
  induction ranges generalizing last with
  | nil => exact le_rfl
  | cons r rs ih =>
    have head := boundLen_le last r.bound
    have tail := ih r.bound.ts
    simp only [rangesLen, List.map_cons, List.sum_cons]
    omega

variable [Sha256]

theorem splitRanges_size (side : Side) (lower upper : Nat) (bound : Bound) :
    ((side.splitRanges lower upper bound).map fun r => 43 + payloadLen r.payload).sum ≤ 1037 := by
  rw [Side.splitRanges]
  split_ifs with small
  · have count : (side.slice lower upper).length ≤ upper - lower := by
      rw [Side.slice, List.length_drop, List.length_take]
      omega
    simp only [idListThreshold, buckets] at small
    have digits := varintLen_le (k := 1) (by decide)
      (show (side.slice lower upper).length < 2 ^ (7 * 1) by omega)
    simp only [List.map_cons, List.map_nil, List.sum_cons, List.sum_nil, payloadLen,
      List.length_map]
    omega
  · have each : ((fun r => 43 + payloadLen r.payload) ∘ side.bucketRange lower upper bound) =
        fun _ => 60 := rfl
    rw [List.map_map, each]
    decide

theorem first_split_fits {side : Side} (ok : SideOk side) {a : Answer} (empty : a.out = [])
    (lower upper : Nat) (bound : Bound) :
    ¬ overBudget side.limit (messageLen (a.out ++ (a.pending ++
      side.splitRanges lower upper bound))) = true := by
  cases limit : side.limit with
  | none => simp [overBudget]
  | some limit' =>
    have floor : frameLimitFloor ≤ limit' := ok.limit limit' limit
    have split := splitRanges_size side lower upper bound
    have total := rangesLen_le 0 (a.pending ++ side.splitRanges lower upper bound)
    have pending : (a.pending.map fun r => 43 + payloadLen r.payload).sum ≤ 44 := by
      rw [Answer.pending]
      split_ifs <;> simp [payloadLen]
    rw [List.map_append, List.sum_append] at total
    simp only [overBudget, Option.any_some, decide_eq_true_eq, empty, List.nil_append, messageLen]
    simp only [frameLimitFloor, frameMargin] at floor ⊢
    omega

/-! ## The first open range -/

omit [Sha256] in
/-- The first range that is not a skip, and where it starts. Nothing lies at the top. -/
def firstOpen : Item → List WireRange → Option (Item × WireRange)
  | _, [] => none
  | lo, r :: rs => if r.payload = .skip ∨ lo = top then firstOpen (pos r) rs else some (lo, r)

omit [Sha256] in
theorem firstOpen_append {lo : Item} {xs : List WireRange} {found : Item × WireRange}
    (ys : List WireRange) (some : firstOpen lo xs = .some found) :
    firstOpen lo (xs ++ ys) = .some found := by
  induction xs generalizing lo with
  | nil => exact absurd some (by simp [firstOpen])
  | cons x xs ih =>
    rw [List.cons_append, firstOpen]
    rw [firstOpen] at some
    split_ifs at some ⊢ with closed
    · exact ih some
    · exact some

omit [Sha256] in
theorem le_firstOpen {P : Item → WireRange → Prop} (bounded : ∀ lo r, P lo r → pos r ≤ top)
    {lo start : Item} {ranges : List WireRange} {r : WireRange} (laid : Segments pos P lo ranges)
    (below : lo ≤ top) (found : firstOpen lo ranges = some (start, r)) :
    lo ≤ start ∧ start ≤ top := by
  induction ranges generalizing lo with
  | nil => exact absurd found (by simp [firstOpen])
  | cons x xs ih =>
    rw [firstOpen] at found
    split_ifs at found with closed
    · obtain ⟨after, before⟩ := ih laid.2.2 (bounded lo x laid.2.1) found
      exact ⟨le_trans laid.1 after, before⟩
    · obtain ⟨rfl, -⟩ := Prod.mk.inj (Option.some.inj found)
      exact ⟨le_rfl, below⟩

omit [Sha256] in
/-- How far a range is from being compared: fingerprints are farthest, a list on its way back to the
initiator is there. -/
def stage (toInitiator : Bool) : Payload → Nat
  | .skip => 0
  | .fingerprint _ => 2
  | .idList _ => if toInitiator then 0 else 1

omit [Sha256] in
def effort (union : List Item) (toInitiator : Bool) (lo : Item) (r : WireRange) :
    ℕ ×ₗ ℕ ×ₗ ℕ :=
  toLex (weight top union lo top, toLex (weight top union lo (pos r), stage toInitiator r.payload))

omit [Sha256] in
theorem effort_lt_iff {union : List Item} {there back : Bool} {lo lo' : Item} {r r' : WireRange} :
    effort union back lo' r' < effort union there lo r ↔
      weight top union lo' top < weight top union lo top ∨
      weight top union lo' top = weight top union lo top ∧
        (weight top union lo' (pos r') < weight top union lo (pos r) ∨
          weight top union lo' (pos r') = weight top union lo (pos r) ∧
            stage back r'.payload < stage there r.payload) := by
  rw [effort, effort, Prod.Lex.toLex_lt_toLex, Prod.Lex.toLex_lt_toLex]

/-! ## One range -/

section Step

variable {side : Side} {peer union : List Item} {p : Item} {a a' : Answer} {r : WireRange}
  {upper : Nat} {dropped : List WireRange} (ok : SideOk side) (subset : side.items ⊆ union)
  (follow : Following side p a) (order : p ≤ pos r) (honest : Honest peer union p r)
  (step : AnswerStep side a r a' upper dropped)
include ok subset follow order honest step

theorem first_emission (empty : a.out = []) (answers : a'.skip = false) :
    0 < weight top union p (pos r) ∧ r.payload ≠ .skip ∧
      ∃ first rest, first.payload ≠ .skip ∧
        effort union (!side.isInitiator) p first < effort union side.isInitiator p r ∧
        (a'.out ++ dropped = a.pending ++ first :: rest ∧
          ¬ overBudget side.limit (messageLen (a'.out ++ dropped)) = true ∨
        a'.out = a.pending ++ first :: rest) := by
  have reach := follow.rankOf order
  cases step with
  | skip bound => exact absurd answers (by simp)
  | agree bound => exact absurd answers (by simp)
  | compare bound ids initiator => exact absurd answers (by simp)
  | split bound fp differ =>
    have weighty := split_weighty ok follow order honest differ
    obtain ⟨first, rest, split, lighter⟩ := splitRanges_head ok subset (p := p) rfl honest.below
    have sent : side.splitRanges a.prevRank (side.rankOf a.prevRank bound) bound =
        first :: rest := by
      rw [reach, follow.rank]
      exact split
    refine ⟨weighty, by simp, first, rest, ?_, ?_, Or.inl ⟨?_, first_split_fits ok empty _ _ _⟩⟩
    · rcases lighter with ⟨-, visible⟩ | ⟨-, ids, listed⟩
      · exact visible
      · simp [listed]
    · rw [effort_lt_iff]
      refine Or.inr ⟨rfl, ?_⟩
      rcases lighter with ⟨lt, -⟩ | ⟨whole, ids, listed⟩
      · exact Or.inl lt
      · refine Or.inr ⟨by rw [whole]; rfl, ?_⟩
        rw [listed, stage, stage]
        split_ifs <;> decide
    · rw [sent, empty, List.nil_append]
  | list bound ids responder _ endBound lower within stop =>
    have weighty := (honest.idList rfl).2
    obtain ⟨start, before, -, -⟩ := list_reach ok subset follow order weighty lower stop
    refine ⟨weighty, by simp, ⟨endBound, .idList ((side.slice a.prevRank upper).map Item.id)⟩, [],
      by simp, ?_, Or.inr ?_⟩
    · have split := weight_add union start before honest.below
      rw [effort_lt_iff]
      refine Or.inr ⟨rfl, ?_⟩
      rcases Nat.eq_zero_or_pos (weight top union (boundAsItem endBound) (boundAsItem bound)) with
        zero | positive
      · refine Or.inr ⟨?_, ?_⟩
        · rw [pos, pos, split, zero, Nat.add_zero]
        · rw [responder, stage, stage]
          decide
      · refine Or.inl ?_
        rw [pos, pos, split]
        exact Nat.lt_add_of_pos_right positive
    · rw [empty, List.nil_append]

end Step

/-! ## Whole messages -/

theorem answerRange_extends (side : Side) (a : Answer) (r : WireRange) :
    a.out <+: (side.answerRange a r).1.out := by
  simp only [Side.answerRange]
  split
  · exact List.prefix_rfl
  · split_ifs <;> exact List.prefix_rfl
  · split_ifs
    · exact List.prefix_rfl
    · exact List.prefix_append _ _

theorem answerRanges_extends (side : Side) (a : Answer) (ranges : List WireRange) :
    a.out <+: (side.answerRanges a ranges).out := by
  induction ranges generalizing a with
  | nil => exact List.prefix_rfl
  | cons r rs ih =>
    rcases answered : side.answerRange a r with ⟨a', upper, dropped⟩
    have grows := answerRange_extends side a r
    rw [answered] at grows
    by_cases exceeded : overBudget side.limit (messageLen (a'.out ++ dropped)) = true
    · rw [answerRanges_of_over answered rs exceeded]
      exact grows.trans (List.prefix_append _ _)
    · rw [answerRanges_of_room answered rs exceeded]
      exact (grows.trans (List.prefix_append _ dropped)).trans (ih
        { a' with out := a'.out ++ dropped, prevRank := upper, prevBound := r.bound })

omit [Sha256] in
theorem firstOpen_pending {side : Side} {p : Item} {a : Answer} (follow : Following side p a)
    (empty : a.out = []) {first : WireRange} (visible : first.payload ≠ .skip) (below : p < top)
    (rest : List WireRange) :
    firstOpen bottom (a.pending ++ first :: rest) = some (p, first) := by
  have here : firstOpen p (first :: rest) = some (p, first) := by
    rw [firstOpen, if_neg (not_or.mpr ⟨visible, below.ne⟩)]
  rw [Answer.pending]
  cases skip : a.skip with
  | true =>
    rw [if_pos rfl, List.singleton_append, firstOpen, if_pos (Or.inl rfl)]
    rwa [pos, follow.position]
  | false =>
    have start := follow.flushed skip
    rw [empty, endOf_nil] at start
    rwa [if_neg (by simp), List.nil_append, start]

theorem answerRanges_lighter {side : Side} {peer union : List Item} (ok : SideOk side)
    (subset : side.items ⊆ union) {p : Item} {a : Answer} (follow : Following side p a)
    (empty : a.out = []) {ranges : List WireRange}
    (received : Segments pos (Honest peer union) p ranges) :
    (side.answerRanges a ranges).out = [] ∨
      ∃ lo r lo' r', firstOpen p ranges = some (lo, r) ∧
        firstOpen bottom (side.answerRanges a ranges).out = some (lo', r') ∧
        effort union (!side.isInitiator) lo' r' < effort union side.isInitiator lo r := by
  induction ranges generalizing p a with
  | nil => exact Or.inl empty
  | cons r rs ih =>
    obtain ⟨order, honest, later⟩ := received
    rcases answered : side.answerRange a r with ⟨a', upper, dropped⟩
    have step := answerRange_step follow.inside answered
    cases quiet : a'.skip with
    | false =>
      obtain ⟨weighty, visible, first, rest, shown, lighter, sent⟩ :=
        first_emission ok subset follow order honest step empty quiet
      have below : p < top := lt_of_lt_of_le (lt_of_weight_pos weighty) honest.below
      refine Or.inr ⟨p, r, p, first, ?_, ?_, lighter⟩
      · rw [firstOpen, if_neg (not_or.mpr ⟨visible, below.ne⟩)]
      · have front : a.pending ++ first :: rest <+: (side.answerRanges a (r :: rs)).out := by
          rcases sent with ⟨whole, room⟩ | out
          · rw [answerRanges_of_room answered rs room, ← whole]
            exact answerRanges_extends side
              { a' with out := a'.out ++ dropped, prevRank := upper, prevBound := r.bound } rs
          · rw [← out]
            by_cases exceeded : overBudget side.limit (messageLen (a'.out ++ dropped)) = true
            · rw [answerRanges_of_over answered rs exceeded]
              exact List.prefix_append _ _
            · rw [answerRanges_of_room answered rs exceeded]
              exact (List.prefix_append _ dropped).trans (answerRanges_extends side
                { a' with out := a'.out ++ dropped, prevRank := upper, prevBound := r.bound } rs)
        obtain ⟨more, whole⟩ := front
        rw [← whole]
        exact firstOpen_append more (firstOpen_pending follow empty shown below rest)
    | true =>
      obtain ⟨same, rfl⟩ := step.quiet quiet
      have room : ¬ overBudget side.limit (messageLen (a'.out ++ [])) = true := by
        rw [List.append_nil, same]
        exact follow.budget
      have next := following_step ok subset follow order honest step room
      rw [answerRanges_of_room answered rs room]
      rcases ih next (by simp [same, empty]) later with done | ⟨lo, r₁, lo', r', open₁, open', lt⟩
      · exact Or.inl done
      · right
        rw [firstOpen]
        split_ifs with closed
        · exact ⟨lo, r₁, lo', r', open₁, open', lt⟩
        · rw [not_or] at closed
          have below : p < top := lt_of_le_of_ne follow.below closed.2
          have weighty : 0 < weight top union p (pos r) := by
            rcases honest.content with skipped | ⟨-, weighty⟩ | ⟨ends, -⟩
            · exact absurd skipped closed.1
            · exact weighty
            · rw [ends]
              exact weight_top_pos below
          refine ⟨p, r, lo', r', rfl, open', lt_trans lt ?_⟩
          obtain ⟨start, bounded⟩ := le_firstOpen (fun _ _ h => h.below) later honest.below open₁
          have whole := weight_add union order honest.below (le_refl top)
          have tail := weight_add union start bounded (le_refl top)
          rw [effort_lt_iff]
          left
          omega

end Racnet.Proof.Negentropy
