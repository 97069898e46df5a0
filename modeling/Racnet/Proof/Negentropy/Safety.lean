import Racnet.Proof.Negentropy.Layout

/-!
# What an honest side sends

The ranges of a message lie end to end from the bottom of the item order. `Following` is the
position of a side in the middle of a message, and `answerRange_segments` says once what one range
adds to the reply; that the reply is honest again, and later that it is complete, are instances.
-/

namespace Racnet.Proof.Negentropy
open Lib Store Sync

/-- The state of a side that has answered everything before `p`. -/
structure Following (side : Side) (p : Item) (a : Answer) : Prop where
  position : boundAsItem a.prevBound = p
  rank : a.prevRank = Lib.rank side.items p
  below : p ≤ top
  covered : endOf pos bottom a.out ≤ p
  flushed : a.skip = false → endOf pos bottom a.out = p
  budget : ¬ overBudget side.limit (messageLen a.out) = true

theorem overBudget_mono {limit : Option Nat} {m n : Nat} (le : m ≤ n)
    (exceeded : overBudget limit m = true) : overBudget limit n = true := by
  cases limit with
  | none => exact exceeded
  | some limit =>
    simp only [overBudget, Option.any_some, decide_eq_true_eq] at exceeded ⊢
    omega

variable [Sha256]

/-- A range that a sender holding `items` may send when it starts at `lo`. The last case is the
fingerprint sent at the budget: the peer reads it from `lo` on, but it was taken from `m` on. -/
structure Honest (items union : List Item) (lo : Item) (r : WireRange) : Prop where
  below : pos r ≤ top
  content : r.payload = .skip ∨ Exact items lo r ∧ 0 < weight top union lo (pos r) ∨
    pos r = top ∧ ∃ m, lo ≤ m ∧
      r.payload = .fingerprint (SealedVec.fingerprintOf (between m top items))

namespace Honest

variable {items union : List Item} {lo : Item} {r : WireRange}

theorem idList (honest : Honest items union lo r) {ids : List EntryId}
    (listed : r.payload = .idList ids) :
    ids = (between lo (pos r) items).map Item.id ∧ 0 < weight top union lo (pos r) := by
  rcases honest.content with skipped | ⟨exactFp | exactList, weighty⟩ | ⟨-, m, -, fp⟩
  · rw [listed] at skipped
    exact absurd skipped (by simp)
  · rw [listed] at exactFp
    exact absurd exactFp (by simp)
  · rw [listed] at exactList
    exact ⟨Payload.idList.inj exactList, weighty⟩
  · rw [listed] at fp
    exact absurd fp (by simp)

theorem weighty_of_differ (honest : Honest items union lo r) (order : lo ≤ pos r) {fp : Fingerprint}
    (sent : r.payload = .fingerprint fp) (mine : List Item)
    (differ : fp ≠ SealedVec.fingerprintOf (between lo (pos r) mine)) :
    0 < weight top union lo (pos r) := by
  rcases honest.content with skipped | ⟨-, weighty⟩ | ⟨ends, m, le, rest⟩
  · rw [sent] at skipped
    exact absurd skipped (by simp)
  · exact weighty
  · rcases lt_or_eq_of_le order with lt | same
    · rw [ends] at lt ⊢
      exact weight_top_pos lt
    · rw [sent] at rest
      rw [← same, between_eq_nil_of_le le_rfl, Payload.fingerprint.inj rest,
        between_eq_nil_of_le (by rw [← ends, ← same]; exact le)] at differ
      exact absurd rfl differ

end Honest

section Step

variable {side : Side} {p : Item} {a a' : Answer} {r : WireRange} {upper : Nat}
  {dropped : List WireRange} {P : Item → WireRange → Prop}

omit [Sha256] in
theorem Following.inside (follow : Following side p a) : a.prevRank ≤ side.items.length := by
  rw [follow.rank]
  exact rank_le_length side.items p

omit [Sha256] in
theorem Following.rankOf (follow : Following side p a) {bound : Bound}
    (order : p ≤ boundAsItem bound) :
    side.rankOf a.prevRank bound = Lib.rank side.items (boundAsItem bound) := by
  rw [follow.rank]
  exact rankOf_rank side order

omit [Sha256] in
theorem Following.endOf_flush (follow : Following side p a) (new : List WireRange) :
    endOf pos bottom (a.out ++ (a.pending ++ new)) = endOf pos p new := by
  rw [endOf_append, Answer.pending]
  cases skip : a.skip with
  | false =>
    rw [follow.flushed skip]
    rfl
  | true =>
    have ends : pos ⟨a.prevBound, .skip⟩ = p := follow.position
    rw [if_pos rfl, List.singleton_append, endOf_cons, ends]

omit [Sha256] in
theorem Following.flush (follow : Following side p a) (sent : Segments pos P bottom a.out)
    (skips : a.skip = true → P (endOf pos bottom a.out) ⟨a.prevBound, .skip⟩)
    {new : List WireRange} (laid : Segments pos P p new) :
    Segments pos P bottom (a.out ++ (a.pending ++ new)) := by
  rw [Segments.append_iff, Answer.pending]
  cases skip : a.skip with
  | false =>
    rw [follow.flushed skip]
    exact ⟨sent, laid⟩
  | true =>
    have ends : pos ⟨a.prevBound, .skip⟩ = p := follow.position
    refine ⟨sent, ?_, skips skip, ?_⟩
    · rw [ends]
      exact follow.covered
    · rwa [ends]

omit [Sha256] in
/-- A list that a responder sends ends at a position with the rank at which it stopped, within the
range it answers, and it has weight if that range has. -/
theorem list_reach {union : List Item} (ok : SideOk side) (subset : side.items ⊆ union)
    (follow : Following side p a) {bound endBound : Bound} (order : p ≤ boundAsItem bound)
    (weighty : 0 < weight top union p (boundAsItem bound)) {mid : Nat} (lower : a.prevRank ≤ mid)
    (stop : mid = side.rankOf a.prevRank bound ∧ endBound = bound ∨
      ∃ item, side.items[mid]? = some item ∧ mid < side.rankOf a.prevRank bound ∧
        endBound = Bound.atItem item.sortKey item.id ∧
        overBudget side.limit (messageLen a.out + 32 * (mid - a.prevRank)) = true) :
    p ≤ boundAsItem endBound ∧ boundAsItem endBound ≤ boundAsItem bound ∧
      mid = rank side.items (boundAsItem endBound) ∧
      0 < weight top union p (boundAsItem endBound) := by
  rw [follow.rankOf order] at stop
  rcases stop with ⟨whole, rfl⟩ | ⟨item, found, short, rfl, exceeded⟩
  · exact ⟨order, le_rfl, whole, weighty⟩
  · obtain ⟨h, rfl⟩ := List.getElem?_eq_some_iff.mp found
    rw [boundAsItem_atItem]
    have listed : a.prevRank < mid := by
      rcases Nat.lt_or_eq_of_le lower with lt | same
      · exact lt
      · rw [same, Nat.sub_self, Nat.mul_zero, Nat.add_zero] at exceeded
        exact absurd exceeded follow.budget
    have first : a.prevRank < side.items.length := lt_trans listed h
    have start : p ≤ side.items[a.prevRank] := by
      rw [← not_lt, getElem_lt_iff ok.sorted first, follow.rank]
      exact lt_irrefl _
    have ascends : side.items[a.prevRank] < side.items[mid] :=
      List.pairwise_iff_getElem.mp ok.sorted _ _ first h listed
    exact ⟨le_trans start ascends.le, ((getElem_lt_iff ok.sorted h).mpr short).le,
      (rank_getElem ok.sorted h).symm,
      weight_pos_of_mem (subset (List.getElem_mem first)) start ascends⟩

theorem split_weighty {peer union : List Item} (ok : SideOk side) (follow : Following side p a)
    {bound : Bound} {fp : Fingerprint} (order : p ≤ boundAsItem bound)
    (honest : Honest peer union p ⟨bound, .fingerprint fp⟩)
    (differ : fp ≠ side.rangeFingerprint a.prevRank (side.rankOf a.prevRank bound)) :
    0 < weight top union p (boundAsItem bound) := by
  refine honest.weighty_of_differ order rfl side.items ?_
  rwa [Side.rangeFingerprint, follow.rankOf order, follow.rank, ok.slice_eq] at differ

variable {peer union : List Item} (ok : SideOk side) (subset : side.items ⊆ union)
  (follow : Following side p a) (order : p ≤ pos r) (honest : Honest peer union p r)
  (step : AnswerStep side a r a' upper dropped)
include ok subset follow order honest step

theorem answerRange_segments (sent : Segments pos P bottom a.out)
    (skips : a.skip = true → P (endOf pos bottom a.out) ⟨a.prevBound, .skip⟩)
    (exactly : ∀ lo r', Exact side.items lo r' → 0 < weight top union lo (pos r') →
      pos r' ≤ top → P lo r')
    (rest : ∀ q, q ≤ top → P q (side.continuation (rank side.items q)))
    (cut : dropped ≠ [] → overBudget side.limit (messageLen (a'.out ++ dropped)) = true →
      P (endOf pos bottom a.out) (side.continuation (rank side.items (pos r)))) :
    if overBudget side.limit (messageLen (a'.out ++ dropped)) = true then
      Segments pos P bottom (a'.out ++ [side.continuation upper])
    else Segments pos P bottom (a'.out ++ dropped) := by
  have quiet : ¬ overBudget side.limit (messageLen (a.out ++ [])) = true := by
    rw [List.append_nil]
    exact follow.budget
  have reach := follow.rankOf order
  cases step with
  | skip bound =>
    rw [if_neg quiet, List.append_nil]
    exact sent
  | agree bound =>
    rw [if_neg quiet, List.append_nil]
    exact sent
  | compare bound ids initiator =>
    rw [if_neg quiet, List.append_nil]
    exact sent
  | split bound fp differ =>
    have weighty := split_weighty ok follow order honest differ
    rw [reach, follow.rank] at cut ⊢
    split_ifs with exceeded
    · rw [Segments.append_iff]
      refine ⟨sent, le_trans follow.covered follow.below, cut ?_ exceeded, trivial⟩
      obtain ⟨head, tail, split, -⟩ := splitRanges_head ok subset (p := p) rfl honest.below
      rw [split]
      simp
    · obtain ⟨laid, -⟩ := splitRanges_segments ok subset order rfl weighty
      exact follow.flush sent skips (laid.imp fun lo r' _ h =>
        exactly lo r' h.1 h.2.1 (le_trans h.2.2 honest.below))
  | list bound ids responder _ endBound lower within stop =>
    obtain ⟨start, before, stops, weighty⟩ :=
      list_reach ok subset follow order (honest.idList rfl).2 lower stop
    have below : boundAsItem endBound ≤ top := le_trans before honest.below
    have listed : P p ⟨endBound, .idList ((side.slice a.prevRank upper).map Item.id)⟩ := by
      refine exactly p _ (Or.inr ?_) weighty below
      rw [stops, follow.rank, ok.slice_eq]
      rfl
    have laid : Segments pos P bottom (a.out ++ (a.pending ++ [⟨endBound, .idList _⟩])) :=
      follow.flush sent skips ⟨start, listed, trivial⟩
    split_ifs with exceeded
    · rw [Segments.append_iff, follow.endOf_flush, endOf_cons, endOf_nil, stops]
      rw [stops] at laid
      exact ⟨laid, below, rest _ below, trivial⟩
    · rw [List.append_nil]
      exact laid

theorem following_step
    (free : ¬ overBudget side.limit (messageLen (a'.out ++ dropped)) = true) :
    Following side (pos r)
      { a' with out := a'.out ++ dropped, prevRank := upper, prevBound := r.bound } := by
  have reach := follow.rankOf order
  have covered : endOf pos bottom (a.out ++ []) ≤ pos r := by
    rw [List.append_nil]
    exact le_trans follow.covered order
  cases step with
  | skip bound => exact ⟨rfl, reach, honest.below, covered, fun h => absurd h (by simp), free⟩
  | agree bound => exact ⟨rfl, reach, honest.below, covered, fun h => absurd h (by simp), free⟩
  | compare bound ids initiator =>
    exact ⟨rfl, reach, honest.below, covered, fun h => absurd h (by simp), free⟩
  | split bound fp differ =>
    have weighty := split_weighty ok follow order honest differ
    have ends := (splitRanges_segments ok subset order rfl weighty).2
    have stop : endOf pos bottom (a.out ++ (a.pending ++ side.splitRanges a.prevRank
        (side.rankOf a.prevRank bound) bound)) = boundAsItem bound := by
      rw [follow.endOf_flush, reach, follow.rank]
      exact ends
    exact ⟨rfl, reach, honest.below, stop.le, fun _ => stop, free⟩
  | list bound ids responder _ endBound lower within stop =>
    rcases stop with ⟨whole, rfl⟩ | ⟨item, found, short, -, exceeded⟩
    · have ends : endOf pos bottom (a.out ++ (a.pending ++ [⟨endBound, .idList
          ((side.slice a.prevRank upper).map Item.id)⟩]) ++ []) = boundAsItem endBound := by
        rw [List.append_nil, follow.endOf_flush]
        rfl
      exact ⟨rfl, whole.trans reach, honest.below, ends.le, fun _ => ends, free⟩
    · have size : upper ≤ side.items.length :=
        le_trans within (rankOf_le follow.inside bound)
      refine absurd (overBudget_mono ?_ exceeded) free
      rw [List.append_nil, messageLen_append, rangesLen_append]
      simp only [rangesLen, payloadLen, List.length_map, length_slice size]
      omega

end Step

/-! ## Whole messages -/

/-- What each range preserves holds of a whole message: `I` is carried from range to range, and `J`
holds of the result, whether the message was read to its end or cut off at the budget. -/
theorem answerRanges_induction {side : Side} {R : Item → WireRange → Prop}
    {I : Item → Answer → Prop} {J : Answer → Prop}
    (inside : ∀ p a, I p a → a.prevRank ≤ side.items.length)
    (next : ∀ p a r a' upper dropped, I p a → p ≤ pos r → R p r →
      AnswerStep side a r a' upper dropped →
      ¬ overBudget side.limit (messageLen (a'.out ++ dropped)) = true →
      I (pos r) { a' with out := a'.out ++ dropped, prevRank := upper, prevBound := r.bound })
    (stop : ∀ p a r a' upper dropped, I p a → p ≤ pos r → R p r →
      AnswerStep side a r a' upper dropped →
      overBudget side.limit (messageLen (a'.out ++ dropped)) = true →
      J { a' with out := a'.out ++ [side.continuation upper] })
    {p : Item} {a : Answer} {ranges : List WireRange} (received : Segments pos R p ranges)
    (finish : ∀ a, I (endOf pos p ranges) a → J a) (start : I p a) :
    J (side.answerRanges a ranges) := by
  induction ranges generalizing p a with
  | nil => exact finish a start
  | cons r rs ih =>
    obtain ⟨order, holds, later⟩ := received
    rcases answered : side.answerRange a r with ⟨a', upper, dropped⟩
    have step := answerRange_step (inside p a start) answered
    by_cases exceeded : overBudget side.limit (messageLen (a'.out ++ dropped)) = true
    · rw [answerRanges_of_over answered rs exceeded]
      exact stop p a r a' upper dropped start order holds step exceeded
    · rw [answerRanges_of_room answered rs exceeded]
      exact ih later finish (next p a r a' upper dropped start order holds step exceeded)

omit [Sha256] in
theorem following_start {side : Side} (ok : SideOk side) : Following side bottom .start where
  position := rfl
  rank := (rank_bottom side.items).symm
  below := bottom_lt_top.le
  covered := le_rfl
  flushed _ := rfl
  budget := by
    cases limit : side.limit with
    | none => simp [overBudget]
    | some limit' =>
      have floor : frameLimitFloor ≤ limit' := ok.limit limit' limit
      simp only [frameLimitFloor] at floor
      simp only [overBudget, Option.any_some, decide_eq_true_eq, frameMargin, Answer.start,
        messageLen, rangesLen]
      omega

theorem continuation_eq {side : Side} (ok : SideOk side) (q : Item) :
    side.continuation (rank side.items q) =
      ⟨Bound.infinity, .fingerprint (SealedVec.fingerprintOf (between q top side.items))⟩ := by
  rw [Side.continuation, Side.rangeFingerprint, ← ok.rank_top, ok.slice_eq]

theorem answerRanges_honest {side : Side} {peer union : List Item} (ok : SideOk side)
    (subset : side.items ⊆ union) {ranges : List WireRange}
    (received : Segments pos (Honest peer union) bottom ranges) :
    Segments pos (Honest side.items union) bottom (side.answerRanges .start ranges).out := by
  have exactly : ∀ lo r', Exact side.items lo r' → 0 < weight top union lo (pos r') →
      pos r' ≤ top → Honest side.items union lo r' :=
    fun lo r' exact weighty below => ⟨below, Or.inr (Or.inl ⟨exact, weighty⟩)⟩
  have fromHere : ∀ lo q, lo ≤ q →
      Honest side.items union lo (side.continuation (rank side.items q)) := by
    intro lo q le
    rw [continuation_eq ok]
    exact ⟨le_rfl, Or.inr (Or.inr ⟨rfl, q, le, rfl⟩)⟩
  have added : ∀ p a r a' upper dropped,
      Following side p a ∧ Segments pos (Honest side.items union) bottom a.out → p ≤ pos r →
      Honest peer union p r → AnswerStep side a r a' upper dropped → _ :=
    fun p a r a' upper dropped carried order honest step =>
      answerRange_segments ok subset carried.1 order honest step carried.2
        (fun _ => ⟨by rw [pos, carried.1.position]; exact carried.1.below, Or.inl rfl⟩) exactly
        (fun q _ => fromHere q q le_rfl)
        fun _ _ => fromHere _ _ (le_trans carried.1.covered order)
  refine answerRanges_induction
    (I := fun p a => Following side p a ∧ Segments pos (Honest side.items union) bottom a.out)
    (J := fun result => Segments pos (Honest side.items union) bottom result.out)
    (fun p a carried => carried.1.inside) ?_ ?_ received (fun a carried => carried.2)
    ⟨following_start ok, trivial⟩
  · intro p a r a' upper dropped carried order honest step free
    have sent := added p a r a' upper dropped carried order honest step
    rw [if_neg free] at sent
    exact ⟨following_step ok subset carried.1 order honest step free, sent⟩
  · intro p a r a' upper dropped carried order honest step exceeded
    have sent := added p a r a' upper dropped carried order honest step
    rwa [if_pos exceeded] at sent

theorem initiate_segments {side : Side} {union : List Item} (ok : SideOk side)
    (subset : side.items ⊆ union) :
    Segments pos (fun lo r => Exact side.items lo r ∧ 0 < weight top union lo (pos r) ∧ pos r ≤ top)
        bottom side.initiate ∧ endOf pos bottom side.initiate = top := by
  have split := splitRanges_segments ok subset bottom_lt_top.le (rfl : boundAsItem .infinity = top)
    (weight_top_pos bottom_lt_top)
  rwa [rank_bottom, ok.rank_top] at split

theorem initiate_honest {side : Side} {union : List Item} (ok : SideOk side)
    (subset : side.items ⊆ union) :
    Segments pos (Honest side.items union) bottom side.initiate :=
  (initiate_segments ok subset).1.imp fun _ _ _ h => ⟨h.2.2, Or.inr (Or.inl ⟨h.1, h.2.1⟩)⟩

theorem readable_of_honest {sender : Side} {union : List Item} (ok : SideOk sender) {lo : Item}
    {ranges : List WireRange} (honest : Segments pos (Honest sender.items union) lo ranges) :
    Readable lo.sortKey ranges := by
  induction ranges generalizing lo with
  | nil => trivial
  | cons r rs ih =>
    obtain ⟨order, content, later⟩ := honest
    refine ⟨Item.sortKey_le_of_le order, ?_, ih later⟩
    cases payload : r.payload with
    | skip => trivial
    | fingerprint fp => trivial
    | idList ids =>
      rw [(content.idList payload).1, ← ok.slice_eq]
      exact ok.slice_readable _ _

/-! ## Reports -/

omit [Sha256] in
/-- An id stands for the same item on both sides. -/
def Determined (xs ys : List Item) : Prop := ∀ x ∈ xs, ∀ y ∈ ys, x.id = y.id → x = y

omit [Sha256] in
theorem Determined.symm {xs ys : List Item} (determined : Determined xs ys) : Determined ys xs :=
  fun y held x other same => (determined x other y held same.symm).symm

omit [Sha256] in
theorem Determined.id_mem_iff {xs ys : List Item} (determined : Determined xs ys) {x : Item}
    (held : x ∈ xs) : x.id ∈ ys.map Item.id ↔ x ∈ ys := by
  constructor
  · intro listed
    obtain ⟨y, mem, same⟩ := List.mem_map.mp listed
    rwa [determined x held y mem same.symm]
  · exact List.mem_map_of_mem

omit [Sha256] in
theorem Determined.mem_only {xs ys : List Item} (determined : Determined xs ys) {p q : Item}
    {id : EntryId} :
    (id ∈ ((between p q xs).map Item.id).filter
        fun id => decide (id ∉ (between p q ys).map Item.id)) ↔
      ∃ x ∈ xs, p ≤ x ∧ x < q ∧ x ∉ ys ∧ x.id = id := by
  rw [List.mem_filter, List.mem_map, decide_eq_true_eq]
  constructor
  · rintro ⟨⟨x, mem, rfl⟩, unlisted⟩
    obtain ⟨held, above, below⟩ := mem_between.mp mem
    exact ⟨x, held, above, below, fun also => unlisted (List.mem_map_of_mem
      (mem_between.mpr ⟨also, above, below⟩)), rfl⟩
  · rintro ⟨x, held, above, below, absent, rfl⟩
    refine ⟨⟨x, mem_between.mpr ⟨held, above, below⟩, rfl⟩, fun listed => absent ?_⟩
    obtain ⟨y, mem, same⟩ := List.mem_map.mp listed
    have other := (mem_between.mp mem).1
    rwa [determined x held y other same.symm]

omit [Sha256] in
/-- Reports that are right: `have` ids only mine, `need` ids only theirs. -/
structure Sound (mine theirs : List Item) (a : Answer) : Prop where
  haves : ∀ id ∈ a.haveIds, id ∈ mine.map Item.id ∧ id ∉ theirs.map Item.id
  needs : ∀ id ∈ a.needIds, id ∈ theirs.map Item.id ∧ id ∉ mine.map Item.id

section Reports

variable {side : Side} {peer union : List Item} (determined : Determined side.items peer)
include determined

theorem compare_reports (ok : SideOk side) {p : Item} {a : Answer} (follow : Following side p a)
    {bound : Bound} {ids : List EntryId} (order : p ≤ boundAsItem bound)
    (honest : Honest peer union p ⟨bound, .idList ids⟩) (id : EntryId) :
    (id ∈ ((side.slice a.prevRank (side.rankOf a.prevRank bound)).map Item.id).filter
        (fun id => decide (id ∉ ids)) ↔
      ∃ x ∈ side.items, p ≤ x ∧ x < boundAsItem bound ∧ x ∉ peer ∧ x.id = id) ∧
    (id ∈ ids.filter (fun id => decide
        (id ∉ (side.slice a.prevRank (side.rankOf a.prevRank bound)).map Item.id)) ↔
      ∃ x ∈ peer, p ≤ x ∧ x < boundAsItem bound ∧ x ∉ side.items ∧ x.id = id) := by
  rw [follow.rankOf order, follow.rank, ok.slice_eq, (honest.idList rfl).1]
  exact ⟨determined.mem_only, determined.symm.mem_only⟩

theorem answerRanges_sound (ok : SideOk side) (subset : side.items ⊆ union)
    {ranges : List WireRange} (received : Segments pos (Honest peer union) bottom ranges) :
    Sound side.items peer (side.answerRanges .start ranges) := by
  have reported : ∀ p a r a' upper dropped, Following side p a ∧ Sound side.items peer a →
      p ≤ pos r → Honest peer union p r → AnswerStep side a r a' upper dropped →
      Sound side.items peer a' := by
    intro p a r a' upper dropped ⟨follow, sound⟩ order honest step
    cases step with
    | skip bound => exact ⟨sound.haves, sound.needs⟩
    | agree bound => exact ⟨sound.haves, sound.needs⟩
    | split bound fp differ => exact ⟨sound.haves, sound.needs⟩
    | list bound ids responder _ endBound lower within stop => exact ⟨sound.haves, sound.needs⟩
    | compare bound ids initiator =>
      have reports := compare_reports determined ok follow order honest
      constructor
      · intro id mem
        rcases List.mem_append.mp mem with old | new
        · exact sound.haves id old
        · obtain ⟨x, held, -, -, absent, rfl⟩ := (reports id).1.mp new
          exact ⟨List.mem_map_of_mem held, mt (determined.id_mem_iff held).mp absent⟩
      · intro id mem
        rcases List.mem_append.mp mem with old | new
        · exact sound.needs id old
        · obtain ⟨x, held, -, -, absent, rfl⟩ := (reports id).2.mp new
          exact ⟨List.mem_map_of_mem held, mt (determined.symm.id_mem_iff held).mp absent⟩
  refine answerRanges_induction
    (I := fun p a => Following side p a ∧ Sound side.items peer a)
    (J := fun result => Sound side.items peer result)
    (fun p a carried => carried.1.inside) ?_ ?_ received (fun a carried => carried.2)
    ⟨following_start ok, ⟨by simp [Answer.start], by simp [Answer.start]⟩⟩
  · intro p a r a' upper dropped carried order honest step free
    have sound := reported p a r a' upper dropped carried order honest step
    exact ⟨following_step ok subset carried.1 order honest step free, sound.haves, sound.needs⟩
  · intro p a r a' upper dropped carried order honest step exceeded
    have sound := reported p a r a' upper dropped carried order honest step
    exact ⟨sound.haves, sound.needs⟩

omit determined in
theorem responder_reports (ok : SideOk side) (subset : side.items ⊆ union)
    (responder : side.isInitiator = false) {ranges : List WireRange}
    (received : Segments pos (Honest peer union) bottom ranges) :
    (side.answerRanges .start ranges).haveIds = [] ∧
      (side.answerRanges .start ranges).needIds = [] := by
  have silent : ∀ a r a' upper dropped, AnswerStep side a r a' upper dropped →
      a.haveIds = [] ∧ a.needIds = [] → a'.haveIds = [] ∧ a'.needIds = [] := by
    intro a r a' upper dropped step none
    cases step with
    | compare bound ids initiator => exact absurd (initiator.symm.trans responder) (by simp)
    | _ => exact none
  refine answerRanges_induction
    (I := fun p a => Following side p a ∧ a.haveIds = [] ∧ a.needIds = [])
    (J := fun result => result.haveIds = [] ∧ result.needIds = [])
    (fun p a carried => carried.1.inside) ?_ ?_ received (fun a carried => carried.2)
    ⟨following_start ok, rfl, rfl⟩
  · intro p a r a' upper dropped carried order honest step room
    exact ⟨following_step ok subset carried.1 order honest step room,
      silent a r a' upper dropped step carried.2⟩
  · intro p a r a' upper dropped carried order honest step exceeded
    exact silent a r a' upper dropped step carried.2

end Reports

end Racnet.Proof.Negentropy
