import Racnet.Proof.Negentropy.Safety
import Racnet.Sync.Negentropy.Exchange

/-!
# Nothing is skipped before it is reported

A stretch is settled when every item in it that only one side holds has been reported. Skips stand
only over settled stretches, and a fingerprint that the receiver would accept covers a settled one.
A cut at the budget keeps this unless its fingerprint misleads.
-/

namespace Racnet.Proof.Negentropy
open Lib Store Sync

/-- The items from `lo` up to `hi` that only one of the two sides holds are all reported. -/
def Settled (reported : List EntryId) (xs ys : List Item) (lo hi : Item) : Prop :=
  ∀ x, lo ≤ x → x < hi → (x ∈ xs ↔ x ∈ ys) ∨ x.id ∈ reported

namespace Settled

variable {reported : List EntryId} {xs ys : List Item} {lo mid hi : Item}

theorem self : Settled reported xs ys lo lo := fun _ above below =>
  absurd (lt_of_le_of_lt above below) (lt_irrefl _)

theorem symm (settled : Settled reported xs ys lo hi) : Settled reported ys xs lo hi :=
  fun x above below => (settled x above below).imp_left Iff.symm

theorem trans (left : Settled reported xs ys lo mid) (right : Settled reported xs ys mid hi) :
    Settled reported xs ys lo hi := by
  intro x above below
  rcases lt_or_ge x mid with first | second
  · exact left x above first
  · exact right x second below

theorem mono {more : List EntryId} (settled : Settled reported xs ys lo hi)
    (subset : reported ⊆ more) : Settled more xs ys lo hi :=
  fun x above below => (settled x above below).imp_right fun mem => subset mem

end Settled

variable [Sha256]

/-- A range that the receiver may act on without losing anything. -/
def Honored (reported : List EntryId) (sender receiver : List Item) (lo : Item) (r : WireRange) :
    Prop :=
  match r.payload with
  | .skip => Settled reported sender receiver lo (pos r)
  | .fingerprint fp => fp = SealedVec.fingerprintOf (between lo (pos r) receiver) →
      Settled reported sender receiver lo (pos r)
  | .idList _ => True

theorem Honored.mono {reported more : List EntryId} {sender receiver : List Item} {lo : Item}
    {r : WireRange} (honored : Honored reported sender receiver lo r) (subset : reported ⊆ more) :
    Honored more sender receiver lo r := by
  rw [Honored] at honored ⊢
  split <;> simp_all only
  · exact honored.mono subset
  · exact fun same => (honored same).mono subset

/-! ## Fingerprints that agree -/

theorem collisionFree_symm {xs ys : List Item} (free : CollisionFree xs ys) :
    CollisionFree ys xs :=
  fun i j k l same id => (free k l i j same.symm id).symm

theorem same_of_fingerprint {xs ys : List Item} (free : CollisionFree xs ys)
    (sortedXs : xs.Pairwise (· < ·)) (sortedYs : ys.Pairwise (· < ·))
    (determined : Determined xs ys) {lo hi lo' hi' : Item}
    (same : SealedVec.fingerprintOf (between lo hi xs) =
      SealedVec.fingerprintOf (between lo' hi' ys)) (x : Item) :
    x ∈ between lo hi xs ↔ x ∈ between lo' hi' ys := by
  rw [← slice_rank sortedXs, ← slice_rank sortedYs] at same
  have ids := free _ _ _ _ same x.id
  rw [slice_rank sortedXs, slice_rank sortedYs] at ids
  constructor
  · intro mem
    obtain ⟨y, found, eq⟩ := List.mem_map.mp (ids.mp (List.mem_map_of_mem mem))
    rwa [determined x (mem_between.mp mem).1 y (mem_between.mp found).1 eq.symm]
  · intro mem
    obtain ⟨y, found, eq⟩ := List.mem_map.mp (ids.mpr (List.mem_map_of_mem mem))
    rwa [← determined y (mem_between.mp found).1 x (mem_between.mp mem).1 eq]

section Complete

variable {side : Side} {peer union : List Item} (ok : SideOk side) (subset : side.items ⊆ union)
  (sorted : peer.Pairwise (· < ·))
  (determined : Determined side.items peer) (free : CollisionFree side.items peer)
include ok sorted determined free

theorem settled_of_fingerprint (reported : List EntryId) {lo hi : Item}
    (same : SealedVec.fingerprintOf (between lo hi side.items) =
      SealedVec.fingerprintOf (between lo hi peer)) :
    Settled reported side.items peer lo hi := by
  intro x above below
  have both := same_of_fingerprint free ok.sorted sorted determined same x
  simp only [mem_between, above, below, and_self, and_true] at both
  exact Or.inl both

theorem honored_of_exact (reported : List EntryId) {lo : Item} {r : WireRange}
    (exactly : Exact side.items lo r) : Honored reported side.items peer lo r := by
  rcases exactly with fp | ids
  · rw [Honored, fp]
    exact fun same => settled_of_fingerprint ok sorted determined free reported same
  · rw [Honored, ids]
    trivial

end Complete

/-! ## Whole messages -/

omit [Sha256] in
theorem boundAsItem_boundAfter (ranges : List WireRange) :
    boundAsItem (boundAfter ranges) = endOf pos bottom ranges := by
  rw [boundAfter]
  induction ranges using List.reverseRecOn with
  | nil => rfl
  | append_singleton rs r ih => simp [pos]

/-- The last of the ranges, if it is a fingerprint that the receiver takes for a match, is that of
all the sender's items. -/
def Faithful (sender receiver : List Item) (ranges : List WireRange) : Prop :=
  ∀ before bound fp, ranges = before ++ [⟨bound, .fingerprint fp⟩] →
    fp = SealedVec.fingerprintOf (between (endOf pos bottom before) (boundAsItem bound) receiver) →
      fp = SealedVec.fingerprintOf (between (endOf pos bottom before) (boundAsItem bound) sender)

omit [Sha256] in
def fingerprintOf? (r : WireRange) : Option Fingerprint :=
  match r.payload with
  | .fingerprint fp => some fp
  | _ => none

theorem faithful_iff (sender receiver : List Item) (ranges : List WireRange) :
    Faithful sender receiver ranges ↔ ∀ last ∈ ranges.getLast?, ∀ fp ∈ fingerprintOf? last,
      fp = SealedVec.fingerprintOf (between (endOf pos bottom ranges.dropLast) (pos last) receiver) →
        fp = SealedVec.fingerprintOf (between (endOf pos bottom ranges.dropLast) (pos last) sender) := by
  constructor
  · rintro faithful ⟨bound, payload⟩ ends fp found
    cases payload with
    | skip | idList _ => cases found
    | fingerprint fp' =>
      cases found
      obtain ⟨before, rfl⟩ := List.getLast?_eq_some_iff.mp ends
      rw [List.dropLast_concat]
      exact faithful before bound fp rfl
  · rintro holds before bound fp rfl
    have last := holds ⟨bound, .fingerprint fp⟩ List.getLast?_concat fp rfl
    rwa [List.dropLast_concat] at last

instance decidableFaithful (sender receiver : List Item) (ranges : List WireRange) :
    Decidable (Faithful sender receiver ranges) :=
  decidable_of_iff (∀ last ∈ ranges.getLast?, ∀ fp ∈ fingerprintOf? last,
    fp = SealedVec.fingerprintOf (between (endOf pos bottom ranges.dropLast) (pos last) receiver) →
      fp = SealedVec.fingerprintOf (between (endOf pos bottom ranges.dropLast) (pos last) sender))
    (faithful_iff sender receiver ranges).symm

theorem misleads_iff {sender receiver : List Item} {ranges : List WireRange}
    (readable : Readable 0 ranges) :
    Misleads sender receiver (messageBytes ranges) ↔ ¬ Faithful sender receiver ranges := by
  simp only [Misleads, messageRanges_messageBytes readable, Except.ok.injEq, boundAsItem_boundAfter,
    Faithful, not_forall, exists_prop]

def reportsOf (reported : List EntryId) (a : Answer) : List EntryId :=
  reported ++ (a.haveIds ++ a.needIds)

/-- What a side has said and learnt so far leaves no difference before `p` behind. -/
structure Kept (reported : List EntryId) (mine theirs : List Item) (p : Item) (a : Answer) :
    Prop where
  honored : Segments pos (Honored (reportsOf reported a) mine theirs) bottom a.out
  settled : Settled (reportsOf reported a) mine theirs (endOf pos bottom a.out) p

section Run

variable {side : Side} {peer union : List Item} {reported : List EntryId} {p : Item}
  {a a' : Answer} {r : WireRange} {upper : Nat} {dropped : List WireRange}

theorem reportsOf_step (reported : List EntryId) (step : AnswerStep side a r a' upper dropped) :
    reportsOf reported a ⊆ reportsOf reported a' := by
  cases step with
  | skip bound => exact List.Subset.refl _
  | agree bound => exact List.Subset.refl _
  | split bound fp differ => exact List.Subset.refl _
  | list bound ids responder _ endBound lower within stop => exact List.Subset.refl _
  | compare bound ids initiator =>
    intro id mem
    simp only [reportsOf, List.mem_append] at mem ⊢
    tauto

variable (ok : SideOk side) (subset : side.items ⊆ union) (sorted : peer.Pairwise (· < ·))
  (determined : Determined side.items peer)
  (free : CollisionFree side.items peer) (follow : Following side p a)
  (kept : Kept reported side.items peer p a) (order : p ≤ pos r) (honest : Honest peer union p r)
  (received : Honored reported peer side.items p r) (step : AnswerStep side a r a' upper dropped)
include ok determined follow order honest step

include received in
theorem settled_step (quiet : a'.skip = true) :
    Settled (reportsOf reported a') side.items peer p (pos r) := by
  cases step with
  | skip bound => exact (Settled.symm received).mono (List.subset_append_left _ _)
  | agree bound =>
    refine (Settled.symm (received ?_)).mono (List.subset_append_left _ _)
    rw [Side.rangeFingerprint, follow.rankOf order, follow.rank, ok.slice_eq]
    rfl
  | split bound fp differ => exact absurd quiet (by simp)
  | list bound ids responder _ endBound lower within stop => exact absurd quiet (by simp)
  | compare bound ids initiator =>
    have reports := compare_reports determined ok follow order honest
    intro x above below
    by_cases mine : x ∈ side.items <;> by_cases theirs : x ∈ peer
    · exact Or.inl (iff_of_true mine theirs)
    · have found := (reports x.id).1.mpr ⟨x, mine, above, below, theirs, rfl⟩
      exact Or.inr (by simp only [reportsOf, List.mem_append]; tauto)
    · have found := (reports x.id).2.mpr ⟨x, theirs, above, below, mine, rfl⟩
      exact Or.inr (by simp only [reportsOf, List.mem_append]; tauto)
    · exact Or.inl (iff_of_false mine theirs)

include subset sorted free kept in
theorem honored_step
    (keeps : dropped ≠ [] → overBudget side.limit (messageLen (a'.out ++ dropped)) = true →
      Faithful side.items peer (a'.out ++ [side.continuation upper])) :
    if overBudget side.limit (messageLen (a'.out ++ dropped)) = true then
      Segments pos (Honored (reportsOf reported a') side.items peer) bottom
        (a'.out ++ [side.continuation upper])
    else Segments pos (Honored (reportsOf reported a') side.items peer) bottom
      (a'.out ++ dropped) := by
  have grows := reportsOf_step reported step
  apply answerRange_segments ok subset follow order honest step
  · exact kept.honored.imp fun _ _ _ honored => honored.mono grows
  · intro _
    change Settled _ _ _ _ (boundAsItem a.prevBound)
    rw [follow.position]
    exact kept.settled.mono grows
  · exact fun lo r' exactly _ _ => honored_of_exact ok sorted determined free _ exactly
  · intro q _
    rw [continuation_eq ok]
    exact honored_of_exact ok sorted determined free _ (Or.inl rfl)
  · intro cut exceeded
    obtain ⟨out, upper⟩ := step.of_dropped cut
    have faithful := keeps cut exceeded
    rw [out, upper, follow.rankOf order] at faithful
    exact fun same => settled_of_fingerprint ok sorted determined free _
      ((faithful a.out _ _ rfl same).symm.trans same)

end Run

section Message

variable {side : Side} {peer union : List Item} (ok : SideOk side) (subset : side.items ⊆ union)
  (sorted : peer.Pairwise (· < ·)) (determined : Determined side.items peer)
  (free : CollisionFree side.items peer) {reported : List EntryId} {ranges : List WireRange}
include ok subset sorted determined free

theorem answerRanges_kept (honest : Segments pos (Honest peer union) bottom ranges)
    (honored : Segments pos (Honored reported peer side.items) bottom ranges)
    (settled : Settled reported peer side.items (endOf pos bottom ranges) top)
    (keeps : side.limit = none ∨ Faithful side.items peer (side.answerRanges .start ranges).out) :
    Kept reported side.items peer top (side.answerRanges .start ranges) := by
  refine answerRanges_induction
    (I := fun p a => Following side p a ∧ Kept reported side.items peer p a)
    (J := fun result => side.limit = none ∨ Faithful side.items peer result.out →
      Kept reported side.items peer top result)
    (fun p a carried => carried.1.inside) ?_ ?_ (honest.and honored) ?_
    ⟨following_start ok, trivial, Settled.self⟩ keeps
  · rintro p a r a' upper dropped ⟨follow, kept⟩ order ⟨honest, received⟩ step room
    have next := following_step ok subset follow order honest step room
    have sent := honored_step ok subset sorted determined free follow kept order honest step
      fun _ exceeded => absurd exceeded room
    rw [if_neg room] at sent
    refine ⟨next, sent, ?_⟩
    cases skip : a'.skip with
    | false =>
      rw [next.flushed skip]
      exact Settled.self
    | true =>
      obtain ⟨out, rfl⟩ := step.quiet skip
      simp only [out, List.append_nil]
      exact (kept.settled.mono (reportsOf_step _ step)).trans
        (settled_step ok determined follow order honest received step skip)
  · rintro p a r a' upper dropped ⟨follow, kept⟩ order ⟨honest, received⟩ step exceeded keeps
    have sent := honored_step ok subset sorted determined free follow kept order honest step
      fun _ _ => keeps.resolve_left fun unlimited => by simp [overBudget, unlimited] at exceeded
    rw [if_pos exceeded] at sent
    refine ⟨sent, ?_⟩
    rw [endOf_append]
    exact Settled.self
  · rintro a ⟨follow, kept⟩ _
    exact ⟨kept.honored, kept.settled.trans (settled.symm.mono (List.subset_append_left _ _))⟩

omit subset in
theorem initiate_honored :
    Segments pos (Honored reported side.items peer) bottom side.initiate ∧
      Settled reported side.items peer (endOf pos bottom side.initiate) top := by
  obtain ⟨laid, ends⟩ := initiate_segments ok (List.Subset.refl _)
  rw [ends]
  exact ⟨laid.imp fun _ _ _ h => honored_of_exact ok sorted determined free _ h.1, Settled.self⟩

end Message

end Racnet.Proof.Negentropy
