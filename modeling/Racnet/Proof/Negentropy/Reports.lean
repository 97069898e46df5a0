import Mathlib.Algebra.Order.BigOperators.Group.List
import Mathlib.Data.List.Infix
import Racnet.Proof.Negentropy.IdSum
import Racnet.Proof.Negentropy.Exchange

/-!
# What an exchange reports

Without limits it reports every difference. With limits it ends and reports nothing wrong, and it
reports every difference if no message misleads.

For the exchanges that are run here the digest is a stand-in under which the ranges of the two sets
have different fingerprints: it keeps the last limb of the sum, which holds the sum of the numbers
and how many shared and unshared items there are.
-/

namespace Racnet.Proof.Negentropy
open Lib Store Sync

/-! ## Windows of an ascending list -/

theorem sum_lt_sum_of_getElem_lt {us vs : List Nat} (size : us.length = vs.length) (ne : us ≠ [])
    (lt : ∀ i, (hu : i < us.length) → (hv : i < vs.length) → us[i] < vs[i]) : us.sum < vs.sum := by
  induction us generalizing vs with
  | nil => exact absurd rfl ne
  | cons u us ih =>
    cases vs with
    | nil => simp at size
    | cons v vs =>
      have head : u < v := lt 0 (by simp) (by simp)
      rw [List.sum_cons, List.sum_cons]
      by_cases last : us = []
      · subst last
        have : vs = [] := List.length_eq_zero_iff.mp (by simpa using size.symm)
        simpa [this] using head
      · have tail := ih (by simpa using size : us.length = vs.length) last fun i hu hv =>
          lt (i + 1) (by simpa using hu) (by simpa using hv)
        omega

theorem window_eq_of_sum_eq {xs us vs : List Nat} (ascending : xs.Pairwise (· < ·))
    (windowU : us <:+: xs) (windowV : vs <:+: xs) (size : us.length = vs.length)
    (sum : us.sum = vs.sum) : us = vs := by
  have before : ∀ {us vs s t s' t' : List Nat}, s ++ us ++ t = xs → s' ++ vs ++ t' = xs →
      us.length = vs.length → us ≠ [] → s.length < s'.length → us.sum < vs.sum := by
    intro us vs s t s' t' left right size ne shorter
    refine sum_lt_sum_of_getElem_lt size ne fun i hu hv => ?_
    have atU : s.length + i < xs.length := by rw [← left]; simp; omega
    have atV : s'.length + i < xs.length := by rw [← right]; simp; omega
    have readU : us[i] = xs[s.length + i] := by
      simp only [← left, List.append_assoc, List.getElem_append_right (Nat.le_add_right _ i),
        Nat.add_sub_cancel_left, List.getElem_append_left hu]
    have readV : vs[i] = xs[s'.length + i] := by
      simp only [← right, List.append_assoc, List.getElem_append_right (Nat.le_add_right _ i),
        Nat.add_sub_cancel_left, List.getElem_append_left hv]
    rw [readU, readV]
    exact List.pairwise_iff_getElem.mp ascending _ _ atU atV (by omega)
  by_cases empty : us = []
  · subst empty
    exact (List.length_eq_zero_iff.mp size.symm).symm
  · have nonempty : vs ≠ [] := by
      rintro rfl
      exact empty (List.length_eq_zero_iff.mp size)
    obtain ⟨s, t, left⟩ := windowU
    obtain ⟨s', t', right⟩ := windowV
    rcases lt_trichotomy s.length s'.length with lt | same | gt
    · exact absurd sum (before left right size empty lt).ne
    · have whole := left.trans right.symm
      rw [List.append_assoc, List.append_assoc] at whole
      exact (List.append_inj (List.append_inj whole same).2 size).1
    · exact absurd sum (before right left size.symm nonempty gt).ne'

/-! ## Fingerprints under the stand-in digest -/

section Marked
variable {shared : Nat → Bool}

def markedLimb (shared : Nat → Bool) (i : Nat) : Nat :=
  i * 2 ^ 32 + (if shared i then 0 else 1) * 2 ^ 48 + (if shared i then 1 else 0) * 2 ^ 56

theorem tailValue {i : Nat} (small : i < 255) (u f : UInt8) :
    u64FromLeBytes [0, 0, 0, 0, UInt8.ofNat i, 0, u, f] =
      UInt64.ofNat (i * 2 ^ 32 + u.toNat * 2 ^ 48 + f.toNat * 2 ^ 56) := by
  have byte : (UInt8.ofNat i).toNat = i := by
    rw [UInt8.toNat_ofNat']
    omega
  rw [u64FromLeBytes]
  simp only [List.foldr_cons, List.foldr_nil, byte, UInt8.toNat_zero]
  rw [show 0 + 256 * (0 + 256 * (0 + 256 * (0 + 256 * (i + 256 * (0 + 256 * (u.toNat + 256 *
    (f.toNat + 256 * 0))))))) = i * 2 ^ 32 + u.toNat * 2 ^ 48 + f.toNat * 2 ^ 56 by omega]

theorem idLimbs_marked {i : Nat} (small : i < 255) :
    IdSum.idLimbs (markedItem shared i).id = [0, 0, 0, UInt64.ofNat (markedLimb shared i)] := by
  have zeros : u64FromLeBytes (List.replicate 8 0) = 0 := rfl
  have limbs : IdSum.idLimbs (markedItem shared i).id = [u64FromLeBytes (List.replicate 8 0),
      u64FromLeBytes (List.replicate 8 0), u64FromLeBytes (List.replicate 8 0),
      u64FromLeBytes [0, 0, 0, 0, UInt8.ofNat i, 0, if shared i then 0 else 1,
        if shared i then 1 else 0]] := by
    simp only [IdSum.idLimbs, markedItem, List.range_succ, List.range_zero, List.nil_append,
      List.cons_append, List.map_cons, List.map_nil, List.replicate_succ, List.replicate_zero,
      Nat.reduceMul, List.drop_succ_cons, List.drop_zero, List.take_succ_cons, List.take_zero]
  rw [limbs, zeros, tailValue small, markedLimb]
  cases shared i <;> rfl

theorem sum_marked (is : List Nat) (small : ∀ i ∈ is, i < 255) (w : UInt64) :
    (is.map (markedItem shared)).foldl (fun sum item => IdSum.addId sum item.id) ⟨[0, 0, 0, w], rfl⟩ =
      (⟨[0, 0, 0, w + UInt64.ofNat (is.map (markedLimb shared)).sum], rfl⟩ : IdSum) := by
  induction is generalizing w with
  | nil => simp
  | cons i is ih =>
    have step : (⟨[0, 0, 0, w], rfl⟩ : IdSum).addId (markedItem shared i).id =
        ⟨[0, 0, 0, w + UInt64.ofNat (markedLimb shared i)], rfl⟩ := by
      apply IdSum.ext
      rw [IdSum.addId, idLimbs_marked (small i List.mem_cons_self)]
      simp [IdSum.addLimbs, IdSum.carryAdd, overflowingAdd]
    rw [List.map_cons, List.foldl_cons, step, ih (fun j mem => small j (List.mem_cons_of_mem i mem)),
      List.map_cons, List.sum_cons, UInt64.ofNat_add, UInt64.add_assoc]

theorem take_fingerprint (is : List Nat) (small : ∀ i ∈ is, i < 255) :
    (@SealedVec.fingerprintOf tailDigest (is.map (markedItem shared))).bytes.take 8 =
      u64ToLeBytes (UInt64.ofNat (is.map (markedLimb shared)).sum) := by
  have sum := @sum_marked shared is small 0
  rw [UInt64.zero_add] at sum
  set limb := UInt64.ofNat (is.map (markedLimb shared)).sum
  have bytes : (⟨[0, 0, 0, limb], rfl⟩ : IdSum).toLeBytes =
      (u64ToLeBytes 0 ++ u64ToLeBytes 0 ++ u64ToLeBytes 0) ++ u64ToLeBytes limb := by
    simp only [IdSum.toLeBytes, List.flatMap_cons, List.flatMap_nil, List.append_nil,
      List.append_assoc]
  have low : (u64ToLeBytes 0 ++ u64ToLeBytes 0 ++ u64ToLeBytes 0).length = 24 := by
    simp only [List.length_append, length_u64ToLeBytes]
  change (((((((is.map (markedItem shared)).foldl (fun sum item => IdSum.addId sum item.id)
    ⟨[0, 0, 0, 0], rfl⟩).toLeBytes ++ _).drop 24 ++ _).take 32).take fingerprintSize).take 8) = _
  rw [sum, bytes, List.append_assoc, List.drop_left' low, List.take_take, List.take_take,
    List.append_assoc, show min (min 8 fingerprintSize) 32 = 8 by decide,
    List.take_left' (length_u64ToLeBytes limb)]

theorem sum_markedLimb (is : List Nat) :
    (is.map (markedLimb shared)).sum = is.sum * 2 ^ 32 + (is.filter fun i => !shared i).length * 2 ^ 48 +
      (is.filter shared).length * 2 ^ 56 := by
  induction is with
  | nil => simp
  | cons i is ih =>
    rw [List.map_cons, List.sum_cons, List.sum_cons, ih, markedLimb, List.filter_cons,
      List.filter_cons]
    cases shared i <;>
      simp only [Bool.not_false, Bool.not_true, Bool.false_eq_true, if_true, if_false,
        List.length_cons] <;> omega

theorem parts_of_fingerprint {is js : List Nat} (left : is.Sublist (List.range 255))
    (right : js.Sublist (List.range 255))
    (same : @SealedVec.fingerprintOf tailDigest (is.map (markedItem shared)) =
      @SealedVec.fingerprintOf tailDigest (js.map (markedItem shared))) :
    is.sum = js.sum ∧ (is.filter fun i => !shared i).length =
      (js.filter fun i => !shared i).length ∧
        (is.filter shared).length = (js.filter shared).length := by
  have below : ∀ ks : List Nat, ks.Sublist (List.range 255) →
      (∀ k ∈ ks, k < 255) ∧ ks.sum < 2 ^ 16 ∧ (ks.filter fun i => !shared i).length < 2 ^ 8 ∧
        (ks.filter shared).length < 2 ^ 8 := by
    intro ks sub
    have size := sub.length_le
    have sum := sub.sum_le_sum (fun k _ => Nat.zero_le k)
    have unshared := List.length_filter_le (fun i => !shared i) ks
    have sharing := List.length_filter_le shared ks
    have total : (List.range 255).sum = 32385 := by decide +kernel
    rw [List.length_range] at size
    exact ⟨fun k mem => List.mem_range.mp (sub.subset mem), by omega, by omega, by omega⟩
  obtain ⟨smallI, sumI, unsharedI, sharedI⟩ := below is left
  obtain ⟨smallJ, sumJ, unsharedJ, sharedJ⟩ := below js right
  have limbs := congrArg (fun fp => u64FromLeBytes (fp.bytes.take 8)) same
  simp only [take_fingerprint is smallI, take_fingerprint js smallJ,
    u64FromLeBytes_toLeBytes] at limbs
  have values := congrArg UInt64.toNat limbs
  rw [UInt64.toNat_ofNat', UInt64.toNat_ofNat', sum_markedLimb, sum_markedLimb] at values
  omega

/-! ## Sets that differ -/

theorem markedItem_injective {i j : Nat} (smallI : i < 255) (smallJ : j < 255)
    (same : (markedItem shared i).id = (markedItem shared j).id) : i = j := by
  have bytes := congrArg (fun id => id.bytes[28]?.map UInt8.toNat) same
  have read : ∀ k, (markedItem shared k).id.bytes[28]? = some (UInt8.ofNat k) := fun _ => rfl
  simp only [read, Option.map_some, UInt8.toNat_ofNat', Option.some.injEq] at bytes
  omega

theorem mem_sharedOf {n i : Nat} (few : n ≤ 255) (small : i < 255) :
    (markedItem shared i).id ∈ (sharedOf shared n).map Item.id ↔ i < n ∧ shared i = true := by
  rw [sharedOf, List.map_map, List.mem_map]
  constructor
  · rintro ⟨j, held, same⟩
    obtain ⟨below, marked⟩ := List.mem_filter.mp held
    have below := List.mem_range.mp below
    obtain rfl := markedItem_injective (by omega) small same
    exact ⟨below, marked⟩
  · rintro ⟨below, marked⟩
    exact ⟨i, List.mem_filter.mpr ⟨List.mem_range.mpr below, marked⟩, rfl⟩

theorem range_sublist {n : Nat} (few : n ≤ 255) : (List.range n).Sublist (List.range 255) :=
  List.range_sublist.mpr few

theorem sorted_allOf {n : Nat} (few : n ≤ 255) : (allOf shared n).Pairwise (· < ·) :=
  sorted_marked (range_sublist few)

theorem sorted_sharedOf {n : Nat} (few : n ≤ 255) : (sharedOf shared n).Pairwise (· < ·) :=
  sorted_marked (List.filter_sublist.trans (range_sublist few))

theorem marked_reconcilable {n : Nat} {ours theirs : Vec Item} (left : ours.toList = sharedOf shared n)
    (right : theirs.toList = allOf shared n) : Reconcilable ours theirs := by
  have keyed : ∀ x ∈ ours.toList ++ theirs.toList, x.sortKey = 0 := by
    intro x mem
    rw [left, right] at mem
    rcases List.mem_append.mp mem with held | held <;>
      obtain ⟨i, -, rfl⟩ := List.mem_map.mp held <;> rfl
  constructor
  · intro x mem
    rw [keyed x mem]
    decide
  · intro x memX y memY _
    rw [keyed x memX, keyed y memY]

theorem marked_collisionFree {n : Nat} (few : n ≤ 255) :
    @CollisionFree tailDigest (sharedOf shared n) (allOf shared n) := by
  rw [sharedOf, allOf]
  intro i j k l same id
  rw [← List.map_take, ← List.map_drop, ← List.map_take, ← List.map_drop] at same ⊢
  set us := ((((List.range n).filter shared).take j).drop i) with hus
  set vs := (((List.range n).take l).drop k) with hvs
  have windowU : us <:+: (List.range n).filter shared :=
    (List.drop_suffix _ _).isInfix.trans (List.take_prefix _ _).isInfix
  have windowV : vs <:+: List.range n :=
    (List.drop_suffix _ _).isInfix.trans (List.take_prefix _ _).isInfix
  obtain ⟨sum, unshared, sharing⟩ := parts_of_fingerprint
    (windowU.sublist.trans (List.filter_sublist.trans (range_sublist few)))
    (windowV.sublist.trans (range_sublist few)) same
  have allU : us.filter shared = us := by
    rw [List.filter_eq_self]
    exact fun x mem => (List.mem_filter.mp (windowU.subset mem)).2
  have noneU : us.filter (fun x => !shared x) = [] := by
    rw [List.filter_eq_nil_iff]
    intro x mem
    simp [(List.mem_filter.mp (windowU.subset mem)).2]
  -- No unshared item under a fingerprint of ours, so the window of theirs is one of shared items.
  have noneV : vs.filter (fun x => !shared x) = [] := by
    rw [noneU, List.length_nil] at unshared
    exact List.length_eq_zero_iff.mp unshared.symm
  have allV : vs.filter shared = vs := by
    rw [List.filter_eq_self]
    intro x mem
    have := List.filter_eq_nil_iff.mp noneV x mem
    simpa using this
  have windowV' : vs <:+: (List.range n).filter shared := by
    have filtered := windowV.filter shared
    rwa [allV] at filtered
  rw [allU, allV] at sharing
  have equal : us = vs := window_eq_of_sum_eq
    (List.pairwise_lt_range.sublist List.filter_sublist) windowU windowV' sharing sum
  rw [equal]

end Marked

theorem sample_reconcilable : Reconcilable sampleOurs sampleTheirs := marked_reconcilable rfl rfl

theorem sealed_sampleOurs : (SealedVec.new sampleOurs).items = sharedOf third 126 :=
  sealed_of_sorted (sorted_sharedOf (by decide))

theorem sealed_sampleTheirs : (SealedVec.new sampleTheirs).items = allOf third 126 :=
  sealed_of_sorted (sorted_allOf (by decide))

theorem sample_collisionFree :
    @CollisionFree tailDigest (SealedVec.new sampleOurs).items (SealedVec.new sampleTheirs).items := by
  rw [sealed_sampleOurs, sealed_sampleTheirs]
  exact marked_collisionFree (by decide)

/-! ## Without limits -/

section
variable [Sha256]

theorem unlimited_complete {ours theirs : Vec Item}
    (ok : PairOk (initiatorSide ours none) (responderSide theirs none))
    (free : CollisionFree (SealedVec.new ours).items (SealedVec.new theirs).items) {n : Nat}
    (ended : (Talk.run (initiatorSide ours none) (responderSide theirs none) n).message = none)
    (id : EntryId) :
    (id ∈ ours.toList.map Item.id → id ∉ theirs.toList.map Item.id →
      id ∈ (Talk.run (initiatorSide ours none) (responderSide theirs none) n).haveIds) ∧
    (id ∈ theirs.toList.map Item.id → id ∉ ours.toList.map Item.id →
      id ∈ (Talk.run (initiatorSide ours none) (responderSide theirs none) n).needIds) :=
  reported_of_settled ok
    ((talk_kept ok free n fun _ _ _ _ => ⟨Or.inl rfl, Or.inl rfl⟩).2 ended) id

/-- Without frame limits reconciliation is exact. -/
theorem unlimited_exact {ours theirs : Vec Item} (sets : Reconcilable ours theirs)
    (free : CollisionFree (SealedVec.new ours).items (SealedVec.new theirs).items) :
    (∀ n, ∃ x, (Exchange.start ours theirs none none >>= Exchange.run n) = .ok x) ∧
      ∃ n x, (Exchange.start ours theirs none none >>= Exchange.run n) = .ok x ∧
        x.message = none ∧
        (∀ id, id ∈ x.haveIds ↔
          id ∈ ours.toList.map Item.id ∧ id ∉ theirs.toList.map Item.id) ∧
        ∀ id, id ∈ x.needIds ↔
          id ∈ theirs.toList.map Item.id ∧ id ∉ ours.toList.map Item.id := by
  have unlimited : LimitOk none := by simp [LimitOk]
  have ok := Reconcilable.pairOk sets unlimited unlimited
  refine ⟨fun n => (run_carries ok n).imp fun _ ran => ran.1, ?_⟩
  obtain ⟨n, done⟩ := talk_ends ok
  obtain ⟨x, ran, carries⟩ := run_carries ok n
  have complete := unlimited_complete ok free done
  obtain ⟨haves, needs⟩ := talk_sound ok n
  refine ⟨n, x, ran, by rw [carries.message, done]; rfl, fun id => ?_, fun id => ?_⟩
  · rw [carries.haveIds]
    refine ⟨fun mem => ?_, fun only => (complete id).1 only.1 only.2⟩
    rw [← id_mem_new, ← id_mem_new]
    exact haves id mem
  · rw [carries.needIds]
    refine ⟨fun mem => ?_, fun only => (complete id).2 only.1 only.2⟩
    rw [← id_mem_new, ← id_mem_new]
    exact needs id mem

end

/-- The initiator's sixteen fingerprints all differ. -/
theorem unlimited_exact_thirds :
    (SealedVec.new sampleOurs).items.length = 42 ∧
    ∃ n x, (@Exchange.start tailDigest sampleOurs sampleTheirs none none >>=
        @Exchange.run tailDigest n) = .ok x ∧ x.message = none ∧
      (∀ i < 126, (markedItem third i).id ∈ x.needIds ↔ third i = false) ∧ x.haveIds = [] := by
  refine ⟨by rw [sealed_sampleOurs]; decide, ?_⟩
  obtain ⟨n, x, ran, done, haves, needs⟩ :=
    (@unlimited_exact tailDigest sampleOurs sampleTheirs sample_reconcilable sample_collisionFree).2
  refine ⟨n, x, ran, done, fun i below => ?_, ?_⟩
  · rw [needs, ← Bool.not_eq_true]
    have held : (markedItem third i).id ∈ sampleTheirs.toList.map Item.id :=
      List.mem_map_of_mem (List.mem_map_of_mem (List.mem_range.mpr below))
    have ours := @mem_sharedOf third 126 i (by decide) (by omega)
    simp only [held, true_and, sampleOurs, ours, below]
  · rw [List.eq_nil_iff_forall_not_mem]
    intro id mem
    obtain ⟨held, absent⟩ := (haves id).mp mem
    obtain ⟨y, found, rfl⟩ := List.mem_map.mp held
    obtain ⟨i, marked, rfl⟩ := List.mem_map.mp found
    exact absent (List.mem_map_of_mem (List.mem_map_of_mem (List.mem_filter.mp marked).1))

/-! ## With limits -/

section
variable [Sha256]

/-- Whatever the frame limits, reconciliation ends, no call fails, and no report is wrong. -/
theorem limited_ends_soundly {ours theirs : Vec Item} {limitA limitB : Option Nat}
    (sets : Reconcilable ours theirs) (okA : LimitOk limitA) (okB : LimitOk limitB) :
    (∀ n, ∃ x, (Exchange.start ours theirs limitA limitB >>= Exchange.run n) = .ok x ∧
      ∀ round ∈ x.rounds,
        (∀ id ∈ round.haveIds, id ∈ ours.toList.map Item.id ∧ id ∉ theirs.toList.map Item.id) ∧
        ∀ id ∈ round.needIds, id ∈ theirs.toList.map Item.id ∧ id ∉ ours.toList.map Item.id) ∧
      ∃ n x, (Exchange.start ours theirs limitA limitB >>= Exchange.run n) = .ok x ∧
        x.message = none := by
  have ok := Reconcilable.pairOk sets okA okB
  constructor
  · intro n
    obtain ⟨x, ran, carries⟩ := run_carries ok n
    obtain ⟨haves, needs⟩ := talk_sound ok n
    rw [← carries.haveIds] at haves
    rw [← carries.needIds] at needs
    refine ⟨x, ran, fun round mem => ⟨fun id reported => ?_, fun id reported => ?_⟩⟩
    · rw [← id_mem_new, ← id_mem_new]
      exact haves id (List.mem_flatMap.mpr ⟨round, mem, reported⟩)
    · rw [← id_mem_new, ← id_mem_new]
      exact needs id (List.mem_flatMap.mpr ⟨round, mem, reported⟩)
  · obtain ⟨n, done⟩ := talk_ends ok
    obtain ⟨x, ran, carries⟩ := run_carries ok n
    exact ⟨n, x, ran, by rw [carries.message, done]; rfl⟩

end

def sampleInitiator : Side := ⟨sharedOf third 126, none, true⟩

def sampleResponder : Side := ⟨allOf third 126, some 4096, false⟩

set_option maxRecDepth 100000 in
/-- The responder's first reply is cut off, and its last fingerprint leaves out what was dropped. The
initiator holds other items there and asks again. -/
theorem sample_talk :
    letI := tailDigest
    (∃ last ∈ (sampleResponder.answerRanges .start sampleInitiator.initiate).out.getLast?,
      ∃ fp ∈ fingerprintOf? last,
        fp ≠ SealedVec.fingerprintOf (between (endOf pos bottom
          (sampleResponder.answerRanges .start sampleInitiator.initiate).out.dropLast) (pos last)
          sampleResponder.items)) ∧
    (∀ k < 2, ∀ ranges ∈ (Talk.run sampleInitiator sampleResponder k).message,
      Faithful sampleInitiator.items sampleResponder.items ranges ∧
        Faithful sampleResponder.items sampleInitiator.items
          (sampleResponder.answerRanges .start ranges).out) ∧
    (Talk.run sampleInitiator sampleResponder 2).message = none := by
  decide +kernel

theorem sample_sides : initiatorSide sampleOurs none = sampleInitiator ∧
    responderSide sampleTheirs (some 4096) = sampleResponder := by
  rw [initiatorSide, responderSide, sealed_sampleOurs, sealed_sampleTheirs]
  exact ⟨rfl, rfl⟩

theorem sample_pairOk : PairOk (initiatorSide sampleOurs none) (responderSide sampleTheirs (some 4096)) :=
  Reconcilable.pairOk sample_reconcilable (by simp [LimitOk]) (by simp [LimitOk, frameLimitFloor])

section
variable [Sha256]

/-- A message is on its way whose last fingerprint is not that of all its sender's items in the range
it stands for: the answer to a range was dropped. -/
def CutOff (x : Exchange) : Prop :=
  ∃ sender receiver message before bound fp, x.InFlight sender receiver message ∧
    messageRanges message = .ok (before ++ [⟨bound, .fingerprint fp⟩]) ∧
    fp ≠ SealedVec.fingerprintOf
      (between (boundAsItem (boundAfter before)) (boundAsItem bound) sender.items)

theorem start_cutOff {ours theirs : Vec Item} {limitA limitB : Option Nat}
    (ok : PairOk (initiatorSide ours limitA) (responderSide theirs limitB)) {out : List WireRange}
    (replied : ((responderSide theirs limitB).answerRanges .start
      (initiatorSide ours limitA).initiate).out = out) {last : WireRange} {fp : Fingerprint}
    (ends : last ∈ out.getLast?) (found : fp ∈ fingerprintOf? last)
    (differ : fp ≠ SealedVec.fingerprintOf (between (endOf pos bottom out.dropLast) (pos last)
      (SealedVec.new theirs).items)) :
    ∃ x, Exchange.start ours theirs limitA limitB = .ok x ∧ CutOff x := by
  subst replied
  obtain ⟨x, started, carries⟩ := start_carries ours theirs ok.ours.limit ok.theirs.limit
  have flies := (inFlight_iff ok (n := 0) carries rfl _ _ _).mpr (Or.inr ⟨rfl, rfl, rfl⟩)
  have read := messageRanges_messageBytes
    (readable_of_honest ok.theirs (response_honest ok (talk_honest ok 0 rfl)))
  obtain ⟨before, split⟩ := List.getLast?_eq_some_iff.mp ends
  obtain ⟨bound, payload⟩ := last
  cases payload with
  | skip | idList _ => cases found
  | fingerprint _ =>
    cases found
    rw [split, List.dropLast_concat, ← boundAsItem_boundAfter] at differ
    exact ⟨x, started, _, _, _, before, bound, fp, flies, read.trans (congrArg _ split), differ⟩

end

theorem sample_cutOff :
    letI := tailDigest
    ∃ x, Exchange.start sampleOurs sampleTheirs none (some 4096) = .ok x ∧ CutOff x := by
  let _ := tailDigest
  obtain ⟨⟨last, ends, fp, found, differ⟩, -, -⟩ := sample_talk
  refine start_cutOff sample_pairOk (by rw [sample_sides.1, sample_sides.2]) ends found ?_
  rw [sealed_sampleTheirs]
  exact differ

theorem limited_ends_soundly_cut :
    letI := tailDigest
    (∃ x, Exchange.start sampleOurs sampleTheirs none (some 4096) = .ok x ∧ CutOff x) ∧
      ∃ n x, (Exchange.start sampleOurs sampleTheirs none (some 4096) >>= Exchange.run n) = .ok x ∧
        x.message = none := by
  let _ := tailDigest
  exact ⟨sample_cutOff, (limited_ends_soundly sample_reconcilable sample_pairOk.ours.limit
    sample_pairOk.theirs.limit).2⟩

section
variable [Sha256]

/-- A limited exchange in which no message misleads misses nothing: once it is over, everything that
only one side holds has been reported. -/
theorem limited_complete {ours theirs : Vec Item} {limitA limitB : Option Nat}
    (sets : Reconcilable ours theirs) (okA : LimitOk limitA) (okB : LimitOk limitB)
    (free : CollisionFree (SealedVec.new ours).items (SealedVec.new theirs).items) {n : Nat}
    {x : Exchange} (ran : (Exchange.start ours theirs limitA limitB >>= Exchange.run n) = .ok x)
    (unmisled : ∀ k < n, ∀ y,
      (Exchange.start ours theirs limitA limitB >>= Exchange.run k) = .ok y →
        ∀ sender receiver message, y.InFlight sender receiver message →
          ¬ Misleads sender.items receiver.items message)
    (done : x.message = none) :
    (∀ id ∈ ours.toList.map Item.id, id ∉ theirs.toList.map Item.id → id ∈ x.haveIds) ∧
      ∀ id ∈ theirs.toList.map Item.id, id ∉ ours.toList.map Item.id → id ∈ x.needIds := by
  have ok := Reconcilable.pairOk sets okA okB
  have faithful := (unmisled_iff ok n).mp unmisled
  obtain ⟨x', ran', carries⟩ := run_carries ok n
  obtain rfl : x = x' := Except.ok.inj (ran.symm.trans ran')
  have ended : (Talk.run (initiatorSide ours limitA) (responderSide theirs limitB) n).message = none := by
    have flight := carries.message
    rwa [done, eq_comm, Option.map_eq_none_iff] at flight
  have rounds : ∀ k < n, RoundKeeps (initiatorSide ours limitA) (responderSide theirs limitB) k := by
    intro k lt ranges flight
    refine ⟨Or.inr (faithful k lt ranges flight).2, Or.inr ?_⟩
    -- The initiator's answer is the message of the next round, unless it is empty.
    have next := congrArg Talk.message (talk_succ flight)
    by_cases empty : ((initiatorSide ours limitA).answerRanges .start
        ((responderSide theirs limitB).answerRanges .start ranges).out).out = []
    · rw [empty]
      intro before bound fp split
      exact absurd split (by simp)
    · rw [Side.reply, if_neg fun finished => empty finished.2] at next
      rcases Nat.lt_or_ge (k + 1) n with more | last
      · exact (faithful (k + 1) more _ next).1
      · obtain rfl : n = k + 1 := by omega
        cases ended.symm.trans next
  have complete := reported_of_settled ok ((talk_kept ok free n rounds).2 ended)
  rw [carries.haveIds, carries.needIds]
  exact ⟨fun id held absent => (complete id).1 held absent,
    fun id held absent => (complete id).2 held absent⟩

end

theorem limited_complete_cut :
    letI := tailDigest
    (∃ x, Exchange.start sampleOurs sampleTheirs none (some 4096) = .ok x ∧ CutOff x) ∧
      ∃ x, (Exchange.start sampleOurs sampleTheirs none (some 4096) >>= Exchange.run 2) = .ok x ∧
        x.message = none ∧ ∀ i < 126, third i = false → (markedItem third i).id ∈ x.needIds := by
  let _ := tailDigest
  obtain ⟨-, faithful, ended⟩ := sample_talk
  obtain ⟨x, ran, carries⟩ := run_carries sample_pairOk 2
  have done : x.message = none := by
    rw [carries.message, sample_sides.1, sample_sides.2, ended]
    rfl
  have unmisled := (unmisled_iff sample_pairOk 2).mpr (by
    rw [sample_sides.1, sample_sides.2, sealed_sampleOurs, sealed_sampleTheirs]
    exact faithful)
  refine ⟨sample_cutOff, x, ran, done, fun i below unshared => ?_⟩
  refine (limited_complete sample_reconcilable sample_pairOk.ours.limit sample_pairOk.theirs.limit
    sample_collisionFree ran unmisled done).2 _
    (List.mem_map_of_mem (List.mem_map_of_mem (List.mem_range.mpr below))) fun held => ?_
  have marked := ((mem_sharedOf (by decide) (by omega)).mp held).2
  rw [unshared] at marked
  cases marked

/-! ## A limited exchange that loses items

The responder holds 242 items, the initiator 32 of them. The initiator's first reply is cut off at
its last range, with nothing of its own after it. The responder is out of budget when it reaches
that range, drops the answer to it, and sends the fingerprint of what comes after it. Neither side
holds anything there, so the initiator takes it for a match. -/

def isShared (i : Nat) : Bool := i < 18 || (i - 18) % 32 = 0 || (i - 18) % 32 = 3

def lossItem (i : Nat) : Item := markedItem isShared i

def lossTheirs : Vec Item := ⟨allOf isShared 242, length_allOf_lt isShared (by decide)⟩

def lossOurs : Vec Item := ⟨sharedOf isShared 242, length_sharedOf_lt isShared (by decide)⟩

theorem sealed_lossTheirs : (SealedVec.new lossTheirs).items = allOf isShared 242 :=
  sealed_of_sorted (sorted_allOf (by decide))

theorem sealed_lossOurs : (SealedVec.new lossOurs).items = sharedOf isShared 242 :=
  sealed_of_sorted (sorted_sharedOf (by decide))

def lossInitiator : Side := ⟨sharedOf isShared 242, some 4096, true⟩

def lossResponder : Side := ⟨allOf isShared 242, some 10400, false⟩

set_option maxRecDepth 100000 in
theorem loss_talk :
    (@Talk.run tailDigest lossInitiator lossResponder 2).message = none ∧
      (lossItem 241).id ∉ (@Talk.run tailDigest lossInitiator lossResponder 2).needIds := by
  decide +kernel

/-- Two limited engines can finish without reporting an item that only the responder holds. -/
theorem limited_misses :
    Reconcilable lossOurs lossTheirs ∧ LimitOk (some 4096) ∧ LimitOk (some 10400) ∧
      @CollisionFree tailDigest (SealedVec.new lossOurs).items (SealedVec.new lossTheirs).items ∧
      ∃ x, (@Exchange.start tailDigest lossOurs lossTheirs (some 4096) (some 10400) >>=
          @Exchange.run tailDigest 2) = .ok x ∧ x.message = none ∧
        (lossItem 241).id ∈ lossTheirs.toList.map Item.id ∧
        (lossItem 241).id ∉ lossOurs.toList.map Item.id ∧ (lossItem 241).id ∉ x.needIds := by
  have okA : LimitOk (some 4096) := by simp [LimitOk, frameLimitFloor]
  have okB : LimitOk (some 10400) := by simp [LimitOk, frameLimitFloor]
  have sets : Reconcilable lossOurs lossTheirs := marked_reconcilable rfl rfl
  refine ⟨sets, okA, okB, ?_, ?_⟩
  · rw [sealed_lossOurs, sealed_lossTheirs]
    exact marked_collisionFree (by decide)
  obtain ⟨x, ran, carries⟩ := @run_carries tailDigest lossOurs lossTheirs (some 4096) (some 10400)
    (Reconcilable.pairOk sets okA okB) 2
  have ours : initiatorSide lossOurs (some 4096) = lossInitiator := by
    rw [initiatorSide, sealed_lossOurs, lossInitiator]
  have theirs : responderSide lossTheirs (some 10400) = lossResponder := by
    rw [responderSide, sealed_lossTheirs, lossResponder]
  rw [ours, theirs] at carries
  refine ⟨x, ran, ?_, ?_, ?_, ?_⟩
  · rw [carries.message, loss_talk.1]
    rfl
  · exact List.mem_map_of_mem (List.mem_map_of_mem (List.mem_range.mpr (by decide)))
  · intro held
    have marked := ((mem_sharedOf (by decide) (by decide)).mp held).2
    exact absurd marked (by decide)
  · rw [carries.needIds]
    exact loss_talk.2

end Racnet.Proof.Negentropy
