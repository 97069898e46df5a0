import Racnet.Proof.Negentropy.Completeness
import Racnet.Proof.Negentropy.Termination

/-!
# Whole exchanges

The exchange on ranges first: its messages stay honest, its reports are right, it ends, and it ends
with everything reported unless a message misleads. The exchange on bytes computes it.
-/

namespace Racnet.Proof.Negentropy
open Lib Store Sync

variable [Sha256]

/-- The two sides of an honest exchange. -/
structure PairOk (a b : Side) : Prop where
  ours : SideOk a
  theirs : SideOk b
  initiator : a.isInitiator = true
  responder : b.isInitiator = false
  determined : Determined a.items b.items

section Talk

variable {a b : Side} (ok : PairOk a b)
include ok

omit [Sha256] ok in
theorem subset_left : a.items ⊆ a.items ++ b.items := List.subset_append_left _ _

omit [Sha256] ok in
theorem subset_right : b.items ⊆ a.items ++ b.items := List.subset_append_right _ _

theorem response_honest {ranges : List WireRange}
    (honest : Segments pos (Honest a.items (a.items ++ b.items)) bottom ranges) :
    Segments pos (Honest b.items (a.items ++ b.items)) bottom
      (b.answerRanges .start ranges).out :=
  answerRanges_honest ok.theirs subset_right honest

theorem talk_honest (n : Nat) {ranges : List WireRange}
    (flight : (Talk.run a b n).message = some ranges) :
    Segments pos (Honest a.items (a.items ++ b.items)) bottom ranges := by
  induction n generalizing ranges with
  | zero =>
    obtain rfl := Option.some.inj flight
    exact initiate_honest ok.ours subset_left
  | succ n ih =>
    rw [Talk.run, Talk.step] at flight
    cases before : (Talk.run a b n).message with
    | none =>
      simp only [before] at flight
      exact absurd flight (by simp)
    | some sent =>
      simp only [before, Side.reply] at flight
      split_ifs at flight with done
      obtain rfl := Option.some.inj flight
      exact answerRanges_honest ok.ours subset_left (response_honest ok (ih before))

theorem talk_sound (n : Nat) :
    (∀ id ∈ (Talk.run a b n).haveIds, id ∈ a.items.map Item.id ∧ id ∉ b.items.map Item.id) ∧
      ∀ id ∈ (Talk.run a b n).needIds, id ∈ b.items.map Item.id ∧ id ∉ a.items.map Item.id := by
  induction n with
  | zero => exact ⟨fun _ mem => absurd mem List.not_mem_nil, fun _ mem => absurd mem List.not_mem_nil⟩
  | succ n ih =>
    rw [Talk.run, Talk.step]
    cases before : (Talk.run a b n).message with
    | none => exact ih
    | some sent =>
      have sound := answerRanges_sound ok.determined ok.ours subset_left
        (response_honest ok (talk_honest ok n before))
      constructor
      · intro id mem
        rcases List.mem_append.mp mem with old | new
        · exact ih.1 id old
        · exact sound.haves id new
      · intro id mem
        rcases List.mem_append.mp mem with old | new
        · exact ih.2 id old
        · exact sound.needs id new

theorem round_lighter {ranges : List WireRange}
    (honest : Segments pos (Honest a.items (a.items ++ b.items)) bottom ranges) :
    (a.answerRanges .start (b.answerRanges .start ranges).out).out = [] ∨
      ∃ lo r lo' r', firstOpen bottom ranges = some (lo, r) ∧
        firstOpen bottom (a.answerRanges .start (b.answerRanges .start ranges).out).out =
          some (lo', r') ∧
        effort (a.items ++ b.items) false lo' r' < effort (a.items ++ b.items) false lo r := by
  have there := answerRanges_lighter ok.theirs subset_right (following_start ok.theirs) rfl honest
  have back := answerRanges_lighter ok.ours subset_left (following_start ok.ours) rfl
    (response_honest ok honest)
  rw [ok.responder] at there
  rw [ok.initiator] at back
  rcases back with done | ⟨lo₁, r₁, lo', r', open₁, open', lt'⟩
  · exact Or.inl done
  · rcases there with empty | ⟨lo, r, lo₂, r₂, open₀, open₂, lt⟩
    · rw [empty] at open₁
      exact absurd open₁ (by simp [firstOpen])
    · rw [open₁] at open₂
      obtain ⟨rfl, rfl⟩ := Prod.mk.inj (Option.some.inj open₂)
      exact Or.inr ⟨lo, r, lo', r', open₀, open', lt_trans lt' lt⟩

omit ok in
theorem talk_succ {n : Nat} {ranges : List WireRange}
    (flight : (Talk.run a b n).message = some ranges) :
    Talk.run a b (n + 1) =
      { message := a.reply (a.answerRanges .start (b.answerRanges .start ranges).out)
        haveIds := (Talk.run a b n).haveIds ++
          (a.answerRanges .start (b.answerRanges .start ranges).out).haveIds
        needIds := (Talk.run a b n).needIds ++
          (a.answerRanges .start (b.answerRanges .start ranges).out).needIds } := by
  rw [Talk.run, Talk.step, flight]

theorem talk_ends_of_effort (weight : ℕ ×ₗ ℕ ×ₗ ℕ) :
    ∀ n ranges lo r, (Talk.run a b n).message = some ranges →
      firstOpen bottom ranges = some (lo, r) →
      effort (a.items ++ b.items) false lo r = weight →
      ∃ m, (Talk.run a b m).message = none := by
  induction weight using WellFoundedLT.induction with
  | ind weight ih =>
    rintro n ranges lo r flight found rfl
    have next := congrArg Talk.message (talk_succ flight)
    rcases round_lighter ok (talk_honest ok n flight) with
      done | ⟨lo₀, r₀, lo', r', found₀, found', lighter⟩
    · exact ⟨n + 1, by rw [next, Side.reply, if_pos ⟨ok.initiator, done⟩]⟩
    · rw [found] at found₀
      obtain ⟨rfl, rfl⟩ := Prod.mk.inj (Option.some.inj found₀)
      refine ih _ lighter (n + 1) _ lo' r' ?_ found' rfl
      rw [next, Side.reply, if_neg]
      rintro ⟨-, empty⟩
      rw [empty] at found'
      exact absurd found' (by simp [firstOpen])

theorem talk_ends : ∃ m, (Talk.run a b m).message = none := by
  have flight : (Talk.run a b 0).message = some a.initiate := rfl
  cases found : firstOpen bottom a.initiate with
  | some first => exact talk_ends_of_effort ok _ 0 _ first.1 first.2 flight found rfl
  | none =>
    rcases round_lighter ok (talk_honest ok 0 flight) with done | ⟨lo, r, -, -, found', -⟩
    · refine ⟨1, ?_⟩
      rw [talk_succ flight, Side.reply, if_pos ⟨ok.initiator, done⟩]
    · rw [found] at found'
      exact absurd found' (by simp)

/-! ## Completeness -/

omit ok in
/-- Neither side misleads the other in the round after `n` rounds, unless it has no limit. -/
def RoundKeeps (a b : Side) (n : Nat) : Prop :=
  ∀ ranges, (Talk.run a b n).message = some ranges →
    (b.limit = none ∨ Faithful b.items a.items (b.answerRanges .start ranges).out) ∧
      (a.limit = none ∨
        Faithful a.items b.items (a.answerRanges .start (b.answerRanges .start ranges).out).out)

variable (free : CollisionFree a.items b.items)
include free

theorem round_kept {reported : List EntryId} {ranges : List WireRange}
    (honest : Segments pos (Honest a.items (a.items ++ b.items)) bottom ranges)
    (honored : Segments pos (Honored reported a.items b.items) bottom ranges)
    (settled : Settled reported a.items b.items (endOf pos bottom ranges) top)
    (there : b.limit = none ∨ Faithful b.items a.items (b.answerRanges .start ranges).out)
    (back : a.limit = none ∨
      Faithful a.items b.items (a.answerRanges .start (b.answerRanges .start ranges).out).out) :
    Kept reported a.items b.items top
      (a.answerRanges .start (b.answerRanges .start ranges).out) := by
  obtain ⟨noHave, noNeed⟩ := responder_reports ok.theirs subset_right ok.responder honest
  have answer := answerRanges_kept ok.theirs subset_right ok.ours.sorted ok.determined.symm
    (collisionFree_symm free) honest honored settled there
  have reports : reportsOf reported (b.answerRanges .start ranges) = reported := by
    rw [reportsOf, noHave, noNeed, List.append_nil, List.append_nil]
  have honoredBack := answer.honored
  have settledBack := answer.settled
  rw [reports] at honoredBack settledBack
  exact answerRanges_kept ok.ours subset_left ok.theirs.sorted ok.determined free
    (response_honest ok honest) honoredBack settledBack back

theorem talk_kept (n : Nat) (keeps : ∀ k < n, RoundKeeps a b k) :
    (∀ ranges, (Talk.run a b n).message = some ranges →
      Segments pos (Honored ((Talk.run a b n).haveIds ++ (Talk.run a b n).needIds) a.items b.items)
          bottom ranges ∧
        Settled ((Talk.run a b n).haveIds ++ (Talk.run a b n).needIds) a.items b.items
          (endOf pos bottom ranges) top) ∧
    ((Talk.run a b n).message = none →
      Settled ((Talk.run a b n).haveIds ++ (Talk.run a b n).needIds) a.items b.items bottom top) := by
  induction n with
  | zero =>
    refine ⟨fun ranges flight => ?_, fun done => absurd done (by simp [Talk.run, Talk.start])⟩
    obtain rfl := Option.some.inj flight
    exact initiate_honored ok.ours ok.theirs.sorted ok.determined free
  | succ n ih =>
    obtain ⟨going, done⟩ := ih fun k lt => keeps k (Nat.lt_succ_of_lt lt)
    cases flight : (Talk.run a b n).message with
    | none =>
      have same : Talk.run a b (n + 1) = Talk.run a b n := by rw [Talk.run, Talk.step, flight]
      rw [same]
      exact ⟨going, done⟩
    | some ranges =>
      obtain ⟨honored, settled⟩ := going ranges flight
      obtain ⟨there, back⟩ := keeps n (Nat.lt_succ_self n) ranges flight
      have kept := round_kept ok free (talk_honest ok n flight) honored settled there back
      rw [talk_succ flight]
      set answer := (a.answerRanges .start (b.answerRanges .start ranges).out)
      have more : reportsOf ((Talk.run a b n).haveIds ++ (Talk.run a b n).needIds) answer ⊆
          (Talk.run a b n).haveIds ++ answer.haveIds ++
            ((Talk.run a b n).needIds ++ answer.needIds) := by
        intro id mem
        simp only [reportsOf, List.mem_append] at mem ⊢
        tauto
      simp only [Side.reply]
      split_ifs with finished
      · refine ⟨fun _ absurd => by simp at absurd, fun _ => ?_⟩
        have settled := kept.settled
        rw [finished.2] at settled
        exact settled.mono more
      · refine ⟨fun sent same => ?_, fun absurd => by simp at absurd⟩
        obtain rfl := Option.some.inj same
        exact ⟨kept.honored.imp fun _ _ _ h => h.mono more, kept.settled.mono more⟩

end Talk

/-! ## The exchange on bytes -/

omit [Sha256] in
theorem id_mem_new {items : Vec Item} {id : EntryId} :
    id ∈ (SealedVec.new items).items.map Item.id ↔ id ∈ items.toList.map Item.id := by
  simp only [List.mem_map, SealedVec.mem_new]

section Bytes

variable {ours theirs : Vec Item} {limitA limitB : Option Nat}

def initiatorSide (ours : Vec Item) (limitA : Option Nat) : Side :=
  ⟨(SealedVec.new ours).items, limitA, true⟩

def responderSide (theirs : Vec Item) (limitB : Option Nat) : Side :=
  ⟨(SealedVec.new theirs).items, limitB, false⟩

omit [Sha256] in
theorem Reconcilable.pairOk (sets : Reconcilable ours theirs) (okA : LimitOk limitA)
    (okB : LimitOk limitB) : PairOk (initiatorSide ours limitA) (responderSide theirs limitB) := by
  have same : ∀ x ∈ ours.toList ++ theirs.toList, ∀ y ∈ ours.toList ++ theirs.toList,
      x.id = y.id → x = y :=
    fun x mx y my ids => Item.ext (sets.determined x mx y my ids) ids
  have fromOurs : ∀ x ∈ (SealedVec.new ours).items, x ∈ ours.toList ++ theirs.toList :=
    fun x mem => List.mem_append_left _ (SealedVec.mem_new.mp mem)
  have fromTheirs : ∀ x ∈ (SealedVec.new theirs).items, x ∈ ours.toList ++ theirs.toList :=
    fun x mem => List.mem_append_right _ (SealedVec.mem_new.mp mem)
  have unique : ∀ s : SealedVec, (∀ x ∈ s.items, x ∈ ours.toList ++ theirs.toList) →
      (s.items.map Item.id).Nodup := fun s held =>
    List.Nodup.map_on (fun x mx y my ids => same x (held x mx) y (held y my) ids)
      (s.sorted.imp fun lt => lt.ne)
  exact {
    ours := ⟨okA, (SealedVec.new ours).length_lt, unique _ fromOurs, (SealedVec.new ours).sorted,
      fun x mem => sets.finite x (fromOurs x mem)⟩
    theirs := ⟨okB, (SealedVec.new theirs).length_lt, unique _ fromTheirs,
      (SealedVec.new theirs).sorted, fun x mem => sets.finite x (fromTheirs x mem)⟩
    initiator := rfl
    responder := rfl
    determined := fun x mx y my ids => same x (fromOurs x mx) y (fromTheirs y my) ids }

/-- The exchange on bytes whose messages are the bytes of the messages of `t`. -/
structure Carries (ours theirs : Vec Item) (limitA limitB : Option Nat) (x : Exchange) (t : Talk) :
    Prop where
  initiator : x.initiator = ⟨SealedVec.new ours, limitA, true⟩
  responder : x.responder = ⟨SealedVec.new theirs, limitB, false⟩
  message : x.message = t.message.map messageBytes
  haveIds : x.haveIds = t.haveIds
  needIds : x.needIds = t.needIds

theorem start_eq (ours theirs : Vec Item) (okA : LimitOk limitA) (okB : LimitOk limitB) :
    Exchange.start ours theirs limitA limitB = .ok
      { initiator := ⟨SealedVec.new ours, limitA, true⟩
        responder := ⟨SealedVec.new theirs, limitB, false⟩
        message := some (messageBytes (initiatorSide ours limitA).initiate)
        rounds := [] } := by
  have accepted : ∀ (s : SealedVec) (limit : Option Nat), LimitOk limit →
      Negentropy.new s limit = .ok ⟨s, limit, false⟩ := by
    intro s limit ok
    rw [Negentropy.new, if_neg]
    cases limit with
    | none => simp
    | some l => simpa using ok l rfl
  have first := @initiate_spec _ ⟨SealedVec.new ours, limitA, false⟩ rfl
  rw [Exchange.start, accepted _ _ okA, accepted _ _ okB]
  simp only [Exec.lift_ok, Exec.ok_bind, first]
  rfl

theorem start_carries (ours theirs : Vec Item) (okA : LimitOk limitA) (okB : LimitOk limitB) :
    ∃ x, Exchange.start ours theirs limitA limitB = .ok x ∧
      Carries ours theirs limitA limitB x (Talk.start (initiatorSide ours limitA)) :=
  ⟨_, start_eq ours theirs okA okB, rfl, rfl, rfl, rfl, rfl⟩

section Round
variable (ok : PairOk (initiatorSide ours limitA) (responderSide theirs limitB)) {n : Nat}
  {ranges : List WireRange}
  (flight : (Talk.run (initiatorSide ours limitA) (responderSide theirs limitB) n).message = some ranges)
include ok flight

theorem responder_round :
    (⟨SealedVec.new theirs, limitB, false⟩ : Negentropy SealedVec).reconcile (messageBytes ranges) =
      .ok { reply := some (messageBytes ((responderSide theirs limitB).answerRanges .start ranges).out)
            haveIds := []
            needIds := [] } := by
  have honest := talk_honest ok n flight
  obtain ⟨noHave, noNeed⟩ := responder_reports ok.theirs subset_right ok.responder honest
  have read := @reconcile_spec _ ⟨SealedVec.new theirs, limitB, false⟩ ok.theirs _
    (readable_of_honest ok.ours honest)
  rw [read]
  change Except.ok ((responderSide theirs limitB).round ranges) = _
  rw [Side.round, noHave, noNeed, Side.reply, if_neg]
  · rfl
  · rintro ⟨initiator, -⟩
    exact absurd initiator (by simp [responderSide])

theorem initiator_round :
    ∃ round, (⟨SealedVec.new ours, limitA, true⟩ : Negentropy SealedVec).reconcile
        (messageBytes ((responderSide theirs limitB).answerRanges .start ranges).out) = .ok round ∧
      Talk.run (initiatorSide ours limitA) (responderSide theirs limitB) (n + 1) =
        { message := (initiatorSide ours limitA).reply ((initiatorSide ours limitA).answerRanges .start
            ((responderSide theirs limitB).answerRanges .start ranges).out)
          haveIds := (Talk.run (initiatorSide ours limitA) (responderSide theirs limitB) n).haveIds ++
            round.haveIds
          needIds := (Talk.run (initiatorSide ours limitA) (responderSide theirs limitB) n).needIds ++
            round.needIds } ∧
      round.reply = (Talk.run (initiatorSide ours limitA) (responderSide theirs limitB)
        (n + 1)).message.map messageBytes := by
  have read := @reconcile_spec _ ⟨SealedVec.new ours, limitA, true⟩ ok.ours _
    (readable_of_honest ok.theirs (response_honest ok (talk_honest ok n flight)))
  refine ⟨_, read, talk_succ flight, ?_⟩
  rw [talk_succ flight]
  rfl

end Round

theorem step_carries (ok : PairOk (initiatorSide ours limitA) (responderSide theirs limitB))
    {x : Exchange} {n : Nat}
    (carries : Carries ours theirs limitA limitB x
      (Talk.run (initiatorSide ours limitA) (responderSide theirs limitB) n)) :
    ∃ y, x.step = .ok y ∧
      Carries ours theirs limitA limitB y
        (Talk.run (initiatorSide ours limitA) (responderSide theirs limitB) (n + 1)) := by
  cases flight : (Talk.run (initiatorSide ours limitA) (responderSide theirs limitB) n).message with
  | none =>
    have message : x.message = none := by rw [carries.message, flight]; rfl
    refine ⟨x, by rw [Exchange.step, message], ?_⟩
    rwa [Talk.run, Talk.step, flight]
  | some ranges =>
    have message : x.message = some (messageBytes ranges) := by rw [carries.message, flight]; rfl
    obtain ⟨round, back, next, reply⟩ := initiator_round ok flight
    refine ⟨{ x with message := round.reply, rounds := x.rounds ++ [round] }, ?_, ?_⟩
    · rw [Exchange.step, message]
      simp only [carries.responder, carries.initiator, responder_round ok flight, Exec.ok_bind,
        Exec.orPanic_some, back]
      rfl
    · refine ⟨carries.initiator, carries.responder, reply, ?_, ?_⟩
      · rw [next, ← carries.haveIds]
        simp [Exchange.haveIds]
      · rw [next, ← carries.needIds]
        simp [Exchange.needIds]

theorem run_carries (ok : PairOk (initiatorSide ours limitA) (responderSide theirs limitB)) (n : Nat) :
    ∃ x, (Exchange.start ours theirs limitA limitB >>= Exchange.run n) = .ok x ∧
      Carries ours theirs limitA limitB x
        (Talk.run (initiatorSide ours limitA) (responderSide theirs limitB) n) := by
  obtain ⟨x₀, started, carries⟩ :=
    @start_carries _ limitA limitB ours theirs ok.ours.limit ok.theirs.limit
  rw [started, Exec.ok_bind]
  induction n with
  | zero => exact ⟨x₀, rfl, carries⟩
  | succ n ih =>
    obtain ⟨x, ran, carries⟩ := ih
    obtain ⟨y, stepped, carried⟩ := step_carries ok carries
    exact ⟨y, by rw [Exchange.run, ran, Exec.ok_bind, stepped], carried⟩

theorem reported_of_settled (ok : PairOk (initiatorSide ours limitA) (responderSide theirs limitB))
    {n : Nat}
    (settled : Settled
      ((Talk.run (initiatorSide ours limitA) (responderSide theirs limitB) n).haveIds ++
        (Talk.run (initiatorSide ours limitA) (responderSide theirs limitB) n).needIds)
      (SealedVec.new ours).items (SealedVec.new theirs).items bottom top) (id : EntryId) :
    (id ∈ ours.toList.map Item.id → id ∉ theirs.toList.map Item.id →
      id ∈ (Talk.run (initiatorSide ours limitA) (responderSide theirs limitB) n).haveIds) ∧
    (id ∈ theirs.toList.map Item.id → id ∉ ours.toList.map Item.id →
      id ∈ (Talk.run (initiatorSide ours limitA) (responderSide theirs limitB) n).needIds) := by
  obtain ⟨haves, needs⟩ := talk_sound ok n
  simp only [← id_mem_new] at *
  constructor
  · intro held absent
    obtain ⟨x, mem, rfl⟩ := List.mem_map.mp held
    rcases settled x (bottom_le x) (lt_top (ok.ours.finite x mem)) with both | reported
    · exact absurd (List.mem_map_of_mem (both.mp mem)) absent
    · rcases List.mem_append.mp reported with have_ | need
      · exact have_
      · exact absurd held (needs _ need).2
  · intro held absent
    obtain ⟨x, mem, rfl⟩ := List.mem_map.mp held
    rcases settled x (bottom_le x) (lt_top (ok.theirs.finite x mem)) with both | reported
    · exact absurd (List.mem_map_of_mem (both.mpr mem)) absent
    · rcases List.mem_append.mp reported with have_ | need
      · exact absurd held (haves _ have_).2
      · exact need

theorem inFlight_iff (ok : PairOk (initiatorSide ours limitA) (responderSide theirs limitB))
    {y : Exchange} {n : Nat} {ranges : List WireRange}
    (carries : Carries ours theirs limitA limitB y
      (Talk.run (initiatorSide ours limitA) (responderSide theirs limitB) n))
    (flight : (Talk.run (initiatorSide ours limitA) (responderSide theirs limitB) n).message = some ranges)
    (sender receiver : SealedVec) (message : List UInt8) :
    y.InFlight sender receiver message ↔
      sender = SealedVec.new ours ∧ receiver = SealedVec.new theirs ∧ message = messageBytes ranges ∨
        sender = SealedVec.new theirs ∧ receiver = SealedVec.new ours ∧
          message = messageBytes ((responderSide theirs limitB).answerRanges .start ranges).out := by
  have asked : y.message = some (messageBytes ranges) := by rw [carries.message, flight]; rfl
  have answered := responder_round ok flight
  rw [← carries.responder] at answered
  constructor
  · rintro (sent | ⟨sent, answer, replied⟩)
    · rw [carries.initiator, carries.responder]
      exact Or.inl ⟨rfl, rfl, Option.some.inj (sent.symm.trans asked)⟩
    · obtain rfl := Option.some.inj (sent.symm.trans asked)
      obtain rfl := Except.ok.inj (answer.symm.trans answered)
      rw [carries.initiator, carries.responder]
      exact Or.inr ⟨rfl, rfl, (Option.some.inj replied).symm⟩
  · rintro (⟨rfl, rfl, rfl⟩ | ⟨rfl, rfl, rfl⟩)
    · have flies := Exchange.InFlight.asked asked
      rwa [carries.initiator, carries.responder] at flies
    · have flies := Exchange.InFlight.answered asked answered rfl
      rwa [carries.initiator, carries.responder] at flies

theorem unmisled_iff (ok : PairOk (initiatorSide ours limitA) (responderSide theirs limitB)) (n : Nat) :
    (∀ k < n, ∀ y, (Exchange.start ours theirs limitA limitB >>= Exchange.run k) = .ok y →
      ∀ sender receiver message, y.InFlight sender receiver message →
        ¬ Misleads sender.items receiver.items message) ↔
    ∀ k < n, ∀ ranges ∈ (Talk.run (initiatorSide ours limitA) (responderSide theirs limitB) k).message,
      Faithful (SealedVec.new ours).items (SealedVec.new theirs).items ranges ∧
        Faithful (SealedVec.new theirs).items (SealedVec.new ours).items
          ((responderSide theirs limitB).answerRanges .start ranges).out := by
  refine forall₂_congr fun k _ => ?_
  obtain ⟨x, ran, carries⟩ := run_carries ok k
  constructor
  · intro unmisled ranges flight
    have honest := talk_honest ok k flight
    have flies := inFlight_iff ok carries flight
    constructor
    · have fair := unmisled x ran _ _ _ ((flies _ _ _).mpr (Or.inl ⟨rfl, rfl, rfl⟩))
      rwa [misleads_iff (readable_of_honest ok.ours honest), not_not] at fair
    · have fair := unmisled x ran _ _ _ ((flies _ _ _).mpr (Or.inr ⟨rfl, rfl, rfl⟩))
      rwa [misleads_iff (readable_of_honest ok.theirs (response_honest ok honest)), not_not] at fair
  · intro faithful y ranY sender receiver message flies
    obtain rfl : y = x := Except.ok.inj (ranY.symm.trans ran)
    cases flight : (Talk.run (initiatorSide ours limitA) (responderSide theirs limitB) k).message with
    | none =>
      have ended : y.message = none := by rw [carries.message, flight]; rfl
      rcases flies with sent | ⟨sent, -, -⟩ <;> cases sent.symm.trans ended
    | some ranges =>
      have honest := talk_honest ok k flight
      obtain ⟨there, back⟩ := faithful ranges flight
      rcases (inFlight_iff ok carries flight _ _ _).mp flies with ⟨rfl, rfl, rfl⟩ | ⟨rfl, rfl, rfl⟩
      · rw [misleads_iff (readable_of_honest ok.ours honest), not_not]
        exact there
      · rw [misleads_iff (readable_of_honest ok.theirs (response_honest ok honest)), not_not]
        exact back

end Bytes

/-! ## Sets of numbered items -/

omit [Sha256] in
/-- A stand-in for the hash function: the last limb of the sum and the count. -/
@[reducible] def tailDigest : Sha256 where
  digest bytes := ⟨(bytes.drop 24 ++ List.replicate 32 0).take 32, by simp⟩

omit [Sha256] in
/-- The item with a number below 256; its id also says whether both sides hold it. -/
def markedItem (shared : Nat → Bool) (i : Nat) : Item where
  sortKey := 0
  id := ⟨List.replicate 28 0 ++
    [UInt8.ofNat i, 0, if shared i then 0 else 1, if shared i then 1 else 0], rfl⟩

omit [Sha256] in
theorem markedItem_lt (shared : Nat → Bool) {i j : Nat} (lt : i < j) (small : j < 255) :
    markedItem shared i < markedItem shared j := by
  rw [Item.lt_iff]
  refine Or.inr ⟨rfl, ?_⟩
  rw [FixedBytes.lt_def]
  simp only [markedItem, List.map_append]
  refine List.append_left_lt (List.cons_lt_cons_iff.mpr (Or.inl ?_))
  rw [UInt8.toNat_ofNat', UInt8.toNat_ofNat']
  omega

omit [Sha256] in
theorem sorted_marked {shared : Nat → Bool} {is : List Nat} (sub : is.Sublist (List.range 255)) :
    (is.map (markedItem shared)).Pairwise (· < ·) := by
  rw [List.pairwise_map]
  have ascending : is.Pairwise (· < ·) := (List.pairwise_lt_range).sublist sub
  exact ascending.imp_of_mem fun _ mem lt =>
    markedItem_lt shared lt (List.mem_range.mp (sub.subset mem))

omit [Sha256] in
theorem sealed_of_sorted {items : Vec Item} (sorted : items.toList.Pairwise (· < ·)) :
    (SealedVec.new items).items = items.toList := by
  change (items.toList.insertionSort (· ≤ ·)).destutter (· ≠ ·) = _
  rw [(sorted.imp fun lt => lt.le).insertionSort_eq, List.destutter_of_isChain]
  exact (sorted.imp fun lt => lt.ne).isChain

omit [Sha256] in
def allOf (shared : Nat → Bool) (n : Nat) : List Item := (List.range n).map (markedItem shared)

omit [Sha256] in
def sharedOf (shared : Nat → Bool) (n : Nat) : List Item :=
  ((List.range n).filter shared).map (markedItem shared)

omit [Sha256] in
theorem length_allOf_lt (shared : Nat → Bool) {n : Nat} (few : n ≤ 255) :
    (allOf shared n).length < 2 ^ 64 := by
  rw [allOf, List.length_map, List.length_range]
  omega

omit [Sha256] in
theorem length_sharedOf_lt (shared : Nat → Bool) {n : Nat} (few : n ≤ 255) :
    (sharedOf shared n).length < 2 ^ 64 := by
  have fewer := List.length_filter_le shared (List.range n)
  rw [List.length_range] at fewer
  rw [sharedOf, List.length_map]
  omega

omit [Sha256] in
def third (i : Nat) : Bool := i % 3 = 0

omit [Sha256] in
def fortyItems : Vec Item := ⟨allOf third 40, length_allOf_lt third (by decide)⟩

omit [Sha256] in
def sampleTheirs : Vec Item := ⟨allOf third 126, length_allOf_lt third (by decide)⟩

omit [Sha256] in
def sampleOurs : Vec Item := ⟨sharedOf third 126, length_sharedOf_lt third (by decide)⟩

end Racnet.Proof.Negentropy
