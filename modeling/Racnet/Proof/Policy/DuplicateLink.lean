import Mathlib.Data.List.Nodup
import Racnet.Policy.DuplicateLinkPolicy
import Racnet.Proof.Channel.Lockstep

/-!
# The duplicate-link rule

Both ends choose among the same links, but each by its own ids.
-/

namespace Racnet.Proof.Policy
open Racnet.Policy DuplicateLinkPolicy
open Proof.Channel (End)

/-! ## The comparison -/

theorem compareFingerprints_eq_iff {as bs : List UInt8} :
    compareFingerprints as bs = .eq ↔ as = bs := by
  induction as generalizing bs with
  | nil => cases bs <;> simp [compareFingerprints]
  | cons a as ih =>
    cases bs with
    | nil => simp [compareFingerprints]
    | cons b bs =>
      rw [compareFingerprints]
      cases first : compare a.toNat b.toNat with
      | eq =>
        have same : a = b := UInt8.toNat_inj.mp (Nat.compare_eq_eq.mp first)
        simp [ih, same]
      | lt =>
        have less : a.toNat < b.toNat := Nat.compare_eq_lt.mp first
        have differ : a ≠ b := fun same => absurd (same ▸ less) (lt_irrefl _)
        simp [differ]
      | gt =>
        have less : b.toNat < a.toNat := Nat.compare_eq_gt.mp first
        have differ : a ≠ b := fun same => absurd (same ▸ less) (lt_irrefl _)
        simp [differ]

theorem compareFingerprints_swap (as bs : List UInt8) :
    compareFingerprints bs as = (compareFingerprints as bs).swap := by
  induction as generalizing bs with
  | nil => cases bs <;> simp [compareFingerprints, Nat.compare_swap]
  | cons a as ih =>
    cases bs with
    | nil => simp [compareFingerprints, Nat.compare_swap]
    | cons b bs =>
      rw [compareFingerprints, compareFingerprints, ← Nat.compare_swap a.toNat b.toNat]
      cases compare a.toNat b.toNat with
      | eq => exact ih bs
      | lt => rfl
      | gt => rfl

/-! ## One end -/

def Eligible (byUs : Bool) (links : List Link) (link : Link) : Prop :=
  link ∈ links ∧ (link.weInitiated = byUs ∨ ∀ other ∈ links, other.weInitiated ≠ byUs)

/-- The choice, with distinct ids: the eligible link with the lowest one. -/
def Kept (byUs : Bool) (links : List Link) (link : Link) : Prop :=
  Eligible byUs links link ∧
    ∀ other, Eligible byUs links other → link.linkId.toNat ≤ other.linkId.toNat

section
variable {byUs : Bool} {links : List Link} {link : Link}

theorem Kept.of_keeper (found : keeper byUs links = some link) : Kept byUs links link := by
  rw [keeper, Option.or_eq_some_iff] at found
  rcases found with least | ⟨none, least⟩
  · have mem := List.mem_filter.mp (List.argmin_mem least)
    have ours : link.weInitiated = byUs := beq_iff_eq.mp mem.2
    refine ⟨⟨mem.1, Or.inl ours⟩, fun other eligible => ?_⟩
    have ours' : other.weInitiated = byUs :=
      eligible.2.resolve_right fun nobody => nobody link mem.1 ours
    have among : other ∈ links.filter (·.weInitiated == byUs) :=
      List.mem_filter.mpr ⟨eligible.1, beq_iff_eq.mpr ours'⟩
    exact @List.le_of_mem_argmin _ _ _ (·.linkId.toNat) _ _ _ among least
  · have empty := List.filter_eq_nil_iff.mp (List.argmin_eq_none.mp none)
    refine ⟨⟨List.argmin_mem least, Or.inr fun other mem ours => ?_⟩, fun other eligible => ?_⟩
    · exact empty other mem (beq_iff_eq.mpr ours)
    · exact @List.le_of_mem_argmin _ _ _ (·.linkId.toNat) _ _ _ eligible.1 least

theorem keeper_isSome (mem : link ∈ links) : ∃ kept, keeper byUs links = some kept := by
  rw [← Option.isSome_iff_exists, keeper, Option.isSome_or, Bool.or_eq_true]
  refine Or.inr (Option.isSome_iff_ne_none.mpr fun none => ?_)
  exact List.ne_nil_of_mem mem (List.argmin_eq_none.mp none)

theorem keeper_eq_some_iff (unique : (links.map (·.linkId)).Nodup) :
    keeper byUs links = some link ↔ Kept byUs links link := by
  refine ⟨Kept.of_keeper, fun kept => ?_⟩
  obtain ⟨found, some⟩ := @keeper_isSome byUs _ _ kept.1.1
  have kept' := Kept.of_keeper some
  have same : link.linkId = found.linkId :=
    UInt64.toNat_inj.mp (le_antisymm (kept.2 found kept'.1) (kept'.2 link kept.1))
  rw [some, List.inj_on_of_nodup_map unique kept.1.1 kept'.1.1 same]

theorem victims_of_duplicates {localFingerprint remoteFingerprint : List UInt8}
    (differ : localFingerprint ≠ remoteFingerprint) (many : ¬ links.length < 2) :
    victims localFingerprint remoteFingerprint links =
      (links.map (·.linkId)).filter fun linkId => some linkId !=
        (keeper (compareFingerprints localFingerprint remoteFingerprint == .lt) links).map (·.linkId) := by
  have ne := mt compareFingerprints_eq_iff.mp differ
  rw [victims, if_neg many]
  cases cmp : compareFingerprints localFingerprint remoteFingerprint with
  | eq => exact absurd cmp ne
  | lt => rfl
  | gt => rfl

theorem notMem_victims_iff {localFingerprint remoteFingerprint : List UInt8}
    (differ : localFingerprint ≠ remoteFingerprint) (unique : (links.map (·.linkId)).Nodup)
    (mem : link ∈ links) :
    link.linkId ∉ victims localFingerprint remoteFingerprint links ↔
      Kept (compareFingerprints localFingerprint remoteFingerprint == .lt) links link := by
  by_cases few : links.length < 2
  · -- a lone link is kept, and it is the choice
    obtain ⟨only, rfl⟩ : ∃ only, links = [only] := by
      have pos := List.length_pos_of_mem mem
      exact List.length_eq_one_iff.mp (by omega)
    obtain rfl := List.mem_singleton.mp mem
    rw [victims, if_pos few]
    simp only [List.not_mem_nil, not_false_eq_true, Kept, Eligible, List.mem_singleton, true_iff]
    refine ⟨⟨trivial, ?_⟩, fun other eligible => eligible.1 ▸ le_rfl⟩
    exact (eq_or_ne _ _).imp_right fun theirs other same => same ▸ theirs
  · rw [victims_of_duplicates differ few, ← keeper_eq_some_iff unique]
    obtain ⟨kept, found⟩ := @keeper_isSome
      (compareFingerprints localFingerprint remoteFingerprint == .lt) _ _ mem
    have injective : link.linkId = kept.linkId ↔ kept = link :=
      ⟨fun same => List.inj_on_of_nodup_map unique (Kept.of_keeper found).1.1 mem same.symm,
        fun same => congrArg _ same.symm⟩
    simp only [found, List.mem_filter, List.mem_map_of_mem mem, Option.map_some, bne_iff_ne, ne_eq,
      Option.some.injEq, true_and, not_not, injective]

end

/-! ## Both ends -/

/-- A link between two peers: who opened it, and its id at either end. -/
structure PhysicalLink where
  initiator : End
  id : End → UInt64

def PhysicalLink.view (side : End) (link : PhysicalLink) : Link :=
  ⟨link.id side, decide (link.initiator = side)⟩

def smaller (fingerprint : End → List UInt8) : End :=
  if compareFingerprints (fingerprint .left) (fingerprint .right) = .lt then .left else .right

/-- The links both ends choose from: those the smaller peer opened, or all if it opened none. -/
def Candidate (fingerprint : End → List UInt8) (links : List PhysicalLink) (link : PhysicalLink) :
    Prop :=
  link ∈ links ∧ (link.initiator = smaller fingerprint ∨
    ∀ other ∈ links, other.initiator ≠ smaller fingerprint)

section
variable {fingerprint : End → List UInt8} {links : List PhysicalLink} {side : End} {seen : List Link}

theorem compare_peer (differ : fingerprint .left ≠ fingerprint .right) (side : End) :
    compareFingerprints (fingerprint side) (fingerprint side.peer) = .lt ↔ smaller fingerprint = side := by
  have ne := mt compareFingerprints_eq_iff.mp differ
  rw [smaller]
  cases side with
  | left => split_ifs with less <;> simp [End.peer, less]
  | right =>
    rw [End.peer, compareFingerprints_swap]
    cases cmp : compareFingerprints (fingerprint .left) (fingerprint .right) with
    | eq => exact absurd cmp ne
    | lt => simp
    | gt => simp

theorem view_weInitiated (differ : fingerprint .left ≠ fingerprint .right) (link : PhysicalLink) :
    (link.view side).weInitiated =
        (compareFingerprints (fingerprint side) (fingerprint side.peer) == .lt) ↔
      link.initiator = smaller fingerprint := by
  rw [Bool.eq_iff_iff, beq_iff_eq, compare_peer differ, PhysicalLink.view, decide_eq_true_iff]
  cases link.initiator <;> cases smaller fingerprint <;> cases side <;> simp

theorem differ_at (differ : fingerprint .left ≠ fingerprint .right) (side : End) :
    fingerprint side ≠ fingerprint side.peer := by
  cases side
  · exact differ
  · exact differ.symm

theorem eligible_view_iff (differ : fingerprint .left ≠ fingerprint .right)
    (sees : seen.Perm (links.map (·.view side))) {link : PhysicalLink} (mem : link ∈ links) :
    Eligible (compareFingerprints (fingerprint side) (fingerprint side.peer) == .lt) seen
      (link.view side) ↔ Candidate fingerprint links link := by
  simp only [Eligible, Candidate, sees.mem_iff, List.mem_map_of_mem mem, mem, true_and,
    view_weInitiated differ, List.forall_mem_map, ne_eq]

theorem view_notMem_victims_iff (differ : fingerprint .left ≠ fingerprint .right)
    (unique : (links.map (·.id side)).Nodup) (sees : seen.Perm (links.map (·.view side)))
    {link : PhysicalLink} (mem : link ∈ links) :
    link.id side ∉ victims (fingerprint side) (fingerprint side.peer) seen ↔
      Candidate fingerprint links link ∧ ∀ other, Candidate fingerprint links other →
        (link.id side).toNat ≤ (other.id side).toNat := by
  have unique' : (seen.map (·.linkId)).Nodup := by
    rw [(sees.map _).nodup_iff, List.map_map]
    exact unique
  have mem' : link.view side ∈ seen := sees.mem_iff.mpr (List.mem_map_of_mem mem)
  have kept := notMem_victims_iff (differ_at differ side) unique' mem'
  rw [show link.id side = (link.view side).linkId from rfl, kept, Kept,
    eligible_view_iff differ sees mem]
  refine and_congr_right fun _ => ⟨fun least other candidate => ?_, fun least other eligible => ?_⟩
  · exact least (other.view side) ((eligible_view_iff differ sees candidate.1).mpr candidate)
  · obtain ⟨other', mem'', rfl⟩ := List.mem_map.mp (sees.mem_iff.mp eligible.1)
    exact least other' ((eligible_view_iff differ sees mem'').mp eligible)

end

/-- A link survives when the candidate with the lowest id at one end has it at the other end too, and
only then. -/
theorem link_survives_iff {fingerprint : End → List UInt8} {links : List PhysicalLink}
    {seen : End → List Link} (differ : fingerprint .left ≠ fingerprint .right)
    (unique : ∀ side, (links.map (·.id side)).Nodup)
    (sees : ∀ side, (seen side).Perm (links.map (·.view side))) :
    (∃ link ∈ links, ∀ side,
        link.id side ∉ victims (fingerprint side) (fingerprint side.peer) (seen side)) ↔
      ∃ link, Candidate fingerprint links link ∧ ∀ other, Candidate fingerprint links other →
        ∀ side, (link.id side).toNat ≤ (other.id side).toNat := by
  constructor
  · rintro ⟨link, mem, survives⟩
    have least := fun side =>
      (view_notMem_victims_iff differ (unique side) (sees side) mem).mp (survives side)
    exact ⟨link, (least .left).1, fun other candidate side => (least side).2 other candidate⟩
  · rintro ⟨link, candidate, least⟩
    refine ⟨link, candidate.1, fun side => ?_⟩
    exact (view_notMem_victims_iff differ (unique side) (sees side) candidate.1).mpr
      ⟨candidate, fun other candidate' => least other candidate' side⟩

def twoFingerprints : End → List UInt8
  | .left => List.replicate 32 1
  | .right => List.replicate 32 2

def crossed (first second : End) : List PhysicalLink :=
  [⟨first, fun | .left => 1 | .right => 2⟩, ⟨second, fun | .left => 2 | .right => 1⟩]

theorem crossed_unique (first second side : End) : ((crossed first second).map (·.id side)).Nodup := by
  cases side <;> simp [crossed]

theorem link_survives_iff_both_ways :
    ∃ link ∈ crossed .left .right, ∀ side, link.id side ∉ victims (twoFingerprints side)
      (twoFingerprints side.peer) ((crossed .left .right).map (·.view side)) := by
  refine (link_survives_iff (by decide) (crossed_unique .left .right) fun _ => List.Perm.refl _).mpr ?_
  refine ⟨⟨.left, fun | .left => 1 | .right => 2⟩, ⟨List.mem_cons_self, Or.inl rfl⟩, ?_⟩
  rintro other ⟨mem, opened⟩ side
  have byLeft : other.initiator = .left :=
    opened.resolve_right fun nobody => nobody _ List.mem_cons_self rfl
  rcases List.mem_cons.mp mem with rfl | mem
  · exact le_rfl
  · rw [List.mem_singleton.mp mem] at byLeft
    cases byLeft

/-- Both links opened by the smaller peer: each end keeps the one the other end closes. -/
theorem crossed_links_closed :
    ¬ ∃ link ∈ crossed .left .left, ∀ side, link.id side ∉ victims (twoFingerprints side)
      (twoFingerprints side.peer) ((crossed .left .left).map (·.view side)) := by
  rintro ⟨link, mem, survives⟩
  have closed : ∀ link ∈ crossed .left .left,
      link.id .left ∈ victims (twoFingerprints .left) (twoFingerprints .right)
          ((crossed .left .left).map (·.view .left)) ∨
        link.id .right ∈ victims (twoFingerprints .right) (twoFingerprints .left)
          ((crossed .left .left).map (·.view .right)) := by decide
  exact (closed link mem).elim (survives .left) (survives .right)

end Racnet.Proof.Policy
