import Racnet.Proof.Sessions.Network

/-!
# The phases of a session

While a session goes on, exactly one message of it is on its way. It carries a message of the exchange
between the two snapshots, whatever happens to the stores meanwhile.
-/

namespace Racnet.Proof.Sessions
open Lib Store Wire Sync
open Proof.Negentropy (initiatorSide responderSide PairOk LimitOk initiate_spec responder_round
  initiator_round Reconcilable.pairOk)
open Proof.Storage (Built Ready Holds Retains itemOf reservedKey)

def openerSession (ours : Vec Item) (pushed : Finset EntryId) : Session :=
  ⟨⟨SealedVec.new ours, none, true⟩, pushed⟩

def accepterSession (theirs : Vec Item) : Session := ⟨⟨SealedVec.new theirs, none, false⟩, ∅⟩

/-- The snapshots that the two sides of a session have taken. -/
structure Meets (opening : Opening) (ours theirs : Vec Item) : Prop where
  ours : opening.offered.snapshot opening.window = some ours.toList
  theirs : ∃ met, opening.met = some met ∧ met.snapshot opening.window = some theirs.toList

section
variable [Sha256]

def talkOf (ours theirs : Vec Item) (n : Nat) : Talk :=
  Talk.run (initiatorSide ours none) (responderSide theirs none) n

def responseTo (theirs : Vec Item) (ranges : List WireRange) : List WireRange :=
  ((responderSide theirs none).answerRanges .start ranges).out

/-- The phases a session goes through, and the ids its opener has reported as lacking on the other
side. -/
inductive Phase (sid : UInt64) : Option Opening → Strand → List EntryId → Prop where
  | unopened : Phase sid none ⟨none, none, 0, 0⟩ []
  | offered {opening : Opening} {ours : Vec Item} (unmet : opening.met = none)
      (taken : opening.offered.snapshot opening.window = some ours.toList) :
      Phase sid (some opening) ⟨some (openerSession ours ∅), none,
        {.reconInit ⟨sid, opening.window, messageBytes (initiatorSide ours none).initiate⟩}, 0⟩ []
  | asked {opening : Opening} {ours theirs : Vec Item} {n : Nat} {ranges : List WireRange}
      {pushed : Finset EntryId} (meets : Meets opening ours theirs)
      (flight : (talkOf ours theirs n).message = some ranges)
      (known : ∀ id, id ∈ pushed ↔ id ∈ (talkOf ours theirs n).haveIds) :
      Phase sid (some opening) ⟨some (openerSession ours pushed), some (accepterSession theirs),
        {.reconMsg ⟨sid, messageBytes ranges⟩}, 0⟩ (talkOf ours theirs n).haveIds
  | answered {opening : Opening} {ours theirs : Vec Item} {n : Nat} {ranges : List WireRange}
      {pushed : Finset EntryId} (meets : Meets opening ours theirs)
      (flight : (talkOf ours theirs n).message = some ranges)
      (known : ∀ id, id ∈ pushed ↔ id ∈ (talkOf ours theirs n).haveIds) :
      Phase sid (some opening) ⟨some (openerSession ours pushed), some (accepterSession theirs),
        0, {.reconMsg ⟨sid, messageBytes (responseTo theirs ranges)⟩}⟩ (talkOf ours theirs n).haveIds
  | finished {opening : Opening} {ours theirs : Vec Item} {n : Nat}
      (meets : Meets opening ours theirs) (ended : (talkOf ours theirs n).message = none) :
      Phase sid (some opening) ⟨none, some (accepterSession theirs), {.reconDone ⟨sid⟩}, 0⟩
        (talkOf ours theirs n).haveIds
  | closed {opening : Opening} {ours theirs : Vec Item} {n : Nat}
      (meets : Meets opening ours theirs) (ended : (talkOf ours theirs n).message = none) :
      Phase sid (some opening) ⟨none, none, 0, 0⟩ (talkOf ours theirs n).haveIds

namespace Phase
variable {sid : UInt64} {opening : Option Opening} {strand : Strand} {reported : List EntryId}
  {rest : Multiset Message} (phase : Phase sid opening strand reported)
include phase

theorem back_msg {msg : Message} (next : strand.back = msg ::ₘ rest) : ∃ rm, msg = .reconMsg rm := by
  cases phase with
  | answered meets flight known =>
    obtain ⟨rfl, -⟩ := (Multiset.singleton_eq_cons_iff _).mp next
    exact ⟨_, rfl⟩
  | unopened | offered | asked | finished | closed => exact absurd next (Multiset.zero_ne_cons)

theorem init_forth {init : ReconInit} (next : strand.forth = .reconInit init ::ₘ rest) :
    ∃ opened ours, opening = some opened ∧ opened.met = none ∧
      opened.offered.snapshot opened.window = some (Vec.toList ours) ∧
      init = ⟨sid, opened.window, messageBytes (initiatorSide ours none).initiate⟩ ∧ rest = 0 ∧
      strand.ours = some (openerSession ours ∅) ∧ strand.theirs = none ∧ strand.back = 0 := by
  cases phase with
  | offered unmet taken =>
    obtain ⟨same, rfl⟩ := (Multiset.singleton_eq_cons_iff _).mp next
    exact ⟨_, _, rfl, unmet, taken, (Message.reconInit.inj same).symm, rfl, rfl, rfl, rfl⟩
  | asked | finished => cases ((Multiset.singleton_eq_cons_iff _).mp next).1
  | unopened | answered | closed => exact absurd next (Multiset.zero_ne_cons)

theorem done_forth {done : ReconDone} (next : strand.forth = .reconDone done ::ₘ rest) :
    ∃ opened ours theirs n, opening = some opened ∧ Meets opened ours theirs ∧
      (talkOf ours theirs n).message = none ∧ reported = (talkOf ours theirs n).haveIds ∧ rest = 0 ∧
      strand.ours = none ∧ strand.theirs = some (accepterSession theirs) ∧ strand.back = 0 := by
  cases phase with
  | finished meets ended =>
    obtain ⟨same, rfl⟩ := (Multiset.singleton_eq_cons_iff _).mp next
    exact ⟨_, _, _, _, rfl, meets, ended, rfl, rfl, rfl, rfl, rfl⟩
  | offered | asked => cases ((Multiset.singleton_eq_cons_iff _).mp next).1
  | unopened | answered | closed => exact absurd next (Multiset.zero_ne_cons)

theorem msg_forth {rm : ReconMsg} (next : strand.forth = .reconMsg rm ::ₘ rest) :
    ∃ opened ours theirs n ranges pushed, opening = some opened ∧ Meets opened ours theirs ∧
      (talkOf ours theirs n).message = some ranges ∧
      (∀ id, id ∈ pushed ↔ id ∈ (talkOf ours theirs n).haveIds) ∧
      reported = (talkOf ours theirs n).haveIds ∧ rm = ⟨sid, messageBytes ranges⟩ ∧ rest = 0 ∧
      strand.ours = some (openerSession ours pushed) ∧
      strand.theirs = some (accepterSession theirs) ∧ strand.back = 0 := by
  cases phase with
  | asked meets flight known =>
    obtain ⟨same, rfl⟩ := (Multiset.singleton_eq_cons_iff _).mp next
    exact ⟨_, _, _, _, _, _, rfl, meets, flight, known, rfl, (Message.reconMsg.inj same).symm, rfl,
      rfl, rfl, rfl⟩
  | offered | finished => cases ((Multiset.singleton_eq_cons_iff _).mp next).1
  | unopened | answered | closed => exact absurd next (Multiset.zero_ne_cons)

theorem msg_back {rm : ReconMsg} (next : strand.back = .reconMsg rm ::ₘ rest) :
    ∃ opened ours theirs n ranges pushed, opening = some opened ∧ Meets opened ours theirs ∧
      (talkOf ours theirs n).message = some ranges ∧
      (∀ id, id ∈ pushed ↔ id ∈ (talkOf ours theirs n).haveIds) ∧
      reported = (talkOf ours theirs n).haveIds ∧
      rm = ⟨sid, messageBytes (responseTo theirs ranges)⟩ ∧ rest = 0 ∧
      strand.ours = some (openerSession ours pushed) ∧
      strand.theirs = some (accepterSession theirs) ∧ strand.forth = 0 := by
  cases phase with
  | answered meets flight known =>
    obtain ⟨same, rfl⟩ := (Multiset.singleton_eq_cons_iff _).mp next
    exact ⟨_, _, _, _, _, _, rfl, meets, flight, known, rfl, (Message.reconMsg.inj same).symm, rfl,
      rfl, rfl, rfl⟩
  | unopened | offered | asked | finished | closed => exact absurd next (Multiset.zero_ne_cons)

theorem at_rest (forth : strand.forth = 0) (back : strand.back = 0) :
    strand.ours = none ∧ strand.theirs = none ∧ ∀ opened, opening = some opened →
      ∃ ours theirs n, Meets opened ours theirs ∧ (talkOf ours theirs n).message = none ∧
        reported = (talkOf ours theirs n).haveIds := by
  cases phase with
  | unopened => exact ⟨rfl, rfl, fun _ same => by cases same⟩
  | closed meets ended =>
    exact ⟨rfl, rfl, fun _ same => by
      obtain rfl := Option.some.inj same
      exact ⟨_, _, _, meets, ended, rfl⟩⟩
  | offered | asked | finished => exact absurd forth (Multiset.singleton_ne_zero _)
  | answered => exact absurd back (Multiset.singleton_ne_zero _)

end Phase

/-! ## The snapshots of two stores -/

section
variable [Ed25519] {first second : EntryStore} {window : SortKeyWindow} {ours theirs : Vec Item}

theorem holds_of_snapshot {store : EntryStore} {items : List Item} (built : Built store)
    (room : store.len ≤ nilIndex) (taken : store.snapshot window = some items) {x : Item}
    (mem : x ∈ items) : ∃ entry, store.get x.id = some entry ∧ entry.sortKey = x.sortKey := by
  obtain ⟨t, ordered⟩ := built.filled.ordered room
  exact ((ordered.mem_snapshot taken x).mp mem).1

theorem reconcilable_of_snapshots (builtFirst : Built first) (builtSecond : Built second)
    (roomFirst : first.len ≤ nilIndex) (roomSecond : second.len ≤ nilIndex)
    (takenFirst : first.snapshot window = some ours.toList)
    (takenSecond : second.snapshot window = some theirs.toList)
    (agree : ∀ id entry other, first.get id = some entry → second.get id = some other →
      entry = other) : Reconcilable ours theirs := by
  have held : ∀ x ∈ ours.toList ++ theirs.toList, ∃ entry,
      (first.get x.id = some entry ∨ second.get x.id = some entry) ∧ entry.sortKey = x.sortKey := by
    intro x mem
    rcases List.mem_append.mp mem with left | right
    · obtain ⟨entry, found, key⟩ := holds_of_snapshot builtFirst roomFirst takenFirst left
      exact ⟨entry, Or.inl found, key⟩
    · obtain ⟨entry, found, key⟩ := holds_of_snapshot builtSecond roomSecond takenSecond right
      exact ⟨entry, Or.inr found, key⟩
  constructor
  · intro x mem
    obtain ⟨entry, found, key⟩ := held x mem
    rw [← key]
    rcases found with found | found
    · exact builtFirst.filled.sound.finite x.id entry found
    · exact builtSecond.filled.sound.finite x.id entry found
  · intro x memX y memY same
    obtain ⟨entry, foundX, keyX⟩ := held x memX
    obtain ⟨other, foundY, keyY⟩ := held y memY
    rw [← keyX, ← keyY]
    rw [← same] at foundY
    rcases foundX with foundX | foundX
    · rcases foundY with foundY | foundY
      · rw [Option.some.inj (foundX.symm.trans foundY)]
      · rw [agree _ _ _ foundX foundY]
    · rcases foundY with foundY | foundY
      · rw [agree _ _ _ foundY foundX]
      · rw [Option.some.inj (foundX.symm.trans foundY)]

theorem items_of_snapshot {store : EntryStore} {items : Vec Item} (built : Built store)
    (room : store.len ≤ nilIndex) (taken : store.snapshot window = some items.toList) :
    (SealedVec.new items).items = items.toList := by
  obtain ⟨t, ordered⟩ := built.filled.ordered room
  exact (SealedVec.new items).sorted.eq_of_mem_iff (ordered.sorted_snapshot taken) fun x =>
    SealedVec.mem_new

end

/-! ## Calls of honest sessions -/

variable {syncer : Syncer} {store : EntryStore}

omit [Sha256] in
theorem sealedEngine_unlimited (unlimited : syncer.config.frameLimit = none) {window : SortKeyWindow}
    {items : Vec Item} (taken : store.snapshot window = some items.toList) :
    syncer.sealedEngine store window = .ok ⟨SealedVec.new items, none, false⟩ := by
  rw [Syncer.sealedEngine, taken, Exec.orPanic_some, Exec.ok_bind, dif_pos items.length_lt, unlimited]
  rfl

theorem handleInit_accepts (unlimited : syncer.config.frameLimit = none) {sid : UInt64}
    {window : SortKeyWindow} {ours theirs : Vec Item} (parity : sid.toNat % 2 = syncer.peerParity)
    (absent : syncer.sessions.lookup (false, sid) = none)
    (room : syncer.openSessions < syncer.config.maxSessions)
    (taken : store.snapshot window = some theirs.toList)
    (ok : PairOk (initiatorSide ours none) (responderSide theirs none)) :
    syncer.handleInit store ⟨sid, window, messageBytes (initiatorSide ours none).initiate⟩ =
      (.ok { replies := [.reconMsg ⟨sid,
          messageBytes (responseTo theirs (initiatorSide ours none).initiate)⟩] },
        { syncer with sessions := syncer.sessions.insert (false, sid) (accepterSession theirs) }) := by
  have unheld : (false, sid) ∉ syncer.sessions := AList.lookup_eq_none.mp absent
  have answered := @responder_round _ ours theirs none none ok 0 _ rfl
  rw [Syncer.handleInit, if_neg (not_not.mpr parity), if_neg unheld, if_neg (Nat.not_le.mpr room),
    sealedEngine_unlimited unlimited taken]
  dsimp only
  rw [answered]
  rfl

theorem handleReconMsg_responds {sid : UInt64} {ours theirs : Vec Item} {n : Nat}
    {ranges : List WireRange}
    (found : syncer.sessions.lookup (syncer.sessionKey sid) = some (accepterSession theirs))
    (ok : PairOk (initiatorSide ours none) (responderSide theirs none))
    (flight : (talkOf ours theirs n).message = some ranges) :
    syncer.handleReconMsg store ⟨sid, messageBytes ranges⟩ =
      (.ok { replies := [.reconMsg ⟨sid, messageBytes (responseTo theirs ranges)⟩] },
        { syncer with
          sessions := syncer.sessions.insert (syncer.sessionKey sid) (accepterSession theirs) }) := by
  have answered := responder_round ok flight
  rw [Syncer.handleReconMsg]
  dsimp only
  rw [found]
  dsimp only [accepterSession]
  rw [answered]
  rfl

theorem handleReconMsg_learns {sid : UInt64} {ours theirs : Vec Item} {n : Nat}
    {ranges : List WireRange} {pushed : Finset EntryId}
    (found : syncer.sessions.lookup (syncer.sessionKey sid) = some (openerSession ours pushed))
    (ok : PairOk (initiatorSide ours none) (responderSide theirs none))
    (flight : (talkOf ours theirs n).message = some ranges)
    (known : ∀ id, id ∈ pushed ↔ id ∈ (talkOf ours theirs n).haveIds) :
    ∃ haves needs pushed',
      (∀ id, id ∈ pushed' ↔ id ∈ (talkOf ours theirs (n + 1)).haveIds) ∧
      (∀ id ∈ (talkOf ours theirs (n + 1)).haveIds, id ∈ (talkOf ours theirs n).haveIds ∨ id ∈ haves) ∧
      (∀ ranges', (talkOf ours theirs (n + 1)).message = some ranges' → ∃ events,
        syncer.handleReconMsg store ⟨sid, messageBytes (responseTo theirs ranges)⟩ =
          (.ok ⟨(syncer.reportRound store sid haves needs).replies ++
            [.reconMsg ⟨sid, messageBytes ranges'⟩], events⟩, { syncer with
              sessions := syncer.sessions.insert (syncer.sessionKey sid) (openerSession ours pushed') })) ∧
      ((talkOf ours theirs (n + 1)).message = none → ∃ events,
        syncer.handleReconMsg store ⟨sid, messageBytes (responseTo theirs ranges)⟩ =
          (.ok ⟨(syncer.reportRound store sid haves needs).replies ++ [.reconDone ⟨sid⟩], events⟩,
            { syncer with sessions := syncer.sessions.erase (syncer.sessionKey sid) })) := by
  obtain ⟨round, read, next, reply⟩ := initiator_round ok flight
  have all : (talkOf ours theirs (n + 1)).haveIds =
      (talkOf ours theirs n).haveIds ++ round.haveIds := by
    rw [talkOf, next]
    rfl
  have seen : ∀ id, id ∈ (insertNew pushed round.haveIds).2 ↔
      id ∈ (talkOf ours theirs (n + 1)).haveIds := by
    intro id
    rw [mem_insertNew, known, all, List.mem_append]
  change round.reply = (talkOf ours theirs (n + 1)).message.map messageBytes at reply
  refine ⟨(insertNew pushed round.haveIds).1, (insertNew ∅ round.needIds).1,
    (insertNew pushed round.haveIds).2, seen, fun id mem => ?_, fun ranges' more => ?_, fun ended => ?_⟩
  · rw [← known]
    exact ((insertNew_spec pushed round.haveIds).2.2 id).mp ((seen id).mpr mem)
  · rw [more, Option.map_some] at reply
    rw [Syncer.handleReconMsg]
    dsimp only
    rw [found]
    dsimp only [openerSession]
    rw [responseTo, read]
    dsimp only
    rw [reply]
    exact ⟨_, rfl⟩
  · rw [ended, Option.map_none] at reply
    rw [Syncer.handleReconMsg]
    dsimp only
    rw [found]
    dsimp only [openerSession]
    rw [responseTo, read]
    dsimp only
    rw [reply]
    exact ⟨_, rfl⟩

end

end Racnet.Proof.Sessions
