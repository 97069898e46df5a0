import Mathlib.Logic.Hydra
import Racnet.Proof.Sessions.Conservation

/-!
# The messages of two syncers run out

A message that arrives is replaced by messages of lower rank: a RECON_INIT by the first answer of its
session, an answer by the next question and by pushes, and a push by nothing.
-/

namespace Racnet.Proof.Sessions
open Lib Store Wire Sync
open Relation (CutExpand)
open Proof.Negentropy (initiatorSide responderSide PairOk talk_ends responder_round initiator_round)
open Proof.Storage (Built Retains)

section
variable [Sha256]

/-! ## The rank of a message -/

/-- The numbers of rounds after which the exchange of a session is over, if what is on its way is what a
side says about the message of some round. -/
def RoundsLeft (opening : Opening) (spoken : Vec Item → List WireRange → List UInt8) (bytes : List UInt8) :
    Set ℕ :=
  {left | ∃ ours theirs n ranges, Meets opening ours theirs ∧
    (talkOf ours theirs n).message = some ranges ∧ bytes = spoken theirs ranges ∧
    (talkOf ours theirs (n + left)).message = none}

def question (_ : Vec Item) (ranges : List WireRange) : List UInt8 := messageBytes ranges

def answer (theirs : Vec Item) (ranges : List WireRange) : List UInt8 :=
  messageBytes (responseTo theirs ranges)

/-- A question comes to the side that has not opened the session, and an answer to the one that has. -/
noncomputable def roundRank (openings : Openings) (role : LinkRole) (rm : ReconMsg) : ℕ :=
  if rm.sid.toNat % 2 = parityOf role then
    (openings role rm.sid).elim 0 fun opening => 2 * sInf (RoundsLeft opening answer rm.msg)
  else
    (openings (otherRole role) rm.sid).elim 0 fun opening =>
      2 * sInf (RoundsLeft opening question rm.msg) + 1

noncomputable def rank (openings : Openings) (role : LinkRole) : Message → ℕ ×ₗ ℕ
  | .reconInit _ => toLex (2, 0)
  | .reconMsg rm => toLex (1, roundRank openings role rm)
  | .reconDone _ => toLex (1, 0)
  | .gossipPush _ | .hello _ | .handshake _ | .error _ => toLex (0, 0)

noncomputable def ranks (net : Network) : Multiset (ℕ ×ₗ ℕ) :=
  (net.parties .initiator).inbox.map (rank net.openings .initiator) +
    (net.parties .responder).inbox.map (rank net.openings .responder)

theorem ranks_eq (net : Network) (role : LinkRole) : ranks net =
    (net.parties role).inbox.map (rank net.openings role) +
      (net.parties (otherRole role)).inbox.map (rank net.openings (otherRole role)) := by
  cases role with
  | initiator => rfl
  | responder => exact Multiset.add_comm _ _

theorem cutExpand_handOver {net : Network} {role : LinkRole} {party : Party} {sent : List Message}
    {openings : Openings} {outcomes : List Outcome} {msg : Message}
    (next : (net.parties role).inbox = msg ::ₘ party.inbox)
    (here : ∀ other ∈ party.inbox, rank openings role other = rank net.openings role other)
    (there : ∀ other ∈ (net.parties (otherRole role)).inbox,
      rank openings (otherRole role) other = rank net.openings (otherRole role) other)
    (lower : ∀ reply ∈ sent, rank openings (otherRole role) reply < rank net.openings role msg) :
    CutExpand (· < ·) (ranks ⟨handOver net.parties role party sent, openings, outcomes⟩) (ranks net) := by
  refine ⟨(sent : Multiset Message).map (rank openings (otherRole role)), rank net.openings role msg,
    fun new mem => ?_, ?_⟩
  · obtain ⟨reply, inside, rfl⟩ := Multiset.mem_map.mp mem
    exact lower reply (Multiset.mem_coe.mp inside)
  · rw [ranks_eq _ role, ranks_eq net role]
    dsimp only
    rw [handOver_self, handOver_other]
    dsimp only
    rw [next, Multiset.map_cons, Multiset.map_add, Multiset.map_congr rfl here, Multiset.map_congr rfl there,
      ← Multiset.singleton_add]
    abel

theorem rank_congr {openings openings' : Openings} {msg : Message}
    (same : ∀ opener sid, kindOf sid msg ≠ none → openings opener sid = openings' opener sid)
    (role : LinkRole) : rank openings role msg = rank openings' role msg := by
  cases msg with
  | reconMsg rm =>
    have known : kindOf rm.sid (.reconMsg rm) ≠ none := by simp [kindOf]
    rw [rank, rank, roundRank, roundRank, same _ _ known, same _ _ known]
  | reconInit _ | reconDone _ | gossipPush _ | hello _ | handshake _ | error _ => rfl

theorem rank_of_silent {msg : Message} (silent : ∀ sid, kindOf sid msg = none) (openings : Openings)
    (role : LinkRole) : rank openings role msg = toLex (0, 0) := by
  cases msg with
  | reconInit init => exact absurd (silent init.sid) (by simp [kindOf])
  | reconMsg rm => exact absurd (silent rm.sid) (by simp [kindOf])
  | reconDone done => exact absurd (silent done.sid) (by simp [kindOf])
  | gossipPush _ | hello _ | handshake _ | error _ => rfl

/-! ## Rounds that are left -/

theorem message_none_add {ours theirs : Vec Item} {m : Nat} (ended : (talkOf ours theirs m).message = none)
    (k : Nat) : (talkOf ours theirs (m + k)).message = none := by
  induction k with
  | zero => exact ended
  | succ k ih =>
    change (Talk.step _ _ (talkOf ours theirs (m + k))).message = none
    rw [Talk.step, ih]
    exact ih

omit [Sha256] in
theorem Meets.unique {opening : Opening} {ours theirs ours' theirs' : Vec Item}
    (meets : Meets opening ours theirs) (meets' : Meets opening ours' theirs') :
    ours' = ours ∧ theirs' = theirs := by
  obtain ⟨met, same, taken⟩ := meets.theirs
  obtain ⟨met', same', taken'⟩ := meets'.theirs
  obtain rfl := Option.some.inj (same.symm.trans same')
  have first := Option.some.inj (meets'.ours.symm.trans meets.ours)
  have second := Option.some.inj (taken'.symm.trans taken)
  cases ours; cases theirs; cases ours'; cases theirs'
  exact ⟨by simpa using first, by simpa using second⟩

section
variable {opening : Opening} {ours theirs : Vec Item} (meets : Meets opening ours theirs)
  (ok : PairOk (initiatorSide ours none) (responderSide theirs none)) {n : Nat} {ranges : List WireRange}
  (flight : (talkOf ours theirs n).message = some ranges)
  (spoken : Vec Item → List WireRange → List UInt8)
include meets ok flight

theorem roundsLeft_least : ∃ n' ranges' left, (talkOf ours theirs n').message = some ranges' ∧
    spoken theirs ranges = spoken theirs ranges' ∧
    (talkOf ours theirs (n' + left + 1)).message = none ∧
    sInf (RoundsLeft opening spoken (spoken theirs ranges)) = left + 1 := by
  obtain ⟨m, ended⟩ := talk_ends ok
  have some_left : (RoundsLeft opening spoken (spoken theirs ranges)).Nonempty := by
    refine ⟨m, ours, theirs, n, ranges, meets, flight, rfl, ?_⟩
    rw [Nat.add_comm]
    exact message_none_add ended n
  obtain ⟨ours', theirs', n', ranges', meets', flight', same, over'⟩ := Nat.sInf_mem some_left
  obtain ⟨rfl, rfl⟩ := meets.unique meets'
  cases left : sInf (RoundsLeft opening spoken (spoken theirs' ranges)) with
  | zero =>
    rw [left] at over'
    cases flight'.symm.trans over'
  | succ left' =>
    rw [left] at over'
    exact ⟨n', ranges', left', flight', same, over', rfl⟩

end

/-! ## What a delivery sends -/

theorem rank_handleReconMsg {syncer : Syncer} {store : EntryStore} [Ed25519] (built : Built store)
    {rm : ReconMsg} {session : Session} {round : Round} {openings : Openings} {side : LinkRole} {bound : ℕ}
    (found : syncer.sessions.lookup (syncer.sessionKey rm.sid) = some session)
    (reconciled : session.engine.reconcile rm.msg = .ok round) (positive : 0 < bound)
    (lower : ∀ bytes, round.reply = some bytes → roundRank openings side ⟨rm.sid, bytes⟩ < bound) :
    ∀ reply ∈ sentBy (syncer.handleReconMsg store rm).1, rank openings side reply < toLex (1, bound) := by
  have pushes : ∀ haves needs, ∀ reply ∈ (syncer.reportRound store rm.sid haves needs).replies,
      rank openings side reply < toLex (1, bound) := by
    intro haves needs reply mem
    rw [rank_of_silent (reportRound_pushes built.filled.sound syncer rm.sid haves needs reply mem).2]
    exact Prod.Lex.toLex_lt_toLex.mpr (Or.inl Nat.one_pos)
  have step := handleReconMsg_step syncer store rm
  generalize syncer.handleReconMsg store rm = out at step
  intro reply sent
  cases step with
  | refused trap => cases sent
  | continued session' round' bytes found' reconciled' replied =>
    obtain rfl := Option.some.inj (found.symm.trans found')
    obtain rfl := Except.ok.inj (reconciled.symm.trans reconciled')
    rcases List.mem_append.mp sent with early | last
    · exact pushes _ _ reply early
    · rw [List.mem_singleton.mp last]
      exact Prod.Lex.toLex_lt_toLex.mpr (Or.inr ⟨rfl, lower bytes replied⟩)
  | finished session' round' found' reconciled' replied =>
    rcases List.mem_append.mp sent with early | last
    · exact pushes _ _ reply early
    · rw [List.mem_singleton.mp last]
      exact Prod.Lex.toLex_lt_toLex.mpr (Or.inr ⟨rfl, positive⟩)

variable {net : Network} {role : LinkRole} {msg : Message}

theorem roundRank_answer {openings : Openings} {sid : UInt64} {opening : Opening} {bytes : List UInt8}
    (owned : sid.toNat % 2 = parityOf role) (found : openings role sid = some opening) :
    roundRank openings role ⟨sid, bytes⟩ = 2 * sInf (RoundsLeft opening answer bytes) := by
  rw [roundRank, if_pos owned, found]
  rfl

theorem roundRank_question {openings : Openings} {sid : UInt64} {opening : Opening} {bytes : List UInt8}
    (owned : sid.toNat % 2 = parityOf (otherRole role))
    (found : openings (otherRole role) sid = some opening) :
    roundRank openings role ⟨sid, bytes⟩ = 2 * sInf (RoundsLeft opening question bytes) + 1 := by
  have few := parityOf_lt role
  rw [parityOf_otherRole] at owned
  have theirs : ¬ sid.toNat % 2 = parityOf role := by omega
  rw [roundRank, if_neg theirs, found]
  rfl

variable [Ed25519]

theorem cutExpand_deliver (mem : msg ∈ (net.parties role).inbox)
    (here : ∀ other ∈ (net.parties role).inbox.erase msg,
      rank (meet net.openings role (net.parties role).store msg) role other =
        rank net.openings role other)
    (there : ∀ other ∈ (net.parties (otherRole role)).inbox,
      rank (meet net.openings role (net.parties role).store msg) (otherRole role) other =
        rank net.openings (otherRole role) other)
    (lower : ∀ reply ∈ sentBy ((net.parties role).syncer.handleMessage (net.parties role).store msg).1,
      rank (meet net.openings role (net.parties role).store msg) (otherRole role) reply <
        rank net.openings role msg) :
    CutExpand (· < ·) (ranks (net.move (.deliver role msg))) (ranks net) :=
  cutExpand_handOver (Multiset.cons_erase mem).symm here there lower

omit [Sha256] [Ed25519] in
theorem notMem_of_regarding {sid : UInt64} {inbox : Multiset Message} (none : regarding sid inbox = 0)
    {other : Message} (mem : other ∈ inbox) : kindOf sid other = Option.none := by
  by_contra known
  have kept : other ∈ regarding sid inbox :=
    Multiset.mem_filter.mpr ⟨mem, Option.isSome_iff_ne_none.mpr known⟩
  rw [none] at kept
  exact Multiset.notMem_zero other kept

theorem Concurrent.cuts_init (concurrent : Concurrent net) {init : ReconInit}
    (mem : .reconInit init ∈ (net.parties role).inbox) :
    CutExpand (· < ·) (ranks (net.move (.deliver role (.reconInit init)))) (ranks net) := by
  obtain ⟨sid, window, bytes⟩ := init
  have next := (Multiset.cons_erase mem).symm
  have about : kindOf sid (.reconInit ⟨sid, window, bytes⟩) = some .init := if_pos rfl
  obtain ⟨owned, read⟩ := concurrent.arrives_forth next about nofun
  obtain ⟨reported, phase, -⟩ := concurrent.phases (otherRole role) sid owned
  obtain ⟨opened, ours, found, unmet, taken, same, empty, held, absent, back⟩ := phase.init_forth read
  have kept : ∀ other, kindOf sid other = none → ∀ side,
      rank (meet net.openings role (net.parties role).store (.reconInit ⟨sid, window, bytes⟩)) side other =
        rank net.openings side other := by
    intro other silent side
    refine rank_congr (fun opener sid' known => ?_) side
    rw [meet, found]
    refine remember_other _ _ fun both => known ?_
    rw [both.2]
    exact silent
  refine cutExpand_deliver mem (fun other later => kept other (notMem_of_regarding empty later) _)
    (fun other later => kept other (notMem_of_regarding back later) _) fun reply sent => ?_
  rw [sentBy_session rfl] at sent
  have step := handleInit_step (net.parties role).syncer (net.parties role).store ⟨sid, window, bytes⟩
  generalize (net.parties role).syncer.handleInit (net.parties role).store ⟨sid, window, bytes⟩ = out
    at step sent
  cases step with
  | refused trap => cases sent
  | accepted engine round answer parity absent room made answered replied =>
    rw [List.mem_singleton.mp sent]
    exact Prod.Lex.toLex_lt_toLex.mpr (Or.inl Nat.one_lt_two)

section
variable (room : ∀ role, (net.parties role).store.len ≤ nilIndex) (agreeing : Agreeing net.parties)
include room agreeing

theorem Concurrent.cuts_question (concurrent : Concurrent net) {sid : UInt64} {bytes : List UInt8}
    (mem : .reconMsg ⟨sid, bytes⟩ ∈ (net.parties role).inbox)
    (owned : sid.toNat % 2 = parityOf (otherRole role))
    (read : (strandOf net.parties (otherRole role) sid).forth =
      .reconMsg ⟨sid, bytes⟩ ::ₘ regarding sid ((net.parties role).inbox.erase (.reconMsg ⟨sid, bytes⟩))) :
    CutExpand (· < ·) (ranks (net.move (.deliver role (.reconMsg ⟨sid, bytes⟩)))) (ranks net) := by
  obtain ⟨reported, phase, -⟩ := concurrent.phases (otherRole role) sid owned
  obtain ⟨opened, ours, theirs, n, ranges, pushed, found, meets, flight, -, -, same, -, -, accepted, -⟩ :=
    phase.msg_forth read
  obtain ⟨-, rfl⟩ := ReconMsg.mk.inj same
  have ok := (concurrent.recorded _ _ _ found).2.2.pairOk room agreeing meets
  obtain ⟨n', ranges', left, flight', spoken, ended, least⟩ := roundsLeft_least meets ok flight question
  change messageBytes ranges = messageBytes ranges' at spoken
  change sInf (RoundsLeft opened question (messageBytes ranges)) = left + 1 at least
  have key := (concurrent.able role).sessionKey_other owned
  simp only [strandOf, otherRole_otherRole] at accepted
  refine cutExpand_deliver mem (fun _ _ => rfl) (fun _ _ => rfl) ?_
  rw [sentBy_session rfl, rank, roundRank_question owned found, least]
  refine rank_handleReconMsg (concurrent.able role).built (by rw [key]; exact accepted)
    (by rw [spoken]; exact responder_round ok flight') (Nat.succ_pos _) fun reply replied => ?_
  obtain rfl := Option.some.inj replied
  change roundRank net.openings (otherRole role) ⟨sid, answer theirs ranges'⟩ < _
  rw [roundRank_answer owned found]
  have fewer : sInf (RoundsLeft opened answer (answer theirs ranges')) ≤ left + 1 :=
    Nat.sInf_le ⟨ours, theirs, n', ranges', meets, flight', rfl, ended⟩
  omega

theorem Concurrent.cuts_answer (concurrent : Concurrent net) {sid : UInt64} {bytes : List UInt8}
    (mem : .reconMsg ⟨sid, bytes⟩ ∈ (net.parties role).inbox) (owned : sid.toNat % 2 = parityOf role)
    (read : (strandOf net.parties role sid).back =
      .reconMsg ⟨sid, bytes⟩ ::ₘ regarding sid ((net.parties role).inbox.erase (.reconMsg ⟨sid, bytes⟩))) :
    CutExpand (· < ·) (ranks (net.move (.deliver role (.reconMsg ⟨sid, bytes⟩)))) (ranks net) := by
  obtain ⟨reported, phase, -⟩ := concurrent.phases role sid owned
  obtain ⟨opened, ours, theirs, n, ranges, pushed, found, meets, flight, -, -, same, -, held, -, -⟩ :=
    phase.msg_back read
  obtain ⟨-, rfl⟩ := ReconMsg.mk.inj same
  have ok := (concurrent.recorded _ _ _ found).2.2.pairOk room agreeing meets
  obtain ⟨n', ranges', left, flight', spoken, ended, least⟩ := roundsLeft_least meets ok flight answer
  change messageBytes (responseTo theirs ranges) = messageBytes (responseTo theirs ranges') at spoken
  change sInf (RoundsLeft opened answer (messageBytes (responseTo theirs ranges))) = left + 1 at least
  have key := (concurrent.able role).sessionKey_self owned
  simp only [strandOf] at held
  obtain ⟨round, reconciled, -, reply⟩ := initiator_round ok flight'
  refine cutExpand_deliver mem (fun _ _ => rfl) (fun _ _ => rfl) ?_
  rw [sentBy_session rfl, rank, roundRank_answer owned found, least]
  refine rank_handleReconMsg (concurrent.able role).built (by rw [key]; exact held)
    (by rw [spoken]; exact reconciled) (Nat.succ_pos _) fun bytes replied => ?_
  rw [replied] at reply
  obtain ⟨ranges'', later, rfl⟩ := Option.map_eq_some_iff.mp reply.symm
  have owned' : sid.toNat % 2 = parityOf (otherRole (otherRole role)) := by rwa [otherRole_otherRole]
  have found' : net.openings (otherRole (otherRole role)) sid = some opened := by rwa [otherRole_otherRole]
  change roundRank net.openings (otherRole role) ⟨sid, question theirs ranges''⟩ < _
  rw [roundRank_question owned' found']
  have fewer : sInf (RoundsLeft opened question (question theirs ranges'')) ≤ left := by
    refine Nat.sInf_le ⟨ours, theirs, n' + 1, ranges'', meets, later, rfl, ?_⟩
    rwa [Nat.add_right_comm]
  omega

theorem Concurrent.cuts (concurrent : Concurrent net) (allowed : net.Allows (.deliver role msg)) :
    CutExpand (· < ·) (ranks (net.move (.deliver role msg))) (ranks net) := by
  obtain ⟨mem, -⟩ := allowed
  have silent : sentBy ((net.parties role).syncer.handleMessage (net.parties role).store msg).1 = [] →
      meet net.openings role (net.parties role).store msg = net.openings →
      CutExpand (· < ·) (ranks (net.move (.deliver role msg))) (ranks net) := by
    intro none same
    refine cutExpand_deliver mem (fun _ _ => by rw [same]) (fun _ _ => by rw [same]) fun reply sent => ?_
    rw [none] at sent
    cases sent
  have proper := (concurrent.letters role msg mem).1
  cases msg with
  | gossipPush push => exact silent (sentBy_push _ _ push) rfl
  | reconInit init => exact concurrent.cuts_init mem
  | reconMsg rm =>
    obtain ⟨sid, bytes⟩ := rm
    have about : kindOf sid (.reconMsg ⟨sid, bytes⟩) = some .msg := if_pos rfl
    rcases arrives_side (Multiset.cons_erase mem).symm about with ⟨owned, read⟩ | ⟨owned, read⟩
    · exact concurrent.cuts_answer room agreeing mem owned read
    · exact concurrent.cuts_question room agreeing mem owned read
  | reconDone done => exact silent (sentBy_done _ _ done) rfl
  | hello _ | handshake _ | error _ => exact proper.elim

end

/-! ## Deliveries one after the other -/

inductive Network.Delivers (net : Network) : Network → Prop where
  | deliver {role : LinkRole} {msg : Message} (allowed : net.Allows (.deliver role msg)) :
      Delivers net (net.move (.deliver role msg))

theorem syncs_of_delivers {last : Network} (delivered : Relation.ReflTransGen Network.Delivers net last) :
    net.Syncs last := by
  induction delivered with
  | refl => exact .start
  | tail _ last ih =>
    cases last with
    | deliver allowed => exact ih.move _ trivial allowed

theorem Sourced.agreeing (sourced : Sourced net) {last : Network} (synced : net.Syncs last)
    (agreeing : Agreeing net.parties) : Agreeing last.parties := by
  have earlier : ∀ {role id entry}, (last.parties role).store.get id = some entry →
      ∃ side, (net.parties side).store.get id = some entry := by
    intro role id entry held
    have keyed := ((synced.sourced sourced).built role).filled.sound.keyed id entry held
    obtain rfl := keyed
    exact (sourced.holds_iff synced entry).mp ⟨role, held⟩
  intro role side id entry other held held'
  obtain ⟨first, found⟩ := earlier held
  obtain ⟨second, found'⟩ := earlier held'
  exact agreeing first second id entry other found found'

theorem Sourced.len_le (sourced : Sourced net) {last : Network} (synced : net.Syncs last)
    (role : LinkRole) : (last.parties role).store.len ≤
      (net.parties .initiator).store.len + (net.parties .responder).store.len := by
  have within : (last.parties role).store.entries.keys ⊆
      (net.parties .initiator).store.entries.keys ++ (net.parties .responder).store.entries.keys := by
    intro id mem
    obtain ⟨entry, held⟩ := Option.isSome_iff_exists.mp (AList.lookup_isSome.mpr (AList.mem_keys.mpr mem))
    have keyed := ((synced.sourced sourced).built role).filled.sound.keyed id entry held
    obtain rfl := keyed
    obtain ⟨side, found⟩ := (sourced.holds_iff synced entry).mp ⟨role, held⟩
    have there : entry.id ∈ (net.parties side).store.entries.keys :=
      AList.mem_keys.mp (AList.lookup_isSome.mp (Option.isSome_iff_exists.mpr ⟨entry, found⟩))
    cases side with
    | initiator => exact List.mem_append_left _ there
    | responder => exact List.mem_append_right _ there
  have fewer := ((last.parties role).store.entries.keys_nodup.subperm within).length_le
  rwa [List.length_append] at fewer

/-- Between two syncers with in-memory stores of together at most `2 ^ 32 - 1` entries messages cannot
arrive without end, and each of them is handled. Where no more can arrive, only a RECON_INIT is left, and
only for a side whose table is full. -/
theorem sessions_drain {config : LinkRole → SyncConfig} {store : LinkRole → EntryStore}
    (unlimited : ∀ role, (config role).frameLimit = none) (built : ∀ role, Built (store role))
    (memory : ∀ role, (store role).journal = none) {net : Network}
    (reached : (Network.start config store).Reaches net)
    (room : (net.parties .initiator).store.len + (net.parties .responder).store.len ≤ 2 ^ 32 - 1)
    (ids : ∀ role side id entry other, (net.parties role).store.get id = some entry →
      (net.parties side).store.get id = some other → entry = other) :
    (¬ ∃ run : ℕ → Network, run 0 = net ∧ ∀ n, (run n).Delivers (run (n + 1))) ∧
    ∀ last, Relation.ReflTransGen Network.Delivers net last →
      (∀ outcome ∈ last.outcomes, ∃ output, outcome = .ok output) ∧
      ((∀ after, ¬ last.Delivers after) → ∀ role, ∀ msg ∈ (last.parties role).inbox,
        (∃ init, msg = .reconInit init) ∧
          (last.parties role).syncer.config.maxSessions ≤ (last.parties role).syncer.openSessions) := by
  have sourced := reached.sourced (start_sourced built)
  have roomy : ∀ {last}, net.Syncs last → ∀ role, (last.parties role).store.len ≤ nilIndex :=
    fun synced role => (sourced.len_le synced role).trans room
  have concurrent : ∀ {last}, Relation.ReflTransGen Network.Delivers net last → Concurrent last := by
    intro last delivered
    induction delivered with
    | refl => exact reached.concurrent (start_concurrent unlimited built memory) (roomy .start) ids
    | @tail before after delivered step ih =>
      have synced := syncs_of_delivers (delivered.tail step)
      cases step with
      | deliver allowed => exact ih.move allowed (roomy synced) (sourced.agreeing synced ids)
  refine ⟨?_, fun last delivered => ⟨(concurrent delivered).returned, fun stuck role msg mem => ?_⟩⟩
  · rintro ⟨run, rfl, steps⟩
    have delivered : ∀ n, Relation.ReflTransGen Network.Delivers (run 0) (run n) := by
      intro n
      induction n with
      | zero => exact .refl
      | succ n ih => exact ih.tail (steps n)
    have lower : ∀ n, CutExpand (· < ·) (ranks (run (n + 1))) (ranks (run n)) := by
      intro n
      have synced := syncs_of_delivers (delivered n)
      have step := steps n
      generalize run (n + 1) = after at step
      cases step with
      | deliver allowed =>
        exact (concurrent (delivered n)).cuts (roomy synced) (sourced.agreeing synced ids) allowed
    have wf : WellFounded (CutExpand fun a b : ℕ ×ₗ ℕ => a < b) := wellFounded_lt.cutExpand
    obtain ⟨_, ⟨n, rfl⟩, least⟩ := wf.has_min (Set.range fun n => ranks (run n)) ⟨_, 0, rfl⟩
    exact least _ ⟨n + 1, rfl⟩ (lower n)
  · by_contra other
    have allowed : last.Allows (.deliver role msg) := by
      refine ⟨mem, fun init same => ?_⟩
      by_contra full
      exact other ⟨⟨init, same⟩, Nat.not_lt.mp full⟩
    exact stuck _ (.deliver allowed)

end

section
local instance tellingAll : Sha256 := telling

local instance believingEach : Ed25519 := believing

theorem sessions_drain_lone :
    (∃ msg, msg ∈ (loneOffered.parties .responder).inbox) ∧
      ¬ ∃ run : ℕ → Network, run 0 = loneOffered ∧ ∀ n, (run n).Delivers (run (n + 1)) := by
  have memory : ∀ role, (oneSided loneStore role).journal = none
    | .initiator => rfl
    | .responder => rfl
  have held : ∀ role id entry, (loneOffered.parties role).store.get id = some entry →
      loneStore.get id = some entry := by
    intro role id entry found
    cases role with
    | initiator => exact found
    | responder => cases (AList.lookup_empty id).symm.trans found
  refine ⟨⟨.reconInit ⟨0, ⟨0, 10⟩, loneItems⟩, by decide +kernel⟩, ?_⟩
  refine (sessions_drain (fun _ => rfl) built_lone memory loneOffered_reached (by decide +kernel) ?_).1
  intro role side id entry other found found'
  exact Option.some.inj ((held _ _ _ found).symm.trans (held _ _ _ found'))

end

end Racnet.Proof.Sessions
