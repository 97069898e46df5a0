import Racnet.Proof.Sessions.Phases

/-!
# Concurrent sessions

Every session is in one of its phases, and what its opener has reported is on its way to the other side
or held there. Every call and every arrival keeps it so.
-/

namespace Racnet.Proof.Sessions
open Lib Store Wire Sync
open Proof.Negentropy (initiatorSide responderSide PairOk LimitOk initiate_spec)
open Proof.Storage (Built Ready Retains reservedKey insert_retains insert_stores insert_volatile)

/-- The entry is held, or a message on its way brings it. -/
def Arriving (party : Party) (entry : Entry) [Sha256] : Prop :=
  party.store.get entry.id = some entry ∨ ∃ msg ∈ party.inbox, entry ∈ entriesOf msg

section
variable [Sha256] [Ed25519]

/-- What the opener has reported arrives at the other side. -/
def Delivered (parties : Parties) (opener : LinkRole) (opening : Option Opening)
    (reported : List EntryId) : Prop :=
  ∀ opened, opening = some opened → ∀ id ∈ reported, ∀ entry, opened.offered.get id = some entry →
    Arriving (parties (otherRole opener)) entry

/-- The stores of an opening are earlier ones of the two sides. -/
structure Recorded (parties : Parties) (opener : LinkRole) (opening : Opening) : Prop where
  built : Built opening.offered
  offered : Retains opening.offered (parties opener).store
  met : ∀ met, opening.met = some met →
    Built met ∧ Retains met (parties (otherRole opener)).store

structure Able (role : LinkRole) (syncer : Syncer) (store : EntryStore) : Prop where
  role : syncer.role = role
  unlimited : syncer.config.frameLimit = none
  orderly : Orderly syncer
  built : Built store
  memory : store.journal = none

structure Concurrent (net : Network) : Prop where
  able : ∀ role, Able role (net.parties role).syncer (net.parties role).store
  letters : ∀ role, ∀ msg ∈ (net.parties role).inbox, Proper msg ∧
    ∀ entry ∈ entriesOf msg, (net.parties (otherRole role)).store.get entry.id = some entry
  phases : ∀ opener sid, sid.toNat % 2 = parityOf opener → ∃ reported,
    Phase sid (net.openings opener sid) (strandOf net.parties opener sid) reported ∧
      Delivered net.parties opener (net.openings opener sid) reported
  recorded : ∀ opener sid opening, net.openings opener sid = some opening →
    sid.toNat % 2 = parityOf opener ∧ sid.toNat < (net.parties opener).syncer.nextSid.toNat ∧
      Recorded net.parties opener opening
  returned : ∀ outcome ∈ net.outcomes, ∃ output, outcome = .ok output

theorem start_concurrent {config : LinkRole → SyncConfig} {store : LinkRole → EntryStore}
    (unlimited : ∀ role, (config role).frameLimit = none) (built : ∀ role, Built (store role))
    (memory : ∀ role, (store role).journal = none) : Concurrent (Network.start config store) := by
  refine ⟨fun role => ⟨rfl, unlimited role, orderly_new role (config role), built role, memory role⟩,
    fun role msg mem => absurd mem (Multiset.notMem_zero msg), fun opener sid _ => ⟨[], ?_, ?_⟩,
    fun opener sid opening opened => absurd opened (by simp [Network.start]),
    fun outcome mem => absurd mem List.not_mem_nil⟩
  · have strand : strandOf (Network.start config store).parties opener sid = ⟨none, none, 0, 0⟩ := rfl
    rw [strand]
    exact .unopened
  · intro opened same
    cases same

/-! ## A turn of one side -/

omit [Sha256] [Ed25519] in
theorem TableStep.config {before after : Syncer} (step : TableStep before after) :
    after.config = before.config := by
  cases step <;> rfl

section
variable {net : Network} {role : LinkRole} {party : Party} {sent : List Message}

omit [Ed25519] in
theorem Arriving.handOver {side : LinkRole} {entry : Entry}
    (retains : Retains (net.parties role).store party.store)
    (read : ∀ msg ∈ (net.parties role).inbox, msg ∈ party.inbox ∨
      ∀ entry ∈ entriesOf msg, party.store.get entry.id = some entry)
    (arriving : Arriving (net.parties side) entry) :
    Arriving (handOver net.parties role party sent side) entry := by
  rcases eq_or_eq_otherRole role side with rfl | rfl
  · rw [handOver_self]
    rcases arriving with held | ⟨msg, mem, brings⟩
    · exact Or.inl (retains.get _ _ held)
    · rcases read msg mem with later | stored
      · exact Or.inr ⟨msg, later, brings⟩
      · exact Or.inl (stored entry brings)
  · rw [handOver_other]
    rcases arriving with held | ⟨msg, mem, brings⟩
    · exact Or.inl held
    · exact Or.inr ⟨msg, Multiset.mem_add.mpr (Or.inl mem), brings⟩

omit [Sha256] [Ed25519] in
theorem retains_handOver (retains : Retains (net.parties role).store party.store) (side : LinkRole) :
    Retains (net.parties side).store (handOver net.parties role party sent side).store := by
  rcases eq_or_eq_otherRole role side with rfl | rfl
  · rwa [handOver_self]
  · rw [handOver_other]
    exact .refl _

omit [Sha256] [Ed25519] in
theorem nextSid_handOver (table : TableStep (net.parties role).syncer party.syncer) (side : LinkRole) :
    (net.parties side).syncer.nextSid.toNat ≤
      (handOver net.parties role party sent side).syncer.nextSid.toNat := by
  rcases eq_or_eq_otherRole role side with rfl | rfl
  · rw [handOver_self]
    exact table.keeps.2
  · rw [handOver_other]

theorem Concurrent.settled (concurrent : Concurrent net) {openings : Openings}
    {outcomes : List Outcome} (table : TableStep (net.parties role).syncer party.syncer)
    (built : Built party.store) (memory : party.store.journal = none)
    (retains : Retains (net.parties role).store party.store)
    (inbox : ∀ msg ∈ party.inbox, msg ∈ (net.parties role).inbox)
    (read : ∀ msg ∈ (net.parties role).inbox, msg ∈ party.inbox ∨
      ∀ entry ∈ entriesOf msg, party.store.get entry.id = some entry)
    (letters : ∀ msg ∈ sent, Proper msg ∧
      ∀ entry ∈ entriesOf msg, party.store.get entry.id = some entry)
    (returned : ∀ outcome ∈ outcomes, ∃ output, outcome = .ok output)
    (recorded : ∀ opener sid opening, openings opener sid = some opening →
      net.openings opener sid = some opening ∨ sid.toNat % 2 = parityOf opener ∧
        sid.toNat < (handOver net.parties role party sent opener).syncer.nextSid.toNat ∧
        Recorded (handOver net.parties role party sent) opener opening)
    (phases : ∀ opener sid, sid.toNat % 2 = parityOf opener →
      strandOf (handOver net.parties role party sent) opener sid = strandOf net.parties opener sid ∧
        openings opener sid = net.openings opener sid ∨
      ∃ reported, Phase sid (openings opener sid)
          (strandOf (handOver net.parties role party sent) opener sid) reported ∧
        Delivered (handOver net.parties role party sent) opener (openings opener sid) reported) :
    Concurrent ⟨handOver net.parties role party sent, openings, outcomes⟩ := by
  refine ⟨fun side => ?_, fun side msg mem => ?_, fun opener sid owned => ?_,
    fun opener sid opening opened => ?_, returned⟩
  · dsimp only
    rcases eq_or_eq_otherRole role side with rfl | rfl
    · have able := concurrent.able side
      rw [handOver_self]
      exact ⟨table.keeps.1.trans able.role, (congrArg _ table.config).trans able.unlimited,
        able.orderly.step table, built, memory⟩
    · rw [handOver_other]
      exact concurrent.able _
  · dsimp only at mem ⊢
    rcases eq_or_eq_otherRole role side with rfl | rfl
    · rw [handOver_self] at mem
      obtain ⟨proper, held⟩ := concurrent.letters side msg (inbox msg mem)
      refine ⟨proper, fun entry brings => ?_⟩
      rw [handOver_other]
      exact held entry brings
    · rw [handOver_other] at mem
      rw [otherRole_otherRole, handOver_self]
      rcases Multiset.mem_add.mp mem with old | new
      · obtain ⟨proper, held⟩ := concurrent.letters _ msg old
        rw [otherRole_otherRole] at held
        exact ⟨proper, fun entry brings => retains.get _ _ (held entry brings)⟩
      · exact letters msg (Multiset.mem_coe.mp new)
  · rcases phases opener sid owned with ⟨sameStrand, sameOpening⟩ | changed
    · obtain ⟨reported, phase, delivered⟩ := concurrent.phases opener sid owned
      refine ⟨reported, ?_, fun opened same id mem entry held => ?_⟩
      · dsimp only
        rwa [sameStrand, sameOpening]
      · refine Arriving.handOver retains read (delivered opened ?_ id mem entry held)
        rwa [← sameOpening]
    · exact changed
  · rcases recorded opener sid opening opened with old | new
    · obtain ⟨owned, used, record⟩ := concurrent.recorded opener sid opening old
      refine ⟨owned, lt_of_lt_of_le used (nextSid_handOver table opener), record.built,
        record.offered.trans (retains_handOver retains opener), fun met same => ?_⟩
      obtain ⟨builtMet, earlier⟩ := record.met met same
      exact ⟨builtMet, earlier.trans (retains_handOver retains _)⟩
    · exact new

theorem Concurrent.quiet (concurrent : Concurrent net) {store : EntryStore} {inbox : Multiset Message}
    {outcomes : List Outcome} (built : Built store) (memory : store.journal = none)
    (retains : Retains (net.parties role).store store)
    (fewer : ∀ msg ∈ inbox, msg ∈ (net.parties role).inbox)
    (read : ∀ msg ∈ (net.parties role).inbox, msg ∈ inbox ∨
      ∀ entry ∈ entriesOf msg, store.get entry.id = some entry)
    (same : ∀ sid, regarding sid inbox = regarding sid (net.parties role).inbox)
    (returned : ∀ outcome ∈ outcomes, ∃ output, outcome = .ok output) :
    Concurrent ⟨handOver net.parties role { net.parties role with store, inbox } [], net.openings,
      outcomes⟩ := by
  refine concurrent.settled .same built memory retains fewer read
    (fun _ mem => absurd mem List.not_mem_nil) returned (fun _ _ _ opened => Or.inl opened)
    fun opener sid _ => Or.inl ⟨?_, rfl⟩
  refine strandOf_handOver_same ?_ (same sid)
    (regarding_eq_zero fun _ mem => absurd mem List.not_mem_nil) opener
  exact fun _ => rfl

/-- A turn about one session, with the store as it is. -/
structure Turn (net : Network) (role : LinkRole) (syncer : Syncer) (inbox : Multiset Message)
    (sent : List Message) (openings : Openings) (opener : LinkRole) (sid : UInt64) : Prop where
  owned : sid.toNat % 2 = parityOf opener
  table : TableStep (net.parties role).syncer syncer
  letters : ∀ msg ∈ sent, Proper msg ∧
    ∀ entry ∈ entriesOf msg, (net.parties role).store.get entry.id = some entry
  touched : ∀ ours other, other ≠ sid →
    syncer.sessions.lookup (ours, other) = (net.parties role).syncer.sessions.lookup (ours, other)
  quiet : ∀ other, other ≠ sid → regarding other (sent : Multiset Message) = 0
  kept : ∀ side other, ¬ (side = opener ∧ other = sid) → openings side other = net.openings side other
  recorded : ∀ opening, openings opener sid = some opening → net.openings opener sid = some opening ∨
    sid.toNat < (handOver net.parties role { net.parties role with syncer, inbox } sent
      opener).syncer.nextSid.toNat ∧
    Recorded (handOver net.parties role { net.parties role with syncer, inbox } sent) opener opening
  phase : ∃ reported, Phase sid (openings opener sid)
      (strandOf (handOver net.parties role { net.parties role with syncer, inbox } sent) opener sid)
      reported ∧
    Delivered (handOver net.parties role { net.parties role with syncer, inbox } sent) opener
      (openings opener sid) reported

theorem Concurrent.turn (concurrent : Concurrent net) {syncer : Syncer} {inbox : Multiset Message}
    {openings : Openings} {outcomes : List Outcome} {opener : LinkRole} {sid : UInt64}
    (turn : Turn net role syncer inbox sent openings opener sid)
    (fewer : ∀ msg ∈ inbox, msg ∈ (net.parties role).inbox)
    (read : ∀ msg ∈ (net.parties role).inbox, msg ∈ inbox ∨ entriesOf msg = [])
    (unread : ∀ other, other ≠ sid → regarding other inbox = regarding other (net.parties role).inbox)
    (returned : ∀ outcome ∈ outcomes, ∃ output, outcome = .ok output) :
    Concurrent ⟨handOver net.parties role { net.parties role with syncer, inbox } sent, openings,
      outcomes⟩ := by
  have able := concurrent.able role
  refine concurrent.settled turn.table able.built able.memory (.refl _) fewer (fun msg mem => ?_) turn.letters
    returned (fun side other opening opened => ?_) fun side other owns => ?_
  · rcases read msg mem with later | empty
    · exact Or.inl later
    · exact Or.inr fun entry brings => absurd brings (by simp [empty])
  · by_cases same : side = opener ∧ other = sid
    · obtain ⟨rfl, rfl⟩ := same
      rcases turn.recorded opening opened with old | new
      · exact Or.inl old
      · exact Or.inr ⟨turn.owned, new⟩
    · rw [turn.kept side other same] at opened
      exact Or.inl opened
  · by_cases same : other = sid
    · subst same
      obtain rfl := opener_unique owns turn.owned
      exact Or.inr turn.phase
    · refine Or.inl ⟨?_, turn.kept side other fun both => same both.2⟩
      exact strandOf_handOver_same (fun ours => turn.touched ours other same) (unread other same)
        (turn.quiet other same) side

/-! ## Messages of a session -/

omit [Sha256] [Ed25519] in
theorem kindOf_of_ne {sid other : UInt64} {msg : Message} {kind : Kind}
    (about : kindOf sid msg = some kind) (ne : other ≠ sid) : kindOf other msg = none := by
  cases msg with
  | reconInit init =>
    have same : init.sid = sid := by
      by_contra apart
      simp [kindOf, apart] at about
    exact if_neg fun again => ne (again.symm.trans same)
  | reconMsg rm =>
    have same : rm.sid = sid := by
      by_contra apart
      simp [kindOf, apart] at about
    exact if_neg fun again => ne (again.symm.trans same)
  | reconDone done =>
    have same : done.sid = sid := by
      by_contra apart
      simp [kindOf, apart] at about
    exact if_neg fun again => ne (again.symm.trans same)
  | hello _ | handshake _ | gossipPush _ | error _ => rfl

omit [Sha256] [Ed25519] in
theorem entriesOf_of_kind {sid : UInt64} {msg : Message} {kind : Kind}
    (about : kindOf sid msg = some kind) : entriesOf msg = [] := by
  cases msg with
  | gossipPush push => cases about
  | reconInit _ | reconMsg _ | reconDone _ | hello _ | handshake _ | error _ => rfl

theorem letter_of_kind {store : EntryStore} {sid : UInt64} {msg : Message} {kind : Kind}
    (about : kindOf sid msg = some kind) :
    Proper msg ∧ ∀ entry ∈ entriesOf msg, store.get entry.id = some entry := by
  refine ⟨?_, fun entry brings => absurd brings (by simp [entriesOf_of_kind about])⟩
  cases msg with
  | reconInit _ | reconMsg _ | reconDone _ => trivial
  | gossipPush _ | hello _ | handshake _ | error _ => cases about

omit [Sha256] [Ed25519] in
theorem regarding_singleton_ne {sid other : UInt64} {msg : Message} {kind : Kind}
    (about : kindOf sid msg = some kind) (ne : other ≠ sid) :
    regarding other (([msg] : List Message) : Multiset Message) = 0 :=
  regarding_eq_zero fun sent mem => by
    rw [List.mem_singleton.mp mem]
    exact kindOf_of_ne about ne

/-! ## Local calls -/

theorem Concurrent.insert (concurrent : Concurrent net) (role : LinkRole) (entry : Entry) :
    Concurrent (net.move (.insert role entry)) := by
  have able := concurrent.able role
  exact concurrent.quiet (able.built.insert entry) (insert_volatile able.memory entry).1
    (insert_retains _ entry) (fun _ mem => mem) (fun _ mem => Or.inl mem) (fun _ => rfl)
    concurrent.returned

theorem Able.snapshot {syncer : Syncer} {store : EntryStore} (able : Able role syncer store)
    (room : store.len ≤ nilIndex) (window : SortKeyWindow) :
    ∃ items : Vec Item, store.snapshot window = some items.toList := by
  have ready : Ready store 0 := ⟨able.built, fun _ held => by simp [able.memory] at held, room⟩
  obtain ⟨items, taken, fits⟩ := ready.snapshot window
  exact ⟨⟨items, fits⟩, taken⟩

omit [Ed25519] in
theorem Phase.of_none {sid : UInt64} {strand : Strand} {reported : List EntryId}
    (phase : Phase sid none strand reported) : strand = ⟨none, none, 0, 0⟩ ∧ reported = [] := by
  cases phase
  exact ⟨rfl, rfl⟩

omit [Sha256] [Ed25519] in
theorem remember_self (openings : Openings) (opener : LinkRole) (sid : UInt64) (opening : Opening) :
    remember openings opener sid opening opener sid = some opening := if_pos ⟨rfl, rfl⟩

omit [Sha256] [Ed25519] in
theorem remember_other (openings : Openings) {opener side : LinkRole} {sid other : UInt64}
    (opening : Opening) (apart : ¬ (side = opener ∧ other = sid)) :
    remember openings opener sid opening side other = openings side other := if_neg apart

theorem Concurrent.openSession (concurrent : Concurrent net) (role : LinkRole) (window : SortKeyWindow)
    (room : (net.parties role).store.len ≤ nilIndex) :
    Concurrent (net.move (.openSession role window)) := by
  have able := concurrent.able role
  have step := openSession_step (net.parties role).syncer (net.parties role).store window
  simp only [Network.move]
  generalize (net.parties role).syncer.openSession (net.parties role).store window = out at step ⊢
  cases step with
  | refused trap =>
    exact concurrent.quiet able.built able.memory (.refl _) (fun _ mem => mem)
      (fun _ mem => Or.inl mem) (fun _ => rfl) concurrent.returned
  | opened engine msg space made started fits =>
    have table := (OpenStep.opened engine msg space made started fits).table
    obtain ⟨items, taken⟩ := able.snapshot room window
    obtain rfl := Except.ok.inj (made.symm.trans (sealedEngine_unlimited able.unlimited taken))
    obtain rfl : msg = messageBytes (initiatorSide items none).initiate :=
      (Prod.mk.inj (Except.ok.inj (started.symm.trans (initiate_spec rfl)))).2
    have owned : (net.parties role).syncer.nextSid.toNat % 2 = parityOf role := by
      rw [able.orderly.next, Syncer.ourParity, able.role]
      cases role <;> rfl
    have unopened : net.openings role (net.parties role).syncer.nextSid = none := by
      by_contra opened
      obtain ⟨opening, found⟩ := Option.ne_none_iff_exists'.mp opened
      exact absurd (concurrent.recorded role _ opening found).2.1 (lt_irrefl _)
    obtain ⟨reported, phase, -⟩ := concurrent.phases role _ owned
    rw [unopened] at phase
    obtain ⟨rest, -⟩ := phase.of_none
    dsimp only
    have about : kindOf (net.parties role).syncer.nextSid (.reconInit ⟨(net.parties role).syncer.nextSid, window,
        messageBytes (initiatorSide items none).initiate⟩) = some .init := if_pos rfl
    refine concurrent.turn ⟨owned, table, List.forall_mem_singleton.mpr (letter_of_kind about),
      fun ours other ne => ?_, fun other ne => regarding_singleton_ne about ne,
      fun side other apart => remember_other _ _ apart, fun opening opened => Or.inr ?_,
      [], ?_, fun _ _ _ mem => absurd mem List.not_mem_nil⟩ (fun _ mem => mem) (fun _ mem => Or.inl mem)
      (fun _ _ => rfl) concurrent.returned
    · exact AList.lookup_insert_ne fun same => ne (Prod.mk.inj same).2
    · rw [remember_self] at opened
      obtain rfl := Option.some.inj opened
      refine ⟨?_, able.built, ?_, fun _ none => by cases none⟩
      · rw [handOver_self]
        dsimp only
        rw [UInt64.toNat_add, show (2 : UInt64).toNat = 2 from rfl, Nat.mod_eq_of_lt fits]
        omega
      · rw [handOver_self]
        exact .refl _
    · have theirs := congrArg Strand.theirs rest
      have forth := congrArg Strand.forth rest
      have back := congrArg Strand.back rest
      rw [remember_self, strandOf_handOver_self, theirs, forth, Multiset.zero_add,
        AList.lookup_insert, regarding_reconInit]
      simp only [strandOf] at back
      rw [back]
      exact .offered rfl taken

/-! ## Messages that arrive -/

section
variable {msg : Message} {rest : Multiset Message} {sid : UInt64} {kind : Kind}
  (next : (net.parties role).inbox = msg ::ₘ rest) (about : kindOf sid msg = some kind)
include next about

omit [Sha256] [Ed25519] in
theorem arrives_side :
    sid.toNat % 2 = parityOf role ∧
      (strandOf net.parties role sid).back = msg ::ₘ regarding sid rest ∨
    sid.toNat % 2 = parityOf (otherRole role) ∧
      (strandOf net.parties (otherRole role) sid).forth = msg ::ₘ regarding sid rest := by
  have read : regarding sid (net.parties role).inbox = msg ::ₘ regarding sid rest := by
    rw [next, regarding_cons_of_kind about]
  have few := parityOf_lt role
  by_cases ours : sid.toNat % 2 = parityOf role
  · exact Or.inl ⟨ours, read⟩
  · refine Or.inr ⟨by rw [parityOf_otherRole]; omega, ?_⟩
    rw [strandOf, otherRole_otherRole]
    exact read

theorem Concurrent.arrives_forth (concurrent : Concurrent net) (opening : ∀ rm, msg ≠ .reconMsg rm) :
    sid.toNat % 2 = parityOf (otherRole role) ∧
      (strandOf net.parties (otherRole role) sid).forth = msg ::ₘ regarding sid rest := by
  refine (arrives_side next about).resolve_left fun ⟨owned, read⟩ => ?_
  obtain ⟨reported, phase, -⟩ := concurrent.phases role sid owned
  obtain ⟨rm, same⟩ := phase.back_msg read
  exact opening rm same

theorem Concurrent.arrival (concurrent : Concurrent net) {opener : LinkRole} {syncer : Syncer}
    {openings : Openings} {output : SyncOutput}
    (turn : Turn net role syncer rest output.replies openings opener sid) :
    Concurrent ⟨handOver net.parties role { net.parties role with syncer, inbox := rest } output.replies,
      openings, net.outcomes ++ [.ok output]⟩ := by
  refine concurrent.turn turn (fun other mem => ?_) (fun other mem => ?_) (fun other ne => ?_)
    fun outcome mem => ?_
  · rw [next]
    exact Multiset.mem_cons_of_mem mem
  · rw [next] at mem
    rcases Multiset.mem_cons.mp mem with rfl | later
    · exact Or.inr (entriesOf_of_kind about)
    · exact Or.inl later
  · rw [next, regarding_cons_of_none (kindOf_of_ne about ne)]
  · rcases List.mem_append.mp mem with old | new
    · exact concurrent.returned outcome old
    · exact ⟨output, List.mem_singleton.mp new⟩

omit [Ed25519] in
theorem Delivered.arrival {opener : LinkRole} {opening : Option Opening} {reported : List EntryId}
    {syncer : Syncer} (delivered : Delivered net.parties opener opening reported) :
    Delivered (handOver net.parties role { net.parties role with syncer, inbox := rest } sent) opener
      opening reported := by
  intro opened same id mem entry held
  refine Arriving.handOver (.refl _) (fun other later => ?_) (delivered opened same id mem entry held)
  rw [next] at later
  rcases Multiset.mem_cons.mp later with rfl | later
  · exact Or.inr fun entry brings => absurd brings (by simp [entriesOf_of_kind about])
  · exact Or.inl later

end

theorem move_session {msg : Message} {rest : Multiset Message} {output : SyncOutput} {syncer : Syncer}
    {out : Outcome × Syncer} (next : (net.parties role).inbox = msg ::ₘ rest)
    (handled : (net.parties role).syncer.handleMessageInto (net.parties role).store msg {} =
      Syncer.finish (net.parties role).store {} out) (returned : out = (.ok output, syncer)) :
    net.move (.deliver role msg) =
      ⟨handOver net.parties role { net.parties role with syncer, inbox := rest } output.replies,
        meet net.openings role (net.parties role).store msg, net.outcomes ++ [.ok output]⟩ := by
  have message : (net.parties role).syncer.handleMessage (net.parties role).store msg =
      (.ok output, syncer, (net.parties role).store) := by
    rw [Syncer.handleMessage, handled, returned]
    exact finish_message _ _
  simp only [Network.move, message]
  rw [next, Multiset.erase_cons_head]
  rfl

namespace Able
variable {syncer : Syncer} {store : EntryStore} (able : Able role syncer store) {sid : UInt64}
include able

theorem ourParity : syncer.ourParity = parityOf role := by
  rw [Syncer.ourParity, able.role]
  cases role <;> rfl

theorem peerParity : syncer.peerParity = parityOf (otherRole role) := by
  rw [Syncer.peerParity, able.ourParity, parityOf_otherRole]

theorem sessionKey_self (owned : sid.toNat % 2 = parityOf role) :
    syncer.sessionKey sid = (true, sid) := by
  rw [Syncer.sessionKey, able.ourParity, owned, decide_eq_true rfl]

theorem sessionKey_other (owned : sid.toNat % 2 = parityOf (otherRole role)) :
    syncer.sessionKey sid = (false, sid) := by
  have few := parityOf_lt role
  rw [parityOf_otherRole] at owned
  rw [Syncer.sessionKey, able.ourParity, decide_eq_false (by omega)]

end Able

/-! ## Honest exchanges -/

omit [Sha256] [Ed25519] in
/-- Entries that are held under one id are the same, on whichever side. -/
def Agreeing (parties : Parties) : Prop :=
  ∀ role side id entry other, (parties role).store.get id = some entry →
    (parties side).store.get id = some other → entry = other

section
variable (room : ∀ role, (net.parties role).store.len ≤ nilIndex) (agreeing : Agreeing net.parties)
include room agreeing

theorem pairOk_of_snapshots {opener : LinkRole} {first second : EntryStore} {window : SortKeyWindow}
    {ours theirs : Vec Item} (builtFirst : Built first) (builtSecond : Built second)
    (earlier : Retains first (net.parties opener).store)
    (earlier' : Retains second (net.parties (otherRole opener)).store)
    (taken : first.snapshot window = some ours.toList)
    (taken' : second.snapshot window = some theirs.toList) :
    PairOk (initiatorSide ours none) (responderSide theirs none) := by
  have unlimited : LimitOk none := by simp [LimitOk]
  refine Proof.Negentropy.Reconcilable.pairOk (reconcilable_of_snapshots builtFirst builtSecond
    (earlier.len.trans (room _)) (earlier'.len.trans (room _)) taken taken' ?_) unlimited unlimited
  intro id entry other held held'
  exact agreeing _ _ id entry other (earlier.get _ _ held) (earlier'.get _ _ held')

theorem Recorded.pairOk {opener : LinkRole} {opening : Opening} {ours theirs : Vec Item}
    (recorded : Recorded net.parties opener opening) (meets : Meets opening ours theirs) :
    PairOk (initiatorSide ours none) (responderSide theirs none) := by
  obtain ⟨met, same, taken⟩ := meets.theirs
  obtain ⟨built, earlier⟩ := recorded.met met same
  exact pairOk_of_snapshots room agreeing recorded.built built recorded.offered earlier meets.ours taken

/-! ## Deliveries -/

theorem Concurrent.reconInit (concurrent : Concurrent net) {init : ReconInit} {rest : Multiset Message}
    (next : (net.parties role).inbox = .reconInit init ::ₘ rest)
    (space : (net.parties role).syncer.openSessions < (net.parties role).syncer.config.maxSessions) :
    Concurrent (net.move (.deliver role (.reconInit init))) := by
  have able := concurrent.able role
  obtain ⟨sid, window, msg⟩ := init
  have about : kindOf sid (.reconInit ⟨sid, window, msg⟩) = some .init := if_pos rfl
  obtain ⟨owned, read⟩ := concurrent.arrives_forth next about nofun
  obtain ⟨reported, phase, -⟩ := concurrent.phases (otherRole role) sid owned
  obtain ⟨opened, ours, found, unmet, taken, same, empty, held, absent, back⟩ := phase.init_forth read
  obtain ⟨-, rfl, rfl⟩ := ReconInit.mk.inj same
  obtain ⟨-, used, recorded⟩ := concurrent.recorded _ _ _ found
  obtain ⟨theirs, taken'⟩ := able.snapshot (room role) opened.window
  have earlier : Retains (net.parties role).store
      (net.parties (otherRole (otherRole role))).store := by
    rw [otherRole_otherRole]
    exact .refl _
  have ok := pairOk_of_snapshots room agreeing recorded.built able.built recorded.offered earlier taken
    taken'
  simp only [strandOf, otherRole_otherRole] at absent
  have handled := handleInit_accepts able.unlimited (by rw [owned, able.peerParity]) absent space
    taken' ok
  have table := (handleInit_step (net.parties role).syncer (net.parties role).store
    ⟨sid, opened.window, messageBytes (initiatorSide ours none).initiate⟩).table
  rw [handled] at table
  rw [move_session next rfl handled]
  have meeting : meet net.openings role (net.parties role).store
      (.reconInit ⟨sid, opened.window, messageBytes (initiatorSide ours none).initiate⟩) =
      remember net.openings (otherRole role) sid
        { opened with met := some (net.parties role).store } := by
    rw [meet, found]
  rw [meeting]
  have answers : ∀ bytes, kindOf sid (.reconMsg ⟨sid, bytes⟩) = some .msg := fun _ => if_pos rfl
  refine concurrent.arrival next about ⟨owned, table, List.forall_mem_singleton.mpr (letter_of_kind (answers _)),
    fun ours other ne => ?_, fun other ne => regarding_singleton_ne (answers _) ne,
    fun side other apart => remember_other _ _ apart, fun opening known => Or.inr ?_,
    (talkOf ours theirs 0).haveIds, ?_, fun _ _ _ mem => absurd mem List.not_mem_nil⟩
  · exact AList.lookup_insert_ne fun same => ne (Prod.mk.inj same).2
  · rw [remember_self] at known
    obtain rfl := Option.some.inj known
    refine ⟨lt_of_lt_of_le used (nextSid_handOver table _), recorded.built, ?_, fun met same => ?_⟩
    · rw [handOver_other]
      exact recorded.offered
    · rw [otherRole_otherRole, handOver_self]
      obtain rfl := Option.some.inj same
      exact ⟨able.built, .refl _⟩
  · rw [remember_self, strandOf_handOver_other, held, back, Multiset.zero_add, AList.lookup_insert,
      regarding_reconMsg, empty]
    exact .answered ⟨taken, _, rfl, taken'⟩ rfl fun id => by simp [talkOf, Talk.run, Talk.start]

omit room agreeing in
theorem Concurrent.reconDone (concurrent : Concurrent net) {done : ReconDone} {rest : Multiset Message}
    (next : (net.parties role).inbox = .reconDone done ::ₘ rest) :
    Concurrent (net.move (.deliver role (.reconDone done))) := by
  have able := concurrent.able role
  obtain ⟨sid⟩ := done
  have about : kindOf sid (.reconDone ⟨sid⟩) = some .done := if_pos rfl
  obtain ⟨owned, read⟩ := concurrent.arrives_forth next about nofun
  obtain ⟨reported, phase, delivered⟩ := concurrent.phases (otherRole role) sid owned
  obtain ⟨opened, ours, theirs, n, found, meets, ended, rfl, empty, gone, held, back⟩ :=
    phase.done_forth read
  simp only [strandOf, otherRole_otherRole] at held
  have key := able.sessionKey_other owned
  have member : (net.parties role).syncer.sessionKey sid ∈ (net.parties role).syncer.sessions := by
    rw [key]
    exact AList.lookup_isSome.mp (by rw [held]; rfl)
  have handled : (net.parties role).syncer.handleDone ⟨sid⟩ = (.ok { events := [.sessionClosed sid
      ((net.parties role).syncer.sessionKey sid).1] }, { (net.parties role).syncer with
        sessions := (net.parties role).syncer.sessions.erase (false, sid) }) := by
    rw [Syncer.handleDone]
    dsimp only
    rw [if_pos member, key]
  rw [move_session next rfl handled]
  refine concurrent.arrival next about ⟨owned, .closed _ (key ▸ member),
    fun sent mem => absurd mem List.not_mem_nil, fun ours other ne => ?_,
    fun other ne => regarding_eq_zero fun sent mem => absurd mem List.not_mem_nil,
    fun side other apart => rfl, fun opening known => Or.inl known, (talkOf ours theirs n).haveIds, ?_, ?_⟩
  · exact AList.lookup_erase_ne fun same => ne (Prod.mk.inj same).2
  · rw [strandOf_handOver_other, gone, back, Multiset.zero_add, AList.lookup_erase, empty]
    change Phase sid (net.openings (otherRole role) sid) ⟨none, none, 0, 0⟩ _
    rw [found]
    exact .closed meets ended
  · exact delivered.arrival next about

theorem Concurrent.reconMsg_other (concurrent : Concurrent net) {sid : UInt64} {msg : List UInt8}
    {rest : Multiset Message} (next : (net.parties role).inbox = .reconMsg ⟨sid, msg⟩ ::ₘ rest)
    (owned : sid.toNat % 2 = parityOf (otherRole role))
    (read : (strandOf net.parties (otherRole role) sid).forth =
      .reconMsg ⟨sid, msg⟩ ::ₘ regarding sid rest) :
    Concurrent (net.move (.deliver role (.reconMsg ⟨sid, msg⟩))) := by
  have able := concurrent.able role
  have about : kindOf sid (.reconMsg ⟨sid, msg⟩) = some .msg := if_pos rfl
  obtain ⟨reported, phase, delivered⟩ := concurrent.phases (otherRole role) sid owned
  obtain ⟨opened, ours, theirs, n, ranges, pushed, found, meets, flight, known, rfl, same, empty, held,
    accepted, back⟩ := phase.msg_forth read
  obtain ⟨-, rfl⟩ := ReconMsg.mk.inj same
  have ok := (concurrent.recorded _ _ _ found).2.2.pairOk room agreeing meets
  have key := able.sessionKey_other owned
  simp only [strandOf, otherRole_otherRole] at accepted
  have handled := @handleReconMsg_responds _ _ (net.parties role).store _ _ _ _ _
    (by rw [key]; exact accepted) ok flight
  have table := (handleReconMsg_step (net.parties role).syncer (net.parties role).store
    ⟨sid, messageBytes ranges⟩).table
  rw [handled, key] at table
  rw [key] at handled
  rw [move_session next rfl handled]
  have answers : ∀ bytes, kindOf sid (.reconMsg ⟨sid, bytes⟩) = some .msg := fun _ => if_pos rfl
  refine concurrent.arrival next about ⟨owned, table, List.forall_mem_singleton.mpr (letter_of_kind (answers _)),
    fun ours other ne => ?_, fun other ne => regarding_singleton_ne (answers _) ne,
    fun side other apart => rfl, fun opening known => Or.inl known, (talkOf ours theirs n).haveIds, ?_, ?_⟩
  · exact AList.lookup_insert_ne fun same => ne (Prod.mk.inj same).2
  · rw [strandOf_handOver_other, held, back, Multiset.zero_add, AList.lookup_insert, regarding_reconMsg,
      empty]
    change Phase sid (net.openings (otherRole role) sid) _ _
    rw [found]
    exact .answered meets flight known
  · exact delivered.arrival next about

section Reports
variable {store : EntryStore} (built : Built store) (syncer : Syncer) (sid : UInt64)
  (haves needs : List EntryId)
include built

omit room agreeing in
theorem reportRound_letters :
    ∀ msg ∈ (syncer.reportRound store sid haves needs).replies, Proper msg ∧
      ∀ entry ∈ entriesOf msg, store.get entry.id = some entry := by
  have sound := built.filled.sound
  intro msg mem
  refine ⟨(reportRound_pushes sound syncer sid haves needs msg mem).1, fun entry brings => ?_⟩
  have pushed := List.mem_flatMap.mpr ⟨msg, mem, brings⟩
  rw [entriesOf_reportRound] at pushed
  obtain ⟨id, -, held⟩ := List.mem_filterMap.mp pushed
  rwa [sound.keyed id entry held]

omit room agreeing in
theorem regarding_reportRound (last : Message) (other : UInt64) :
    regarding other (((syncer.reportRound store sid haves needs).replies ++ [last] : List Message) :
      Multiset Message) = regarding other ([last] : List Message) := by
  have silent : regarding other
      ((syncer.reportRound store sid haves needs).replies : Multiset Message) = 0 :=
    regarding_eq_zero fun msg mem =>
      (reportRound_pushes built.filled.sound syncer sid haves needs msg mem).2 other
  rw [← Multiset.coe_add, regarding_add, silent, Multiset.zero_add]

end Reports

omit room agreeing in
theorem Delivered.report {opening : Opening} {reported more haves needs : List EntryId} {sid : UInt64}
    {last : Message} (recorded : Recorded net.parties role opening)
    (delivered : Delivered (handOver net.parties role party
      (((net.parties role).syncer.reportRound (net.parties role).store sid haves needs).replies ++ [last]))
      role (some opening) reported)
    (all : ∀ id ∈ more, id ∈ reported ∨ id ∈ haves) :
    Delivered (handOver net.parties role party
      (((net.parties role).syncer.reportRound (net.parties role).store sid haves needs).replies ++ [last]))
      role (some opening) more := by
  intro opened same id mem entry held
  rcases all id mem with old | new
  · exact delivered opened same id old entry held
  obtain rfl := Option.some.inj same
  have now := recorded.offered.get id entry held
  have pushed : entry ∈ ((net.parties role).syncer.reportRound (net.parties role).store sid haves
      needs).replies.flatMap entriesOf := by
    rw [entriesOf_reportRound]
    exact List.mem_filterMap.mpr ⟨id, new, now⟩
  obtain ⟨msg, sent, brings⟩ := List.mem_flatMap.mp pushed
  rw [handOver_other]
  refine Or.inr ⟨msg, Multiset.mem_add.mpr (Or.inr ?_), brings⟩
  exact Multiset.mem_coe.mpr (List.mem_append_left _ sent)

omit room agreeing in
theorem Concurrent.report (concurrent : Concurrent net) {msg last : Message} {rest : Multiset Message}
    {sid : UInt64} {kind kind' : Kind} {opening : Opening} {syncer : Syncer}
    {haves needs reported more : List EntryId} {output : SyncOutput}
    (sends : output.replies = ((net.parties role).syncer.reportRound (net.parties role).store sid haves
      needs).replies ++ [last])
    (next : (net.parties role).inbox = msg ::ₘ rest) (about : kindOf sid msg = some kind)
    (owned : sid.toNat % 2 = parityOf role) (found : net.openings role sid = some opening)
    (lastly : kindOf sid last = some kind') (table : TableStep (net.parties role).syncer syncer)
    (touched : ∀ ours other, other ≠ sid →
      syncer.sessions.lookup (ours, other) = (net.parties role).syncer.sessions.lookup (ours, other))
    (delivered : Delivered net.parties role (some opening) reported)
    (all : ∀ id ∈ more, id ∈ reported ∨ id ∈ haves)
    (phase : Phase sid (some opening) ⟨syncer.sessions.lookup (true, sid),
      (strandOf net.parties role sid).theirs, (strandOf net.parties role sid).forth + {last},
      regarding sid rest⟩ more) :
    Concurrent ⟨handOver net.parties role { net.parties role with syncer, inbox := rest } output.replies,
      net.openings, net.outcomes ++ [.ok output]⟩ := by
  have built := (concurrent.able role).built
  have regards := regarding_reportRound built (net.parties role).syncer sid haves needs last
  refine concurrent.arrival next about ⟨owned, table, fun sent mem => ?_, touched, fun other ne => ?_,
    fun side other apart => rfl, fun opening known => Or.inl known, more, ?_, ?_⟩
  · rw [sends] at mem
    rcases List.mem_append.mp mem with pushes | final
    · exact reportRound_letters built (net.parties role).syncer sid haves needs sent pushes
    · rw [List.mem_singleton.mp final]
      exact letter_of_kind lastly
  · rw [sends, regards]
    exact regarding_singleton_ne lastly ne
  · rw [strandOf_handOver_self, sends, regards, found,
      show regarding sid ([last] : List Message) = {last} from regarding_cons_of_kind lastly 0]
    exact phase
  · rw [sends, found]
    exact Delivered.report (concurrent.recorded _ _ _ found).2.2 (delivered.arrival next about) all

theorem Concurrent.reconMsg_self (concurrent : Concurrent net) {sid : UInt64} {msg : List UInt8}
    {rest : Multiset Message} (next : (net.parties role).inbox = .reconMsg ⟨sid, msg⟩ ::ₘ rest)
    (owned : sid.toNat % 2 = parityOf role)
    (read : (strandOf net.parties role sid).back = .reconMsg ⟨sid, msg⟩ ::ₘ regarding sid rest) :
    Concurrent (net.move (.deliver role (.reconMsg ⟨sid, msg⟩))) := by
  have able := concurrent.able role
  have about : kindOf sid (.reconMsg ⟨sid, msg⟩) = some .msg := if_pos rfl
  obtain ⟨reported, phase, delivered⟩ := concurrent.phases role sid owned
  obtain ⟨opened, ours, theirs, n, ranges, pushed, found, meets, flight, known, rfl, same, empty, held,
    accepted, forth⟩ := phase.msg_back read
  obtain ⟨-, rfl⟩ := ReconMsg.mk.inj same
  have recorded := (concurrent.recorded _ _ _ found).2.2
  have ok := recorded.pairOk room agreeing meets
  have key := able.sessionKey_self owned
  simp only [strandOf] at held
  have table := (handleReconMsg_step (net.parties role).syncer (net.parties role).store
    ⟨sid, messageBytes (responseTo theirs ranges)⟩).table
  obtain ⟨haves, needs, pushed', known', all, goesOn, ends⟩ :=
    @handleReconMsg_learns _ _ (net.parties role).store _ _ _ _ _ _ (by rw [key]; exact held) ok flight
      known
  rw [key] at goesOn ends
  rw [found] at delivered
  cases later : (talkOf ours theirs (n + 1)).message with
  | some ranges' =>
    obtain ⟨events, handled⟩ := goesOn ranges' later
    rw [handled] at table
    rw [move_session next rfl handled]
    refine concurrent.report rfl next about owned found
      (show kindOf sid (.reconMsg ⟨sid, messageBytes ranges'⟩) = some .msg from if_pos rfl) table
      (fun ours other ne => AList.lookup_insert_ne fun same => ne (Prod.mk.inj same).2) delivered all ?_
    rw [accepted, forth, Multiset.zero_add, AList.lookup_insert, empty]
    exact .asked meets later known'
  | none =>
    obtain ⟨events, handled⟩ := ends later
    rw [handled] at table
    rw [move_session next rfl handled]
    refine concurrent.report rfl next about owned found
      (show kindOf sid (.reconDone ⟨sid⟩) = some .done from if_pos rfl) table
      (fun ours other ne => AList.lookup_erase_ne fun same => ne (Prod.mk.inj same).2) delivered all ?_
    rw [accepted, forth, Multiset.zero_add, AList.lookup_erase, empty]
    exact .finished meets later

end

/-! ## Pushes -/

theorem handlePush_retains (store : EntryStore) (entries : List Entry) (events : List SyncEvent) :
    Retains store (Syncer.handlePush store entries events).2.1 :=
  handlePush_rule events (fun store entry _ earlier => earlier.trans (insert_retains store entry)) (.refl _)

theorem handlePush_stores {store : EntryStore} {entries : List Entry} {events : List SyncEvent}
    (built : Built store) (memory : store.journal = none)
    (valid : ∀ entry ∈ entries, entry.sortKey ≠ reservedKey ∧ entry.verify = .ok ())
    (room : (Syncer.handlePush store entries events).2.1.len ≤ nilIndex) :
    (Syncer.handlePush store entries events).1 = .ok () ∧
      Built (Syncer.handlePush store entries events).2.1 ∧
      (Syncer.handlePush store entries events).2.1.journal = none ∧
      ∀ entry ∈ entries, ∃ held,
        (Syncer.handlePush store entries events).2.1.get entry.id = some held := by
  induction entries generalizing store events with
  | nil => exact ⟨rfl, built, memory, fun entry mem => absurd mem List.not_mem_nil⟩
  | cons entry entries ih =>
    obtain ⟨finite, verified⟩ := valid entry List.mem_cons_self
    have valid' := fun other mem => valid other (List.mem_cons_of_mem entry mem)
    have space := (handlePush_retains store (entry :: entries) events).len.trans room
    obtain ⟨⟨isNew, accepted⟩, held, found⟩ := insert_stores built memory space finite verified
    have built' := built.insert entry
    have memory' := (insert_volatile memory entry).1
    rcases outcome : store.insert entry with ⟨result, after⟩
    rw [outcome] at accepted found built' memory'
    dsimp only at accepted found built' memory'
    subst accepted
    have step : Syncer.handlePush store (entry :: entries) events = Syncer.handlePush after entries
        (events ++ [if isNew then .stored entry.id else .duplicateIgnored entry.id]) := by
      rw [Syncer.handlePush, outcome]
      cases isNew <;> rfl
    rw [step] at room ⊢
    obtain ⟨returned, built'', memory'', stored⟩ := ih built' memory' valid' room
    refine ⟨returned, built'', memory'', fun other mem => ?_⟩
    rcases List.mem_cons.mp mem with rfl | later
    · exact ⟨held, (handlePush_retains after entries _).get _ _ found⟩
    · exact stored other later

theorem Concurrent.push (concurrent : Concurrent net) {push : GossipPush} {rest : Multiset Message}
    (next : (net.parties role).inbox = .gossipPush push ::ₘ rest)
    (room : ((net.move (.deliver role (.gossipPush push))).parties role).store.len ≤ nilIndex)
    (agreeing : Agreeing (net.move (.deliver role (.gossipPush push))).parties) :
    Concurrent (net.move (.deliver role (.gossipPush push))) := by
  have able := concurrent.able role
  have mem : Message.gossipPush push ∈ (net.parties role).inbox := by
    rw [next]
    exact Multiset.mem_cons_self _ _
  obtain ⟨valid, sender⟩ := concurrent.letters role _ mem
  have retains := handlePush_retains (net.parties role).store push.entries []
  rcases pushed : Syncer.handlePush (net.parties role).store push.entries [] with ⟨result, store, events⟩
  rw [pushed] at retains
  have moved : net.move (.deliver role (.gossipPush push)) =
      ⟨handOver net.parties role { net.parties role with store, inbox := rest }
          (sentBy (do result; return { events })), net.openings,
        net.outcomes ++ [(do result; return { events } : Outcome)]⟩ := by
    simp only [Network.move, Syncer.handleMessage, Syncer.handleMessageInto, pushed]
    rw [next, Multiset.erase_cons_head]
    rfl
  rw [moved] at room agreeing ⊢
  dsimp only at room agreeing
  rw [handOver_self] at room
  obtain ⟨returned, built, memory, stored⟩ := @handlePush_stores _ _ (net.parties role).store push.entries []
    able.built able.memory valid (by rw [pushed]; exact room)
  rw [pushed] at returned built memory stored
  dsimp only at returned built memory stored
  subst returned
  refine concurrent.quiet built memory retains (fun msg later => ?_) (fun msg later => ?_)
    (fun sid => ?_) fun outcome mem => ?_
  · rw [next]
    exact Multiset.mem_cons_of_mem later
  · rw [next] at later
    rcases Multiset.mem_cons.mp later with rfl | later
    · -- what is held under the id of a pushed entry is that entry, since its sender holds it
      refine Or.inr fun entry brings => ?_
      obtain ⟨held, found⟩ := stored entry brings
      have same := agreeing role (otherRole role) entry.id held entry (by rw [handOver_self]; exact found)
        (by rw [handOver_other]; exact sender entry brings)
      rwa [same] at found
    · exact Or.inl later
  · rw [next, regarding_cons_of_none rfl]
  · rcases List.mem_append.mp mem with old | new
    · exact concurrent.returned outcome old
    · exact ⟨_, List.mem_singleton.mp new⟩

end

end

end Racnet.Proof.Sessions
