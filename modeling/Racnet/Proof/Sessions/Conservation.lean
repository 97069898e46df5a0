import Racnet.Proof.Sessions.Convergence

/-!
# What two syncers hold together

Whatever the configurations and the order of the messages, a session brings an entry only from the other
side. As long as nothing is inserted, the two stores together hold what they held.
-/

namespace Racnet.Proof.Sessions
open Lib Store Wire Sync
open Proof.Storage (Built Sound Retains insert_step get_insert_self get_insert_ne insert_retains)

section
variable [Sha256] [Ed25519]

/-! ## What a call stores and sends -/

theorem get_insert {store : EntryStore} {entry held : Entry} {id : EntryId}
    (found : (store.insert entry).2.get id = some held) : store.get id = some held ∨ held = entry := by
  have step := insert_step store entry
  generalize (store.insert entry).1 = result at step
  generalize (store.insert entry).2 = after at step found
  cases step with
  | refused trap journal => exact Or.inl found
  | duplicate contained => exact Or.inl found
  | added finite verified absent journal order isNew indexed =>
    by_cases same : id = entry.id
    · rw [same, get_insert_self] at found
      exact Or.inr (Option.some.inj found).symm
    · rw [get_insert_ne same] at found
      exact Or.inl found

theorem handleMessage_built {store : EntryStore} (built : Built store) (syncer : Syncer) (msg : Message) :
    Built (syncer.handleMessage store msg).2.2 :=
  handleMessage_rule syncer msg (fun _ entry _ built => built.insert entry) built

theorem get_handleMessage {syncer : Syncer} {store : EntryStore} {msg : Message} {id : EntryId}
    {held : Entry} (found : (syncer.handleMessage store msg).2.2.get id = some held) :
    store.get id = some held ∨ held ∈ entriesOf msg := by
  refine handleMessage_rule (P := fun after => after.get id = some held →
    store.get id = some held ∨ held ∈ entriesOf msg) syncer msg (fun after entry mem earlier now => ?_)
    Or.inl found
  rcases get_insert now with old | rfl
  · exact earlier old
  · exact Or.inr mem

theorem sentBy_push (syncer : Syncer) (store : EntryStore) (push : GossipPush) :
    sentBy (syncer.handleMessage store (.gossipPush push)).1 = [] := by
  rcases pushed : Syncer.handlePush store push.entries [] with ⟨result, after, events⟩
  simp only [Syncer.handleMessage, Syncer.handleMessageInto, pushed]
  cases result <;> rfl

theorem sentBy_session {syncer : Syncer} {store : EntryStore} {msg : Message} {out : Outcome × Syncer}
    (handled : syncer.handleMessageInto store msg {} = Syncer.finish store {} out) :
    sentBy (syncer.handleMessage store msg).1 = sentBy out.1 := by
  have message := congrArg Prod.fst (finish_message store out)
  rw [Syncer.handleMessage, handled]
  exact congrArg sentBy message

theorem sentBy_done (syncer : Syncer) (store : EntryStore) (done : ReconDone) :
    sentBy (syncer.handleMessage store (.reconDone done)).1 = [] := by
  have step := handleDone_step syncer done
  rw [sentBy_session rfl]
  generalize syncer.handleDone done = out at step
  cases step <;> rfl

theorem replies_held {syncer : Syncer} {store : EntryStore} (built : Built store) {msg reply : Message}
    (sent : reply ∈ sentBy (syncer.handleMessage store msg).1) {entry : Entry}
    (brings : entry ∈ entriesOf reply) : store.get entry.id = some entry := by
  cases msg with
  | gossipPush push =>
    rw [sentBy_push] at sent
    cases sent
  | hello _ | handshake _ | error _ => cases sent
  | reconInit init =>
    rw [sentBy_session rfl] at sent
    have step := handleInit_step syncer store init
    generalize syncer.handleInit store init = out at step sent
    cases step with
    | refused trap => cases sent
    | accepted engine round answer parity absent room made answered replied =>
      rw [List.mem_singleton.mp sent] at brings
      cases brings
  | reconMsg rm =>
    rw [sentBy_session rfl] at sent
    have step := handleReconMsg_step syncer store rm
    generalize syncer.handleReconMsg store rm = out at step sent
    have held : ∀ {haves needs last}, reply ∈ (syncer.reportRound store rm.sid haves needs).replies ++ [last] →
        entriesOf last = [] → store.get entry.id = some entry := by
      intro haves needs last mem empty
      rcases List.mem_append.mp mem with pushes | final
      · exact (reportRound_letters built _ _ _ _ _ pushes).2 entry brings
      · rw [List.mem_singleton.mp final, empty] at brings
        cases brings
    cases step with
    | refused trap => cases sent
    | continued session round answer found answered replied => exact held sent rfl
    | finished session round found answered replied => exact held sent rfl
  | reconDone done =>
    rw [sentBy_done] at sent
    cases sent

/-! ## Runs -/

/-- What is on its way is held by the side that has sent it. -/
structure Sourced (net : Network) : Prop where
  built : ∀ role, Built (net.parties role).store
  letters : ∀ role, ∀ msg ∈ (net.parties role).inbox, ∀ entry ∈ entriesOf msg,
    (net.parties (otherRole role)).store.get entry.id = some entry

theorem start_sourced {config : LinkRole → SyncConfig} {store : LinkRole → EntryStore}
    (built : ∀ role, Built (store role)) : Sourced (Network.start config store) :=
  ⟨built, fun _ msg mem => absurd mem (Multiset.notMem_zero msg)⟩

variable {net : Network}

theorem Sourced.handOver (sourced : Sourced net) {role : LinkRole} {party : Party} {sent : List Message}
    {openings : Openings} {outcomes : List Outcome} (built : Built party.store)
    (retains : Retains (net.parties role).store party.store)
    (inbox : ∀ msg ∈ party.inbox, msg ∈ (net.parties role).inbox)
    (letters : ∀ msg ∈ sent, ∀ entry ∈ entriesOf msg, party.store.get entry.id = some entry) :
    Sourced ⟨handOver net.parties role party sent, openings, outcomes⟩ := by
  refine ⟨fun side => ?_, fun side msg mem entry brings => ?_⟩
  · dsimp only
    rcases eq_or_eq_otherRole role side with rfl | rfl
    · rwa [handOver_self]
    · rw [handOver_other]
      exact sourced.built _
  · dsimp only at mem ⊢
    rcases eq_or_eq_otherRole role side with rfl | rfl
    · rw [handOver_self] at mem
      rw [handOver_other]
      exact sourced.letters side msg (inbox msg mem) entry brings
    · rw [handOver_other] at mem
      rw [otherRole_otherRole, handOver_self]
      rcases Multiset.mem_add.mp mem with old | new
      · have held := sourced.letters _ msg old entry brings
        rw [otherRole_otherRole] at held
        exact retains.get _ _ held
      · exact letters msg (Multiset.mem_coe.mp new) entry brings

theorem Sourced.move (sourced : Sourced net) (move : Move) : Sourced (net.move move) := by
  cases move with
  | insert role entry =>
    exact sourced.handOver ((sourced.built role).insert entry) (insert_retains _ entry)
      (fun _ mem => mem) fun _ mem => absurd mem List.not_mem_nil
  | openSession role window =>
    have step := openSession_step (net.parties role).syncer (net.parties role).store window
    simp only [Network.move]
    generalize (net.parties role).syncer.openSession (net.parties role).store window = out at step ⊢
    cases step with
    | refused trap =>
      exact sourced.handOver (sourced.built role) (.refl _) (fun _ mem => mem)
        fun _ mem => absurd mem List.not_mem_nil
    | opened engine msg room made started fits =>
      refine sourced.handOver (sourced.built role) (.refl _) (fun _ mem => mem)
        fun sent mem entry brings => ?_
      rw [List.mem_singleton.mp mem] at brings
      cases brings
  | deliver role msg =>
    have built := sourced.built role
    refine sourced.handOver (handleMessage_built built _ msg) (handleMessage_retains _ _ msg)
      (fun _ mem => Multiset.mem_of_mem_erase mem) fun reply sent entry brings => ?_
    exact (handleMessage_retains _ _ msg).get _ _ (replies_held built sent brings)

theorem Network.Reaches.sourced {first : Network} (reached : first.Reaches net) (begins : Sourced first) :
    Sourced net := by
  induction reached with
  | start => exact begins
  | move reached move allowed ih => exact ih.move move

/-! ## Moves without an insertion -/

/-- The moves that change no store from outside. -/
def Move.Synchronises : Move → Prop
  | .insert _ _ => False
  | .openSession _ _ | .deliver _ _ => True

inductive Network.Syncs (first : Network) : Network → Prop where
  | start : Syncs first first
  | move {net : Network} (synced : Syncs first net) (move : Move) (syncs : move.Synchronises)
      (allowed : net.Allows move) : Syncs first (net.move move)

/-- One of the two sides holds the entry. -/
def Network.Holds (net : Network) (entry : Entry) : Prop :=
  ∃ role, (net.parties role).store.get entry.id = some entry

theorem Network.Syncs.sourced {first : Network} (synced : first.Syncs net) (begins : Sourced first) :
    Sourced net := by
  induction synced with
  | start => exact begins
  | move synced move syncs allowed ih => exact ih.move move

theorem holds_move {entry : Entry} (move : Move) (held : net.Holds entry) : (net.move move).Holds entry := by
  obtain ⟨role, found⟩ := held
  exact ⟨role, (move_retains net move role).get _ _ found⟩

theorem store_openSession (net : Network) (role : LinkRole) (window : SortKeyWindow) (side : LinkRole) :
    ((net.move (.openSession role window)).parties side).store = (net.parties side).store := by
  simp only [Network.move]
  rcases (net.parties role).syncer.openSession (net.parties role).store window with
    ⟨_ | ⟨sid, msg⟩, syncer⟩ <;>
  rcases eq_or_eq_otherRole role side with rfl | rfl <;> simp only [handOver_self, handOver_other]

theorem Sourced.holds_of_move (sourced : Sourced net) {move : Move} (syncs : move.Synchronises)
    (allowed : net.Allows move) {entry : Entry} (held : (net.move move).Holds entry) :
    net.Holds entry := by
  obtain ⟨side, found⟩ := held
  cases move with
  | insert role entry => exact syncs.elim
  | openSession role window =>
    rw [store_openSession] at found
    exact ⟨side, found⟩
  | deliver role msg =>
    simp only [Network.move] at found
    rcases eq_or_eq_otherRole role side with rfl | rfl
    · rw [handOver_self] at found
      rcases get_handleMessage found with old | brought
      · exact ⟨side, old⟩
      · exact ⟨otherRole side, sourced.letters side msg allowed.1 entry brought⟩
    · rw [handOver_other] at found
      exact ⟨otherRole role, found⟩

theorem Sourced.holds_iff (sourced : Sourced net) {last : Network} (synced : net.Syncs last)
    (entry : Entry) : last.Holds entry ↔ net.Holds entry := by
  induction synced with
  | start => exact Iff.rfl
  | move synced move syncs allowed ih =>
    rw [← ih]
    exact ⟨(synced.sourced sourced).holds_of_move syncs allowed, holds_move move⟩

/-- Sessions neither lose nor invent entries: whatever the frame limits and the caps, whatever is on its
way and whatever fails, the two stores together hold what they held before. -/
theorem sessions_conserve (config : LinkRole → SyncConfig) {store : LinkRole → EntryStore}
    (built : ∀ role, Built (store role)) {net last : Network}
    (reached : (Network.start config store).Reaches net) (synced : net.Syncs last) (entry : Entry) :
    (∃ role, (last.parties role).store.get entry.id = some entry) ↔
      ∃ role, (net.parties role).store.get entry.id = some entry :=
  (reached.sourced (start_sourced built)).holds_iff synced entry

end

/-! ## One session -/

section
open Proof.Storage (plainEntry)

local instance tellingApart : Sha256 := telling

local instance believingAll : Ed25519 := believing

theorem built_lone : ∀ role, Built (oneSided loneStore role)
  | .initiator => Built.new.insert _
  | .responder => .new

theorem loneOffered_reached :
    (Network.start (fun _ => unlimitedConfig) (oneSided loneStore)).Reaches loneOffered :=
  .move .start (.openSession .initiator ⟨0, 10⟩) trivial

theorem loneOffered_syncs : loneOffered.Syncs loneRested := by
  have answered : loneOffered.Syncs loneAnswered :=
    .move .start _ trivial ⟨by decide +kernel, fun _ _ => by decide +kernel⟩
  have pushed : loneOffered.Syncs lonePushed :=
    .move answered _ trivial ⟨by decide +kernel, fun _ _ => by decide +kernel⟩
  have stored : loneOffered.Syncs loneStored :=
    .move pushed _ trivial ⟨by decide +kernel, fun _ _ => by decide +kernel⟩
  exact .move stored _ trivial ⟨by decide +kernel, fun _ _ => by decide +kernel⟩

/-- The session brings the one entry to the other side, and it was held before. -/
theorem sessions_conserve_lone :
    (∃ role, (loneRested.parties role).store.get (plainEntry 5).id = some (plainEntry 5)) ↔
      ∃ role, (loneOffered.parties role).store.get (plainEntry 5).id = some (plainEntry 5) :=
  sessions_conserve _ built_lone loneOffered_reached loneOffered_syncs _

end

end Racnet.Proof.Sessions
