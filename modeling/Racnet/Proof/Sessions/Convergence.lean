import Racnet.Proof.Sessions.Concurrent
import Racnet.Proof.Storage.Full

/-!
# Concurrent sessions converge

Stores only grow, so what holds of the ids at the end of a run held during all of it. When nothing is on
its way every session is over, and what it had to bring has arrived.
-/

namespace Racnet.Proof.Sessions
open Lib Store Wire Sync
open Proof.Negentropy (unlimited_complete)
open Proof.Storage (Built Retains InWindow itemOf insert_retains)

section
variable [Sha256] [Ed25519] {net : Network}

/-! ## Runs -/

theorem handleMessage_rule {P : EntryStore → Prop} (syncer : Syncer) {store : EntryStore} (msg : Message)
    (kept : ∀ store, ∀ entry ∈ entriesOf msg, P store → P (store.insert entry).2) (start : P store) :
    P (syncer.handleMessage store msg).2.2 :=
  handleMessageInto_rule syncer (by rintro push rfl; exact kept) start

theorem handleMessage_retains (syncer : Syncer) (store : EntryStore) (msg : Message) :
    Retains store (syncer.handleMessage store msg).2.2 :=
  handleMessage_rule syncer msg (fun store entry _ earlier => earlier.trans (insert_retains store entry)) (.refl _)

theorem move_retains (net : Network) (move : Move) (side : LinkRole) :
    Retains (net.parties side).store ((net.move move).parties side).store := by
  cases move with
  | insert role entry => exact retains_handOver (insert_retains _ entry) side
  | openSession role window =>
    simp only [Network.move]
    rcases (net.parties role).syncer.openSession (net.parties role).store window with
      ⟨_ | ⟨sid, msg⟩, syncer⟩
    · exact @retains_handOver net role { net.parties role with syncer } [] (.refl _) side
    · exact @retains_handOver net role { net.parties role with syncer } [msg] (.refl _) side
  | deliver role msg =>
    exact retains_handOver (handleMessage_retains _ _ msg) side

theorem Agreeing.earlier {move : Move} (agreeing : Agreeing (net.move move).parties) :
    Agreeing net.parties := fun role side id entry other held held' =>
  agreeing role side id entry other ((move_retains net move role).get _ _ held)
    ((move_retains net move side).get _ _ held')

theorem Concurrent.move (concurrent : Concurrent net) {move : Move} (allowed : net.Allows move)
    (room : ∀ role, ((net.move move).parties role).store.len ≤ nilIndex)
    (agreeing : Agreeing (net.move move).parties) : Concurrent (net.move move) := by
  have earlier : ∀ role, (net.parties role).store.len ≤ nilIndex :=
    fun role => (move_retains net move role).len.trans (room role)
  have agreed := agreeing.earlier
  cases move with
  | insert role entry => exact concurrent.insert role entry
  | openSession role window => exact concurrent.openSession role window (earlier role)
  | deliver role msg =>
    obtain ⟨mem, space⟩ := allowed
    obtain ⟨rest, next⟩ := Multiset.exists_cons_of_mem mem
    have proper := (concurrent.letters role msg mem).1
    cases msg with
    | gossipPush push => exact concurrent.push next (room role) agreeing
    | reconInit init => exact concurrent.reconInit earlier agreed next (space init rfl)
    | reconMsg rm =>
      obtain ⟨sid, msg⟩ := rm
      have about : kindOf sid (.reconMsg ⟨sid, msg⟩) = some .msg := if_pos rfl
      rcases arrives_side next about with ⟨owned, read⟩ | ⟨owned, read⟩
      · exact concurrent.reconMsg_self earlier agreed next owned read
      · exact concurrent.reconMsg_other earlier agreed next owned read
    | reconDone done => exact concurrent.reconDone next
    | hello _ | handshake _ | error _ => exact proper.elim

theorem Network.Reaches.concurrent {first : Network} (reached : first.Reaches net)
    (begins : Concurrent first) (room : ∀ role, (net.parties role).store.len ≤ nilIndex)
    (agreeing : Agreeing net.parties) : Concurrent net := by
  induction reached with
  | start => exact begins
  | @move net reached move allowed ih =>
    refine (ih (fun role => ?_) agreeing.earlier).move allowed room agreeing
    exact (move_retains net move role).len.trans (room role)

/-! ## At rest -/

theorem Concurrent.none_open (concurrent : Concurrent net) (idle : ∀ role, (net.parties role).inbox = 0)
    (role : LinkRole) : (net.parties role).syncer.openSessions = 0 := by
  have able := concurrent.able role
  have rests : ∀ opener sid, sid.toNat % 2 = parityOf opener →
      (strandOf net.parties opener sid).ours = none ∧ (strandOf net.parties opener sid).theirs = none := by
    intro opener sid owned
    obtain ⟨reported, phase, -⟩ := concurrent.phases opener sid owned
    obtain ⟨ours, theirs, -⟩ := phase.at_rest (by simp [strandOf, idle]) (by simp [strandOf, idle])
    exact ⟨ours, theirs⟩
  have empty : (net.parties role).syncer.sessions.keys = [] := by
    refine List.eq_nil_iff_forall_not_mem.mpr ?_
    rintro ⟨byUs, sid⟩ mem
    have held : (byUs, sid) ∈ (net.parties role).syncer.sessions := AList.mem_keys.mpr mem
    cases byUs with
    | true =>
      have owned := (able.orderly.ours sid held).1
      rw [able.ourParity] at owned
      exact absurd held (AList.lookup_eq_none.mp (rests role sid owned).1)
    | false =>
      have owned := able.orderly.theirs sid held
      rw [able.peerParity] at owned
      have absent := (rests (otherRole role) sid owned).2
      simp only [strandOf, otherRole_otherRole] at absent
      exact absurd held (AList.lookup_eq_none.mp absent)
  rw [Syncer.openSessions, empty]
  rfl

theorem Concurrent.all_arrived (concurrent : Concurrent net)
    (room : ∀ role, (net.parties role).store.len ≤ nilIndex) (free : net.CollisionFree)
    (idle : ∀ role, (net.parties role).inbox = 0) {opener : LinkRole} {sid : UInt64} {opening : Opening}
    (opened : net.openings opener sid = some opening) {id : EntryId} {entry : Entry}
    (held : opening.offered.get id = some entry) (inside : InWindow opening.window entry.sortKey) :
    (net.parties (otherRole opener)).store.get id = some entry := by
  obtain ⟨owned, -, recorded⟩ := concurrent.recorded opener sid opening opened
  obtain ⟨reported, phase, delivered⟩ := concurrent.phases opener sid owned
  obtain ⟨-, -, exchange⟩ := phase.at_rest (by simp [strandOf, idle]) (by simp [strandOf, idle])
  obtain ⟨ours, theirs, n, meets, ended, rfl⟩ := exchange opening opened
  obtain ⟨met, same, taken⟩ := meets.theirs
  obtain ⟨builtMet, retained⟩ := recorded.met met same
  have roomOffered := recorded.offered.len.trans (room opener)
  have roomMet := retained.len.trans (room (otherRole opener))
  have keyed := recorded.built.filled.sound.keyed id entry held
  obtain ⟨t, ordered⟩ := recorded.built.filled.ordered roomOffered
  -- the entry was in the snapshot of the opener
  have offered : itemOf entry ∈ ours.toList := by
    refine (ordered.mem_snapshot meets.ours _).mpr ⟨⟨entry, ?_, rfl⟩, inside⟩
    change opening.offered.get entry.id = some entry
    rwa [keyed]
  by_cases already : id ∈ theirs.toList.map Item.id
  · obtain ⟨x, mem, rfl⟩ := List.mem_map.mp already
    obtain ⟨other, found, -⟩ := holds_of_snapshot builtMet roomMet taken mem
    have there := retained.get _ _ found
    rw [there, free.ids _ _ x.id other entry there (recorded.offered.get _ _ held)]
  · have fingerprints := free.fingerprints opener sid opening met _ _ opened same meets.ours taken
    rw [← items_of_snapshot recorded.built roomOffered meets.ours,
      ← items_of_snapshot builtMet roomMet taken] at fingerprints
    have known : id ∈ ours.toList.map Item.id := List.mem_map.mpr ⟨itemOf entry, offered, keyed⟩
    have reports := (unlimited_complete (recorded.pairOk room free.ids meets) fingerprints ended id).1
      known already
    rcases delivered opening opened id reports entry held with arrived | ⟨msg, mem, -⟩
    · rwa [keyed] at arrived
    · rw [idle] at mem
      exact absurd mem (Multiset.notMem_zero msg)

/-- Concurrent sessions of two syncers with in-memory stores of at most `2 ^ 32 - 1` entries: every
message is handled, and when none is on its way no session is open and each has brought what its opener
held. -/
theorem sessions_converge {config : LinkRole → SyncConfig} {store : LinkRole → EntryStore}
    (unlimited : ∀ role, (config role).frameLimit = none) (built : ∀ role, Built (store role))
    (memory : ∀ role, (store role).journal = none) {net : Network}
    (reached : (Network.start config store).Reaches net)
    (room : ∀ role, (net.parties role).store.len ≤ 2 ^ 32 - 1) (free : net.CollisionFree) :
    (∀ outcome ∈ net.outcomes, ∃ output, outcome = .ok output) ∧
    ((∀ role, (net.parties role).inbox = 0) →
      (∀ role, (net.parties role).syncer.openSessions = 0) ∧
      ∀ opener sid opening, net.openings opener sid = some opening →
        ∀ id entry, opening.offered.get id = some entry → InWindow opening.window entry.sortKey →
          (net.parties (otherRole opener)).store.get id = some entry) := by
  have concurrent := reached.concurrent (start_concurrent unlimited built memory) room free.ids
  refine ⟨concurrent.returned, fun idle => ⟨concurrent.none_open idle, ?_⟩⟩
  intro opener sid opening opened id entry held inside
  exact concurrent.all_arrived room free idle opened held inside

end

/-! ## One session -/

open Proof.Storage (trusting plainEntry)

def unlimitedConfig : SyncConfig := ⟨none, 0, 8⟩

def oneSided (store : EntryStore) : LinkRole → EntryStore
  | .initiator => store
  | .responder => EntryStore.new

def noItems : List UInt8 := [97, 0, 0, 2, 0]

section
open Proof.Negentropy (tailDigest)

local instance telling : Sha256 := tailDigest

local instance believing : Ed25519 := trusting

def loneStore : EntryStore := (EntryStore.new.insert (plainEntry 5)).2

def loneItems : List UInt8 :=
  [97, 0, 0, 2, 1, 0, 0, 0, 0, 0, 0, 0, 0, 0, 0, 0, 5, 0, 64, 88, 64] ++ List.replicate 16 0

def loneOffered : Network :=
  (Network.start (fun _ => unlimitedConfig) (oneSided loneStore)).move (.openSession .initiator ⟨0, 10⟩)

def loneAnswered : Network := loneOffered.move (.deliver .responder (.reconInit ⟨0, ⟨0, 10⟩, loneItems⟩))

def lonePushed : Network := loneAnswered.move (.deliver .initiator (.reconMsg ⟨0, noItems⟩))

def loneStored : Network := lonePushed.move (.deliver .responder (.gossipPush ⟨[plainEntry 5], 0⟩))

def loneRested : Network := loneStored.move (.deliver .responder (.reconDone ⟨0⟩))

theorem loneRested_reached :
    (Network.start (fun _ => unlimitedConfig) (oneSided loneStore)).Reaches loneRested := by
  have offered : Network.Reaches _ loneOffered := .move .start (.openSession .initiator ⟨0, 10⟩) trivial
  have answered : Network.Reaches _ loneAnswered :=
    .move offered _ ⟨by decide +kernel, fun _ _ => by decide +kernel⟩
  have pushed : Network.Reaches _ lonePushed :=
    .move answered _ ⟨by decide +kernel, fun _ _ => by decide +kernel⟩
  have stored : Network.Reaches _ loneStored :=
    .move pushed _ ⟨by decide +kernel, fun _ _ => by decide +kernel⟩
  exact .move stored _ ⟨by decide +kernel, fun _ _ => by decide +kernel⟩

theorem loneRested_openings : loneRested.openings = remember
    (remember (fun _ _ => none) .initiator 0 ⟨⟨0, 10⟩, loneStore, none⟩) .initiator 0
      ⟨⟨0, 10⟩, loneStore, some EntryStore.new⟩ := rfl

theorem loneRested_collisionFree : loneRested.CollisionFree := by
  have stores : ∀ role, (loneRested.parties role).store = loneStore := fun role => by
    cases role <;> rfl
  refine ⟨fun role side id entry other held held' => ?_, ?_⟩
  · rw [stores] at held held'
    exact Option.some.inj (held.symm.trans held')
  · intro opener sid opening met ours theirs opened same taken taken'
    rw [loneRested_openings] at opened
    by_cases here : opener = .initiator ∧ sid = 0
    swap
    · rw [remember_other _ _ here, remember_other _ _ here] at opened
      cases opened
    obtain ⟨rfl, rfl⟩ := here
    rw [remember_self] at opened
    obtain rfl := Option.some.inj opened
    obtain rfl := Option.some.inj same
    obtain rfl : ours = [Proof.Storage.itemOf (plainEntry 5)] :=
      Option.some.inj (taken.symm.trans (by decide +kernel))
    obtain rfl : theirs = [] := Option.some.inj (taken'.symm.trans (by decide +kernel))
    intro i j k l equal id
    have right : (([] : List Item).take l).drop k = [] := by simp
    have left : (([Proof.Storage.itemOf (plainEntry 5)].take j).drop i).Sublist
        [Proof.Storage.itemOf (plainEntry 5)] := (List.drop_sublist _ _).trans (List.take_sublist _ _)
    rw [right] at equal ⊢
    rcases List.sublist_singleton.mp left with none | one
    · rw [none]
    · rw [one] at equal
      exact absurd equal (by decide +kernel)

theorem sessions_converge_lone :
    (loneRested.parties .responder).syncer.openSessions = 0 ∧
      (loneRested.parties .responder).store.get (plainEntry 5).id = some (plainEntry 5) := by
  have built : ∀ role, Built (oneSided loneStore role)
    | .initiator => Built.new.insert _
    | .responder => .new
  have memory : ∀ role, (oneSided loneStore role).journal = none
    | .initiator => rfl
    | .responder => rfl
  obtain ⟨-, idle⟩ := sessions_converge (fun _ => rfl) built memory loneRested_reached
    (fun role => by cases role <;> decide +kernel) loneRested_collisionFree
  obtain ⟨closed, arrived⟩ := idle fun role => by cases role <;> decide +kernel
  exact ⟨closed _, arrived .initiator 0 _ (by rw [loneRested_openings, remember_self]) _ (plainEntry 5)
    (by decide +kernel) ⟨by decide, by decide⟩⟩

end

/-! ## A session that misses an entry -/

section
open Proof.Storage (keyDigest lostEntry lostWindow lost_window)

local instance keyed : Sha256 := keyDigest

local instance trusted : Ed25519 := trusting

def idleOpener : Syncer :=
  { Syncer.new .initiator unlimitedConfig with
    nextSid := 2
    sessions := AList.insert (true, 0) (openerSession ⟨[], Vec.length_nil_lt⟩ ∅) ∅ }

theorem opens_idly {store : EntryStore} (lacks : store.snapshot lostWindow = some []) :
    (Syncer.new .initiator unlimitedConfig).openSession store lostWindow =
      (.ok (0, .reconInit ⟨0, lostWindow, noItems⟩), idleOpener) := by
  rw [Syncer.openSession, Syncer.sealedEngine, lacks]
  rfl

def idleOffered (store : EntryStore) : Network where
  parties := handOver (Network.start (fun _ => unlimitedConfig) (oneSided store)).parties .initiator
    ⟨idleOpener, store, 0⟩ [.reconInit ⟨0, lostWindow, noItems⟩]
  openings := remember (fun _ _ => none) .initiator 0 ⟨lostWindow, store, none⟩
  outcomes := []

def idleAnswered (store : EntryStore) : Network :=
  (idleOffered store).move (.deliver .responder (.reconInit ⟨0, lostWindow, noItems⟩))

def idleFinished (store : EntryStore) : Network :=
  (idleAnswered store).move (.deliver .initiator (.reconMsg ⟨0, noItems⟩))

def idleRested (store : EntryStore) : Network :=
  (idleFinished store).move (.deliver .responder (.reconDone ⟨0⟩))

theorem idleRested_reached {store : EntryStore} (lacks : store.snapshot lostWindow = some []) :
    (Network.start (fun _ => unlimitedConfig) (oneSided store)).Reaches (idleRested store) := by
  have moved : (Network.start (fun _ => unlimitedConfig) (oneSided store)).move
      (.openSession .initiator lostWindow) = idleOffered store := by
    have opens := opens_idly lacks
    simp only [Network.move]
    rw [show ((Network.start (fun _ => unlimitedConfig) (oneSided store)).parties
      .initiator).syncer.openSession ((Network.start (fun _ => unlimitedConfig)
        (oneSided store)).parties .initiator).store lostWindow = _ from opens]
    rfl
  set first := Network.start (fun _ => unlimitedConfig) (oneSided store)
  have offered : first.Reaches (idleOffered store) :=
    moved ▸ .move .start (.openSession .initiator lostWindow) trivial
  have sent : ((idleOffered store).parties .responder).inbox =
      {.reconInit ⟨0, lostWindow, noItems⟩} := rfl
  have answered : first.Reaches (idleAnswered store) := by
    refine .move offered _ ⟨?_, fun _ _ => show 0 < 8 by decide⟩
    rw [sent]
    exact Multiset.mem_singleton_self _
  have replied : ((idleAnswered store).parties .initiator).inbox = {.reconMsg ⟨0, noItems⟩} := rfl
  have finished : first.Reaches (idleFinished store) := by
    refine .move answered _ ⟨?_, fun _ _ => show 1 < 8 by decide⟩
    rw [replied]
    exact Multiset.mem_singleton_self _
  have closing : ((idleFinished store).parties .responder).inbox = {.reconDone ⟨0⟩} := rfl
  refine .move finished _ ⟨?_, fun _ _ => show 1 < 8 by decide⟩
  rw [closing]
  exact Multiset.mem_singleton_self _

/-- Past `2 ^ 32 - 1` entries, a session ends and its opener has held an entry of the window that does not
arrive. -/
theorem full_store_misses_entry : ∃ (_ : Sha256) (_ : Ed25519) (config : LinkRole → SyncConfig)
    (store : LinkRole → EntryStore) (net : Network), (∀ role, (config role).frameLimit = none) ∧
      (∀ role, Built (store role)) ∧ (∀ role, (store role).journal = none) ∧
      (Network.start config store).Reaches net ∧ net.CollisionFree ∧
      (∀ role, (net.parties role).inbox = 0) ∧
      ∃ opener sid opening entry, net.openings opener sid = some opening ∧
        opening.offered.get entry.id = some entry ∧ InWindow opening.window entry.sortKey ∧
        (net.parties (otherRole opener)).store.get entry.id = none := by
  obtain ⟨store, built, memory, held, lacks⟩ := lost_window
  have openings : (idleRested store).openings = remember (remember (fun _ _ => none) .initiator 0
      ⟨lostWindow, store, none⟩) .initiator 0 ⟨lostWindow, store, some EntryStore.new⟩ := rfl
  refine ⟨keyDigest, trusting, fun _ => unlimitedConfig, oneSided store, idleRested store,
    fun _ => rfl, ?_, ?_, idleRested_reached lacks, ⟨?_, ?_⟩, ?_, ?_⟩
  · rintro (_ | _)
    · exact built
    · exact .new
  · rintro (_ | _)
    · exact memory
    · rfl
  · have stores : ∀ role, ((idleRested store).parties role).store = oneSided store role := fun role => by
      cases role <;> rfl
    intro role side id entry other here there
    rw [stores] at here there
    cases role with
    | responder => cases (AList.lookup_empty id).symm.trans here
    | initiator =>
      cases side with
      | responder => cases (AList.lookup_empty id).symm.trans there
      | initiator => exact Option.some.inj (here.symm.trans there)
  · intro opener sid opening met ours theirs opened same taken taken'
    rw [openings] at opened
    by_cases here : opener = .initiator ∧ sid = 0
    swap
    · rw [remember_other _ _ here, remember_other _ _ here] at opened
      cases opened
    obtain ⟨rfl, rfl⟩ := here
    rw [remember_self] at opened
    obtain rfl := Option.some.inj opened
    obtain rfl := Option.some.inj same
    obtain rfl : ours = [] := Option.some.inj (taken.symm.trans lacks)
    obtain rfl : theirs = [] := Option.some.inj (taken'.symm.trans rfl)
    intro i j k l _ id
    simp
  · rintro (_ | _)
    · rfl
    · rfl
  · refine ⟨.initiator, 0, _, lostEntry, by rw [openings, remember_self], held, ?_, AList.lookup_empty _⟩
    exact show InWindow lostWindow lostEntry.sortKey from ⟨by decide, by decide⟩

end

end Racnet.Proof.Sessions
