import Racnet.Proof.Format.Framing
import Racnet.Proof.Storage.Histories

/-!
# Stores that grow by messages and calls

Every entry that comes into a store in one of the ways of a node fits in a frame, also when the store
comes from a file that such a store has left.
-/

namespace Racnet.Proof.Storage
open Lib Store Wire
open Proof.Format (Framable framable_of_encodeFrame framable_of_decodeMessage)

/-- An entry that a node has framed, or one of a push that it has decoded. -/
inductive Admissible (entry : Entry) : Prop where
  | created {frame : List UInt8} (framed : encodeFrame (.gossipPush ⟨[entry], 0⟩) = .ok frame) :
      Admissible entry
  | received {body : List UInt8} {push : GossipPush}
      (decoded : decodeMessage body = .ok (.gossipPush push)) (mem : entry ∈ push.entries) :
      Admissible entry

theorem Admissible.framable {entry : Entry} (admissible : Admissible entry) : Framable entry := by
  cases admissible with
  | created framed => exact framable_of_encodeFrame framed
  | received decoded mem => exact framable_of_decodeMessage decoded entry mem

/-- The later store holds everything that the earlier one held. -/
structure Retains (before after : EntryStore) : Prop where
  get : ∀ id entry, before.get id = some entry → after.get id = some entry
  len : before.len ≤ after.len

theorem Retains.refl (store : EntryStore) : Retains store store := ⟨fun _ _ held => held, le_rfl⟩

theorem Retains.trans {first second third : EntryStore} (early : Retains first second)
    (late : Retains second third) : Retains first third :=
  ⟨fun id entry held => late.get id entry (early.get id entry held), early.len.trans late.len⟩

section
variable [Sha256] [Ed25519]

/-- The stores and the files that begin empty and grow by such entries only. Every file operation may
meet a fault, and the process may end at any time. -/
inductive Grown : Program → Prop where
  | memory : Grown (.running EntryStore.new)
  | file : Grown (.stopped [])
  | opened {bytes : List UInt8} {hasParent : Bool} {faults : List Fault} {store : EntryStore}
      {file : File} (grown : Grown (.stopped bytes))
      (ran : Journal.openFile hasParent ⟨bytes, 0, faults⟩ = .ok store file) : Grown (.running store)
  | notOpened {bytes : List UInt8} {hasParent : Bool} {faults : List Fault} {trap : Trap StoreError}
      {file : File} (grown : Grown (.stopped bytes))
      (ran : Journal.openFile hasParent ⟨bytes, 0, faults⟩ = .error trap file) :
      Grown (.stopped file.bytes)
  | inserted {store : EntryStore} {entry : Entry} (grown : Grown (.running store))
      (admissible : Admissible entry) : Grown (.running (store.insert entry).2)
  | stopped {store : EntryStore} (grown : Grown (.running store)) : Grown (.stopped (fileBytes store))

/-- All entries of the program fit in a frame, those in its memory and those in its file. -/
inductive Framed : Program → Prop where
  | memory {store : EntryStore} (volatile : store.journal = none)
      (framable : ∀ id entry, store.get id = some entry → Framable entry) : Framed (.running store)
  | saved {program : Program} {accepted failed : List Entry} (saved : Saved program accepted failed)
      (framable : ∀ entry, entry ∈ accepted ∨ entry ∈ failed → Framable entry) : Framed program

theorem Framed.get {store : EntryStore} (framed : Framed (.running store)) {id : EntryId} {entry : Entry}
    (held : store.get id = some entry) : Framable entry := by
  cases framed with
  | memory volatile framable => exact framable id entry held
  | saved saved framable =>
    cases saved with
    | store contents whole =>
      have found := (contents.loads.get_eq_some_iff contents.apart id entry).mp held
      exact framable entry (Or.inl ((contents.same entry).mpr found.1))

theorem held_of_insert {store : EntryStore} {entry other : Entry} {id : EntryId}
    (held : (store.insert entry).2.get id = some other) : store.get id = some other ∨ other = entry := by
  have step := insert_step store entry
  generalize (store.insert entry).1 = result at step
  generalize (store.insert entry).2 = after at step held
  cases step with
  | refused trap journal => exact Or.inl held
  | duplicate contained => exact Or.inl held
  | added finite verified absent journal order isNew indexed =>
    by_cases same : id = entry.id
    · rw [same, get_insert_self] at held
      exact Or.inr (Option.some.inj held).symm
    · rw [get_insert_ne same] at held
      exact Or.inl held

theorem insert_volatile {store : EntryStore} (volatile : store.journal = none) (entry : Entry) :
    (store.insert entry).2.journal = none ∧
      ∀ id other, (store.insert entry).2.get id = some other → store.get id = some other ∨ other = entry := by
  refine ⟨?_, fun id other held => held_of_insert held⟩
  have commits : store.commit entry = (.ok (), store) := by rw [EntryStore.commit, volatile]
  have step := commit_step store entry
  generalize store.insert entry = outcome at step
  cases step with
  | refused | duplicate => exact volatile
  | failed fresh committed => cases committed.symm.trans commits
  | panicked committed overflow =>
    obtain ⟨-, rfl⟩ := Prod.mk.inj (committed.symm.trans commits)
    exact volatile
  | added fresh committed indexed =>
    obtain ⟨-, rfl⟩ := Prod.mk.inj (committed.symm.trans commits)
    exact volatile

variable {accepted failed : List Entry}

theorem Saved.held {bytes : List UInt8} (saved : Saved (.stopped bytes) accepted failed)
    {hasParent : Bool} {faults : List Fault} {store : EntryStore} {left : File}
    (ran : Journal.openFile hasParent ⟨bytes, 0, faults⟩ = .ok store left) :
    ∃ held : List Entry, (∀ id entry, store.get id = some entry ↔ entry ∈ held ∧ entry.id = id) ∧
      ∀ entry ∈ held, entry ∈ accepted ∨ entry ∈ failed := by
  cases saved with
  | @header n failed short =>
    have length : (magic.take n).length = n := List.length_take_of_le short.le
    obtain ⟨-, rfl⟩ := (openFile_begun hasParent (by rw [length]; exact short)
      (by rw [length])).1 store left ran
    exact ⟨[], (Loads.nil EntryStore.new).get_eq_some_iff (by simp), by simp⟩
  | @file _ _ entries memory tail contents =>
    rcases contents.tail with torn | ⟨entry, loose, rfl⟩
    · obtain ⟨-, rfl⟩ := (contents.openFile torn hasParent faults).1 store left ran
      exact ⟨entries, contents.loads.get_eq_some_iff contents.apart,
        fun entry mem => Or.inl ((contents.same entry).mpr mem)⟩
    · obtain ⟨next, contents'⟩ := contents.loose loose rfl
      rw [← recordsOf_concat, ← List.append_nil (recordsOf _)] at ran
      obtain ⟨-, rfl⟩ := (contents'.openFile torn_nil hasParent faults).1 store left ran
      refine ⟨entries ++ [entry], contents'.loads.get_eq_some_iff contents'.apart, fun other mem => ?_⟩
      rcases List.mem_append.mp mem with old | new
      · exact Or.inl ((contents.same other).mpr old)
      · exact Or.inr (List.mem_singleton.mp new ▸ loose.mem)

theorem Framed.insert {store : EntryStore} {entry : Entry} (framed : Framed (.running store))
    (framable : Framable entry) : Framed (.running (store.insert entry).2) := by
  cases framed with
  | memory volatile framable' =>
    obtain ⟨volatile', old⟩ := insert_volatile volatile entry
    refine .memory volatile' fun id other held => ?_
    rcases old id other held with before | rfl
    · exact framable' id other before
    · exact framable
  | @saved _ accepted failed saved framable' =>
    have inserted := saved.insert entry
    generalize (store.insert entry).1 = result at inserted
    cases inserted with
    | accepted saved' =>
      refine .saved saved' fun other mem => ?_
      rcases mem with mem | mem
      · rcases List.mem_cons.mp mem with rfl | old
        · exact framable
        · exact framable' other (Or.inl old)
      · exact absurd mem List.not_mem_nil
    | unchanged not saved' => exact .saved saved' framable'
    | failed saved' =>
      refine .saved saved' fun other mem => ?_
      rcases mem with mem | mem
      · exact framable' other (Or.inl mem)
      · rcases List.mem_cons.mp mem with rfl | old
        · exact framable
        · exact framable' other (Or.inr old)

theorem framed_new : Framed (.stopped []) := by
  have saved : Saved (.stopped []) [] [] := .header (n := 0) (by decide)
  exact .saved saved (by simp)

theorem Framed.stop {store : EntryStore} (framed : Framed (.running store)) :
    Framed (.stopped (fileBytes store)) := by
  cases framed with
  | memory volatile framable =>
    have none : fileBytes store = [] := by rw [fileBytes, volatile]; rfl
    rw [none]
    exact framed_new
  | saved saved framable => exact .saved saved.stop framable

theorem framed_of_stopped {bytes : List UInt8} (framed : Framed (.stopped bytes)) :
    ∃ accepted failed, Saved (.stopped bytes) accepted failed ∧
      ∀ entry, entry ∈ accepted ∨ entry ∈ failed → Framable entry := by
  cases framed with
  | saved saved framable => exact ⟨_, _, saved, framable⟩

theorem Grown.framed {program : Program} (grown : Grown program) : Framed program := by
  induction grown with
  | memory =>
    refine .memory rfl fun id entry held => ?_
    have empty : EntryStore.new.get id = none := AList.lookup_empty id
    cases empty.symm.trans held
  | file => exact framed_new
  | opened grown ran ih =>
    obtain ⟨accepted, failed, saved, framable⟩ := framed_of_stopped ih
    obtain ⟨held, holds, known⟩ := saved.held ran
    refine .saved (saved.opened ran holds) fun entry mem => ?_
    rcases mem with mem | mem
    · exact framable entry (known entry mem)
    · exact absurd mem List.not_mem_nil
  | notOpened grown ran ih =>
    obtain ⟨accepted, failed, saved, framable⟩ := framed_of_stopped ih
    exact .saved (saved.notOpened ran) framable
  | inserted grown admissible ih => exact ih.insert admissible.framable
  | stopped grown ih => exact ih.stop

/-! ## What a store keeps -/

theorem insert_retains (store : EntryStore) (entry : Entry) : Retains store (store.insert entry).2 := by
  have step := insert_step store entry
  refine ⟨fun id other held => ?_, len_le_step step⟩
  generalize (store.insert entry).1 = result at step
  generalize (store.insert entry).2 = after at step
  cases step with
  | refused trap journal => exact held
  | duplicate contained => exact held
  | added finite verified absent journal order isNew indexed =>
    have ne : id ≠ entry.id := by
      rintro rfl
      rw [get_none_of_not_contains absent] at held
      cases held
    rw [get_insert_ne ne]
    exact held

theorem insert_stores {store : EntryStore} {entry : Entry} (built : Built store)
    (memory : store.journal = none) (room : store.len ≤ nilIndex) (finite : entry.sortKey ≠ reservedKey)
    (verified : entry.verify = .ok ()) :
    (∃ isNew, (store.insert entry).1 = .ok isNew) ∧
      ∃ held, (store.insert entry).2.get entry.id = some held := by
  cases contained : store.contains entry.id with
  | true =>
    have found : (store.get entry.id).isSome :=
      AList.lookup_isSome.mpr (by simpa [EntryStore.contains] using contained)
    rw [EntryStore.insert, if_neg (show ¬ entry.sortKey = UInt64.ofNat (2 ^ 64 - 1) from finite),
      verified]
    dsimp only
    rw [if_pos contained]
    exact ⟨⟨false, rfl⟩, Option.isSome_iff_exists.mp found⟩
  | false =>
    obtain ⟨t, ordered⟩ := built.filled.ordered room
    obtain ⟨order, isNew, -, inserted⟩ := insert_memory memory ordered.keeps
      (by rw [ordered.size]; exact room) finite verified contained
    rw [inserted]
    exact ⟨⟨true, rfl⟩, entry, get_insert_self _ _ _ _ _⟩

end

end Racnet.Proof.Storage
