import Racnet.Proof.Storage.Window

/-!
# Stores that do not panic

Up to `2 ^ 32 - 1` entries an insertion and a snapshot succeed or report an error. The end of the process
at a file operation is not a panic, so files that meet none are looked at.
-/

namespace Racnet.Proof.Storage
open Lib Store Wire

/-- The process does not end at one of the coming operations. -/
def NeverStops (file : File) : Prop := ∀ written, Fault.stops written ∉ file.faults

/-- A result that is no panic, with a file that the process can go on with. -/
def SteadyResult {ε α : Type} : EStateM.Result (Trap ε) File α → Prop
  | .ok _ file => NeverStops file
  | .error trap file => trap ≠ .panic ∧ NeverStops file

/-- A computation that does not panic as long as the process does not end. -/
def Steady {ε α : Type} (x : EStateM (Trap ε) File α) : Prop :=
  ∀ file, NeverStops file → SteadyResult (x file)

theorem Steady.bind {ε α β : Type} {x : EStateM (Trap ε) File α}
    {f : α → EStateM (Trap ε) File β} (first : Steady x) (next : ∀ a, Steady (f a)) :
    Steady (x >>= f) := by
  intro file running
  have ran := first file running
  cases outcome : x file with
  | ok a file' =>
    rw [outcome] at ran
    rw [stateful_bind_of_ok outcome]
    exact next a file' ran
  | error trap file' =>
    rw [outcome] at ran
    rw [stateful_bind_of_error outcome]
    exact ran

theorem NeverStops.advance {file : File} (running : NeverStops file) : NeverStops file.advance :=
  fun written mem => running written (List.mem_of_mem_tail mem)

theorem steady_operate {α : Type} {interrupted : Nat → File → File} {value : File → α}
    {change : File → File} (cut : ∀ written file, (interrupted written file).faults = file.faults)
    (kept : ∀ file, (change file).faults = file.faults) :
    Steady (viaIo (File.operate interrupted fun file => .ok (value file) (change file))) := by
  intro file running
  have next := running.advance
  simp only [viaIo, File.operate]
  rcases met : file.faults.head? with _ | fault
  · exact fun written mem => next written (by rwa [kept] at mem)
  · cases fault with
    | none => exact fun written mem => next written (by rwa [kept] at mem)
    | fails written reason =>
      exact ⟨by simp, fun other mem => next other (by rwa [cut] at mem)⟩
    | stops written => exact absurd (List.mem_of_head? met) (running written)

theorem steady_touch : Steady (viaIo File.touch) := steady_operate (fun _ _ => rfl) fun _ => rfl

theorem steady_seek (pos : Nat) : Steady (viaIo (File.seek pos)) :=
  steady_operate (fun _ _ => rfl) fun _ => rfl

theorem steady_setLen (len : Nat) : Steady (viaIo (File.setLen len)) :=
  steady_operate (fun _ _ => rfl) fun _ => rfl

theorem steady_writeAll (data : List UInt8) : Steady (viaIo (File.writeAll data)) :=
  steady_operate (fun _ _ => rfl) fun _ => rfl

theorem steady_writeRecord (len : Nat) (bytes : List UInt8) :
    Steady (Journal.writeRecord len bytes) := by
  refine (steady_setLen len).bind fun _ => (steady_seek len).bind fun _ => ?_
  exact (steady_writeAll _).bind fun _ => (steady_writeAll _).bind fun _ => steady_touch

/-- The process does not end while the store is used. -/
def Running (store : EntryStore) : Prop := ∀ journal ∈ store.journal, NeverStops journal.file

variable {store : EntryStore} {entry : Entry}

theorem commit_running (running : Running store) (entry : Entry) :
    (store.commit entry).1 ≠ .error .panic ∧ Running (store.commit entry).2 := by
  rw [EntryStore.commit]
  cases held : store.journal with
  | none => exact ⟨by simp, running⟩
  | some journal =>
    dsimp only
    split_ifs
    · exact ⟨by simp [Exec.fail], running⟩
    · have steady := steady_writeRecord journal.len entry.toBytes journal.file
        (running journal held)
      rw [Journal.append]
      split_ifs
      · refine ⟨by simp [Exec.fail], fun journal' found => ?_⟩
        rw [← Option.some.inj found]
        exact running journal held
      · cases ran : Journal.writeRecord journal.len entry.toBytes journal.file with
        | ok a file =>
          rw [ran] at steady
          refine ⟨by simp, fun journal' found => ?_⟩
          rw [← Option.some.inj found]
          exact steady
        | error trap file =>
          rw [ran] at steady
          refine ⟨fun same => steady.1 (Except.error.inj same), fun journal' found => ?_⟩
          rw [← Option.some.inj found]
          exact steady.2

/-! ## Errors -/

/-- A computation that reports nothing but storage errors. -/
def StorageOnly {α : Type} (x : EStateM (Trap StoreError) File α) : Prop :=
  ∀ file error file', x file = .error (.err error) file' → ∃ reason, error = .storage reason

theorem StorageOnly.bind {α β : Type} {x : EStateM (Trap StoreError) File α}
    {f : α → EStateM (Trap StoreError) File β} (first : StorageOnly x)
    (next : ∀ a, StorageOnly (f a)) : StorageOnly (x >>= f) := by
  intro file error file' failed
  cases outcome : x file with
  | ok a file₁ =>
    rw [stateful_bind_of_ok outcome] at failed
    exact next a file₁ error file' failed
  | error trap file₁ =>
    rw [stateful_bind_of_error outcome] at failed
    obtain ⟨rfl, rfl⟩ := EStateM.Result.error.inj failed
    exact first file error file₁ outcome

theorem storageOnly_viaIo {α : Type} (action : File.Action α) : StorageOnly (viaIo action) := by
  intro file error file' failed
  rw [viaIo] at failed
  split at failed
  · cases failed
  · obtain ⟨same, -⟩ := EStateM.Result.error.inj failed
    exact ⟨_, (Trap.err.inj same).symm⟩
  · cases failed

theorem storageOnly_writeRecord (len : Nat) (bytes : List UInt8) :
    StorageOnly (Journal.writeRecord len bytes) := by
  refine (storageOnly_viaIo _).bind fun _ => (storageOnly_viaIo _).bind fun _ => ?_
  refine (storageOnly_viaIo _).bind fun _ => (storageOnly_viaIo _).bind fun _ => ?_
  exact storageOnly_viaIo _

/-- The errors that say nothing about the entry itself. -/
def OfStorage : StoreError → Prop
  | .storage _ | .capacity => True
  | .badSignature | .sortKeyReserved => False

theorem commit_reports (store : EntryStore) (entry : Entry) :
    Exec.Reports OfStorage (store.commit entry).1 := by
  rw [EntryStore.commit]
  cases store.journal with
  | none => exact Exec.reports_ok _
  | some journal =>
    dsimp only
    split_ifs
    · exact Exec.reports_fail.mpr trivial
    · rw [Journal.append]
      split_ifs
      · exact Exec.reports_fail.mpr trivial
      · cases ran : Journal.writeRecord journal.len entry.toBytes journal.file with
        | ok a file => exact Exec.reports_ok _
        | error trap file =>
          intro error same
          obtain rfl := Except.error.inj same
          obtain ⟨reason, rfl⟩ := storageOnly_writeRecord _ _ _ _ _ ran
          trivial

variable [Sha256] [Ed25519]

theorem insert_reports (store : EntryStore) (finite : entry.sortKey ≠ reservedKey)
    (verified : entry.verify = .ok ()) : Exec.Reports OfStorage (store.insert entry).1 := by
  rw [EntryStore.insert, if_neg (show ¬ entry.sortKey = UInt64.ofNat (2 ^ 64 - 1) from finite),
    verified]
  dsimp only
  split_ifs
  · exact Exec.reports_ok _
  · have committed := commit_reports store entry
    rcases outcome : store.commit entry with ⟨trap | _, after⟩
    · rw [outcome] at committed
      intro error same
      exact committed error (by rw [Except.error.inj same])
    · dsimp only
      cases after.order.insert ⟨entry.sortKey, entry.id⟩ with
      | none => rintro error ⟨⟩
      | some result => exact Exec.reports_ok _

/-! ## Stores with room -/

/-- A store a program can get, with room for `count` more entries, while the process runs. -/
structure Ready (store : EntryStore) (count : Nat) : Prop where
  built : Built store
  running : Running store
  room : store.len + count ≤ nilIndex

theorem insert_indexed (built : Built store) (room : store.len ≤ nilIndex) (entry : Entry) :
    ∃ result, store.order.insert (itemOf entry) = some result := by
  obtain ⟨t, ordered⟩ := built.filled.ordered room
  by_cases held : itemOf entry ∈ t.toList
  · exact ⟨_, ordered.keeps.insert_old held⟩
  · obtain ⟨order, _, _, _, ran, -⟩ :=
      ordered.keeps.insert_new (by rw [ordered.size]; exact room) held
    exact ⟨_, ran⟩

theorem len_insert_le (store : EntryStore) (entry : Entry) :
    (store.insert entry).2.len ≤ store.len + 1 := by
  have step := insert_step store entry
  generalize (store.insert entry).1 = result at step
  generalize (store.insert entry).2 = after at step
  cases step with
  | refused trap journal => exact Nat.le_succ _
  | duplicate held => exact Nat.le_succ _
  | added finite verified absent journal order isNew indexed => rw [len_insert absent]

theorem insert_running (built : Built store) (running : Running store)
    (room : store.len ≤ nilIndex) (entry : Entry) :
    (store.insert entry).1 ≠ .error .panic ∧ Running (store.insert entry).2 := by
  rw [EntryStore.insert]
  by_cases reserved : entry.sortKey = UInt64.ofNat (2 ^ 64 - 1)
  · rw [if_pos reserved]
    exact ⟨by simp [Exec.fail], running⟩
  rw [if_neg reserved]
  cases entry.verify with
  | error _ => exact ⟨by simp [Exec.fail], running⟩
  | ok _ =>
    dsimp only
    by_cases held : store.contains entry.id = true
    · rw [if_pos held]
      exact ⟨by simp, running⟩
    rw [if_neg held]
    have committed := commit_running running entry
    obtain ⟨journal, unchanged⟩ := commit_entries store entry
    obtain ⟨⟨order, isNew⟩, indexed⟩ := insert_indexed built room entry
    rcases outcome : store.commit entry with ⟨_ | _, store'⟩
    · rw [outcome] at committed
      exact ⟨fun same => committed.1 (by rw [Except.error.inj same]), committed.2⟩
    · rw [outcome] at committed unchanged
      obtain rfl : store' = { store with journal } := unchanged
      rw [itemOf] at indexed
      simp only [indexed]
      exact ⟨by simp, committed.2⟩

theorem Ready.insert {count : Nat} (ready : Ready store (count + 1)) (entry : Entry) :
    (store.insert entry).1 ≠ .error .panic ∧ Ready (store.insert entry).2 count := by
  have room := ready.room
  obtain ⟨safe, running⟩ := insert_running ready.built ready.running (by omega) entry
  have grown := len_insert_le store entry
  exact ⟨safe, ready.built.insert entry, running, by omega⟩

theorem Filled.snapshot (filled : Filled store) (room : store.len ≤ nilIndex) (window : SortKeyWindow) :
    ∃ items, store.snapshot window = some items ∧ items.length < 2 ^ 64 := by
  obtain ⟨t, ordered⟩ := filled.ordered room
  refine ⟨_, snapshot_eq ordered.keeps window, ?_⟩
  have small := ordered.keeps.length_lt
  have le := List.length_filter_le
    (fun x => decide (windowStart window ≤ x ∧ x < windowEnd window)) t.toList
  rw [between]
  omega

theorem Ready.snapshot {count : Nat} (ready : Ready store count) (window : SortKeyWindow) :
    ∃ items, store.snapshot window = some items ∧ items.length < 2 ^ 64 :=
  ready.built.filled.snapshot (le_trans (Nat.le_add_right _ _) ready.room) window

end Racnet.Proof.Storage
