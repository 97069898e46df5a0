import Mathlib.Logic.Relation
import Racnet.Proof.Storage.Durability

/-!
# Histories of a durable store

Through failed writes, ends of the process and reopenings, the file holds the committed records and at
most one that was written and not confirmed.
-/

namespace Racnet.Proof.Storage
open Lib Store Wire

/-- The bytes in the file of a durable store. -/
def fileBytes (store : EntryStore) : List UInt8 := (store.journal.map (·.file.bytes)).getD []

/-- A program that keeps its entries in one file. -/
inductive Program where
  | stopped (bytes : List UInt8)
  | running (store : EntryStore)

section
variable [Sha256] [Ed25519]

omit [Ed25519] in
def HoldsAll (store : EntryStore) (held : List Entry) : Prop :=
  ∀ id entry, store.get id = some entry ↔ entry ∈ held ∧ entry.id = id

/-- The histories that begin with a new file, in which every file operation may meet a fault. With them go
the entries that the store was opened with or that `insert` has accepted since, and the entries whose
`insert` has failed since then. -/
inductive History : Program → List Entry → List Entry → Prop where
  | new : History (.stopped []) [] []
  | opened {bytes : List UInt8} {accepted failed entries : List Entry} {hasParent : Bool}
      {faults : List Fault} {store : EntryStore} {file : File}
      (history : History (.stopped bytes) accepted failed)
      (ran : Journal.openFile hasParent ⟨bytes, 0, faults⟩ = .ok store file)
      (holds : HoldsAll store entries) : History (.running store) entries []
  | notOpened {bytes : List UInt8} {accepted failed : List Entry} {hasParent : Bool}
      {faults : List Fault} {trap : Trap StoreError} {file : File}
      (history : History (.stopped bytes) accepted failed)
      (ran : Journal.openFile hasParent ⟨bytes, 0, faults⟩ = .error trap file) :
      History (.stopped file.bytes) accepted failed
  | accepted {store after : EntryStore} {accepted failed : List Entry} {entry : Entry}
      (history : History (.running store) accepted failed)
      (ran : store.insert entry = (.ok true, after)) : History (.running after) (entry :: accepted) []
  | duplicate {store after : EntryStore} {accepted failed : List Entry} {entry : Entry}
      (history : History (.running store) accepted failed)
      (ran : store.insert entry = (.ok false, after)) : History (.running after) accepted failed
  | failed {store after : EntryStore} {accepted failed : List Entry} {entry : Entry}
      {error : StoreError} (history : History (.running store) accepted failed)
      (ran : store.insert entry = (.fail error, after)) :
      History (.running after) accepted (entry :: failed)
  | interrupted {store after : EntryStore} {accepted failed : List Entry} {entry : Entry}
      (history : History (.running store) accepted failed)
      (ran : store.insert entry = (.error .panic, after)) :
      History (.stopped (fileBytes after)) accepted (entry :: failed)
  | stopped {store : EntryStore} {accepted failed : List Entry}
      (history : History (.running store) accepted failed) :
      History (.stopped (fileBytes store)) accepted failed

/-! ## One insertion -/

variable {accepted failed entries : List Entry} {memory : EntryStore} {tail : List UInt8}
variable {entry : Entry} {file : File}

def withFile (memory : EntryStore) (file : File) (len : Nat) : EntryStore :=
  { memory with journal := some ⟨file, len⟩ }

/-- All that `insert` can do to a durable store and its file. -/
inductive DurableStep (memory : EntryStore) (front tail : List UInt8) (file : File) (entry : Entry) :
    Exec StoreError Bool × EntryStore → Prop where
  | untouched {result : Exec StoreError Bool} (not : result ≠ .ok true) :
      DurableStep memory front tail file entry (result, withFile memory file front.length)
  | cut {trap : Trap StoreError} {left : File} (fresh : Fresh memory entry)
      (room : memory.len < maxEntries) (size : entry.toBytes.length ≤ maxRecord)
      (small : (front ++ Journal.record entry.toBytes).length ≤ maxBytes)
      (interrupted : Interrupted front tail entry.toBytes left) :
      DurableStep memory front tail file entry (.error trap, withFile memory left front.length)
  | added {next : EntryStore} {left : File} (fresh : Fresh memory entry)
      (room : memory.len < maxEntries) (size : entry.toBytes.length ≤ maxRecord)
      (small : (front ++ Journal.record entry.toBytes).length ≤ maxBytes)
      (inserted : memory.insert entry = (.ok true, next))
      (written : left.bytes = front ++ Journal.record entry.toBytes) :
      DurableStep memory front tail file entry
        (.ok true, withFile next left (front ++ Journal.record entry.toBytes).length)

omit [Sha256] [Ed25519] in
theorem commit_withFile {len : Nat} {result : Exec StoreError Unit} {left : EntryStore}
    (committed : (withFile memory file len).commit entry = (result, left)) :
    (∃ trap, result = .error trap) ∧ left = withFile memory file len ∨
      memory.len < maxEntries ∧ ∃ after, Journal.append ⟨file, len⟩ entry = (result, after) ∧
        left = withFile memory after.file after.len := by
  have attached : (withFile memory file len).journal = some ⟨file, len⟩ := rfl
  rw [EntryStore.commit, attached] at committed
  dsimp only at committed
  by_cases full : (withFile memory file len).len ≥ maxEntries
  · rw [if_pos full] at committed
    cases committed
    exact Or.inl ⟨⟨_, rfl⟩, rfl⟩
  · rw [if_neg full] at committed
    cases committed
    exact Or.inr ⟨Nat.not_le.mp full, _, rfl, rfl⟩

theorem Loading.indexed (loading : Loading memory) (entry : Entry) :
    ∃ result, memory.order.insert (itemOf entry) = some result :=
  insert_indexed loading.built (loading.few.trans (by decide)) entry

theorem Loading.insert_fresh (loading : Loading memory) (fresh : Fresh memory entry)
    {order : OrderIndex} {isNew : Bool}
    (indexed : memory.order.insert (itemOf entry) = some (order, isNew)) :
    memory.insert entry = (.ok true,
      { memory with order, entries := memory.entries.insert entry.id entry }) := by
  have committed : memory.commit entry = (.ok (), memory) := by
    rw [EntryStore.commit, loading.memory]
  rw [itemOf] at indexed
  rw [EntryStore.insert, if_neg (show ¬ entry.sortKey = UInt64.ofNat (2 ^ 64 - 1) from fresh.finite),
    fresh.verified, if_neg (by simp [fresh.absent]), committed]
  simp only [indexed]

theorem durable_step (loading : Loading memory) {front : List UInt8}
    (whole : file.bytes = front ++ tail) (entry : Entry) :
    DurableStep memory front tail file entry ((withFile memory file front.length).insert entry) := by
  have step := commit_step (withFile memory file front.length) entry
  generalize (withFile memory file front.length).insert entry = outcome at step
  cases step with
  | refused error => exact .untouched (by simp [Exec.fail])
  | duplicate held => exact .untouched (by simp)
  | @failed trap left fresh committed =>
    have fresh' : Fresh memory entry := ⟨fresh.finite, fresh.verified, fresh.absent⟩
    rcases commit_withFile committed with ⟨-, rfl⟩ | ⟨room, after, appended, rfl⟩
    · exact .untouched (by simp)
    · rcases append_faulty whole rfl appended with
        ⟨-, rfl⟩ | ⟨size, small, ⟨-, len, interrupted⟩ | ⟨impossible, -⟩⟩
      · exact .untouched (by simp)
      · rw [len]
        exact .cut fresh' room size small interrupted
      · cases impossible
  | @panicked left committed overflow =>
    obtain ⟨result, indexed⟩ := loading.indexed entry
    have same : left.order = memory.order := by
      rcases commit_withFile committed with ⟨-, rfl⟩ | ⟨-, after, -, rfl⟩ <;> rfl
    rw [same, indexed] at overflow
    cases overflow
  | @added left order isNew fresh committed indexed =>
    have fresh' : Fresh memory entry := ⟨fresh.finite, fresh.verified, fresh.absent⟩
    rcases commit_withFile committed with ⟨⟨trap, impossible⟩, -⟩ | ⟨room, after, appended, rfl⟩
    · cases impossible
    · rcases append_faulty whole rfl appended with
        ⟨⟨trap, impossible⟩, -⟩ | ⟨size, small, ⟨⟨trap, impossible⟩, -⟩ | ⟨-, len, written⟩⟩
      · cases impossible
      · cases impossible
      · rw [len]
        exact .added fresh' room size small (loading.insert_fresh fresh' indexed) written

/-! ## What the file holds -/

/-- A failed entry whose record is complete in the file. -/
structure Loose (memory : EntryStore) (failed : List Entry) (entry : Entry) : Prop where
  mem : entry ∈ failed
  fresh : Fresh memory entry
  room : memory.len < maxEntries
  size : entry.toBytes.length ≤ maxRecord

/-- The records of the accepted entries, and after them a torn tail or the record of a failed one. -/
structure Contents (accepted failed entries : List Entry) (memory : EntryStore) (tail : List UInt8) :
    Prop where
  loads : Loads .new entries memory
  apart : ∀ a ∈ entries, ∀ b ∈ entries, a.id = b.id → a = b
  same : ∀ entry, entry ∈ accepted ↔ entry ∈ entries
  small : (magic ++ (recordsOf entries ++ tail)).length ≤ maxBytes
  tail : Torn tail ∨ ∃ entry, Loose memory failed entry ∧ tail = Journal.record entry.toBytes

/-- The file of a program: a header that is not complete, or contents. -/
inductive Saved : Program → List Entry → List Entry → Prop where
  | header {n : Nat} {failed : List Entry} (short : n < magic.length) :
      Saved (.stopped (magic.take n)) [] failed
  | file {accepted failed entries : List Entry} {memory : EntryStore} {tail : List UInt8}
      (contents : Contents accepted failed entries memory tail) :
      Saved (.stopped (magic ++ (recordsOf entries ++ tail))) accepted failed
  | store {accepted failed entries : List Entry} {memory : EntryStore} {tail : List UInt8} {file : File}
      (contents : Contents accepted failed entries memory tail)
      (whole : file.bytes = magic ++ (recordsOf entries ++ tail)) :
      Saved (.running (withFile memory file (magic ++ recordsOf entries).length)) accepted failed

omit [Sha256] [Ed25519] in
theorem torn_nil : Torn [] := Or.inl (by simp)

theorem contents_new (failed : List Entry) : Contents [] failed [] .new [] where
  loads := .nil _
  apart := by simp
  same := by simp
  small := by decide
  tail := Or.inl torn_nil

theorem Loads.append {first second : List Entry} {start middle after : EntryStore}
    (loads : Loads start first middle) (more : Loads middle second after) :
    Loads start (first ++ second) after := by
  induction loads with
  | nil store => exact more
  | cons size room inserted loads ih => exact .cons size room inserted (ih more)

omit [Sha256] [Ed25519] in
theorem recordsOf_concat (entries : List Entry) (entry : Entry) :
    recordsOf (entries ++ [entry]) = recordsOf entries ++ Journal.record entry.toBytes := by
  simp [recordsOf]

theorem Contents.concat (contents : Contents accepted failed entries memory tail) {next : EntryStore}
    (failed' : List Entry) (fresh : Fresh memory entry) (room : memory.len < maxEntries)
    (size : entry.toBytes.length ≤ maxRecord)
    (small : (magic ++ recordsOf entries ++ Journal.record entry.toBytes).length ≤ maxBytes)
    (inserted : memory.insert entry = (.ok true, next)) :
    Contents (entry :: accepted) failed' (entries ++ [entry]) next [] := by
  have other : ∀ a ∈ entries, a.id ≠ entry.id := by
    intro a mem same
    have held := (contents.loads.get_eq_some_iff contents.apart a.id a).mpr ⟨mem, rfl⟩
    rw [same, get_none_of_not_contains fresh.absent] at held
    cases held
  refine ⟨contents.loads.append (.cons size room inserted (.nil _)), ?_, ?_, ?_, Or.inl torn_nil⟩
  · intro a memA b memB same
    rcases List.mem_append.mp memA with memA | memA <;> rcases List.mem_append.mp memB with memB | memB
    · exact contents.apart a memA b memB same
    · exact absurd (same.trans (by rw [List.mem_singleton.mp memB])) (other a memA)
    · exact absurd (same.symm.trans (by rw [List.mem_singleton.mp memA])) (other b memB)
    · rw [List.mem_singleton.mp memA, List.mem_singleton.mp memB]
  · intro a
    rw [List.mem_cons, contents.same, List.mem_append, List.mem_singleton, or_comm]
  · rw [recordsOf_concat, List.append_nil, ← List.append_assoc]
    exact small

theorem Contents.mono (contents : Contents accepted failed entries memory tail) {failed' : List Entry}
    (more : ∀ entry ∈ failed, entry ∈ failed') : Contents accepted failed' entries memory tail where
  loads := contents.loads
  apart := contents.apart
  same := contents.same
  small := contents.small
  tail := contents.tail.imp_right fun ⟨entry, loose, same⟩ =>
    ⟨entry, ⟨more entry loose.mem, loose.fresh, loose.room, loose.size⟩, same⟩

theorem Contents.interrupted (contents : Contents accepted failed entries memory tail)
    (fresh : Fresh memory entry) (room : memory.len < maxEntries)
    (size : entry.toBytes.length ≤ maxRecord)
    (small : (magic ++ recordsOf entries ++ Journal.record entry.toBytes).length ≤ maxBytes) {left : File}
    (interrupted : Interrupted (magic ++ recordsOf entries) tail entry.toBytes left) :
    ∃ tail', Contents accepted (entry :: failed) entries memory tail' ∧
      left.bytes = magic ++ (recordsOf entries ++ tail') := by
  rcases interrupted with kept | ⟨n, cut⟩
  · exact ⟨tail, contents.mono fun _ mem => List.mem_cons_of_mem _ mem, by rw [kept, List.append_assoc]⟩
  · refine ⟨(Journal.record entry.toBytes).take n,
      ⟨contents.loads, contents.apart, contents.same, ?_, ?_⟩, by rw [cut, List.append_assoc]⟩
    · simp only [List.length_append, List.length_take] at small ⊢
      omega
    · by_cases whole : (Journal.record entry.toBytes).length ≤ n
      · exact Or.inr ⟨entry, ⟨List.mem_cons_self, fresh, room, size⟩, List.take_of_length_le whole⟩
      · exact Or.inl (torn_take_record size (Nat.not_le.mp whole))

inductive Inserted (entry : Entry) (accepted failed : List Entry) :
    Exec StoreError Bool → EntryStore → Prop where
  | accepted {after : EntryStore} (saved : Saved (.running after) (entry :: accepted) []) :
      Inserted entry accepted failed (.ok true) after
  | unchanged {after : EntryStore} {result : Exec StoreError Bool} (not : result ≠ .ok true)
      (saved : Saved (.running after) accepted failed) : Inserted entry accepted failed result after
  | failed {after : EntryStore} {trap : Trap StoreError}
      (saved : Saved (.running after) accepted (entry :: failed)) :
      Inserted entry accepted failed (.error trap) after

theorem Saved.insert {store : EntryStore} (saved : Saved (.running store) accepted failed)
    (entry : Entry) : Inserted entry accepted failed (store.insert entry).1 (store.insert entry).2 := by
  cases saved with
  | @store _ _ entries memory tail file contents whole =>
    have loading := contents.loads.loading loading_new
    have step := durable_step loading (whole.trans (List.append_assoc _ _ _).symm) entry
    generalize (withFile memory file (magic ++ recordsOf entries).length).insert entry = outcome at step
    cases step with
    | untouched not => exact .unchanged not (.store contents whole)
    | cut fresh room size small interrupted =>
      obtain ⟨tail', contents', left⟩ := contents.interrupted fresh room size small interrupted
      exact .failed (.store contents' left)
    | added fresh room size small inserted written =>
      have contents' := contents.concat [] fresh room size small inserted
      have saved' := Saved.store contents'
        (written.trans (by rw [recordsOf_concat, List.append_nil, List.append_assoc]))
      rw [recordsOf_concat, ← List.append_assoc] at saved'
      exact .accepted saved'

theorem Saved.mono {program : Program} (saved : Saved program accepted failed) {failed' : List Entry}
    (more : ∀ entry ∈ failed, entry ∈ failed') : Saved program accepted failed' := by
  cases saved with
  | header short => exact .header short
  | file contents => exact .file (contents.mono more)
  | store contents whole => exact .store (contents.mono more) whole

theorem Saved.stop {store : EntryStore} (saved : Saved (.running store) accepted failed) :
    Saved (.stopped (fileBytes store)) accepted failed := by
  cases saved with
  | @store _ _ entries memory tail file contents whole =>
    have bytes : fileBytes (withFile memory file (magic ++ recordsOf entries).length) = file.bytes := rfl
    rw [bytes, whole]
    exact .file contents

/-! ## Opening -/

theorem Contents.cut (contents : Contents accepted failed entries memory tail) (failed' : List Entry) :
    Contents accepted failed' entries memory [] where
  loads := contents.loads
  apart := contents.apart
  same := contents.same
  small := by
    have small := contents.small
    simp only [List.length_append, List.length_nil] at small ⊢
    omega
  tail := Or.inl torn_nil

theorem Contents.loose (contents : Contents accepted failed entries memory tail)
    (loose : Loose memory failed entry) (complete : tail = Journal.record entry.toBytes) :
    ∃ next, Contents (entry :: accepted) [] (entries ++ [entry]) next [] := by
  have loading := contents.loads.loading loading_new
  obtain ⟨⟨order, isNew⟩, indexed⟩ := loading.indexed entry
  have small := contents.small
  rw [complete, ← List.append_assoc] at small
  exact ⟨_, contents.concat [] loose.fresh loose.room loose.size small
    (loading.insert_fresh loose.fresh indexed)⟩

theorem Contents.openFile (contents : Contents accepted failed entries memory tail)
    (torn : Torn tail) (hasParent : Bool) (faults : List Fault) :
    (∀ store left, Journal.openFile hasParent ⟨magic ++ (recordsOf entries ++ tail), 0, faults⟩ =
      .ok store left → left.bytes = magic ++ recordsOf entries ∧
        store = withFile memory left (magic ++ recordsOf entries).length) ∧
    ∀ trap left, Journal.openFile hasParent ⟨magic ++ (recordsOf entries ++ tail), 0, faults⟩ =
      .error trap left → left.bytes = magic ++ (recordsOf entries ++ tail) ∨
        left.bytes = magic ++ recordsOf entries :=
  openFile_faulty hasParent contents.loads torn contents.small rfl

theorem Contents.saved_of_opened (contents : Contents accepted failed entries memory tail)
    (torn : Torn tail) {hasParent : Bool} {faults : List Fault} {store : EntryStore} {left : File}
    (ran : Journal.openFile hasParent ⟨magic ++ (recordsOf entries ++ tail), 0, faults⟩ = .ok store left) :
    HoldsAll store accepted ∧ Saved (.running store) accepted [] := by
  obtain ⟨whole, rfl⟩ := (contents.openFile torn hasParent faults).1 store left ran
  refine ⟨fun id entry => ?_, .store (contents.cut []) (by rw [whole, List.append_nil])⟩
  rw [contents.same]
  exact contents.loads.get_eq_some_iff contents.apart id entry

/-- The file of a program that has ended, where a record that is complete counts as accepted. -/
theorem Saved.settle {bytes : List UInt8} (saved : Saved (.stopped bytes) accepted failed) :
    ∃ loose, (loose = [] ∨ ∃ entry ∈ failed, loose = [entry] ∧ Journal.record entry.toBytes <:+ bytes) ∧
      Saved (.stopped bytes) (loose ++ accepted) [] := by
  cases saved with
  | header short => exact ⟨[], Or.inl rfl, .header short⟩
  | @file _ _ entries memory tail contents =>
    rcases contents.tail with torn | ⟨entry, loose, rfl⟩
    · exact ⟨[], Or.inl rfl, .file { contents with tail := Or.inl torn }⟩
    · obtain ⟨next, contents'⟩ := contents.loose loose rfl
      refine ⟨[entry], Or.inr ⟨entry, loose.mem, rfl, magic ++ recordsOf entries, by simp⟩, ?_⟩
      have saved := Saved.file contents'
      rwa [recordsOf_concat, List.append_nil] at saved

theorem Contents.torn (contents : Contents accepted [] entries memory tail) : Torn tail :=
  contents.tail.resolve_right fun ⟨_, loose, _⟩ => List.not_mem_nil loose.mem

theorem Saved.opens {bytes : List UInt8} (saved : Saved (.stopped bytes) accepted [])
    {hasParent : Bool} {faults : List Fault} {store : EntryStore} {left : File}
    (ran : Journal.openFile hasParent ⟨bytes, 0, faults⟩ = .ok store left) :
    HoldsAll store accepted ∧ Saved (.running store) accepted [] := by
  cases saved with
  | @header n failed short =>
    have length : (magic.take n).length = n := List.length_take_of_le short.le
    obtain ⟨whole, rfl⟩ := (openFile_begun hasParent (by rw [length]; exact short)
      (by rw [length])).1 store left ran
    refine ⟨(Loads.nil EntryStore.new).get_eq_some_iff (by simp), ?_⟩
    exact .store (contents_new []) (by rw [whole]; rfl)
  | file contents => exact contents.saved_of_opened contents.torn ran

theorem Saved.same {program : Program} (saved : Saved program accepted failed)
    (same : ∀ entry, entry ∈ entries ↔ entry ∈ accepted) : Saved program entries failed := by
  cases saved with
  | header short =>
    obtain rfl : entries = [] := List.eq_nil_iff_forall_not_mem.mpr fun entry => by simp [same]
    exact .header short
  | file contents => exact .file { contents with same := fun entry => (same entry).trans (contents.same entry) }
  | store contents whole =>
    exact .store { contents with same := fun entry => (same entry).trans (contents.same entry) } whole

theorem Saved.opened {bytes : List UInt8} (saved : Saved (.stopped bytes) accepted failed)
    {hasParent : Bool} {faults : List Fault} {store : EntryStore} {left : File}
    (ran : Journal.openFile hasParent ⟨bytes, 0, faults⟩ = .ok store left) {held : List Entry}
    (holds : HoldsAll store held) : Saved (.running store) held [] := by
  obtain ⟨loose, -, saved'⟩ := saved.settle
  obtain ⟨holds', opened⟩ := saved'.opens ran
  refine opened.same fun entry => ?_
  have found := (holds entry.id entry).symm.trans (holds' entry.id entry)
  simpa only [and_true] using found

theorem Saved.notOpened {bytes : List UInt8} (saved : Saved (.stopped bytes) accepted failed)
    {hasParent : Bool} {faults : List Fault} {trap : Trap StoreError} {left : File}
    (ran : Journal.openFile hasParent ⟨bytes, 0, faults⟩ = .error trap left) :
    Saved (.stopped left.bytes) accepted failed := by
  cases saved with
  | @header n failed short =>
    have length : (magic.take n).length = n := List.length_take_of_le short.le
    obtain ⟨m, begun⟩ := (openFile_begun hasParent (by rw [length]; exact short)
      (by rw [length])).2 trap left ran
    rw [begun]
    by_cases complete : magic.length ≤ m
    · have saved := Saved.file (contents_new failed)
      rw [List.take_of_length_le complete]
      exact saved
    · exact .header (Nat.not_le.mp complete)
  | @file _ _ entries memory tail contents =>
    rcases contents.tail with torn | ⟨entry, loose, rfl⟩
    · rcases (contents.openFile torn hasParent faults).2 trap left ran with kept | cut
      · rw [kept]
        exact .file contents
      · have saved := Saved.file (contents.cut failed)
        rw [List.append_nil] at saved
        rw [cut]
        exact saved
    · obtain ⟨next, contents'⟩ := contents.loose loose rfl
      have same : recordsOf entries ++ Journal.record entry.toBytes =
          recordsOf (entries ++ [entry]) ++ [] := by rw [recordsOf_concat, List.append_nil]
      rw [same] at ran
      have kept : left.bytes = magic ++ (recordsOf (entries ++ [entry]) ++ []) :=
        ((contents'.openFile torn_nil hasParent faults).2 trap left ran).elim id
          fun cut => by rw [cut, List.append_nil]
      rw [kept, ← same]
      exact .file contents

theorem History.saved {program : Program} (history : History program accepted failed) :
    Saved program accepted failed := by
  induction history with
  | new => exact .header (n := 0) (by decide)
  | opened history ran holds ih => exact ih.opened ran holds
  | notOpened history ran ih => exact ih.notOpened ran
  | @accepted store after accepted failed entry history ran ih =>
    have inserted := ih.insert entry
    rw [ran] at inserted
    cases inserted with
    | accepted saved => exact saved
    | unchanged not saved => exact absurd rfl not
  | @duplicate store after accepted failed entry history ran ih =>
    have inserted := ih.insert entry
    rw [ran] at inserted
    cases inserted with
    | unchanged not saved => exact saved
  | @failed store after accepted failed entry error history ran ih =>
    have inserted := ih.insert entry
    rw [ran] at inserted
    cases inserted with
    | unchanged not saved => exact saved.mono fun _ mem => List.mem_cons_of_mem _ mem
    | failed saved => exact saved
  | @interrupted store after accepted failed entry history ran ih =>
    have inserted := ih.insert entry
    rw [ran] at inserted
    cases inserted with
    | unchanged not saved => exact (saved.mono fun _ mem => List.mem_cons_of_mem _ mem).stop
    | failed saved => exact saved.stop
  | stopped history ih => exact ih.stop

/-! ## Recovery -/

omit [Sha256] [Ed25519] in
theorem writeRecord_quiet (front bytes : List UInt8) :
    Journal.writeRecord front.length bytes (File.quiet front []) =
      .ok () (File.quiet (front ++ Journal.record bytes) []) := by
  have cut : viaIo (File.setLen front.length) (File.quiet front []) = .ok () (File.quiet front []) := by
    simp [viaIo, File.setLen, File.operate, File.advance, File.quiet]
  have placed : viaIo (File.seek front.length) (File.quiet front []) = .ok () (File.quiet front []) := rfl
  have written : ∀ front data, viaIo (File.writeAll data) (File.quiet front []) =
      .ok () (File.quiet (front ++ data) []) := by
    intro front data
    simp [viaIo, File.writeAll, File.operate, File.advance, File.quiet, File.put]
  rw [Journal.writeRecord, stateful_bind_of_ok cut, stateful_bind_of_ok placed,
    stateful_bind_of_ok (written _ _), stateful_bind_of_ok (written _ _), Journal.record,
    ← List.append_assoc]
  rfl

theorem Loading.accepts (loading : Loading memory) {front : List UInt8}
    (fresh : Fresh (attached memory front) entry) (room : (attached memory front).len < maxEntries)
    (size : entry.toBytes.length ≤ maxRecord)
    (small : (front ++ Journal.record entry.toBytes).length ≤ maxBytes) :
    ((attached memory front).insert entry).1 = .ok true := by
  have length := length_record entry.toBytes
  rw [List.length_append] at small
  have fits : ¬ (entry.toBytes.length > maxRecord ∨
      front.length + 4 + entry.toBytes.length > maxBytes) := by omega
  have committed : ∃ journal, (attached memory front).commit entry =
      (.ok (), { memory with journal := some journal }) := by
    refine ⟨⟨File.quiet (front ++ Journal.record entry.toBytes) [],
      front.length + (4 + entry.toBytes.length)⟩, ?_⟩
    have journal : (attached memory front).journal = some ⟨File.quiet front [], front.length⟩ := rfl
    rw [EntryStore.commit, journal]
    dsimp only
    rw [if_neg (Nat.not_le.mpr room), Journal.append, if_neg fits, writeRecord_quiet]
    rfl
  obtain ⟨journal, committed⟩ := committed
  obtain ⟨⟨order, isNew⟩, indexed⟩ := loading.indexed entry
  rw [itemOf] at indexed
  rw [EntryStore.insert, if_neg (show ¬ entry.sortKey = UInt64.ofNat (2 ^ 64 - 1) from fresh.finite),
    fresh.verified, if_neg (by simp [fresh.absent]), committed]
  simp only [indexed]

/-- What opening a file returns: a store of the given entries that accepts more. -/
structure Reopens (hasParent : Bool) (bytes : List UInt8) (held : List Entry) (store : EntryStore)
    (file : File) : Prop where
  opens : Journal.openFile hasParent ⟨bytes, 0, []⟩ = .ok store file
  holds : HoldsAll store held
  accepts : ∀ entry, Fresh store entry → store.len < maxEntries → entry.toBytes.length ≤ maxRecord →
    (file.bytes ++ Journal.record entry.toBytes).length ≤ maxBytes → (store.insert entry).1 = .ok true

theorem Saved.reopens {bytes : List UInt8} (saved : Saved (.stopped bytes) accepted [])
    (hasParent : Bool) : ∃ store file, Reopens hasParent bytes accepted store file := by
  suffices ∃ memory front, Loading memory ∧ Journal.openFile hasParent ⟨bytes, 0, []⟩ =
      .ok (attached memory front) (File.quiet front []) by
    obtain ⟨memory, front, loading, ran⟩ := this
    refine ⟨_, _, ran, (saved.opens ran).1, fun entry fresh room size small => ?_⟩
    refine loading.accepts fresh room size ?_
    rwa [File.quiet, List.append_nil] at small
  cases saved with
  | @header n failed short =>
    have length : (magic.take n).length = n := List.length_take_of_le short.le
    exact ⟨_, _, loading_new, openFile_short hasParent 0 (by rw [length]; exact short) (by rw [length])⟩
  | file contents =>
    exact ⟨_, _, contents.loads.loading loading_new,
      openFile_loads hasParent 0 contents.loads contents.torn contents.small⟩

/-- An opening fails, or the program ends in it. -/
def NotOpened (bytes left : List UInt8) : Prop :=
  ∃ hasParent faults trap file,
    Journal.openFile hasParent ⟨bytes, 0, faults⟩ = .error trap file ∧ file.bytes = left

theorem Saved.notOpens {bytes left : List UInt8} (saved : Saved (.stopped bytes) accepted failed)
    (failures : Relation.ReflTransGen NotOpened bytes left) : Saved (.stopped left) accepted failed := by
  induction failures with
  | refl => exact saved
  | tail failures failure ih =>
    obtain ⟨hasParent, faults, trap, file, ran, rfl⟩ := failure
    exact ih.notOpened ran

theorem crash_recovery {bytes : List UInt8} (history : History (.stopped bytes) accepted failed)
    (hasParent : Bool) : ∃ store file loose,
      (loose = [] ∨ ∃ entry ∈ failed, loose = [entry] ∧ Journal.record entry.toBytes <:+ bytes) ∧
      Reopens hasParent bytes (loose ++ accepted) store file ∧
      History (.running store) (loose ++ accepted) [] ∧
      ∀ left, Relation.ReflTransGen NotOpened bytes left →
        (∃ store file, Reopens hasParent left (loose ++ accepted) store file) ∧
        ∀ faults store file, Journal.openFile hasParent ⟨left, 0, faults⟩ = .ok store file →
          HoldsAll store (loose ++ accepted) := by
  obtain ⟨loose, one, saved⟩ := history.saved.settle
  obtain ⟨store, file, reopens⟩ := saved.reopens hasParent
  refine ⟨store, file, loose, one, reopens, .opened history reopens.opens reopens.holds,
    fun left failures => ?_⟩
  have saved' := saved.notOpens failures
  exact ⟨saved'.reopens hasParent, fun faults store file ran => (saved'.opens ran).1⟩

end

section
local instance recordDigest : Sha256 := keyDigest
local instance everySignature : Ed25519 := trusting

/-- The opening of a new file and a write go well, and the sync after it fails. -/
def syncFails : List Fault := List.replicate 14 .none ++ [.fails 0 "sync"]

theorem history_sync : ∃ after, History (.running after) [] [plainEntry 5] ∧
    fileBytes after = magic ++ Journal.record (plainEntry 5).toBytes := by
  have ran : Journal.openFile false ⟨[], 0, syncFails⟩ =
      .ok (withFile .new ⟨magic, 8, syncFails.drop 10⟩ 8) ⟨magic, 8, syncFails.drop 10⟩ := rfl
  have opened : History (.running (withFile .new ⟨magic, 8, syncFails.drop 10⟩ 8)) [] [] :=
    .opened .new ran fun id entry => by
      have none : EntryStore.new.get id = none := AList.lookup_empty id
      change EntryStore.new.get id = some entry ↔ _
      simp [none]
  have failed : EntryStore.insert (withFile .new ⟨magic, 8, syncFails.drop 10⟩ 8) (plainEntry 5) =
      (.fail (.storage "sync"), _) := rfl
  exact ⟨_, .failed opened failed, rfl⟩

/-- The sync fails, and the file is not opened at first either. -/
theorem crash_recovery_sync : ∃ store file loose left,
    Reopens false (magic ++ Journal.record (plainEntry 5).toBytes) (loose ++ []) store file ∧
      History (.running store) (loose ++ []) [] ∧
      NotOpened (magic ++ Journal.record (plainEntry 5).toBytes) left ∧
      ∃ store file, Reopens false left (loose ++ []) store file := by
  obtain ⟨after, history, bytes⟩ := history_sync
  obtain ⟨store, file, loose, -, reopens, more, later⟩ := crash_recovery history.stopped false
  rw [bytes] at reopens later
  have refused : ∃ left, NotOpened (magic ++ Journal.record (plainEntry 5).toBytes) left :=
    ⟨_, false, [.fails 0 "open"], _, _, rfl, rfl⟩
  obtain ⟨left, refused⟩ := refused
  exact ⟨store, file, loose, left, reopens, more, refused, (later left (.single refused)).1⟩

end

end Racnet.Proof.Storage
