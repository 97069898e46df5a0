import Racnet.Api.View
import Racnet.Proof.Storage.Index

/-!
# The store and its index

Every call of `insert` either leaves entries and order alone or adds one entry to both.
-/

namespace Racnet.Proof.Storage
open Lib Store Wire

def itemOf [Sha256] (entry : Entry) : Item := ⟨entry.sortKey, entry.id⟩

def reservedKey : UInt64 := UInt64.ofNat (2 ^ 64 - 1)

/-- The stores a program can get: a new one, one read from a file, and what `insert` makes of them. -/
inductive Built [Sha256] [Ed25519] : EntryStore → Prop where
  | new : Built EntryStore.new
  | opened {hasParent : Bool} {file file' : File} {store : EntryStore}
      (ran : Journal.openFile hasParent file = .ok store file') : Built store
  | insert {store : EntryStore} (built : Built store) (entry : Entry) : Built (store.insert entry).2

/-- The stores that calls of `insert` fill, with any journal. -/
inductive Filled [Sha256] [Ed25519] : EntryStore → Prop where
  | new : Filled EntryStore.new
  | insert {store : EntryStore} (filled : Filled store) (entry : Entry) :
      Filled (store.insert entry).2
  | attach {store : EntryStore} (filled : Filled store) (journal : Journal) :
      Filled { store with journal := some journal }

/-- All that a call of `insert` can do. -/
inductive InsertStep [Sha256] [Ed25519] (store : EntryStore) (entry : Entry) :
    Exec StoreError Bool → EntryStore → Prop where
  | refused (trap : Trap StoreError) (journal : Option Journal) :
      InsertStep store entry (.error trap) { store with journal }
  | duplicate (held : store.contains entry.id = true) : InsertStep store entry (.ok false) store
  | added (finite : entry.sortKey ≠ reservedKey) (verified : entry.verify = .ok ())
      (absent : store.contains entry.id = false) (journal : Option Journal) (order : OrderIndex)
      (isNew : Bool) (indexed : store.order.insert (itemOf entry) = some (order, isNew)) :
      InsertStep store entry (.ok true)
        { entries := store.entries.insert entry.id entry, order, journal }

variable {store : EntryStore} {entry : Entry}

theorem commit_entries (store : EntryStore) (entry : Entry) :
    ∃ journal, (store.commit entry).2 = { store with journal } := by
  rw [EntryStore.commit]
  split
  · exact ⟨store.journal, rfl⟩
  · split_ifs
    · exact ⟨store.journal, rfl⟩
    · exact ⟨_, rfl⟩

variable [Sha256] [Ed25519]

theorem insert_step (store : EntryStore) (entry : Entry) :
    InsertStep store entry (store.insert entry).1 (store.insert entry).2 := by
  rw [EntryStore.insert]
  by_cases reserved : entry.sortKey = UInt64.ofNat (2 ^ 64 - 1)
  · rw [if_pos reserved]
    exact .refused (.err .sortKeyReserved) store.journal
  rw [if_neg reserved]
  cases verified : entry.verify with
  | error e => exact .refused (.err .badSignature) store.journal
  | ok _ =>
    dsimp only
    by_cases held : store.contains entry.id = true
    · rw [if_pos held]
      exact .duplicate held
    rw [if_neg held]
    obtain ⟨journal, committed⟩ := commit_entries store entry
    rcases outcome : store.commit entry with ⟨_ | _, store'⟩
    · rw [outcome] at committed
      obtain rfl : store' = { store with journal } := committed
      exact .refused _ journal
    · rw [outcome] at committed
      obtain rfl : store' = { store with journal } := committed
      dsimp only
      cases indexed : store.order.insert ⟨entry.sortKey, entry.id⟩ with
      | none => exact .refused .panic journal
      | some result =>
        exact .added reserved verified (by simpa using held) journal result.1 result.2 indexed

/-! ## The invariant -/

/-- The item of an entry that the store holds. -/
def Holds (store : EntryStore) (x : Item) : Prop :=
  ∃ entry, store.get x.id = some entry ∧ entry.sortKey = x.sortKey

/-- Every entry is filed under its own id and passed the checks of `insert`. -/
structure Sound (store : EntryStore) : Prop where
  keyed : ∀ id entry, store.get id = some entry → entry.id = id
  verified : ∀ id entry, store.get id = some entry → entry.verify = .ok ()
  finite : ∀ id entry, store.get id = some entry → entry.sortKey ≠ reservedKey

/-- The order holds the item of every entry and nothing else. -/
structure Ordered (store : EntryStore) (t : LabelTree Item) : Prop where
  keeps : Keeps store.order t
  size : store.order.nodes.length = store.len
  items : ∀ x, x ∈ t.toList ↔ Holds store x

omit [Sha256] [Ed25519] in
theorem get_insert_self (entries : AList fun _ : EntryId => Entry) (order : OrderIndex)
    (journal : Option Journal) (id : EntryId) (entry : Entry) :
    EntryStore.get ⟨entries.insert id entry, order, journal⟩ id = some entry :=
  AList.lookup_insert entries

omit [Sha256] [Ed25519] in
theorem get_insert_ne {id other : EntryId} (ne : other ≠ id)
    (entries : AList fun _ : EntryId => Entry) (order : OrderIndex) (journal : Option Journal)
    (entry : Entry) :
    EntryStore.get ⟨entries.insert id entry, order, journal⟩ other = entries.lookup other :=
  AList.lookup_insert_ne ne

omit [Sha256] [Ed25519] in
theorem get_none_of_not_contains {id : EntryId} (absent : store.contains id = false) :
    store.get id = none :=
  AList.lookup_eq_none.mpr (by simpa [EntryStore.contains] using absent)

omit [Sha256] [Ed25519] in
theorem len_insert {id : EntryId} (absent : store.contains id = false) (entry : Entry)
    (order : OrderIndex) (journal : Option Journal) :
    EntryStore.len ⟨store.entries.insert id entry, order, journal⟩ = store.len + 1 := by
  have fresh : id ∉ store.entries.keys := fun mem =>
    absurd (AList.mem_keys.mpr mem) (by simpa [EntryStore.contains] using absent)
  change (store.entries.insert id entry).keys.length = store.entries.keys.length + 1
  rw [AList.keys_insert, List.length_cons, List.erase_of_not_mem fresh]

variable {result : Exec StoreError Bool} {after : EntryStore}

theorem Sound.step (sound : Sound store) (step : InsertStep store entry result after) :
    Sound after := by
  cases step with
  | refused trap journal => exact ⟨sound.keyed, sound.verified, sound.finite⟩
  | duplicate held => exact sound
  | added finite verified absent journal order isNew indexed =>
    have found : ∀ id e, EntryStore.get ⟨store.entries.insert entry.id entry, order, journal⟩ id =
        some e → id = entry.id ∧ e = entry ∨ store.get id = some e := by
      intro id e held
      by_cases same : id = entry.id
      · subst same
        rw [get_insert_self] at held
        exact Or.inl ⟨rfl, (Option.some.inj held).symm⟩
      · rw [get_insert_ne same] at held
        exact Or.inr held
    refine ⟨fun id e held => ?_, fun id e held => ?_, fun id e held => ?_⟩
    · rcases found id e held with ⟨rfl, rfl⟩ | old
      · rfl
      · exact sound.keyed id e old
    · rcases found id e held with ⟨-, rfl⟩ | old
      · exact verified
      · exact sound.verified id e old
    · rcases found id e held with ⟨-, rfl⟩ | old
      · exact finite
      · exact sound.finite id e old

omit [Ed25519] in
theorem holds_added (absent : store.contains entry.id = false) (order : OrderIndex)
    (journal : Option Journal) (x : Item) :
    Holds ⟨store.entries.insert entry.id entry, order, journal⟩ x ↔
      Holds store x ∨ x = itemOf entry := by
  constructor
  · rintro ⟨e, held, key⟩
    by_cases same : x.id = entry.id
    · rw [same, get_insert_self] at held
      obtain rfl := Option.some.inj held
      exact Or.inr (Item.ext key.symm same)
    · rw [get_insert_ne same] at held
      exact Or.inl ⟨e, held, key⟩
  · rintro (⟨e, held, key⟩ | rfl)
    · have ne : x.id ≠ entry.id := by
        intro same
        rw [same, get_none_of_not_contains absent] at held
        exact absurd held (by simp)
      exact ⟨e, by rw [get_insert_ne ne]; exact held, key⟩
    · exact ⟨entry, get_insert_self _ _ _ _ _, rfl⟩

omit [Ed25519] in
theorem not_holds_of_absent (absent : store.contains entry.id = false) :
    ¬ Holds store (itemOf entry) := by
  rintro ⟨e, held, -⟩
  rw [show (itemOf entry).id = entry.id from rfl, get_none_of_not_contains absent] at held
  exact absurd held (by simp)

theorem Ordered.step {t : LabelTree Item} (ordered : Ordered store t)
    (step : InsertStep store entry result after) (room : after.len ≤ nilIndex) :
    ∃ t', Ordered after t' := by
  cases step with
  | refused trap journal => exact ⟨t, ordered.keeps, ordered.size, ordered.items⟩
  | duplicate held => exact ⟨t, ordered⟩
  | added finite verified absent journal order isNew indexed =>
    rw [len_insert absent] at room
    have missing : itemOf entry ∉ t.toList := fun mem =>
      not_holds_of_absent absent ((ordered.items _).mp mem)
    have space : store.order.nodes.length < nilIndex := by
      rw [ordered.size]
      omega
    obtain ⟨order', t', before, after, ran, keeps, size, split, listed⟩ :=
      ordered.keeps.insert_new space.le missing
    obtain ⟨rfl, -⟩ : order = order' ∧ isNew = true := by
      rw [indexed] at ran
      exact Prod.mk.inj (Option.some.inj ran)
    refine ⟨t', keeps, ?_, fun x => ?_⟩
    · rw [size, len_insert absent, ordered.size]
    · rw [holds_added absent, ← ordered.items, listed, split, freshTree, if_neg space.ne]
      simp only [LabelTree.toList, List.nil_append, List.mem_append, List.mem_cons,
        List.not_mem_nil, or_false]
      tauto

theorem insert_memory {t : LabelTree Item} (memory : store.journal = none) (keeps : Keeps store.order t)
    (room : store.order.nodes.length ≤ nilIndex) (finite : entry.sortKey ≠ reservedKey)
    (verified : entry.verify = .ok ()) (absent : store.contains entry.id = false) :
    ∃ order isNew, store.order.insert (itemOf entry) = some (order, isNew) ∧
      store.insert entry =
        (.ok true, { entries := store.entries.insert entry.id entry, order, journal := none }) := by
  have indexed : ∃ result, store.order.insert (itemOf entry) = some result := by
    by_cases held : itemOf entry ∈ t.toList
    · exact ⟨_, keeps.insert_old held⟩
    · obtain ⟨order, _, _, _, ran, -⟩ := keeps.insert_new room held
      exact ⟨_, ran⟩
  obtain ⟨⟨order, isNew⟩, indexed⟩ := indexed
  have committed : store.commit entry = (.ok (), store) := by
    rw [EntryStore.commit, memory]
  refine ⟨order, isNew, indexed, ?_⟩
  rw [itemOf] at indexed
  rw [EntryStore.insert, if_neg (show ¬ entry.sortKey = UInt64.ofNat (2 ^ 64 - 1) from finite),
    verified, if_neg (by simp [absent]), committed]
  simp only [indexed, memory]

theorem insert_memory_panic (memory : store.journal = none)
    (overflow : store.order.insert (itemOf entry) = none) (finite : entry.sortKey ≠ reservedKey)
    (verified : entry.verify = .ok ()) (absent : store.contains entry.id = false) :
    (store.insert entry).1 = .error .panic := by
  have committed : store.commit entry = (.ok (), store) := by
    rw [EntryStore.commit, memory]
  rw [itemOf] at overflow
  rw [EntryStore.insert, if_neg (show ¬ entry.sortKey = UInt64.ofNat (2 ^ 64 - 1) from finite),
    verified, if_neg (by simp [absent]), committed]
  simp only [overflow]

theorem len_le_step (step : InsertStep store entry result after) : store.len ≤ after.len := by
  cases step with
  | refused trap journal => exact le_rfl
  | duplicate held => exact le_rfl
  | added finite verified absent journal order isNew indexed =>
    rw [len_insert absent]
    omega

/-! ## Every store keeps the invariant -/

theorem readEntry_filled {bytes : List UInt8} (filled : Filled store)
    (ran : Journal.readEntry store bytes = .ok after) : Filled after := by
  unfold Journal.readEntry at ran
  split at ran
  · exact absurd ran (by simp [Exec.fail])
  · rename_i entry _ _
    split_ifs at ran
    · exact absurd ran (by simp [Exec.fail])
    · exact absurd ran (by simp [Exec.fail])
    · have grown := filled.insert entry
      rcases inserted : store.insert entry with ⟨_ | _, store'⟩
      · rw [inserted] at ran
        exact absurd ran (by simp)
      · rw [inserted] at ran grown
        exact Except.ok.inj ran ▸ grown

theorem readRecord_filled {remaining size : Nat} {file file' : File} (filled : Filled store)
    (ran : Journal.readRecord store remaining file = .ok (some (size, after)) file') :
    Filled after := by
  unfold Journal.readRecord at ran
  split_ifs at ran
  · exact absurd ran (by simp)
  obtain ⟨_, s₁, -, ran⟩ := stateful_bind_eq_ok ran
  dsimp only at ran
  split_ifs at ran
  · exact absurd ran (by simp)
  · exact absurd ran (by simp)
  obtain ⟨bytes, s₂, -, ran⟩ := stateful_bind_eq_ok ran
  cases read : Journal.readEntry store bytes with
  | error trap =>
    rw [read] at ran
    exact absurd ran (by simp)
  | ok store' =>
    simp only [read, stateful_pure, EStateM.Result.ok.injEq, Option.some.injEq,
      Prod.mk.injEq] at ran
    exact ran.1.2 ▸ readEntry_filled filled read

theorem readRecords_filled {fuel len offset stop : Nat} {file file' : File}
    (filled : Filled store)
    (ran : Journal.readRecords fuel len offset store file = .ok (stop, after) file') :
    Filled after := by
  induction fuel generalizing offset store file with
  | zero =>
    unfold Journal.readRecords at ran
    split_ifs at ran
    · exact absurd ran (by simp)
    · simp only [stateful_pure, EStateM.Result.ok.injEq, Prod.mk.injEq] at ran
      exact ran.1.2 ▸ filled
  | succ fuel ih =>
    unfold Journal.readRecords at ran
    split_ifs at ran
    · obtain ⟨found, s₁, read, ran⟩ := stateful_bind_eq_ok ran
      rcases found with _ | ⟨size, store'⟩
      · simp only [stateful_pure, EStateM.Result.ok.injEq, Prod.mk.injEq] at ran
        exact ran.1.2 ▸ filled
      · exact ih (readRecord_filled filled read) ran
    · simp only [stateful_pure, EStateM.Result.ok.injEq, Prod.mk.injEq] at ran
      exact ran.1.2 ▸ filled

theorem readFrom_filled {len : Nat} {file file' : File}
    (ran : Journal.readFrom len file = .ok store file') : Filled store := by
  unfold Journal.readFrom at ran
  obtain ⟨_, s₁, -, ran⟩ := stateful_bind_eq_ok ran
  obtain ⟨_, s₂, -, ran⟩ := stateful_bind_eq_ok ran
  split_ifs at ran
  · exact absurd ran (by simp)
  obtain ⟨⟨offset, read⟩, s₃, records, ran⟩ := stateful_bind_eq_ok ran
  obtain ⟨_, s₄, -, ran⟩ := stateful_bind_eq_ok ran
  obtain ⟨_, s₅, -, ran⟩ := stateful_bind_eq_ok ran
  obtain ⟨file₆, s₆, -, ran⟩ := stateful_bind_eq_ok ran
  simp only [stateful_pure, EStateM.Result.ok.injEq] at ran
  exact ran.1 ▸ (readRecords_filled Filled.new records).attach ⟨file₆, offset⟩

theorem openFile_filled {hasParent : Bool} {file file' : File}
    (ran : Journal.openFile hasParent file = .ok store file') : Filled store := by
  unfold Journal.openFile at ran
  obtain ⟨_, s₁, -, ran⟩ := stateful_bind_eq_ok ran
  obtain ⟨_, s₂, -, ran⟩ := stateful_bind_eq_ok ran
  obtain ⟨_, s₃, -, ran⟩ := stateful_bind_eq_ok ran
  obtain ⟨_, s₄, -, ran⟩ := stateful_bind_eq_ok ran
  split_ifs at ran
  · exact absurd ran (by simp)
  · obtain ⟨_, s₅, -, ran⟩ := stateful_bind_eq_ok ran
    exact readFrom_filled ran
  · exact readFrom_filled ran

theorem Built.filled (built : Built store) : Filled store := by
  induction built with
  | new => exact .new
  | opened ran => exact openFile_filled ran
  | insert built entry ih => exact ih.insert entry

theorem Filled.sound (filled : Filled store) : Sound store := by
  induction filled with
  | new =>
    have none : ∀ id, EntryStore.get EntryStore.new id = none := fun id => AList.lookup_empty id
    refine ⟨fun id e held => ?_, fun id e held => ?_, fun id e held => ?_⟩ <;>
      exact absurd (held.symm.trans (none id)) (by simp)
  | insert filled entry ih => exact ih.step (insert_step _ entry)
  | attach filled journal ih => exact ⟨ih.keyed, ih.verified, ih.finite⟩

theorem Filled.ordered (filled : Filled store) (room : store.len ≤ nilIndex) :
    ∃ t, Ordered store t := by
  induction filled with
  | new =>
    refine ⟨.leaf, keeps_new, rfl, fun x => ⟨fun mem => absurd mem (by simp), ?_⟩⟩
    rintro ⟨e, held, -⟩
    exact absurd (held.symm.trans (AList.lookup_empty x.id)) (by simp)
  | @insert store filled entry ih =>
    have step := insert_step store entry
    obtain ⟨t, ordered⟩ := ih ((len_le_step step).trans room)
    exact ordered.step step room
  | attach filled journal ih =>
    obtain ⟨t, ordered⟩ := ih room
    exact ⟨t, ordered.keeps, ordered.size, ordered.items⟩

end Racnet.Proof.Storage
