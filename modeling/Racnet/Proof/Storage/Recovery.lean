import Racnet.Proof.Storage.Running

/-!
# Opening a journal

Without faults, the scan of a file finds the records of a list of entries and a tail that is no record,
or it reports an error and the file is as before.
-/

namespace Racnet.Proof.Storage
open Lib Store Wire

def recordsOf (entries : List Entry) : List UInt8 :=
  entries.flatMap fun entry => Journal.record entry.toBytes

/-- What an interrupted write leaves: less than a length, or a length and less than its record. -/
def Torn (tail : List UInt8) : Prop :=
  tail.length < 4 ∨ 4 ≤ tail.length ∧ 1 ≤ ofLe (tail.take 4) ∧ ofLe (tail.take 4) ≤ maxRecord ∧
    tail.length - 4 < ofLe (tail.take 4)

theorem length_record (bytes : List UInt8) : (Journal.record bytes).length = 4 + bytes.length := by
  rw [Journal.record, List.length_append, length_leBytes]

theorem recordsOf_cons (entry : Entry) (entries : List Entry) :
    recordsOf (entry :: entries) = Journal.record entry.toBytes ++ recordsOf entries :=
  List.flatMap_cons

theorem ofLe_length {bytes : List UInt8} (size : bytes.length ≤ maxRecord) :
    ofLe (leBytes 4 bytes.length) = bytes.length :=
  ofLe_leBytes (size.trans_lt (by decide))

theorem viaIo_readExact (front data rest : List UInt8) :
    viaIo (File.readExact data.length) (File.quiet front (data ++ rest)) =
      .ok data (File.quiet (front ++ data) rest) := by
  rw [viaIo, File.readExact_quiet]

theorem viaIo_readSize {size : List UInt8} (four : size.length = 4) (front rest : List UInt8) :
    viaIo (File.readExact 4) (File.quiet front (size ++ rest)) =
      .ok size (File.quiet (front ++ size) rest) := by
  rw [← four, viaIo_readExact]

section
variable [Sha256] [Ed25519]

/-- The entries go into the store one after the other, each of a size that a record can have. -/
inductive Loads : EntryStore → List Entry → EntryStore → Prop where
  | nil (store : EntryStore) : Loads store [] store
  | cons {store next after : EntryStore} {entry : Entry} {entries : List Entry} {isNew : Bool}
      (size : entry.toBytes.length ≤ maxRecord) (room : store.len < maxEntries)
      (inserted : store.insert entry = (.ok isNew, next)) (rest : Loads next entries after) :
      Loads store (entry :: entries) after

/-! ## One record -/

variable {store next : EntryStore} {entry : Entry} {isNew : Bool} {front : List UInt8}

theorem readEntry_loads (room : store.len < maxEntries)
    (inserted : store.insert entry = (.ok isNew, next)) :
    Journal.readEntry store entry.toBytes = .ok next := by
  have decoded := Entry.decode_toBytes entry []
  rw [List.append_nil] at decoded
  rw [Journal.readEntry, decoded]
  simp only [ne_eq, not_true_eq_false, if_false, if_neg (Nat.not_le.mpr room), inserted, ge_iff_le]

section
variable {size body rest : List UInt8} (four : size.length = 4)

include four in
theorem readRecord_invalid (invalid : ofLe size = 0 ∨ ofLe size > maxRecord) :
    Journal.readRecord store (size ++ rest).length (File.quiet front (size ++ rest)) =
      .error (.err (.storage "invalid journal record length")) (File.quiet (front ++ size) rest) := by
  have long : ¬ (size ++ rest).length < 4 := by
    rw [List.length_append]
    omega
  rw [Journal.readRecord, if_neg long, stateful_bind_of_ok (viaIo_readSize four front rest)]
  rw [if_pos invalid]
  rfl

include four in
theorem readRecord_incomplete (valid : ¬ (ofLe size = 0 ∨ ofLe size > maxRecord))
    (short : rest.length < ofLe size) :
    Journal.readRecord store (size ++ rest).length (File.quiet front (size ++ rest)) =
      .ok none (File.quiet (front ++ size) rest) := by
  have long : ¬ (size ++ rest).length < 4 := by
    rw [List.length_append]
    omega
  have missing : (size ++ rest).length - 4 < ofLe size := by
    rw [List.length_append]
    omega
  rw [Journal.readRecord, if_neg long, stateful_bind_of_ok (viaIo_readSize four front rest)]
  rw [if_neg valid, if_pos missing]
  rfl

include four in
theorem readRecord_complete (valid : ¬ (ofLe size = 0 ∨ ofLe size > maxRecord))
    (whole : body.length = ofLe size) :
    Journal.readRecord store (size ++ (body ++ rest)).length (File.quiet front (size ++ (body ++ rest))) =
      match Journal.readEntry store body with
      | .error trap => .error trap (File.quiet (front ++ size ++ body) rest)
      | .ok next => .ok (some (4 + body.length, next)) (File.quiet (front ++ size ++ body) rest) := by
  have long : ¬ (size ++ (body ++ rest)).length < 4 := by
    rw [List.length_append]
    omega
  have there : ¬ (size ++ (body ++ rest)).length - 4 < ofLe size := by
    rw [List.length_append, List.length_append]
    omega
  rw [Journal.readRecord, if_neg long, stateful_bind_of_ok (viaIo_readSize four front _)]
  rw [if_neg valid, if_neg there, ← whole, stateful_bind_of_ok (viaIo_readExact _ body rest)]
  cases Journal.readEntry store body <;> rfl

end

/-! ## The store of the scan -/

/-- A store while its journal is read. -/
structure Loading (store : EntryStore) : Prop where
  built : Built store
  memory : store.journal = none
  few : store.len ≤ maxEntries

theorem loading_new : Loading EntryStore.new := ⟨.new, rfl, Nat.zero_le _⟩

/-- An entry that passes the checks of `insert` and is not in the store. -/
structure Fresh (store : EntryStore) (entry : Entry) : Prop where
  finite : entry.sortKey ≠ reservedKey
  verified : entry.verify = .ok ()
  absent : store.contains entry.id = false

/-- All that a call of `insert` can do, with what it leaves of the journal. -/
inductive CommitStep (store : EntryStore) (entry : Entry) : Exec StoreError Bool × EntryStore → Prop where
  | refused (error : StoreError) : CommitStep store entry (.fail error, store)
  | duplicate (held : store.contains entry.id = true) : CommitStep store entry (.ok false, store)
  | failed {trap : Trap StoreError} {left : EntryStore} (fresh : Fresh store entry)
      (committed : store.commit entry = (.error trap, left)) : CommitStep store entry (.error trap, left)
  | panicked {left : EntryStore} (committed : store.commit entry = (.ok (), left))
      (overflow : left.order.insert (itemOf entry) = none) :
      CommitStep store entry (.error .panic, left)
  | added {left : EntryStore} {order : OrderIndex} {isNew : Bool} (fresh : Fresh store entry)
      (committed : store.commit entry = (.ok (), left))
      (indexed : left.order.insert (itemOf entry) = some (order, isNew)) :
      CommitStep store entry
        (.ok true, { left with order, entries := left.entries.insert entry.id entry })

theorem commit_step (store : EntryStore) (entry : Entry) :
    CommitStep store entry (store.insert entry) := by
  rw [EntryStore.insert]
  by_cases reserved : entry.sortKey = UInt64.ofNat (2 ^ 64 - 1)
  · rw [if_pos reserved]
    exact .refused _
  rw [if_neg reserved]
  cases verified : entry.verify with
  | error e => exact .refused _
  | ok _ =>
    dsimp only
    by_cases held : store.contains entry.id = true
    · rw [if_pos held]
      exact .duplicate held
    rw [if_neg held]
    have fresh : Fresh store entry := ⟨reserved, verified, by simpa using held⟩
    rcases committed : store.commit entry with ⟨_ | _, left⟩
    · exact .failed fresh committed
    · dsimp only
      cases indexed : left.order.insert ⟨entry.sortKey, entry.id⟩ with
      | none => exact .panicked committed indexed
      | some result => exact .added fresh committed indexed

theorem Loading.insert (loading : Loading store) (room : store.len < maxEntries)
    (inserted : store.insert entry = (.ok isNew, next)) : Loading next := by
  have built : Built next := by
    have built := loading.built.insert entry
    rwa [inserted] at built
  have few := len_insert_le store entry
  rw [inserted] at few
  refine ⟨built, ?_, few.trans room⟩
  have committed : store.commit entry = (.ok (), store) := by
    rw [EntryStore.commit, loading.memory]
  have step := commit_step store entry
  rw [inserted] at step
  cases step with
  | duplicate held => exact loading.memory
  | added fresh committed' indexed =>
    rw [committed] at committed'
    cases committed'
    exact loading.memory

theorem Loading.readEntry (loading : Loading store) (body : List UInt8) :
    (∃ error, Journal.readEntry store body = .fail error) ∨
      ∃ entry isNew next, body = entry.toBytes ∧ store.len < maxEntries ∧
        store.insert entry = (.ok isNew, next) := by
  rw [Journal.readEntry]
  cases decoded : Entry.decode body with
  | none => exact Or.inl ⟨_, rfl⟩
  | some result =>
    obtain ⟨entry, left⟩ := result
    dsimp only
    by_cases canonical : entry.toBytes = body
    · by_cases full : store.len ≥ maxEntries
      · rw [if_neg (not_not.mpr canonical), if_pos full]
        exact Or.inl ⟨_, rfl⟩
      · rw [if_neg (not_not.mpr canonical), if_neg full]
        have small : store.len ≤ nilIndex := loading.few.trans (by decide)
        have running : Running store := by
          rw [Running, loading.memory]
          simp
        have safe := (insert_running loading.built running small entry).1
        rcases inserted : store.insert entry with ⟨(error | _) | isNew, next⟩
        · exact Or.inl ⟨error, rfl⟩
        · rw [inserted] at safe
          exact absurd rfl safe
        · exact Or.inr ⟨entry, isNew, next, canonical.symm, Nat.not_le.mp full, inserted⟩
    · rw [if_pos canonical]
      exact Or.inl ⟨_, rfl⟩

/-! ## One record, and all of them -/

theorem readRecord_loads (size : entry.toBytes.length ≤ maxRecord) (room : store.len < maxEntries)
    (inserted : store.insert entry = (.ok isNew, next)) (front rest : List UInt8) :
    Journal.readRecord store (Journal.record entry.toBytes ++ rest).length
        (File.quiet front (Journal.record entry.toBytes ++ rest)) =
      .ok (some ((Journal.record entry.toBytes).length, next))
        (File.quiet (front ++ Journal.record entry.toBytes) rest) := by
  have positive := entry.length_toBytes_pos
  have length := ofLe_length size
  have valid : ¬ (ofLe (leBytes 4 entry.toBytes.length) = 0 ∨
      ofLe (leBytes 4 entry.toBytes.length) > maxRecord) := by omega
  rw [length_record, Journal.record, List.append_assoc, readRecord_complete (by simp) valid length.symm,
    readEntry_loads room inserted, List.append_assoc]

theorem readRecord_torn {tail : List UInt8} (torn : Torn tail) (store : EntryStore) (front : List UInt8) :
    ∃ front' tail', front' ++ tail' = front ++ tail ∧
      Journal.readRecord store tail.length (File.quiet front tail) = .ok none (File.quiet front' tail') := by
  rcases torn with short | ⟨long, positive, small, missing⟩
  · refine ⟨front, tail, rfl, ?_⟩
    rw [Journal.readRecord, if_pos short]
    rfl
  · have four : (tail.take 4).length = 4 := List.length_take_of_le long
    have incomplete := @readRecord_incomplete _ _ store front (tail.take 4) (tail.drop 4) four (by omega)
      (by rw [List.length_drop]; omega)
    rw [List.take_append_drop] at incomplete
    exact ⟨_, _, by rw [List.append_assoc, List.take_append_drop], incomplete⟩

theorem Loading.readRecord (loading : Loading store) (front rest : List UInt8) :
    (∃ error file, Journal.readRecord store rest.length (File.quiet front rest) =
        .error (.err error) file ∧ file.bytes = front ++ rest) ∨ Torn rest ∨
      ∃ entry isNew next rest', rest = Journal.record entry.toBytes ++ rest' ∧
        entry.toBytes.length ≤ maxRecord ∧ store.len < maxEntries ∧
        store.insert entry = (.ok isNew, next) := by
  by_cases short : rest.length < 4
  · exact Or.inr (Or.inl (Or.inl short))
  obtain ⟨size, left, four, rfl⟩ : ∃ size left, size.length = 4 ∧ rest = size ++ left :=
    ⟨rest.take 4, rest.drop 4, List.length_take_of_le (by omega), (List.take_append_drop 4 rest).symm⟩
  have same : (size ++ left).take 4 = size := List.take_left' four
  by_cases valid : ofLe size = 0 ∨ ofLe size > maxRecord
  · exact Or.inl ⟨_, _, readRecord_invalid four valid, List.append_assoc _ _ _⟩
  by_cases missing : left.length < ofLe size
  · refine Or.inr (Or.inl (Or.inr ⟨by omega, ?_⟩))
    rw [same, List.length_append]
    omega
  obtain ⟨body, rest', whole, rfl⟩ : ∃ body rest', body.length = ofLe size ∧ left = body ++ rest' :=
    ⟨left.take (ofLe size), left.drop (ofLe size), List.length_take_of_le (by omega),
      (List.take_append_drop _ left).symm⟩
  rcases loading.readEntry body with ⟨error, failed⟩ | ⟨entry, isNew, next, rfl, room, inserted⟩
  · refine Or.inl ⟨error, File.quiet (front ++ size ++ body) rest', ?_, by simp [File.quiet]⟩
    rw [readRecord_complete four valid whole, failed]
    rfl
  · refine Or.inr (Or.inr ⟨entry, isNew, next, rest', ?_, by omega, room, inserted⟩)
    rw [Journal.record, whole, ← four, leBytes_ofLe, List.append_assoc]

section
variable {fuel len offset size : Nat} {file file' : File}

theorem readRecords_done (done : ¬ offset < len) :
    Journal.readRecords fuel len offset store file = .ok (offset, store) file := by
  unfold Journal.readRecords
  rw [if_neg done]
  rfl

variable (more : offset < len)

include more in
theorem readRecords_more : Journal.readRecords (fuel + 1) len offset store =
    Journal.readRecord store (len - offset) >>= fun
      | none => pure (offset, store)
      | some (size, store) => Journal.readRecords fuel len (offset + size) store := by
  conv_lhs => unfold Journal.readRecords
  exact if_pos more

include more in
theorem readRecords_stop (read : Journal.readRecord store (len - offset) file = .ok none file') :
    Journal.readRecords (fuel + 1) len offset store file = .ok (offset, store) file' := by
  rw [readRecords_more more, stateful_bind_of_ok read]
  rfl

include more in
theorem readRecords_next
    (read : Journal.readRecord store (len - offset) file = .ok (some (size, next)) file') :
    Journal.readRecords (fuel + 1) len offset store file =
      Journal.readRecords fuel len (offset + size) next file' := by
  rw [readRecords_more more, stateful_bind_of_ok read]

include more in
theorem readRecords_fail {trap : Trap StoreError}
    (read : Journal.readRecord store (len - offset) file = .error trap file') :
    Journal.readRecords (fuel + 1) len offset store file = .error trap file' := by
  rw [readRecords_more more, stateful_bind_of_error read]

end

theorem readRecords_loads {after : EntryStore} {entries : List Entry} {tail : List UInt8}
    (loads : Loads store entries after) (torn : Torn tail) (front : List UInt8) {fuel : Nat}
    (enough : (recordsOf entries ++ tail).length ≤ fuel) :
    ∃ front' tail', front' ++ tail' = front ++ (recordsOf entries ++ tail) ∧
      Journal.readRecords fuel (front ++ (recordsOf entries ++ tail)).length front.length store
          (File.quiet front (recordsOf entries ++ tail)) =
        .ok ((front ++ recordsOf entries).length, after) (File.quiet front' tail') := by
  induction loads generalizing front fuel with
  | nil store =>
    simp only [recordsOf, List.flatMap_nil, List.nil_append, List.append_nil] at enough ⊢
    by_cases empty : tail = []
    · subst empty
      exact ⟨front, [], rfl, readRecords_done (by simp)⟩
    · obtain ⟨front', tail', same, stopped⟩ := readRecord_torn torn store front
      have pos := List.length_pos_iff.mpr empty
      obtain ⟨fuel, rfl⟩ : ∃ n, fuel = n + 1 := ⟨fuel - 1, by omega⟩
      refine ⟨front', tail', same, readRecords_stop (by simpa using pos) ?_⟩
      rwa [List.length_append, Nat.add_sub_cancel_left]
  | @cons store next after entry entries isNew size room inserted loads ih =>
    have pos : 0 < (Journal.record entry.toBytes).length := by
      rw [length_record]
      omega
    have split : recordsOf (entry :: entries) ++ tail =
        Journal.record entry.toBytes ++ (recordsOf entries ++ tail) := by
      rw [recordsOf_cons, List.append_assoc]
    have read := readRecord_loads size room inserted front (recordsOf entries ++ tail)
    rw [split] at enough ⊢
    rw [List.length_append] at enough
    obtain ⟨fuel, rfl⟩ : ∃ n, fuel = n + 1 := ⟨fuel - 1, by omega⟩
    obtain ⟨front', tail', same, ran⟩ :=
      @ih (front ++ Journal.record entry.toBytes) fuel (by omega)
    rw [List.append_assoc] at same ran
    refine ⟨front', tail', same, ?_⟩
    rw [readRecords_next (by rw [List.length_append, List.length_append]; omega)
      (by rwa [List.length_append, Nat.add_sub_cancel_left]), ← List.length_append, ran, recordsOf_cons,
      List.append_assoc]

theorem Loading.readRecords (loading : Loading store) (front rest : List UInt8) {fuel : Nat}
    (enough : rest.length ≤ fuel) :
    (∃ error file, Journal.readRecords fuel (front ++ rest).length front.length store
        (File.quiet front rest) = .error (.err error) file ∧ file.bytes = front ++ rest) ∨
      ∃ entries tail after, rest = recordsOf entries ++ tail ∧ Torn tail ∧ Loads store entries after := by
  induction fuel generalizing store front rest with
  | zero =>
    obtain rfl := List.length_eq_zero_iff.mp (Nat.le_zero.mp enough)
    exact Or.inr ⟨[], [], store, rfl, Or.inl (by simp), .nil store⟩
  | succ fuel ih =>
    rcases loading.readRecord front rest with ⟨error, file, failed, kept⟩ | torn |
      ⟨entry, isNew, next, left, rfl, size, room, inserted⟩
    · by_cases empty : rest = []
      · exact Or.inr ⟨[], rest, store, rfl, Or.inl (by simp [empty]), .nil store⟩
      · have pos := List.length_pos_iff.mpr empty
        refine Or.inl ⟨error, file, readRecords_fail (by simpa using pos) ?_, kept⟩
        rwa [List.length_append, Nat.add_sub_cancel_left]
    · exact Or.inr ⟨[], rest, store, rfl, torn, .nil store⟩
    · have read := readRecord_loads size room inserted front left
      have positive := length_record entry.toBytes
      rw [List.length_append] at enough
      have next := ih (loading.insert room inserted) (front ++ Journal.record entry.toBytes) left
        (by omega)
      rw [List.append_assoc] at next
      rcases next with ⟨error, file, failed, kept⟩ | ⟨entries, tail, after, rfl, torn, loads⟩
      · refine Or.inl ⟨error, file, ?_, kept⟩
        rw [readRecords_next (by rw [List.length_append, List.length_append]; omega)
          (by rwa [List.length_append, Nat.add_sub_cancel_left]), ← List.length_append, failed]
      · refine Or.inr ⟨entry :: entries, tail, after, ?_, torn, .cons size room inserted loads⟩
        rw [recordsOf_cons, List.append_assoc]

/-! ## The whole file -/

/-- The store of a journal file that holds `bytes` and no tail. -/
def attached (store : EntryStore) (bytes : List UInt8) : EntryStore :=
  { store with journal := some ⟨File.quiet bytes [], bytes.length⟩ }

omit [Sha256] [Ed25519] in
theorem cutTail_quiet (front tail : List UInt8) (pos : Nat) :
    Journal.cutTail (front ++ tail).length front.length ⟨front ++ tail, pos, []⟩ =
      .ok () ⟨front, pos, []⟩ := by
  by_cases empty : tail = []
  · subst empty
    rw [List.append_nil, Journal.cutTail, if_neg (by simp)]
    rfl
  · have longer : front.length ≠ (front ++ tail).length := by simpa using empty
    have cut : viaIo (File.setLen front.length) ⟨front ++ tail, pos, []⟩ = .ok () ⟨front, pos, []⟩ := by
      simp [viaIo, File.setLen, File.operate, File.advance]
    rw [Journal.cutTail, if_pos longer, stateful_bind_of_ok cut]
    rfl

/-- The part of `readFrom` that only reads. -/
def scan (len : Nat) : EStateM (Trap StoreError) File (Nat × EntryStore) := do
  viaIo (File.seek 0)
  let header ← viaIo (File.readExact magic.length)
  if header ≠ magic then throw (.err (.storage "unrecognized entry journal"))
  else Journal.readRecords len len magic.length EntryStore.new

omit [Sha256] [Ed25519] in
def settle (len : Nat) (found : Nat × EntryStore) : EStateM (Trap StoreError) File EntryStore := do
  Journal.cutTail len found.1
  viaIo (File.seek found.1)
  let file ← get
  return { found.2 with journal := some ⟨file, found.1⟩ }

theorem readFrom_eq (len : Nat) : Journal.readFrom len = scan len >>= settle len := by
  rw [Journal.readFrom, scan, bind_assoc]
  congr 1
  funext _
  rw [bind_assoc]
  congr 1
  funext header
  split_ifs
  · rfl
  · rfl

omit [Sha256] [Ed25519] in
theorem viaIo_readHeader {header : List UInt8} (eight : header.length = magic.length)
    (rest : List UInt8) :
    viaIo (File.readExact magic.length) (File.quiet [] (header ++ rest)) =
      .ok header (File.quiet header rest) := by
  rw [← eight, viaIo_readExact, List.nil_append]

theorem scan_quiet {header rest : List UInt8} (eight : header.length = magic.length) (len pos : Nat) :
    scan len ⟨header ++ rest, pos, []⟩ =
      if header ≠ magic then
        .error (.err (.storage "unrecognized entry journal")) (File.quiet header rest)
      else Journal.readRecords len len magic.length EntryStore.new (File.quiet header rest) := by
  have sought : viaIo (File.seek 0) ⟨header ++ rest, pos, []⟩ =
      .ok () (File.quiet [] (header ++ rest)) := rfl
  rw [scan, stateful_bind_of_ok sought, stateful_bind_of_ok (viaIo_readHeader eight rest)]
  split_ifs
  · rfl
  · rfl

theorem scan_loads {entries : List Entry} {tail : List UInt8} (loads : Loads .new entries store)
    (torn : Torn tail) (pos : Nat) :
    ∃ front' tail', front' ++ tail' = magic ++ (recordsOf entries ++ tail) ∧
      scan (magic ++ (recordsOf entries ++ tail)).length ⟨magic ++ (recordsOf entries ++ tail), pos, []⟩ =
        .ok ((magic ++ recordsOf entries).length, store) (File.quiet front' tail') := by
  obtain ⟨front', tail', same, ran⟩ := readRecords_loads loads torn magic
    (show _ ≤ (magic ++ (recordsOf entries ++ tail)).length by simp)
  refine ⟨front', tail', same, ?_⟩
  rw [scan_quiet rfl, if_neg (by simp), ran]

theorem readFrom_fail {header rest : List UInt8} {error : StoreError} {len pos : Nat} {file : File}
    (failed : scan len ⟨header ++ rest, pos, []⟩ = .error (.err error) file) :
    Journal.readFrom len ⟨header ++ rest, pos, []⟩ = .error (.err error) file := by
  rw [readFrom_eq, stateful_bind_of_error failed]

theorem readFrom_loads {entries : List Entry} {tail : List UInt8} (loads : Loads .new entries store)
    (torn : Torn tail) (pos : Nat) :
    Journal.readFrom (magic ++ (recordsOf entries ++ tail)).length
        ⟨magic ++ (recordsOf entries ++ tail), pos, []⟩ =
      .ok (attached store (magic ++ recordsOf entries)) (File.quiet (magic ++ recordsOf entries) []) := by
  obtain ⟨front', tail', same, ran⟩ := scan_loads loads torn pos
  have cut : Journal.cutTail (magic ++ (recordsOf entries ++ tail)).length
      (magic ++ recordsOf entries).length (File.quiet front' tail') =
      .ok () ⟨magic ++ recordsOf entries, front'.length, []⟩ := by
    rw [File.quiet, same, ← List.append_assoc, cutTail_quiet]
  have placed : viaIo (File.seek (magic ++ recordsOf entries).length)
      ⟨magic ++ recordsOf entries, front'.length, []⟩ =
      .ok () (File.quiet (magic ++ recordsOf entries) []) := by
    rw [File.quiet, List.append_nil]
    rfl
  rw [readFrom_eq, stateful_bind_of_ok ran, settle, stateful_bind_of_ok cut, stateful_bind_of_ok placed]
  rfl

theorem openFile_quiet (hasParent : Bool) (bytes : List UInt8) (pos : Nat) :
    Journal.openFile hasParent ⟨bytes, pos, []⟩ =
      (if bytes.length > maxBytes then throw (.err .capacity)
      else if bytes.length < magic.length then do
        Journal.restoreHeader hasParent bytes.length
        Journal.readFrom magic.length
      else Journal.readFrom bytes.length : EStateM (Trap StoreError) File EntryStore) ⟨bytes, 0, []⟩ := by
  have entered : viaIo File.touch ⟨bytes, pos, []⟩ = .ok () ⟨bytes, pos, []⟩ := rfl
  have locked : viaIo File.touch ⟨bytes, 0, []⟩ = .ok () ⟨bytes, 0, []⟩ := rfl
  have measured : viaIo File.length ⟨bytes, 0, []⟩ = .ok bytes.length ⟨bytes, 0, []⟩ := rfl
  rw [Journal.openFile, stateful_bind_of_ok entered]
  refine (stateful_bind_of_ok rfl).trans ((stateful_bind_of_ok locked).trans ?_)
  rw [stateful_bind_of_ok measured]

theorem openFile_long (hasParent : Bool) {bytes : List UInt8} (pos : Nat)
    (long : magic.length ≤ bytes.length) (small : bytes.length ≤ maxBytes) :
    Journal.openFile hasParent ⟨bytes, pos, []⟩ = Journal.readFrom bytes.length ⟨bytes, 0, []⟩ := by
  rw [openFile_quiet, if_neg (Nat.not_lt.mpr small), if_neg (Nat.not_lt.mpr long)]

omit [Sha256] [Ed25519] in
theorem restoreHeader_quiet (hasParent : Bool) {bytes : List UInt8} (short : bytes.length < magic.length)
    (begun : bytes = magic.take bytes.length) :
    Journal.restoreHeader hasParent bytes.length ⟨bytes, 0, []⟩ = .ok () (File.quiet magic []) := by
  have read := viaIo_readExact [] bytes []
  have sought : viaIo (File.seek 0) (File.quiet bytes []) = .ok () ⟨bytes, 0, []⟩ := by
    rw [File.quiet, List.append_nil]
    rfl
  have written : viaIo (File.writeAll magic) ⟨bytes, 0, []⟩ = .ok () (File.quiet magic []) := by
    have past : bytes.drop magic.length = [] := List.drop_eq_nil_of_le short.le
    simp [viaIo, File.writeAll, File.operate, File.advance, File.put, File.quiet, past]
  rw [List.append_nil, List.nil_append] at read
  rw [Journal.restoreHeader]
  refine (stateful_bind_of_ok read).trans ?_
  rw [if_neg (not_not.mpr begun), stateful_bind_of_ok sought, stateful_bind_of_ok written]
  cases hasParent <;> rfl

theorem openFile_short (hasParent : Bool) {bytes : List UInt8} (pos : Nat)
    (short : bytes.length < magic.length) (begun : bytes = magic.take bytes.length) :
    Journal.openFile hasParent ⟨bytes, pos, []⟩ = .ok (attached .new magic) (File.quiet magic []) := by
  have restored := restoreHeader_quiet hasParent short begun
  have read := readFrom_loads (Loads.nil EntryStore.new) (show Torn [] from Or.inl (by simp)) magic.length
  have small : ¬ bytes.length > maxBytes := Nat.not_lt.mpr (short.le.trans (by decide))
  simp only [recordsOf, List.flatMap_nil, List.append_nil] at read
  rw [openFile_quiet, if_neg small, if_pos short, stateful_bind_of_ok restored]
  rw [File.quiet, List.append_nil]
  exact read

theorem openFile_unrecognized (hasParent : Bool) {bytes : List UInt8} (pos : Nat)
    (short : bytes.length < magic.length) (other : bytes ≠ magic.take bytes.length) :
    Journal.openFile hasParent ⟨bytes, pos, []⟩ =
      .error (.err (.storage "unrecognized entry journal")) (File.quiet bytes []) := by
  have read := viaIo_readExact [] bytes []
  have small : ¬ bytes.length > maxBytes := Nat.not_lt.mpr (short.le.trans (by decide))
  rw [List.append_nil, List.nil_append] at read
  rw [openFile_quiet, if_neg small, if_pos short]
  refine stateful_bind_of_error ?_
  rw [Journal.restoreHeader]
  refine (stateful_bind_of_ok read).trans ?_
  rw [if_pos other]
  rfl

/-! ## What the store holds -/

theorem verified_of_insert (inserted : store.insert entry = (.ok isNew, next)) :
    entry.verify = .ok () := by
  rw [EntryStore.insert] at inserted
  by_cases reserved : entry.sortKey = UInt64.ofNat (2 ^ 64 - 1)
  · rw [if_pos reserved] at inserted
    cases inserted
  rw [if_neg reserved] at inserted
  cases verified : entry.verify with
  | error e =>
    rw [verified] at inserted
    cases inserted
  | ok _ => rfl

theorem get_of_insert (inserted : store.insert entry = (.ok isNew, next)) (id : EntryId) :
    next.get id = (store.get id).or (if entry.id = id then some entry else none) := by
  have step := insert_step store entry
  rw [inserted] at step
  cases step with
  | duplicate held =>
    by_cases same : entry.id = id
    · have mem : id ∈ next.entries := same ▸ of_decide_eq_true held
      obtain ⟨old, found⟩ := Option.isSome_iff_exists.mp (AList.lookup_isSome.mpr mem)
      rw [EntryStore.get, found, Option.some_or]
    · rw [if_neg same, Option.or_none]
  | added finite verified absent journal order isNew indexed =>
    by_cases same : entry.id = id
    · rw [← same, get_insert_self, get_none_of_not_contains absent, if_pos rfl, Option.none_or]
    · rw [get_insert_ne (Ne.symm same), if_neg same, Option.or_none]
      rfl

variable {after : EntryStore} {entries : List Entry}

theorem Loads.verified (loads : Loads store entries after) : ∀ entry ∈ entries, entry.verify = .ok () := by
  induction loads with
  | nil store => simp
  | cons size room inserted loads ih => exact List.forall_mem_cons.mpr ⟨verified_of_insert inserted, ih⟩

theorem Loads.loading (loads : Loads store entries after) (loading : Loading store) : Loading after := by
  induction loads with
  | nil store => exact loading
  | cons size room inserted loads ih => exact ih (loading.insert room inserted)

theorem Loads.get (loads : Loads store entries after) (id : EntryId) :
    after.get id = (store.get id).or (entries.find? fun entry => decide (entry.id = id)) := by
  induction loads with
  | nil store => simp
  | @cons store next after entry entries isNew size room inserted loads ih =>
    rw [ih, get_of_insert inserted, Option.or_assoc]
    congr 1
    by_cases same : entry.id = id <;> simp [same]

theorem Loads.get_new (loads : Loads .new entries after) (id : EntryId) :
    after.get id = entries.find? fun entry => decide (entry.id = id) := by
  have empty : EntryStore.new.get id = none := AList.lookup_empty id
  rw [loads.get, empty, Option.none_or]

theorem Loads.get_eq_some_iff (loads : Loads .new entries after)
    (apart : ∀ a ∈ entries, ∀ b ∈ entries, a.id = b.id → a = b) (id : EntryId) (entry : Entry) :
    after.get id = some entry ↔ entry ∈ entries ∧ entry.id = id := by
  rw [loads.get_new]
  constructor
  · intro first
    exact ⟨List.mem_of_find?_eq_some first, by simpa using List.find?_some first⟩
  · rintro ⟨mem, rfl⟩
    obtain ⟨found, first⟩ : ∃ found, entries.find? (fun e => decide (e.id = entry.id)) = some found :=
      Option.isSome_iff_exists.mp (List.find?_isSome.mpr ⟨entry, mem, decide_eq_true rfl⟩)
    have same : found.id = entry.id := by simpa using List.find?_some first
    rw [first, apart found (List.mem_of_find?_eq_some first) entry mem same]

theorem Loads.size (loads : Loads store entries after) :
    ∀ entry ∈ entries, entry.toBytes.length ≤ maxRecord := by
  induction loads with
  | nil store => simp
  | cons size room inserted loads ih => exact List.forall_mem_cons.mpr ⟨size, ih⟩

/-! ## Opening -/

theorem openFile_cases (hasParent : Bool) {bytes : List UInt8} (pos : Nat)
    (long : magic.length ≤ bytes.length) :
    (∃ error file, Journal.openFile hasParent ⟨bytes, pos, []⟩ = .error (.err error) file ∧
        file.bytes = bytes) ∨
      bytes.length ≤ maxBytes ∧ ∃ entries tail store, bytes = magic ++ (recordsOf entries ++ tail) ∧
        Torn tail ∧ Loads .new entries store := by
  by_cases big : bytes.length > maxBytes
  · refine Or.inl ⟨.capacity, ⟨bytes, 0, []⟩, ?_, rfl⟩
    rw [openFile_quiet, if_pos big]
    rfl
  have small := Nat.not_lt.mp big
  obtain ⟨header, rest, eight, rfl⟩ : ∃ header rest, header.length = magic.length ∧
      bytes = header ++ rest :=
    ⟨bytes.take magic.length, bytes.drop magic.length, List.length_take_of_le long,
      (List.take_append_drop _ bytes).symm⟩
  rw [openFile_long hasParent pos long small]
  by_cases other : header = magic
  · subst other
    rcases loading_new.readRecords magic rest (show _ ≤ (magic ++ rest).length by simp) with
      ⟨error, file, failed, kept⟩ | ⟨entries, tail, store, rfl, torn, loads⟩
    · refine Or.inl ⟨error, file, readFrom_fail ?_, kept⟩
      rw [scan_quiet rfl, if_neg (by simp), failed]
    · exact Or.inr ⟨small, entries, tail, store, rfl, torn, loads⟩
  · refine Or.inl ⟨.storage "unrecognized entry journal", File.quiet header rest, readFrom_fail ?_, rfl⟩
    rw [scan_quiet eight, if_pos other]

theorem openFile_loads (hasParent : Bool) {tail : List UInt8} (pos : Nat)
    (loads : Loads .new entries store) (torn : Torn tail)
    (small : (magic ++ (recordsOf entries ++ tail)).length ≤ maxBytes) :
    Journal.openFile hasParent ⟨magic ++ (recordsOf entries ++ tail), pos, []⟩ =
      .ok (attached store (magic ++ recordsOf entries)) (File.quiet (magic ++ recordsOf entries) []) := by
  rw [openFile_long hasParent pos (by simp) small, readFrom_loads loads torn 0]

theorem openFile_error {hasParent : Bool} {bytes : List UInt8} {pos : Nat} {trap : Trap StoreError}
    {file : File} (failed : Journal.openFile hasParent ⟨bytes, pos, []⟩ = .error trap file) :
    (∃ error, trap = .err error) ∧ file.bytes = bytes := by
  by_cases long : magic.length ≤ bytes.length
  · rcases openFile_cases hasParent pos long with
      ⟨error, file', failed', kept⟩ | ⟨small, entries, tail, store, rfl, torn, loads⟩
    · rw [failed'] at failed
      obtain ⟨rfl, rfl⟩ := EStateM.Result.error.inj failed
      exact ⟨⟨error, rfl⟩, kept⟩
    · rw [openFile_loads hasParent pos loads torn small] at failed
      cases failed
  · have short := Nat.not_le.mp long
    by_cases begun : bytes = magic.take bytes.length
    · rw [openFile_short hasParent pos short begun] at failed
      cases failed
    · rw [openFile_unrecognized hasParent pos short begun] at failed
      obtain ⟨rfl, rfl⟩ := EStateM.Result.error.inj failed
      exact ⟨⟨_, rfl⟩, List.append_nil bytes⟩

theorem openFile_recovers (hasParent : Bool) (bytes : List UInt8) (pos : Nat) :
    (∀ trap file, Journal.openFile hasParent ⟨bytes, pos, []⟩ = .error trap file →
      (∃ error, trap = .err error) ∧ file.bytes = bytes) ∧
    ∀ store file, magic.length ≤ bytes.length →
      Journal.openFile hasParent ⟨bytes, pos, []⟩ = .ok store file →
      ∃ entries tail, bytes = magic ++ (recordsOf entries ++ tail) ∧ Torn tail ∧
        file.bytes = magic ++ recordsOf entries ∧
        (∀ entry ∈ entries, entry.toBytes.length ≤ maxRecord ∧ entry.verify = .ok ()) ∧
        (∀ id, store.get id = entries.find? fun entry => decide (entry.id = id)) ∧
        ((∀ a ∈ entries, ∀ b ∈ entries, a.id = b.id → a = b) →
          ∀ id entry, store.get id = some entry ↔ entry ∈ entries ∧ entry.id = id) ∧
        store.len ≤ maxEntries ∧ store.journal = some ⟨file, file.bytes.length⟩ ∧
        ∀ hasParent', Journal.openFile hasParent' file = .ok store file := by
  refine ⟨fun _ _ failed => openFile_error failed, fun store file long ran => ?_⟩
  rcases openFile_cases hasParent pos long with
    ⟨error, file', failed, -⟩ | ⟨small, entries, tail, loaded, rfl, torn, loads⟩
  · rw [failed] at ran
    cases ran
  rw [openFile_loads hasParent pos loads torn small] at ran
  obtain ⟨rfl, rfl⟩ := EStateM.Result.ok.inj ran
  have whole : (File.quiet (magic ++ recordsOf entries) []).bytes = magic ++ recordsOf entries :=
    List.append_nil _
  refine ⟨entries, tail, rfl, torn, whole, fun entry mem => ⟨loads.size entry mem, loads.verified entry mem⟩,
    loads.get_new, loads.get_eq_some_iff, (loads.loading loading_new).few, ?_, fun hasParent' => ?_⟩
  · rw [whole]
    rfl
  · have torn' : Torn [] := Or.inl (by simp)
    have again := openFile_loads hasParent' (magic ++ recordsOf entries).length loads torn'
      (by simp only [List.length_append, List.length_nil] at small ⊢; omega)
    rw [List.append_nil] at again
    rw [← again, File.quiet, List.append_nil]

end

section
local instance idDigest : Sha256 := keyDigest
local instance anySignature : Ed25519 := trusting

def tornBytes : List UInt8 := magic ++ (recordsOf [plainEntry 5] ++ [110, 0])

theorem openFile_recovers_torn : ∃ store file,
    Journal.openFile false ⟨tornBytes, 0, []⟩ = .ok store file ∧ tornBytes = file.bytes ++ [110, 0] ∧
      Journal.openFile true file = .ok store file := by
  have absent : EntryStore.new.contains (plainEntry 5).id = false := rfl
  obtain ⟨order, isNew, -, inserted⟩ := @insert_memory EntryStore.new (plainEntry 5) _ _ _ rfl keeps_new
    (by decide) (by decide) rfl absent
  have torn : Torn [110, 0] := Or.inl (by simp)
  have ran := openFile_loads false 0 (.cons (by decide) (by decide) inserted (.nil _)) torn (by decide)
  obtain ⟨_, _, -, -, -, -, -, -, -, -, again⟩ :=
    (openFile_recovers false tornBytes 0).2 _ _ (by decide) ran
  exact ⟨_, _, ran, by simp [tornBytes, File.quiet], again true⟩

end

end Racnet.Proof.Storage
