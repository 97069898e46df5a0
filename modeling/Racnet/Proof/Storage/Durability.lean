import Racnet.Proof.Storage.Recovery

/-!
# A journal whose operations fail

An interrupted write leaves a beginning of the record after the committed ones, and nothing else of the
file changes.
-/

namespace Racnet.Proof.Storage
open Lib Store Wire
open File (Ends Reads)

/-! ## The operations -/

section
variable {α : Type} {action : File.Action α}

theorem ends_viaIo {good bad : File → Prop} {file : File} (ends : Ends (action file) good bad) :
    Ends (viaIo action file) good bad := by
  rw [viaIo]
  cases ran : action file with
  | ok b file₁ =>
    rw [ran] at ends
    exact ends
  | error trap file₁ =>
    rw [ran] at ends
    cases trap <;> exact ends

theorem reads_viaIo (reads : Reads action) : Reads (viaIo action) := by
  refine ⟨fun file => ends_viaIo (reads.keeps file), fun file a file' ran => ?_⟩
  rw [viaIo] at ran ⊢
  cases inner : action file with
  | ok b file₁ =>
    rw [inner] at ran
    rw [reads.erases inner]
    cases ran
    rfl
  | error trap file₁ =>
    rw [inner] at ran
    cases trap <;> cases ran

end

/-! ## Writing -/

theorem ends_setLen {front tail : List UInt8} {file : File} (whole : file.bytes = front ++ tail) :
    Ends (viaIo (File.setLen front.length) file) (·.bytes = front) (·.bytes = front ++ tail) := by
  refine ends_viaIo (File.ends_operate (fun _ => whole) ?_)
  change file.bytes.take front.length ++ List.replicate (front.length - file.bytes.length) 0 = front
  simp [whole]

theorem ends_cutTail {front tail : List UInt8} {file : File} (whole : file.bytes = front ++ tail) :
    Ends (Journal.cutTail (front ++ tail).length front.length file) (·.bytes = front)
      (fun left => left.bytes = front ++ tail ∨ left.bytes = front) := by
  rw [Journal.cutTail]
  split_ifs with longer
  · have cut : Ends (viaIo (File.setLen front.length) file) (·.bytes = front)
        (fun left => left.bytes = front ++ tail ∨ left.bytes = front) :=
      (ends_setLen whole).imp (fun _ same => same) fun _ same => Or.inl same
    refine cut.bind fun _ left shortened => ?_
    refine ((reads_viaIo File.reads_touch).keeps left).imp (fun _ same => ?_) fun _ same => ?_
    · rw [same, shortened]
    · exact Or.inr (by rw [same, shortened])
  · have none : tail = [] := by simpa using longer
    change file.bytes = front
    rw [whole, none, List.append_nil]

theorem settle_faulty {front tail : List UInt8} {file : File} (memory : EntryStore)
    (whole : file.bytes = front ++ tail) :
    (∀ store left, settle (front ++ tail).length (front.length, memory) file = .ok store left →
      left.bytes = front ∧ store = { memory with journal := some ⟨left, front.length⟩ }) ∧
    ∀ trap left, settle (front ++ tail).length (front.length, memory) file = .error trap left →
      left.bytes = front ++ tail ∨ left.bytes = front := by
  have ends := ends_cutTail whole
  rw [settle]
  cases cut : Journal.cutTail (front ++ tail).length front.length file with
  | error trap left =>
    rw [cut] at ends
    rw [stateful_bind_of_error cut]
    refine ⟨fun store left' ran => ?_, fun trap' left' failed => ?_⟩
    · cases ran
    · cases failed
      exact ends
  | ok _ middle =>
    rw [cut] at ends
    rw [stateful_bind_of_ok cut]
    cases sought : viaIo (File.seek front.length) middle with
    | error trap left =>
      have kept := (reads_viaIo (File.reads_seek _)).error sought
      rw [stateful_bind_of_error sought]
      refine ⟨fun store left' ran => ?_, fun trap' left' failed => Or.inr ?_⟩
      · cases ran
      · cases failed
        exact kept.trans ends
    | ok _ left =>
      have kept := (reads_viaIo (File.reads_seek _)).ok sought
      rw [stateful_bind_of_ok sought]
      refine ⟨fun store left' ran => ?_, fun trap' left' failed => ?_⟩
      · cases ran
        exact ⟨kept.trans ends, rfl⟩
      · cases failed

/-- What an interrupted append leaves behind: the old tail, or a beginning of the record. -/
def Interrupted (front tail bytes : List UInt8) (left : File) : Prop :=
  left.bytes = front ++ tail ∨ ∃ n, left.bytes = front ++ (Journal.record bytes).take n

theorem ends_writeRecord {front tail : List UInt8} {file : File} (whole : file.bytes = front ++ tail)
    (bytes : List UInt8) :
    Ends (Journal.writeRecord front.length bytes file) (·.bytes = front ++ Journal.record bytes)
      (Interrupted front tail bytes) := by
  have cut : Ends (viaIo (File.setLen front.length) file) (·.bytes = front)
      (Interrupted front tail bytes) :=
    (ends_setLen whole).imp (fun _ same => same) fun _ same => Or.inl same
  rw [Journal.writeRecord]
  refine cut.bind fun _ left shortened => ?_
  have sought : Ends (viaIo (File.seek front.length) left)
      (fun f => f.bytes = front ∧ f.pos = f.bytes.length) (Interrupted front tail bytes) := by
    refine ends_viaIo (File.ends_operate (fun _ => Or.inr ⟨0, ?_⟩) ⟨shortened, ?_⟩)
    · rw [List.take_zero, List.append_nil]
      exact shortened
    · exact congrArg List.length shortened.symm
  refine sought.bind fun _ left placed => ?_
  have sized : Ends (viaIo (File.writeAll (leBytes 4 bytes.length)) left)
      (fun f => f.bytes = front ++ leBytes 4 bytes.length ∧ f.pos = f.bytes.length)
      (Interrupted front tail bytes) := by
    refine (ends_viaIo (File.ends_writeAll placed.2 _)).imp (fun _ written => ?_) fun _ written => ?_
    · exact ⟨written.1.trans (by rw [placed.1]), written.2⟩
    · obtain ⟨n, written⟩ := written
      refine Or.inr ⟨min n 4, written.trans ?_⟩
      rw [placed.1, Journal.record, List.take_append_of_le_length (by simp), List.take_eq_take_iff.mpr]
      simp
  refine sized.bind fun _ left placed => ?_
  have filled : Ends (viaIo (File.writeAll bytes) left) (·.bytes = front ++ Journal.record bytes)
      (Interrupted front tail bytes) := by
    refine (ends_viaIo (File.ends_writeAll placed.2 _)).imp (fun _ written => ?_) fun _ written => ?_
    · rw [written.1, placed.1, Journal.record, List.append_assoc]
    · obtain ⟨n, written⟩ := written
      refine Or.inr ⟨(leBytes 4 bytes.length).length + n, written.trans ?_⟩
      rw [placed.1, Journal.record, List.append_assoc, List.take_length_add_append]
  refine filled.bind fun _ left complete => ?_
  refine ((reads_viaIo File.reads_touch).keeps left).imp (fun _ same => same.trans complete) fun _ same => ?_
  exact Or.inr ⟨(Journal.record bytes).length, by rw [same, complete, List.take_length]⟩

theorem torn_take_record {bytes : List UInt8} (size : bytes.length ≤ maxRecord) {n : Nat}
    (cut : n < (Journal.record bytes).length) : Torn ((Journal.record bytes).take n) := by
  rw [length_record] at cut
  have length : ((Journal.record bytes).take n).length = n := by
    rw [List.length_take, length_record]
    omega
  by_cases short : n < 4
  · exact Or.inl (by omega)
  · have front : ((Journal.record bytes).take n).take 4 = leBytes 4 bytes.length := by
      rw [List.take_take, min_eq_left (by omega), Journal.record]
      exact List.take_left' (length_leBytes _ _)
    refine Or.inr ⟨by omega, ?_⟩
    rw [front, ofLe_length size, length]
    omega

theorem take_overwrite {α : Type} (xs : List α) (m n : Nat) :
    xs.take m ++ (xs.take n).drop (xs.take m).length = xs.take (max m n) := by
  rcases le_total n m with le | le
  · rw [max_eq_left le, List.drop_eq_nil_of_le, List.append_nil]
    rw [List.length_take, List.length_take]
    omega
  · rw [max_eq_right le, ← List.take_append_drop (xs.take m).length (xs.take n)]
    congr 1
    · rw [List.take_take, List.length_take, List.take_eq_take_iff]
      omega
    · rw [List.take_append_drop]

theorem ends_writeHeader {file : File} {n : Nat} (begun : file.bytes = magic.take n) (start : file.pos = 0) :
    Ends (viaIo (File.writeAll magic) file) (·.bytes = magic)
      (fun left => ∃ m, left.bytes = magic.take m) := by
  have put : ∀ m, (file.advance.put (magic.take m)).bytes = magic.take (max m n) := by
    intro m
    rw [← take_overwrite]
    simp [File.put, File.advance, start, begun]
  refine ends_viaIo (File.ends_operate (fun written => ⟨_, put written⟩) ?_)
  have whole := put magic.length
  rw [List.take_length] at whole
  exact whole.trans (List.take_of_length_le (le_max_left _ _))

theorem ends_restoreHeader (hasParent : Bool) {file : File} {len : Nat}
    (begun : file.bytes = magic.take len) :
    Ends (Journal.restoreHeader hasParent len file) (·.bytes = magic)
      (fun left => ∃ m, left.bytes = magic.take m) := by
  have synced : ∀ left : File, left.bytes = magic → Ends (viaIo File.touch left) (·.bytes = magic)
      (fun left => ∃ m, left.bytes = magic.take m) := fun left complete =>
    ((reads_viaIo File.reads_touch).keeps left).imp (fun _ same => same.trans complete)
      fun _ same => ⟨magic.length, same.trans complete⟩
  have read : Ends (viaIo (File.readExact len) file) (·.bytes = magic.take len)
      (fun left => ∃ m, left.bytes = magic.take m) :=
    ((reads_viaIo (File.reads_readExact len)).keeps file).imp (fun _ same => same.trans begun)
      fun _ same => ⟨len, same.trans begun⟩
  rw [Journal.restoreHeader]
  refine read.bind fun start left begun' => ?_
  by_cases other : start ≠ magic.take len
  · rw [if_pos other]
    exact ⟨len, begun'⟩
  rw [if_neg other]
  have sought : Ends (viaIo (File.seek 0) left) (fun f => f.bytes = magic.take len ∧ f.pos = 0)
      (fun left => ∃ m, left.bytes = magic.take m) :=
    ends_viaIo (File.ends_operate (fun _ => ⟨len, begun'⟩) ⟨begun', rfl⟩)
  refine sought.bind fun _ left at_start => ?_
  refine (ends_writeHeader at_start.1 at_start.2).bind fun _ left complete => ?_
  refine (synced left complete).bind fun _ left complete => ?_
  cases hasParent
  · exact complete
  · exact (synced left complete).bind fun _ left complete => synced left complete

theorem append_faulty {front tail : List UInt8} {journal after : Journal} {entry : Entry}
    {result : Exec StoreError Unit} (whole : journal.file.bytes = front ++ tail)
    (len : journal.len = front.length) (ran : journal.append entry = (result, after)) :
    (∃ trap, result = .error trap) ∧ after = journal ∨
    entry.toBytes.length ≤ maxRecord ∧ (front ++ Journal.record entry.toBytes).length ≤ maxBytes ∧
      ((∃ trap, result = .error trap) ∧ after.len = front.length ∧
          Interrupted front tail entry.toBytes after.file ∨
        result = .ok () ∧ after.len = (front ++ Journal.record entry.toBytes).length ∧
          after.file.bytes = front ++ Journal.record entry.toBytes) := by
  rw [Journal.append] at ran
  by_cases full : entry.toBytes.length > maxRecord ∨ journal.len + 4 + entry.toBytes.length > maxBytes
  · rw [if_pos full] at ran
    cases ran
    exact Or.inl ⟨⟨_, rfl⟩, rfl⟩
  rw [if_neg full] at ran
  have length := length_record entry.toBytes
  refine Or.inr ⟨by omega, by rw [List.length_append]; omega, ?_⟩
  have ends := ends_writeRecord whole entry.toBytes
  rw [← len] at ends
  cases written : Journal.writeRecord journal.len entry.toBytes journal.file with
  | ok _ file =>
    rw [written] at ends ran
    cases ran
    exact Or.inr ⟨rfl, by rw [List.length_append, length, len], ends⟩
  | error trap file =>
    rw [written] at ends ran
    cases ran
    exact Or.inl ⟨⟨trap, rfl⟩, len, ends⟩

section
variable [Sha256] [Ed25519]

theorem reads_readRecord (store : EntryStore) (remaining : Nat) :
    Reads (Journal.readRecord store remaining) := by
  unfold Journal.readRecord
  split_ifs
  · exact File.reads_pure _
  refine (reads_viaIo (File.reads_readExact 4)).bind fun size => ?_
  dsimp only
  split_ifs
  · exact File.reads_throw _
  · exact File.reads_pure _
  refine (reads_viaIo (File.reads_readExact _)).bind fun bytes => ?_
  cases Journal.readEntry store bytes
  · exact File.reads_throw _
  · exact File.reads_pure _

theorem reads_readRecords (fuel len offset : Nat) (store : EntryStore) :
    Reads (Journal.readRecords fuel len offset store) := by
  induction fuel generalizing offset store with
  | zero =>
    unfold Journal.readRecords
    split_ifs
    · exact File.reads_throw _
    · exact File.reads_pure _
  | succ fuel ih =>
    unfold Journal.readRecords
    split_ifs
    · refine (reads_readRecord store _).bind fun found => ?_
      rcases found with _ | ⟨size, next⟩
      · exact File.reads_pure _
      · exact ih _ _
    · exact File.reads_pure _

/-! ## Opening -/

theorem reads_scan (len : Nat) : Reads (scan len) := by
  refine (reads_viaIo (File.reads_seek 0)).bind fun _ => ?_
  refine (reads_viaIo (File.reads_readExact _)).bind fun header => ?_
  split_ifs
  · exact File.reads_throw _
  · exact reads_readRecords _ _ _ _

theorem readFrom_faulty {entries : List Entry} {memory : EntryStore} {tail : List UInt8} {file : File}
    (loads : Loads .new entries memory) (torn : Torn tail)
    (whole : file.bytes = magic ++ (recordsOf entries ++ tail)) :
    (∀ store left, Journal.readFrom file.bytes.length file = .ok store left →
      left.bytes = magic ++ recordsOf entries ∧
        store = { memory with journal := some ⟨left, (magic ++ recordsOf entries).length⟩ }) ∧
    ∀ trap left, Journal.readFrom file.bytes.length file = .error trap left →
      left.bytes = file.bytes ∨ left.bytes = magic ++ recordsOf entries := by
  rw [readFrom_eq]
  cases scanned : scan file.bytes.length file with
  | error trap left =>
    rw [stateful_bind_of_error scanned]
    refine ⟨fun store left' ran => ?_, fun trap' left' failed => Or.inl ?_⟩
    · cases ran
    · cases failed
      exact (reads_scan _).error scanned
  | ok found left =>
    have kept := (reads_scan _).ok scanned
    have erased := (reads_scan _).erases scanned
    obtain ⟨front', tail', -, quiet⟩ := scan_loads loads torn file.pos
    rw [File.erase, whole, quiet] at erased
    obtain ⟨rfl, -⟩ := EStateM.Result.ok.inj erased
    rw [← List.append_assoc] at whole
    have settled := settle_faulty memory (kept.trans whole)
    rw [stateful_bind_of_ok scanned, whole]
    exact settled

/-- The part of `openFile` before the first look at the bytes. -/
def enter : EStateM (Trap StoreError) File Nat := do
  viaIo File.touch
  modify fun file => { file with pos := 0 }
  viaIo File.touch
  viaIo File.length

omit [Sha256] [Ed25519] in
theorem reads_enter : Reads enter := by
  refine (reads_viaIo File.reads_touch).bind fun _ => ?_
  refine Reads.bind ⟨fun _ => rfl, fun _ _ _ ran => by cases ran; rfl⟩ fun _ => ?_
  exact (reads_viaIo File.reads_touch).bind fun _ => reads_viaIo File.reads_length

omit [Sha256] [Ed25519] in
theorem enter_length {file left : File} {len : Nat} (ran : enter file = .ok len left) :
    len = file.bytes.length := by
  have quiet : enter file.erase = .ok file.bytes.length ⟨file.bytes, 0, []⟩ := rfl
  have erased := reads_enter.erases ran
  rw [quiet] at erased
  exact (EStateM.Result.ok.inj erased).1.symm

theorem openFile_eq (hasParent : Bool) : Journal.openFile hasParent = enter >>= fun len =>
    if len > maxBytes then throw (.err .capacity)
    else if len < magic.length then do
      Journal.restoreHeader hasParent len
      Journal.readFrom magic.length
    else Journal.readFrom len := by
  rw [Journal.openFile, enter, bind_assoc]
  congr 1
  funext _
  rw [bind_assoc]
  congr 1
  funext _
  rw [bind_assoc]

theorem openFile_faulty (hasParent : Bool) {entries : List Entry} {memory : EntryStore}
    {tail : List UInt8} {file : File} (loads : Loads .new entries memory) (torn : Torn tail)
    (small : file.bytes.length ≤ maxBytes)
    (whole : file.bytes = magic ++ (recordsOf entries ++ tail)) :
    (∀ store left, Journal.openFile hasParent file = .ok store left →
      left.bytes = magic ++ recordsOf entries ∧
        store = { memory with journal := some ⟨left, (magic ++ recordsOf entries).length⟩ }) ∧
    ∀ trap left, Journal.openFile hasParent file = .error trap left →
      left.bytes = file.bytes ∨ left.bytes = magic ++ recordsOf entries := by
  have long : ¬ file.bytes.length < magic.length := by
    rw [whole, List.length_append]
    omega
  rw [openFile_eq]
  cases entered : enter file with
  | error trap left =>
    rw [stateful_bind_of_error entered]
    refine ⟨fun store left' ran => ?_, fun trap' left' failed => Or.inl ?_⟩
    · cases ran
    · cases failed
      exact reads_enter.error entered
  | ok len left =>
    have kept := reads_enter.ok entered
    obtain rfl := enter_length entered
    rw [stateful_bind_of_ok entered, if_neg (Nat.not_lt.mpr small), if_neg long, ← kept]
    exact readFrom_faulty loads torn (kept.trans whole)

theorem openFile_begun (hasParent : Bool) {file : File} (short : file.bytes.length < magic.length)
    (begun : file.bytes = magic.take file.bytes.length) :
    (∀ store left, Journal.openFile hasParent file = .ok store left →
      left.bytes = magic ∧ store = { EntryStore.new with journal := some ⟨left, magic.length⟩ }) ∧
    ∀ trap left, Journal.openFile hasParent file = .error trap left → ∃ m, left.bytes = magic.take m := by
  have small : ¬ file.bytes.length > maxBytes := Nat.not_lt.mpr (short.le.trans (by decide))
  rw [openFile_eq]
  cases entered : enter file with
  | error trap left =>
    rw [stateful_bind_of_error entered]
    refine ⟨fun store left' ran => ?_, fun trap' left' failed => ?_⟩
    · cases ran
    · cases failed
      exact ⟨_, (reads_enter.error entered).trans begun⟩
  | ok len left =>
    have kept := reads_enter.ok entered
    obtain rfl := enter_length entered
    have ends := ends_restoreHeader hasParent (kept.trans begun)
    rw [stateful_bind_of_ok entered, if_neg small, if_pos short]
    cases restored : Journal.restoreHeader hasParent file.bytes.length left with
    | error trap left' =>
      rw [restored] at ends
      rw [stateful_bind_of_error restored]
      refine ⟨fun store left₂ ran => ?_, fun trap' left₂ failed => ?_⟩
      · cases ran
      · cases failed
        exact ends
    | ok _ complete =>
      rw [restored] at ends
      have whole : complete.bytes = magic := ends
      have torn : Torn [] := Or.inl (by simp)
      have read := readFrom_faulty (Loads.nil EntryStore.new) torn
        (whole.trans (by simp [recordsOf]))
      rw [whole] at read
      simp only [recordsOf, List.flatMap_nil, List.append_nil] at read
      rw [stateful_bind_of_ok restored]
      refine ⟨read.1, fun trap left₂ failed => ⟨magic.length, ?_⟩⟩
      exact (read.2 trap left₂ failed).elim id id

end

end Racnet.Proof.Storage
