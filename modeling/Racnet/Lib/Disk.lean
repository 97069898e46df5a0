import Racnet.Lib.Exec

/-!
# A file whose operations can fail

What the coming operations will meet is part of the file: a list of faults, one for each operation, and
no faults after its end.
-/

namespace Racnet.Lib

inductive Fault where
  | none
  /-- The operation reports an error; of a write, the first `written` bytes are in the file. -/
  | fails (written : Nat) (reason : String)
  /-- The process ends at the operation; of a write, the first `written` bytes are in the file. -/
  | stops (written : Nat)
  deriving DecidableEq

structure File where
  bytes : List UInt8
  pos : Nat
  faults : List Fault
  deriving DecidableEq

namespace File

/-- A computation on a file. Its end without a value is a panic or the end of the process. -/
abbrev Action (α : Type) := EStateM (Trap String) File α

/-- The file without the fault that the current operation meets. -/
def advance (file : File) : File := { file with faults := file.faults.tail }

/-- One operation: its whole effect, or its interrupted one. -/
def operate {α : Type} (interrupted : Nat → File → File) (whole : Action α) : Action α := fun file =>
  match file.faults.head? with
  | some (.fails written reason) => .error (.err reason) (interrupted written file.advance)
  | some (.stops written) => .error .panic (interrupted written file.advance)
  | _ => whole file.advance

/-- An operation that changes nothing by itself: opening, locking, syncing. -/
def touch : Action Unit := operate (fun _ file => file) (pure ())

def length : Action Nat := operate (fun _ file => file) fun file => .ok file.bytes.length file

def seek (pos : Nat) : Action Unit :=
  operate (fun _ file => file) fun file => .ok () { file with pos }

def setLen (len : Nat) : Action Unit :=
  operate (fun _ file => file) fun file =>
    .ok () { file with bytes := file.bytes.take len ++ List.replicate (len - file.bytes.length) 0 }

/-- The file after `data` has been written at the current position. -/
def put (data : List UInt8) (file : File) : File :=
  { file with
    bytes := file.bytes.take file.pos ++ List.replicate (file.pos - file.bytes.length) 0 ++ data ++
      file.bytes.drop (file.pos + data.length)
    pos := file.pos + data.length }

def writeAll (data : List UInt8) : Action Unit :=
  operate (fun written file => file.put (data.take written)) fun file => .ok () (file.put data)

def readExact (n : Nat) : Action (List UInt8) :=
  operate (fun _ file => file) fun file =>
    if file.pos + n ≤ file.bytes.length then
      .ok ((file.bytes.drop file.pos).take n) { file with pos := file.pos + n }
    else .error (.err "failed to fill whole buffer") { file with pos := file.bytes.length }

/-! ## A file without faults -/

/-- A file whose coming operations meet no fault, with its position after `front`. -/
def quiet (front rest : List UInt8) : File := ⟨front ++ rest, front.length, []⟩

theorem readExact_quiet (front data rest : List UInt8) :
    readExact data.length (quiet front (data ++ rest)) = .ok data (quiet (front ++ data) rest) := by
  have fits : front.length + data.length ≤ front.length + (data.length + rest.length) := by omega
  simp only [readExact, operate, quiet, advance, List.head?_nil, List.tail_nil, List.length_append,
    fits, if_true, List.drop_left, List.take_left, List.append_assoc]

/-- The file with no faults to come. -/
def erase (file : File) : File := { file with faults := [] }

/-- What the file is after a success, and after an error or the end of the process. -/
def Ends {ε α : Type} (result : EStateM.Result ε File α) (good bad : File → Prop) : Prop :=
  match result with
  | .ok _ file => good file
  | .error _ file => bad file

/-- A computation that only reads: the bytes stay, whatever the outcome, and what succeeds does the same
without faults. -/
structure Reads {ε α : Type} (x : EStateM ε File α) : Prop where
  keeps : ∀ file, Ends (x file) (·.bytes = file.bytes) (·.bytes = file.bytes)
  erases : ∀ ⦃file a file'⦄, x file = .ok a file' → x file.erase = .ok a file'.erase

section
variable {ε α β : Type} {x : EStateM ε File α} {f : α → EStateM ε File β}
variable {good next bad : File → Prop} {file file' : File}

theorem Ends.bind (first : Ends (x file) good bad)
    (rest : ∀ a file', good file' → Ends (f a file') next bad) : Ends ((x >>= f) file) next bad := by
  cases ran : x file with
  | error e file' =>
    rw [ran] at first
    rw [stateful_bind_of_error ran]
    exact first
  | ok a file' =>
    rw [ran] at first
    rw [stateful_bind_of_ok ran]
    exact rest a file' first

theorem Ends.imp {good' bad' : File → Prop} {result : EStateM.Result ε File α}
    (ends : Ends result good bad) (onOk : ∀ file, good file → good' file)
    (onError : ∀ file, bad file → bad' file) : Ends result good' bad' := by
  cases result with
  | ok a file => exact onOk file ends
  | error e file => exact onError file ends

theorem reads_pure (a : α) : Reads (pure a : EStateM ε File α) :=
  ⟨fun _ => rfl, fun _ _ _ ran => by cases ran; rfl⟩

theorem reads_throw (e : ε) : Reads (throw e : EStateM ε File α) :=
  ⟨fun _ => rfl, fun _ _ _ ran => by cases ran⟩

theorem Reads.bind (first : Reads x) (rest : ∀ a, Reads (f a)) : Reads (x >>= f) := by
  refine ⟨fun file => ?_, fun file b file' ran => ?_⟩
  · exact (first.keeps file).bind fun a file' same => same ▸ (rest a).keeps file'
  · obtain ⟨a, file₁, ran₁, ran₂⟩ := stateful_bind_eq_ok ran
    rw [stateful_bind_of_ok (first.erases ran₁), (rest a).erases ran₂]

theorem Reads.ok (reads : Reads x) {a : α} (ran : x file = .ok a file') : file'.bytes = file.bytes := by
  have kept := reads.keeps file
  rwa [ran] at kept

theorem Reads.error (reads : Reads x) {e : ε} (failed : x file = .error e file') :
    file'.bytes = file.bytes := by
  have kept := reads.keeps file
  rwa [failed] at kept

end

section
variable {α : Type} {interrupted : Nat → File → File} {whole : Action α}

theorem ends_operate {good bad : File → Prop} {file : File}
    (cut : ∀ written, bad (interrupted written file.advance)) (inner : Ends (whole file.advance) good bad) :
    Ends (operate interrupted whole file) good bad := by
  rw [operate]
  rcases file.faults.head? with _ | fault
  · exact inner
  · cases fault with
    | none => exact inner
    | fails written reason => exact cut written
    | stops written => exact cut written

theorem reads_operate (cut : ∀ written file, (interrupted written file).bytes = file.bytes)
    (inner : Reads whole) : Reads (operate interrupted whole) := by
  refine ⟨fun file => ?_, fun file a file' ran => ?_⟩
  · exact ends_operate (fun written => cut written file.advance) (inner.keeps file.advance)
  · rw [operate] at ran
    split at ran
    · cases ran
    · cases ran
    · have erased : whole file.advance.erase = .ok a file'.erase := inner.erases ran
      exact erased

end

theorem reads_touch : Reads touch := reads_operate (fun _ _ => rfl) (reads_pure ())

theorem reads_length : Reads length :=
  reads_operate (fun _ _ => rfl) ⟨fun _ => rfl, fun _ _ _ ran => by cases ran; rfl⟩

theorem reads_seek (pos : Nat) : Reads (seek pos) :=
  reads_operate (fun _ _ => rfl) ⟨fun _ => rfl, fun _ _ _ ran => by cases ran; rfl⟩

theorem reads_readExact (n : Nat) : Reads (readExact n) := by
  refine reads_operate (fun _ _ => rfl) ⟨fun file => ?_, fun file a file' ran => ?_⟩ <;>
    by_cases fits : file.pos + n ≤ file.bytes.length
  · rw [if_pos fits]
    rfl
  · rw [if_neg fits]
    rfl
  · rw [if_pos fits] at ran
    cases ran
    exact if_pos fits
  · rw [if_neg fits] at ran
    cases ran

theorem put_end {file : File} (atEnd : file.pos = file.bytes.length) (data : List UInt8) :
    (file.put data).bytes = file.bytes ++ data ∧ (file.put data).pos = (file.put data).bytes.length := by
  simp [put, atEnd]

/-- A write at the end of the file: an interrupted one appends a beginning of the data. -/
theorem ends_writeAll {file : File} (atEnd : file.pos = file.bytes.length) (data : List UInt8) :
    Ends (writeAll data file) (fun left => left.bytes = file.bytes ++ data ∧ left.pos = left.bytes.length)
      (fun left => ∃ n, left.bytes = file.bytes ++ data.take n) :=
  ends_operate (fun written => ⟨written, (@put_end file.advance atEnd _).1⟩) (@put_end file.advance atEnd data)

end File

end Racnet.Lib
