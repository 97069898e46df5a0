import Racnet.Lib.Cbor

/-!
# Arrays, maps and records

What minicbor's encoders and decoders do for lists and derived records. A record is a map from small
keys, or an array. Its reader takes the fields in any order, the last of two fields with one key, and
skips what it does not know. An array or a map may also come without a length, ended by a break. How an
item is skipped is a parameter.
-/

namespace Racnet.Lib.Cbor

/-- Reads a value from the front of the input; what is left of the input comes with it. -/
abbrev Reader (α : Type) := List UInt8 → Option (α × List UInt8)

variable {α β γ σ : Type}

/-! ## Writers -/

def list (write : α → List UInt8) (xs : List α) : List UInt8 :=
  array xs.length ++ xs.flatMap write

/-- A map from the keys `0`, `1`, … to values that are written already. -/
def record (fields : List (List UInt8)) : List UInt8 :=
  map fields.length ++ (fields.zipIdx.flatMap fun (field, key) => unsigned key ++ field)

/-! ## Readers -/

/-- The head of an array or a map; without a length if a break is to end it. -/
def readLength (major : Nat) : Reader (Option Nat)
  | [] => none
  | first :: rest =>
    if first.toNat / 32 = major then
      if first.toNat % 32 = 31 then some (none, rest)
      else (readArgument (first.toNat % 32) rest).map fun (n, rest) => (some n, rest)
    else none

/-- Takes a step `n` times. -/
def readTimes (step : σ → Reader σ) : Nat → σ → Reader σ
  | 0, s, input => some (s, input)
  | n + 1, s, input => do
    let (s, rest) ← step s input
    readTimes step n s rest

/-- Takes a step up to the break, at most `fuel` times: every item has a byte. -/
def readUntilBreak (step : σ → Reader σ) : Nat → σ → Reader σ
  | 0, _, _ => none
  | fuel + 1, s, input =>
    if input.head? = some 0xff then some (s, input.tail)
    else do
      let (s, rest) ← step s input
      readUntilBreak step fuel s rest

def readElements (major factor : Nat) (step : σ → Reader σ) (s : σ) : Reader σ := fun input => do
  let (length, rest) ← readLength major input
  match length with
  | some n => readTimes step (factor * n) s rest
  | none => readUntilBreak step input.length s rest

/-- Puts what `read` returns into the record. -/
def into (read : Reader α) (put : α → σ → σ) (s : σ) : Reader σ := fun input => do
  let (a, rest) ← read input
  some (put a s, rest)

def readList (read : Reader α) : Reader (List α) :=
  readElements 4 1 (into read fun x xs => xs ++ [x]) []

/-- A signed 64-bit integer. -/
def readInteger : Reader Int
  | [] => none
  | first :: rest => do
    let (n, rest) ← readArgument (first.toNat % 32) rest
    if 2 ^ 63 ≤ n then none
    else if first.toNat / 32 = 0 then some (n, rest)
    else if first.toNat / 32 = 1 then some (-1 - n, rest)
    else none

/-- A way to skip one item. -/
structure Skip where
  read : Reader Unit
  shortens : ∀ {input rest : List UInt8}, read input = some ((), rest) → rest.length ≤ input.length

/-- Leaves the record as it is. -/
def ignored (skip : Skip) (s : σ) : Reader σ := fun input => do
  let ((), rest) ← skip.read input
  some (s, rest)

/-- A key and its value, which is given to `field` with the record so far. -/
def keyed (field : Int → σ → Reader σ) (s : σ) : Reader σ := fun input => do
  let (key, rest) ← readInteger input
  field key s rest

def readMap (field : Int → σ → Reader σ) (s : σ) : Reader σ := readElements 5 1 (keyed field) s

/-- An element, which is given to `field` with its index and the record so far. -/
def indexed (field : Nat → σ → Reader σ) (s : Nat × σ) : Reader (Nat × σ) := fun input => do
  let (filled, rest) ← field s.1 s.2 input
  some ((s.1 + 1, filled), rest)

def readTuple (field : Nat → σ → Reader σ) (s : σ) : Reader σ := fun input => do
  let ((_, s), rest) ← readElements 4 1 (indexed field) (0, s) input
  some (s, rest)

/-- A record of one field. -/
def readRecord1 (skip : Skip) (first : Reader α) : Reader α := fun input => do
  let (a, rest) ← readMap (fun key =>
    if key = 0 then into first fun a _ => some a else ignored skip) none input
  some (← a, rest)

def readRecord2 (skip : Skip) (first : Reader α) (second : Reader β) : Reader (α × β) := fun input => do
  let ((a, b), rest) ← readMap (fun key =>
    if key = 0 then into first fun a (_, b) => (some a, b)
    else if key = 1 then into second fun b (a, _) => (a, some b)
    else ignored skip) (none, none) input
  some ((← a, ← b), rest)

def readRecord3 (skip : Skip) (first : Reader α) (second : Reader β) (third : Reader γ) :
    Reader (α × β × γ) := fun input => do
  let ((a, b, c), rest) ← readMap (fun key =>
    if key = 0 then into first fun a (_, b, c) => (some a, b, c)
    else if key = 1 then into second fun b (a, _, c) => (a, some b, c)
    else if key = 2 then into third fun c (a, b, _) => (a, b, some c)
    else ignored skip) (none, none, none) input
  some ((← a, ← b, ← c), rest)

/-- An array of two elements; what follows them is skipped. -/
def readPair (skip : Skip) (first : Reader α) (second : Reader β) : Reader (α × β) := fun input => do
  let ((a, b), rest) ← readTuple (fun index =>
    if index = 0 then into first fun a (_, b) => (some a, b)
    else if index = 1 then into second fun b (a, _) => (a, some b)
    else ignored skip) (none, none) input
  some ((← a, ← b), rest)

/-! ## Reading what was written -/

theorem readLength_head {major n : Nat} (type : major < 8) (fits : n < 2 ^ 64)
    (rest : List UInt8) : readLength major (head major n ++ rest) = some (some n, rest) := by
  have read := readHead_head type fits rest
  cases start : head major n ++ rest with
  | nil =>
    rw [start] at read
    cases read
  | cons first tail =>
    rw [start, readHead] at read
    split_ifs at read with same
    rw [readLength, if_pos same]
    have definite : first.toNat % 32 ≠ 31 := by
      intro indefinite
      rw [indefinite] at read
      simp [readArgument] at read
    rw [if_neg definite, read]
    rfl

theorem readInteger_unsigned {n : Nat} (fits : n < 2 ^ 63) (rest : List UInt8) :
    readInteger (unsigned n ++ rest) = some ((n : Int), rest) := by
  have read := readUnsigned_unsigned (by omega : n < 2 ^ 64) rest
  cases start : unsigned n ++ rest with
  | nil =>
    rw [start] at read
    cases read
  | cons first tail =>
    rw [start, readUnsigned, readHead] at read
    split_ifs at read with type
    rw [readInteger, read]
    simp only [Option.bind_eq_bind, Option.bind_some]
    rw [if_neg (by omega), if_pos type]

theorem into_of_some {read : Reader α} {put : α → σ → σ} {s : σ} {a : α} {input rest : List UInt8}
    (ran : read input = some (a, rest)) : into read put s input = some (put a s, rest) := by
  rw [into, ran]
  rfl

theorem readTimes_list {read : Reader α} {write : α → List UInt8} {xs : List α}
    (inverts : ∀ x ∈ xs, ∀ rest, read (write x ++ rest) = some (x, rest)) (done : List α)
    (rest : List UInt8) :
    readTimes (into read fun x xs => xs ++ [x]) xs.length done (xs.flatMap write ++ rest) =
      some (done ++ xs, rest) := by
  induction xs generalizing done with
  | nil => rw [List.append_nil]; rfl
  | cons x xs ih =>
    rw [List.length_cons, readTimes, List.flatMap_cons, List.append_assoc,
      into_of_some (inverts x List.mem_cons_self _), List.append_cons done x xs]
    exact ih (fun y mem => inverts y (List.mem_cons_of_mem x mem)) (done ++ [x])

theorem readList_list {read : Reader α} {write : α → List UInt8} {xs : List α}
    (inverts : ∀ x ∈ xs, ∀ rest, read (write x ++ rest) = some (x, rest))
    (fits : xs.length < 2 ^ 64) (rest : List UInt8) :
    readList read (list write xs ++ rest) = some (xs, rest) := by
  rw [readList, readElements, list, array, List.append_assoc, readLength_head (by omega) fits]
  simp only [Option.bind_eq_bind, Option.bind_some, Nat.one_mul]
  exact readTimes_list inverts [] rest

theorem keyed_unsigned {field : Int → σ → Reader σ} {key : Nat} (small : key < 2 ^ 63) (s : σ)
    (input : List UInt8) : keyed field s (unsigned key ++ input) = field key s input := by
  rw [keyed, readInteger_unsigned small]
  rfl

theorem readMap_record (field : Int → σ → Reader σ) (s : σ) {items : List (List UInt8)}
    (few : items.length < 2 ^ 64) (rest : List UInt8) :
    readMap field s (record items ++ rest) = readTimes (keyed field) items.length s
      ((items.zipIdx.flatMap fun (item, key) => unsigned key ++ item) ++ rest) := by
  rw [readMap, readElements, record, map, List.append_assoc, readLength_head (by omega) few]
  simp only [Option.bind_eq_bind, Option.bind_some, Nat.one_mul]

theorem readRecord1_record {skip : Skip} {first : Reader α} {item : List UInt8} {a : α}
    (readFirst : ∀ rest, first (item ++ rest) = some (a, rest)) (rest : List UInt8) :
    readRecord1 skip first (record [item] ++ rest) = some (a, rest) := by
  rw [readRecord1, readMap_record _ _ (by simp)]
  simp only [List.length_singleton, List.zipIdx_cons, List.zipIdx_nil, List.flatMap_cons,
    List.flatMap_nil, List.append_nil, List.append_assoc, readTimes,
    keyed_unsigned (show 0 < 2 ^ 63 by omega), Nat.cast_zero, if_true,
    into_of_some (readFirst _), Option.bind_eq_bind, Option.bind_some]

theorem readRecord2_record {skip : Skip} {first : Reader α} {second : Reader β}
    {item item' : List UInt8} {a : α} {b : β} (readFirst : ∀ rest, first (item ++ rest) = some (a, rest))
    (readSecond : ∀ rest, second (item' ++ rest) = some (b, rest)) (rest : List UInt8) :
    readRecord2 skip first second (record [item, item'] ++ rest) = some ((a, b), rest) := by
  rw [readRecord2, readMap_record _ _ (by simp)]
  simp only [List.length_cons, List.length_nil, List.zipIdx_cons, List.zipIdx_nil,
    List.flatMap_cons, List.flatMap_nil, List.append_nil, List.append_assoc, readTimes,
    keyed_unsigned (show 0 < 2 ^ 63 by omega), keyed_unsigned (show 1 < 2 ^ 63 by omega),
    Nat.zero_add, Nat.cast_zero, Nat.cast_one, if_true, one_ne_zero, if_false,
    into_of_some (readFirst _), into_of_some (readSecond _), Option.bind_eq_bind, Option.bind_some]

theorem readRecord3_record {skip : Skip} {first : Reader α} {second : Reader β} {third : Reader γ}
    {item item' item'' : List UInt8} {a : α} {b : β} {c : γ}
    (readFirst : ∀ rest, first (item ++ rest) = some (a, rest))
    (readSecond : ∀ rest, second (item' ++ rest) = some (b, rest))
    (readThird : ∀ rest, third (item'' ++ rest) = some (c, rest)) (rest : List UInt8) :
    readRecord3 skip first second third (record [item, item', item''] ++ rest) =
      some ((a, b, c), rest) := by
  rw [readRecord3, readMap_record _ _ (by simp)]
  simp only [List.length_cons, List.length_nil, List.zipIdx_cons, List.zipIdx_nil,
    List.flatMap_cons, List.flatMap_nil, List.append_nil, List.append_assoc, readTimes,
    keyed_unsigned (show 0 < 2 ^ 63 by omega), keyed_unsigned (show 1 < 2 ^ 63 by omega),
    keyed_unsigned (show 2 < 2 ^ 63 by omega),
    Nat.zero_add, Nat.cast_zero, Nat.cast_one, Nat.cast_ofNat, Nat.reduceAdd, if_true, one_ne_zero,
    if_false, into_of_some (readFirst _), into_of_some (readSecond _), into_of_some (readThird _),
    Option.bind_eq_bind, Option.bind_some, OfNat.ofNat_ne_zero, OfNat.ofNat_ne_one]

theorem readPair_array {skip : Skip} {first : Reader α} {second : Reader β}
    {item item' : List UInt8} {a : α} {b : β} (readFirst : ∀ rest, first (item ++ rest) = some (a, rest))
    (readSecond : ∀ rest, second (item' ++ rest) = some (b, rest)) (rest : List UInt8) :
    readPair skip first second (array 2 ++ (item ++ (item' ++ rest))) = some ((a, b), rest) := by
  rw [readPair, readTuple, readElements, array, readLength_head (by omega) (by omega)]
  simp only [Option.bind_eq_bind, Option.bind_some, Nat.one_mul, readTimes, indexed, if_true,
    into_of_some (readFirst _), Nat.zero_add, one_ne_zero, if_false, into_of_some (readSecond _)]

theorem length_le_list {write : α → List UInt8} (nonempty : ∀ x, 0 < (write x).length)
    (xs : List α) : xs.length ≤ (list write xs).length := by
  have items : xs.length ≤ (xs.flatMap write).length := by
    induction xs with
    | nil => exact Nat.zero_le _
    | cons x xs ih =>
      rw [List.flatMap_cons, List.length_append, List.length_cons]
      have := nonempty x
      omega
  rw [list, List.length_append]
  omega

theorem length_le_byteString (bytes : List UInt8) : bytes.length ≤ (byteString bytes).length := by
  rw [byteString, List.length_append]
  exact Nat.le_add_left _ _

theorem length_le_record {items : List (List UInt8)} {item : List UInt8} (mem : item ∈ items) :
    item.length ≤ (record items).length := by
  obtain ⟨key, found⟩ := List.getElem?_of_mem mem
  have written := List.sublist_flatten_of_mem (List.mem_map_of_mem
    (f := fun (item, key) => unsigned key ++ item) (List.mk_mem_zipIdx_iff_getElem?.mpr found))
  have le := written.length_le
  rw [record, List.length_append, List.flatMap_def]
  rw [List.length_append] at le
  omega

end Racnet.Lib.Cbor
