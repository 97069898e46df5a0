import Racnet.Lib.Bytes
import Racnet.Lib.Endian

/-!
# CBOR items

The part of the minicbor crate that the wire format uses. Writers emit the shortest head and definite
lengths. Readers take a head of any width; what they return is the value and the bytes after it.
-/

namespace Racnet.Lib.Cbor

/-! ## Writers -/

/-- The head of an item of type `major` with argument `n`. -/
def head (major n : Nat) : List UInt8 :=
  if n < 24 then [UInt8.ofNat (32 * major + n)]
  else if n < 2 ^ 8 then UInt8.ofNat (32 * major + 24) :: beBytes 1 n
  else if n < 2 ^ 16 then UInt8.ofNat (32 * major + 25) :: beBytes 2 n
  else if n < 2 ^ 32 then UInt8.ofNat (32 * major + 26) :: beBytes 4 n
  else UInt8.ofNat (32 * major + 27) :: beBytes 8 n

def unsigned (n : Nat) : List UInt8 := head 0 n

def byteString (bytes : List UInt8) : List UInt8 := head 2 bytes.length ++ bytes

def array (length : Nat) : List UInt8 := head 4 length

def map (length : Nat) : List UInt8 := head 5 length

/-! ## Readers -/

/-- The argument that follows the first byte of a head; `none` for the reserved and the indefinite
forms, and when the input ends. -/
def readArgument (info : Nat) (rest : List UInt8) : Option (Nat × List UInt8) :=
  if info < 24 then some (info, rest)
  else
    let width := if info = 24 then 1 else if info = 25 then 2 else if info = 26 then 4
      else if info = 27 then 8 else 0
    if width = 0 ∨ rest.length < width then none
    else some (ofBe (rest.take width), rest.drop width)

/-- A definite head of type `major`. -/
def readHead (major : Nat) : List UInt8 → Option (Nat × List UInt8)
  | [] => none
  | first :: rest =>
    if first.toNat / 32 = major then readArgument (first.toNat % 32) rest else none

def readUnsigned (input : List UInt8) : Option (Nat × List UInt8) := readHead 0 input

def readBytes (input : List UInt8) : Option (List UInt8 × List UInt8) := do
  let (length, rest) ← readHead 2 input
  if length ≤ rest.length then some (rest.take length, rest.drop length) else none

/-! ## Reading what was written -/

theorem readHead_cons {major info : Nat} (type : major < 8) (small : info < 32)
    (rest : List UInt8) :
    readHead major (UInt8.ofNat (32 * major + info) :: rest) = readArgument info rest := by
  have first : (UInt8.ofNat (32 * major + info)).toNat = 32 * major + info :=
    UInt8.toNat_ofNat_of_lt' (by rw [UInt8.size]; omega)
  rw [readHead, first, if_pos (by omega)]
  congr 1
  omega

theorem readArgument_beBytes {info width n : Nat}
    (wide : info = 24 ∧ width = 1 ∨ info = 25 ∧ width = 2 ∨ info = 26 ∧ width = 4 ∨
      info = 27 ∧ width = 8) (fits : n < 256 ^ width) (rest : List UInt8) :
    readArgument info (beBytes width n ++ rest) = some (n, rest) := by
  have taken : (beBytes width n ++ rest).take width = beBytes width n :=
    List.take_left' (length_beBytes width n)
  have dropped : (beBytes width n ++ rest).drop width = rest :=
    List.drop_left' (length_beBytes width n)
  have enough : ¬ (beBytes width n ++ rest).length < width := by
    rw [List.length_append, length_beBytes]
    omega
  have unfolded : ∀ input, readArgument info input =
      if width = 0 ∨ input.length < width then none
      else some (ofBe (input.take width), input.drop width) := by
    rcases wide with ⟨rfl, rfl⟩ | ⟨rfl, rfl⟩ | ⟨rfl, rfl⟩ | ⟨rfl, rfl⟩ <;> exact fun _ => rfl
  rw [unfolded, if_neg (by omega), taken, dropped, ofBe_beBytes fits]

theorem readHead_head {major n : Nat} (type : major < 8) (fits : n < 2 ^ 64) (rest : List UInt8) :
    readHead major (head major n ++ rest) = some (n, rest) := by
  rw [head]
  split_ifs with tiny one two four
  · rw [List.singleton_append, readHead_cons type (by omega), readArgument, if_pos tiny]
  all_goals
    rw [List.cons_append, readHead_cons type (by omega)]
    exact readArgument_beBytes (by simp) (by omega) rest

theorem readUnsigned_unsigned {n : Nat} (fits : n < 2 ^ 64) (rest : List UInt8) :
    readUnsigned (unsigned n ++ rest) = some (n, rest) :=
  readHead_head (by omega) fits rest

theorem readBytes_byteString {bytes : List UInt8} (fits : bytes.length < 2 ^ 64)
    (rest : List UInt8) : readBytes (byteString bytes ++ rest) = some (bytes, rest) := by
  rw [readBytes, byteString, List.append_assoc, readHead_head (by omega) fits]
  simp

theorem length_head_le (major n : Nat) : (head major n).length ≤ 9 := by
  rw [head]
  split_ifs <;> simp

theorem length_head_pos (major n : Nat) : 0 < (head major n).length := by
  rw [head]
  split_ifs <;> simp

end Racnet.Lib.Cbor
