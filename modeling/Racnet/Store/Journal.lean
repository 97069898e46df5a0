import Racnet.Lib.Disk
import Racnet.Wire.Entry

namespace Racnet.Store
open Lib Wire

inductive StoreError where
  | storage (reason : String)
  | capacity
  | badSignature
  | sortKeyReserved
  deriving DecidableEq, Repr

def StoreError.toString : StoreError → String
  | storage reason => "entry storage: " ++ reason
  | capacity => "entry storage is full (64 MiB or 10,000 entries)"
  | badSignature => "invalid entry signature"
  | sortKeyReserved => "sort key 2^64 - 1 is reserved"

/-- `b"RACNET01"`. -/
def magic : List UInt8 := [82, 65, 67, 78, 69, 84, 48, 49]

def maxRecord : Nat := 1048576

def maxBytes : Nat := 64 * 1024 * 1024

def maxEntries : Nat := 10000

structure Journal where
  file : File
  len : Nat
  deriving DecidableEq

/-- A file operation whose error is reported as a storage error: `map_err(io)`. -/
def viaIo {α : Type} (action : File.Action α) : EStateM (Trap StoreError) File α := fun file =>
  match action file with
  | .ok a file => .ok a file
  | .error (.err reason) file => .error (.err (.storage reason)) file
  | .error .panic file => .error .panic file

namespace Journal

/-- The record of an entry: the length of its encoding in four bytes, and the encoding. -/
def record (bytes : List UInt8) : List UInt8 := leBytes 4 bytes.length ++ bytes

/-- The file operations of `append`, which start by cutting off what a failed write has left. -/
def writeRecord (len : Nat) (bytes : List UInt8) : EStateM (Trap StoreError) File Unit := do
  viaIo (File.setLen len)
  viaIo (File.seek len)
  viaIo (File.writeAll (leBytes 4 bytes.length))
  viaIo (File.writeAll bytes)
  viaIo File.touch

def append (journal : Journal) (entry : Entry) : Exec StoreError Unit × Journal :=
  let bytes := entry.toBytes
  if bytes.length > maxRecord ∨ journal.len + 4 + bytes.length > maxBytes then
    (.fail .capacity, journal)
  else
    match writeRecord journal.len bytes journal.file with
    | .ok () file => (.ok (), ⟨file, journal.len + (4 + bytes.length)⟩)
    | .error trap file => (.error trap, { journal with file })

end Journal

end Racnet.Store
