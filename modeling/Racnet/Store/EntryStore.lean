import Mathlib.Data.List.AList
import Racnet.Store.Journal
import Racnet.Store.Order
import Racnet.Wire.Payload

namespace Racnet.Store
open Lib Wire

/-- Entries by id, their order, and for a durable store its journal. -/
structure EntryStore where
  entries : AList fun _ : EntryId => Entry
  order : OrderIndex
  journal : Option Journal

namespace EntryStore

def new : EntryStore := ⟨∅, OrderIndex.new, none⟩

def get (store : EntryStore) (id : EntryId) : Option Entry := store.entries.lookup id

def contains (store : EntryStore) (id : EntryId) : Bool := decide (id ∈ store.entries)

def len (store : EntryStore) : Nat := store.entries.keys.length

/-- The items in a window, in order. -/
def snapshot (store : EntryStore) (window : SortKeyWindow) : Option (List Item) := do
  let lo ← store.order.lowerBound ⟨window.since, FixedBytes.zero 32⟩
  let hi ← store.order.lowerBound ⟨window.until_, FixedBytes.zero 32⟩
  store.order.collectRange lo (max hi lo)

/-- Writes an entry to the journal, if there is one. -/
def commit (store : EntryStore) (entry : Entry) : Exec StoreError Unit × EntryStore :=
  match store.journal with
  | none => (.ok (), store)
  | some journal =>
    if store.len ≥ maxEntries then (.fail .capacity, store)
    else
      let (result, journal) := journal.append entry
      (result, { store with journal := some journal })

variable [Sha256] [Ed25519]

/-- Verifies and inserts an entry; `false` when its id is held already. -/
def insert (store : EntryStore) (entry : Entry) : Exec StoreError Bool × EntryStore :=
  if entry.sortKey = UInt64.ofNat (2 ^ 64 - 1) then (.fail .sortKeyReserved, store)
  else
    match entry.verify with
    | .error _ => (.fail .badSignature, store)
    | .ok () =>
      if store.contains entry.id then (.ok false, store)
      else
        match store.commit entry with
        | (.error trap, store) => (.error trap, store)
        | (.ok (), store) =>
          match store.order.insert ⟨entry.sortKey, entry.id⟩ with
          | none => (.error .panic, store)
          | some (order, _) =>
            (.ok true, { store with order, entries := store.entries.insert entry.id entry })

end EntryStore

/-! ## Opening a journal -/

namespace Journal
variable [Sha256] [Ed25519]

/-- The header of a file that has less than one: an interrupted creation is completed. -/
def restoreHeader (hasParent : Bool) (len : Nat) : EStateM (Trap StoreError) File Unit := do
  let start ← viaIo (File.readExact len)
  if start ≠ magic.take len then throw (.err (.storage "unrecognized entry journal"))
  else
    viaIo (File.seek 0)
    viaIo (File.writeAll magic)
    viaIo File.touch
    if hasParent then
      viaIo File.touch
      viaIo File.touch

/-- The store with the entry of a record. -/
def readEntry (store : EntryStore) (bytes : List UInt8) : Exec StoreError EntryStore :=
  match Entry.decode bytes with
  | none => .fail (.storage "invalid entry")
  | some (entry, _) =>
    if entry.toBytes ≠ bytes then .fail (.storage "noncanonical journal record")
    else if store.len ≥ maxEntries then .fail .capacity
    else
      match store.insert entry with
      | (.error trap, _) => .error trap
      | (.ok _, store) => .ok store

/-- One record: `none` at a tail that is not a whole record. -/
def readRecord (store : EntryStore) (remaining : Nat) :
    EStateM (Trap StoreError) File (Option (Nat × EntryStore)) :=
  if remaining < 4 then pure none
  else do
    let size := ofLe (← viaIo (File.readExact 4))
    if size = 0 ∨ size > maxRecord then throw (.err (.storage "invalid journal record length"))
    else if remaining - 4 < size then pure none
    else
      let bytes ← viaIo (File.readExact size)
      match readEntry store bytes with
      | .error trap => throw trap
      | .ok store => pure (some (4 + size, store))

/-- The loop over the records: the end of the last whole record, and the store of their entries. Every
record takes bytes, so the length of the file is fuel enough. -/
def readRecords : Nat → Nat → Nat → EntryStore → EStateM (Trap StoreError) File (Nat × EntryStore)
  | fuel, len, offset, store =>
    if offset < len then
      match fuel with
      | 0 => throw .panic
      | fuel + 1 => do
        match ← readRecord store (len - offset) with
        | none => return (offset, store)
        | some (size, store) => readRecords fuel len (offset + size) store
    else return (offset, store)

def cutTail (len offset : Nat) : EStateM (Trap StoreError) File Unit :=
  if offset ≠ len then do
    viaIo (File.setLen offset)
    viaIo File.touch
  else pure ()

/-- The file from its header on: its records, and a tail that is no record is cut off. -/
def readFrom (len : Nat) : EStateM (Trap StoreError) File EntryStore := do
  viaIo (File.seek 0)
  let header ← viaIo (File.readExact magic.length)
  if header ≠ magic then throw (.err (.storage "unrecognized entry journal"))
  else
    let (offset, store) ← readRecords len len magic.length EntryStore.new
    cutTail len offset
    viaIo (File.seek offset)
    let file ← get
    return { store with journal := some ⟨file, offset⟩ }

/-- `Journal::open` on the file at a path, which may be new and then is empty. -/
def openFile (hasParent : Bool) : EStateM (Trap StoreError) File EntryStore := do
  viaIo File.touch
  modify fun file => { file with pos := 0 }
  viaIo File.touch
  let len ← viaIo File.length
  if len > maxBytes then throw (.err .capacity)
  else if len < magic.length then
    restoreHeader hasParent len
    readFrom magic.length
  else readFrom len

end Journal

end Racnet.Store
