import Racnet.Store.Item
import Racnet.Sync.Negentropy.Varint

namespace Racnet.Sync
open Lib Store

def idSize : Nat := 32

/-- The timestamp that sorts after every real key. -/
def tsInfinity : UInt64 := 0xFFFFFFFFFFFFFFFF

/-- A position in the item order: a timestamp and an id prefix, which compares as if it were padded
with zeros to the width of an id. -/
@[ext]
structure Bound where
  ts : UInt64
  idPrefix : List UInt8
  idPrefix_le : idPrefix.length ≤ idSize
  deriving DecidableEq

namespace Bound

/-- Panics on a prefix longer than an id. -/
def new (ts : UInt64) (idPrefix : List UInt8) : Option Bound :=
  if fits : idPrefix.length ≤ idSize then some ⟨ts, idPrefix, fits⟩ else none

def fromTs (ts : UInt64) : Bound := ⟨ts, [], Nat.zero_le _⟩

def infinity : Bound := fromTs tsInfinity

/-- The bound exactly at an item. -/
def atItem (ts : UInt64) (id : EntryId) : Bound := ⟨ts, id.bytes, id.length_eq.le⟩

def paddedId (bound : Bound) : EntryId :=
  ⟨bound.idPrefix ++ List.replicate (idSize - bound.idPrefix.length) 0, by
    have := bound.idPrefix_le
    simp only [List.length_append, List.length_replicate, idSize] at this ⊢
    omega⟩

def itemIsBefore (bound : Bound) (ts : UInt64) (id : EntryId) : Bool :=
  if ts ≠ bound.ts then ts.toNat < bound.ts.toNat else id < bound.paddedId

/-- The shortest bound after the first item and at or before the second. It panics when the two
items are equal, for then no byte separates their ids. -/
def minSeparating (prevTs : UInt64) (prevId : EntryId) (currTs : UInt64) (currId : EntryId) :
    Option Bound :=
  if currTs ≠ prevTs then some (fromTs currTs)
  else
    let shared := ((prevId.bytes.zip currId.bytes).takeWhile fun p => p.1 == p.2).length
    do
      let idPrefix ← slice currId.bytes 0 (shared + 1)
      new currTs idPrefix

end Bound

/-- The running timestamps of one message, one for each direction. -/
structure BoundCodec where
  lastTsIn : UInt64 := 0
  lastTsOut : UInt64 := 0

namespace BoundCodec

/-- The codec after encoding `bound`, and the bytes appended. `Nat` subtraction is the source's
`saturating_sub`. -/
def encode (codec : BoundCodec) (bound : Bound) : BoundCodec × List UInt8 :=
  let tail := writeVarint bound.idPrefix.length ++ bound.idPrefix
  if bound.ts = tsInfinity then
    ({ codec with lastTsOut := tsInfinity }, writeVarint 0 ++ tail)
  else
    let delta := bound.ts.toNat - codec.lastTsOut.toNat
    ({ codec with lastTsOut := bound.ts }, writeVarint (delta + 1) ++ tail)

/-- Decodes one bound from the front of `input`; returns the codec, the bound and the unread rest. -/
def decode (codec : BoundCodec) (input : List UInt8) :
    Exec SyncError (BoundCodec × Bound × List UInt8) := do
  let (raw, input) ← readVarint input
  let ts :=
    if raw = 0 ∨ codec.lastTsIn = tsInfinity then tsInfinity
    else UInt64.ofNat (min (raw - 1 + codec.lastTsIn.toNat) (2 ^ 64 - 1))
  let codec := { codec with lastTsIn := ts }
  let (len, input) ← readVarint input
  if len > idSize then .fail (.malformed "bound prefix longer than an id")
  else if input.length < len then .fail (.malformed "bound prefix ends prematurely")
  else
    let bound ← .orPanic (Bound.new ts (input.take len))
    return (codec, bound, input.drop len)

end BoundCodec

end Racnet.Sync
