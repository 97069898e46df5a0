import Racnet.Lib.Cbor
import Racnet.Primitives
import Racnet.Store.Item
import Racnet.Wire.Error

namespace Racnet.Wire
open Lib Store

/-- A signed entry. -/
structure Entry where
  author : FixedBytes 32
  sortKey : UInt64
  kind : UInt64
  payload : Vec UInt8
  sig : FixedBytes 64
  deriving DecidableEq

namespace Entry

/-- The canonical encoding. -/
def toBytes (entry : Entry) : List UInt8 :=
  Cbor.array 5 ++ (Cbor.byteString entry.author.bytes ++ (Cbor.unsigned entry.sortKey.toNat ++
    (Cbor.unsigned entry.kind.toNat ++ (Cbor.byteString entry.payload.toList ++
      Cbor.byteString entry.sig.bytes))))

/-- The encoding that is signed: the entry without the signature. -/
def tbsBytes (entry : Entry) : List UInt8 :=
  Cbor.array 4 ++ (Cbor.byteString entry.author.bytes ++ (Cbor.unsigned entry.sortKey.toNat ++
    (Cbor.unsigned entry.kind.toNat ++ Cbor.byteString entry.payload.toList)))

/-- A byte string of exactly `n` bytes. -/
def readFixed (n : Nat) (input : List UInt8) : Option (FixedBytes n × List UInt8) := do
  let (bytes, rest) ← Cbor.readBytes input
  if size : bytes.length = n then some (⟨bytes, size⟩, rest) else none

/-- Reads an entry, which is an array of exactly five elements. -/
def decode (input : List UInt8) : Option (Entry × List UInt8) := do
  let (arity, rest) ← Cbor.readHead 4 input
  if arity ≠ 5 then none
  else
    let (author, rest) ← readFixed 32 rest
    let (sortKey, rest) ← Cbor.readUnsigned rest
    let (kind, rest) ← Cbor.readUnsigned rest
    let (payload, rest) ← Cbor.readBytes rest
    let (sig, rest) ← readFixed 64 rest
    if size : payload.length < 2 ^ 64 then
      some ({ author, sortKey := UInt64.ofNat sortKey, kind := UInt64.ofNat kind,
              payload := ⟨payload, size⟩, sig }, rest)
    else none

def sign [Ed25519Signer] (key : FixedBytes 32) (sortKey kind : UInt64) (payload : Vec UInt8) : Entry :=
  let unsigned : Entry := ⟨Ed25519Signer.verifyingKey key, sortKey, kind, payload, FixedBytes.zero 64⟩
  { unsigned with sig := Ed25519Signer.sign key unsigned.tbsBytes }

def id [Sha256] (entry : Entry) : EntryId := Sha256.digest entry.toBytes

def verify [Ed25519] (entry : Entry) : Except WireError Unit :=
  if Ed25519.isVerifyingKey entry.author ∧
      Ed25519.verifyStrict entry.author entry.tbsBytes entry.sig then .ok ()
  else .error .badSignature

theorem readFixed_byteString {n : Nat} (bytes : FixedBytes n) (fits : n < 2 ^ 64)
    (rest : List UInt8) :
    readFixed n (Cbor.byteString bytes.bytes ++ rest) = some (bytes, rest) := by
  rw [readFixed, Cbor.readBytes_byteString (by rwa [bytes.length_eq])]
  simp [bytes.length_eq]

theorem decode_toBytes (entry : Entry) (rest : List UInt8) :
    decode (entry.toBytes ++ rest) = some (entry, rest) := by
  have keyFits := entry.sortKey.toNat_lt
  have kindFits := entry.kind.toNat_lt
  simp only [toBytes, List.append_assoc, decode, Cbor.array,
    Cbor.readHead_head (show 4 < 8 by omega) (show 5 < 2 ^ 64 by omega),
    readFixed_byteString _ (show 32 < 2 ^ 64 by omega),
    readFixed_byteString _ (show 64 < 2 ^ 64 by omega),
    Cbor.readUnsigned_unsigned keyFits, Cbor.readUnsigned_unsigned kindFits,
    Cbor.readBytes_byteString entry.payload.length_lt, Option.bind_eq_bind, Option.bind_some]
  rw [if_neg (by simp), dif_pos entry.payload.length_lt]
  simp

theorem toBytes_injective {a b : Entry} (same : a.toBytes = b.toBytes) : a = b := by
  have left := decode_toBytes a []
  rw [same, decode_toBytes b []] at left
  exact (Prod.mk.inj (Option.some.inj left)).1.symm

theorem length_toBytes_pos (entry : Entry) : 0 < entry.toBytes.length := by
  rw [toBytes, List.length_append]
  exact Nat.lt_add_right _ (Cbor.length_head_pos 4 5)

end Entry

end Racnet.Wire
