import Racnet.Primitives
import Racnet.Store.Item
import Racnet.Sync.Negentropy.Varint

namespace Racnet.Sync
open Lib Store

def fingerprintSize : Nat := 16

abbrev Fingerprint := FixedBytes fingerprintSize

/-- `u64::from_le_bytes`. -/
def u64FromLeBytes (bytes : List UInt8) : UInt64 :=
  UInt64.ofNat (bytes.foldr (fun byte value => byte.toNat + 256 * value) 0)

/-- `u64::to_le_bytes`. -/
def u64ToLeBytes (n : UInt64) : List UInt8 :=
  (List.range 8).map fun i => UInt8.ofNat (n.toNat >>> (8 * i))

/-- `u64::overflowing_add`. -/
def overflowingAdd (a b : UInt64) : UInt64 × Bool := (a + b, decide (2 ^ 64 ≤ a.toNat + b.toNat))

/-- A sum of ids modulo 2^256, in four little-endian limbs. -/
@[ext]
structure IdSum where
  limbs : List UInt64
  length_eq : limbs.length = 4
  deriving DecidableEq

namespace IdSum

def zero : IdSum := ⟨[0, 0, 0, 0], rfl⟩

/-- The carry chain of `add_limbs`, over the zipped limbs. -/
def carryAdd (carry : Bool) : List UInt64 → List UInt64 → List UInt64
  | [], _ => []
  | limbs, [] => limbs
  | limb :: limbs, add :: adds =>
    let (sum, c1) := overflowingAdd limb add
    let (sum, c2) := overflowingAdd sum (if carry then 1 else 0)
    sum :: carryAdd (c1 || c2) limbs adds

theorem length_carryAdd (carry : Bool) (limbs adds : List UInt64) :
    (carryAdd carry limbs adds).length = limbs.length := by
  induction limbs generalizing carry adds with
  | nil => rfl
  | cons limb limbs ih => cases adds <;> simp [carryAdd, ih]

def addLimbs (sum : IdSum) (other : List UInt64) : IdSum :=
  ⟨carryAdd false sum.limbs other, by rw [length_carryAdd, sum.length_eq]⟩

def idLimbs (id : EntryId) : List UInt64 :=
  (List.range 4).map fun i => u64FromLeBytes ((id.bytes.drop (8 * i)).take 8)

def addId (sum : IdSum) (id : EntryId) : IdSum := sum.addLimbs (idLimbs id)

def combine (sum other : IdSum) : IdSum := sum.addLimbs other.limbs

def one : EntryId := ⟨1 :: List.replicate 31 0, by simp⟩

def negate (sum : IdSum) : IdSum :=
  addId ⟨sum.limbs.map (fun limb => ~~~limb), by rw [List.length_map, sum.length_eq]⟩ one

def toLeBytes (sum : IdSum) : List UInt8 := sum.limbs.flatMap u64ToLeBytes

variable [Sha256]

def fingerprint (sum : IdSum) (count : Nat) : Fingerprint :=
  let digest := Sha256.digest (sum.toLeBytes ++ writeVarint count)
  ⟨digest.bytes.take fingerprintSize, by
    rw [List.length_take, digest.length_eq]
    rfl⟩

end IdSum

end Racnet.Sync
