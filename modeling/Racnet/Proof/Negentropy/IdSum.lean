import Mathlib.Algebra.BigOperators.Group.List.Basic
import Mathlib.Algebra.Group.Basic
import Racnet.Lib.Endian
import Racnet.Sync.Negentropy.Store

/-!
# Sums of ids

Sums modulo 2^256 form a commutative group, and the sum of a run of items is a sum in that group.
-/

namespace Racnet.Sync
open Lib Store

theorem length_u64ToLeBytes (n : UInt64) : (u64ToLeBytes n).length = 8 := by
  rw [u64ToLeBytes, List.length_map, List.length_range]

theorem ofLe_u64ToLeBytes (n : UInt64) : ofLe (u64ToLeBytes n) = n.toNat := by
  have bound := n.toNat_lt
  simp only [u64ToLeBytes, List.range_succ, List.range_zero, List.nil_append, List.map_cons,
    List.map_nil, List.cons_append, ofLe, UInt8.toNat_ofNat', Nat.shiftRight_eq_div_pow]
  omega

theorem toNat_u64FromLeBytes {bytes : List UInt8} (size : bytes.length = 8) :
    (u64FromLeBytes bytes).toNat = ofLe bytes := by
  have folded (bytes : List UInt8) :
      bytes.foldr (fun byte value => byte.toNat + 256 * value) 0 = ofLe bytes := by
    induction bytes with
    | nil => rfl
    | cons byte bytes ih => rw [List.foldr_cons, ih, ofLe]
  have bound : ofLe bytes < 2 ^ 64 := by
    have low := ofLe_lt bytes
    rwa [size] at low
  rw [u64FromLeBytes, folded, UInt64.toNat_ofNat', Nat.mod_eq_of_lt bound]

theorem u64FromLeBytes_toLeBytes (n : UInt64) : u64FromLeBytes (u64ToLeBytes n) = n := by
  apply UInt64.toNat_inj.mp
  rw [toNat_u64FromLeBytes (length_u64ToLeBytes n), ofLe_u64ToLeBytes]

def limbsValue : List UInt64 → Nat
  | [] => 0
  | limb :: limbs => limb.toNat + 2 ^ 64 * limbsValue limbs

theorem limbsValue_lt (limbs : List UInt64) : limbsValue limbs < 2 ^ (64 * limbs.length) := by
  induction limbs with
  | nil => simp [limbsValue]
  | cons limb limbs ih =>
    have small := limb.toNat_lt
    rw [limbsValue, List.length_cons, Nat.mul_succ, Nat.add_comm (64 * limbs.length), pow_add]
    calc limb.toNat + 2 ^ 64 * limbsValue limbs
        < 2 ^ 64 * (limbsValue limbs + 1) := by omega
      _ ≤ 2 ^ 64 * 2 ^ (64 * limbs.length) := Nat.mul_le_mul_left _ ih

theorem limbsValue_injective {as bs : List UInt64} (size : as.length = bs.length)
    (same : limbsValue as = limbsValue bs) : as = bs := by
  induction as generalizing bs with
  | nil => exact (List.length_eq_zero_iff.mp size.symm).symm
  | cons a as ih =>
    cases bs with
    | nil => simp at size
    | cons b bs =>
      have smallA := a.toNat_lt
      have smallB := b.toNat_lt
      simp only [limbsValue] at same
      have head : a = b := UInt64.toNat_inj.mp (by omega)
      have tail : limbsValue as = limbsValue bs := by omega
      rw [head, ih (by simpa using size) tail]

theorem ofLe_flatMap (limbs : List UInt64) : ofLe (limbs.flatMap u64ToLeBytes) = limbsValue limbs := by
  induction limbs with
  | nil => rfl
  | cons limb limbs ih =>
    rw [List.flatMap_cons, ofLe_append, ofLe_u64ToLeBytes, length_u64ToLeBytes, ih, limbsValue]
    rfl

theorem low_add_mul_mod {base low : Nat} (small : low < base) (high modulus : Nat) :
    (low + base * high) % (base * modulus) = low + base * (high % modulus) := by
  rw [Nat.mod_mul, Nat.add_mul_mod_self_left, Nat.mod_eq_of_lt small,
    Nat.add_mul_div_left _ _ (Nat.zero_lt_of_lt small), Nat.div_eq_of_lt small, Nat.zero_add]

theorem limbsValue_carryAdd (carry : Bool) {limbs adds : List UInt64}
    (size : limbs.length = adds.length) :
    limbsValue (IdSum.carryAdd carry limbs adds) =
      (limbsValue limbs + limbsValue adds + carry.toNat) % 2 ^ (64 * limbs.length) := by
  induction limbs generalizing carry adds with
  | nil => simp [IdSum.carryAdd, limbsValue, Nat.mod_one]
  | cons limb limbs ih =>
    cases adds with
    | nil => simp at size
    | cons add adds =>
      have smallL := limb.toNat_lt
      have smallA := add.toNat_lt
      have bit : carry.toNat ≤ 1 := carry.toNat_le
      have carried : (if carry then (1 : UInt64) else 0).toNat = carry.toNat := by
        cases carry <;> rfl
      simp only [IdSum.carryAdd, overflowingAdd, limbsValue, List.length_cons, Nat.mul_succ,
        Nat.add_comm (64 * limbs.length), pow_add, ih _ (by simpa using size),
        UInt64.toNat_add, carried]
      -- The two overflows are the one carry of a three-term addition.
      have split : limb.toNat + add.toNat + carry.toNat =
          ((limb.toNat + add.toNat) % 2 ^ 64 + carry.toNat) % 2 ^ 64 +
            2 ^ 64 * (decide (2 ^ 64 ≤ limb.toNat + add.toNat) ||
              decide (2 ^ 64 ≤ (limb.toNat + add.toNat) % 2 ^ 64 + carry.toNat)).toNat := by
        by_cases first : 2 ^ 64 ≤ limb.toNat + add.toNat <;>
          by_cases second : 2 ^ 64 ≤ (limb.toNat + add.toNat) % 2 ^ 64 + carry.toNat <;>
            simp only [first, second, decide_true, decide_false, Bool.or_true, Bool.or_false,
              Bool.toNat_true, Bool.toNat_false] <;> omega
      have small : ((limb.toNat + add.toNat) % 2 ^ 64 + carry.toNat) % 2 ^ 64 < 2 ^ 64 :=
        Nat.mod_lt _ (by decide)
      rw [← low_add_mul_mod small]
      congr 1
      omega

namespace IdSum

def value (sum : IdSum) : Nat := limbsValue sum.limbs

theorem value_lt (sum : IdSum) : sum.value < 2 ^ 256 := by
  have bound := limbsValue_lt sum.limbs
  rwa [sum.length_eq] at bound

theorem value_injective : Function.Injective value := fun a b same =>
  IdSum.ext (limbsValue_injective (a.length_eq.trans b.length_eq.symm) same)

theorem value_addLimbs (sum : IdSum) {other : List UInt64} (size : other.length = 4) :
    (sum.addLimbs other).value = (sum.value + limbsValue other) % 2 ^ 256 := by
  have added := limbsValue_carryAdd false (sum.length_eq.trans size.symm)
  rw [sum.length_eq] at added
  exact added

theorem value_combine (a b : IdSum) : (a.combine b).value = (a.value + b.value) % 2 ^ 256 :=
  value_addLimbs a b.length_eq

theorem value_zero : zero.value = 0 := rfl

def ofId (id : EntryId) : IdSum := ⟨idLimbs id, by simp [idLimbs]⟩

theorem addId_eq (sum : IdSum) (id : EntryId) : sum.addId id = sum.combine (ofId id) := rfl

theorem ofLe_toLeBytes (sum : IdSum) : ofLe sum.toLeBytes = sum.value := ofLe_flatMap sum.limbs

theorem value_ofId (id : EntryId) : (ofId id).value = ofLe id.bytes := by
  have size (i : Nat) (low : i < 4) : ((id.bytes.drop (8 * i)).take 8).length = 8 := by
    rw [List.length_take, List.length_drop, id.length_eq]
    omega
  have split (i : Nat) (low : i < 4) : ofLe (id.bytes.drop (8 * i)) =
      (u64FromLeBytes ((id.bytes.drop (8 * i)).take 8)).toNat +
        2 ^ 64 * ofLe (id.bytes.drop (8 * (i + 1))) := by
    conv_lhs => rw [← List.take_append_drop 8 (id.bytes.drop (8 * i)), ofLe_append, size i low]
    rw [toNat_u64FromLeBytes (size i low), List.drop_drop, Nat.mul_succ]
    rfl
  have all := split 0 (by decide)
  have done : id.bytes.drop (8 * 4) = [] := List.drop_eq_nil_of_le id.length_eq.le
  rw [split 1 (by decide), split 2 (by decide), split 3 (by decide), done] at all
  exact all.symm

theorem value_ofId_one : (ofId one).value = 1 := by decide

theorem limbsValue_complement (limbs : List UInt64) :
    limbsValue (limbs.map fun limb => ~~~limb) + limbsValue limbs + 1 =
      2 ^ (64 * limbs.length) := by
  induction limbs with
  | nil => rfl
  | cons limb limbs ih =>
    have flipped : (~~~limb).toNat + limb.toNat + 1 = 2 ^ 64 := by
      have small := limb.toNat_lt
      rw [UInt64.toNat_not]
      simp only [UInt64.size] at *
      omega
    rw [List.map_cons, limbsValue, limbsValue, List.length_cons, Nat.mul_succ,
      Nat.add_comm (64 * limbs.length), pow_add, ← ih]
    omega

theorem value_negate (sum : IdSum) : (sum.negate.value + sum.value) % 2 ^ 256 = 0 := by
  have flipped := limbsValue_complement sum.limbs
  rw [sum.length_eq] at flipped
  have negated := value_combine
    ⟨sum.limbs.map fun limb => ~~~limb, by rw [List.length_map, sum.length_eq]⟩ (ofId one)
  rw [value_ofId_one] at negated
  change sum.negate.value = _ at negated
  simp only [value] at *
  omega

instance : Zero IdSum := ⟨zero⟩

instance : Add IdSum := ⟨combine⟩

instance : Neg IdSum := ⟨negate⟩

/-- Addition modulo 2^256. -/
instance : AddCommGroup IdSum where
  nsmul := nsmulRec
  zsmul := zsmulRec
  add_assoc a b c := value_injective (by
    change ((a.combine b).combine c).value = (a.combine (b.combine c)).value
    simp only [value_combine]
    omega)
  zero_add a := value_injective (by
    change (zero.combine a).value = a.value
    rw [value_combine, value_zero, Nat.zero_add, Nat.mod_eq_of_lt a.value_lt])
  add_zero a := value_injective (by
    change (a.combine zero).value = a.value
    rw [value_combine, value_zero, Nat.add_zero, Nat.mod_eq_of_lt a.value_lt])
  add_comm a b := value_injective (by
    change (a.combine b).value = (b.combine a).value
    rw [value_combine, value_combine, Nat.add_comm])
  neg_add_cancel a := value_injective (by
    change (a.negate.combine a).value = zero.value
    rw [value_combine, value_negate, value_zero])

theorem combine_eq (a b : IdSum) : a.combine b = a + b := rfl

theorem negate_eq (a : IdSum) : a.negate = -a := rfl

theorem zero_eq : zero = 0 := rfl

end IdSum

theorem foldl_addId (ids : List EntryId) (sum : IdSum) :
    ids.foldl IdSum.addId sum = sum + (ids.map IdSum.ofId).sum := by
  induction ids generalizing sum with
  | nil => simp
  | cons id ids ih =>
    rw [List.foldl_cons, ih, IdSum.addId_eq, IdSum.combine_eq, List.map_cons, List.sum_cons,
      add_assoc]

def idSum (items : List Item) : IdSum := (items.map fun item => IdSum.ofId item.id).sum

theorem foldl_addId_items (items : List Item) (sum : IdSum) :
    items.foldl (fun sum item => sum.addId item.id) sum = sum + idSum items := by
  have folded := foldl_addId (items.map Item.id) sum
  rwa [List.foldl_map, List.map_map] at folded

def sumOf (ids : List EntryId) : IdSum := ids.foldl IdSum.addId IdSum.zero

theorem sumOf_eq (ids : List EntryId) : sumOf ids = (ids.map IdSum.ofId).sum := by
  rw [sumOf, foldl_addId, IdSum.zero_eq, zero_add]

theorem sumOf_append (front slice : List EntryId) :
    sumOf (front ++ slice) = sumOf front + sumOf slice := by
  rw [sumOf_eq, sumOf_eq, sumOf_eq, List.map_append, List.sum_append]

theorem value_sumOf (ids : List EntryId) :
    (sumOf ids).value = (ids.map fun id => ofLe id.bytes).sum % 2 ^ 256 := by
  rw [sumOf_eq]
  induction ids with
  | nil => rfl
  | cons id ids ih =>
    rw [List.map_cons, List.sum_cons, List.map_cons, List.sum_cons, ← IdSum.combine_eq,
      IdSum.value_combine, IdSum.value_ofId, ih, Nat.add_mod_mod]

theorem sumOf_perm {ids others : List EntryId} (same : ids.Perm others) :
    sumOf ids = sumOf others := by
  rw [sumOf_eq, sumOf_eq]
  exact (same.map IdSum.ofId).sum_eq

/-- Sums of ids are numbers modulo 2^256, read little-endian: adding an id, combining and negating
are arithmetic on them, and a slice of a list sums to the difference of two of its fronts. -/
theorem idSum_arithmetic (sum other : IdSum) (id : EntryId) (front slice : List EntryId) :
    ofLe (sum.addId id).toLeBytes = (ofLe sum.toLeBytes + ofLe id.bytes) % 2 ^ 256 ∧
    ofLe (sum.combine other).toLeBytes =
      (ofLe sum.toLeBytes + ofLe other.toLeBytes) % 2 ^ 256 ∧
    ofLe sum.negate.toLeBytes = (2 ^ 256 - ofLe sum.toLeBytes) % 2 ^ 256 ∧
    (sumOf (front ++ slice)).combine (sumOf front).negate = sumOf slice ∧
    ofLe (sumOf slice).toLeBytes = (slice.map fun id => ofLe id.bytes).sum % 2 ^ 256 ∧
    ∀ shuffled, slice.Perm shuffled → sumOf shuffled = sumOf slice := by
  refine ⟨?_, ?_, ?_, ?_, ?_, fun shuffled same => (sumOf_perm same).symm⟩
  · rw [IdSum.ofLe_toLeBytes, IdSum.ofLe_toLeBytes, IdSum.addId_eq, IdSum.value_combine,
      IdSum.value_ofId]
  · rw [IdSum.ofLe_toLeBytes, IdSum.ofLe_toLeBytes, IdSum.ofLe_toLeBytes, IdSum.value_combine]
  · have inverse := sum.value_negate
    have low := sum.value_lt
    have negated := sum.negate.value_lt
    rw [IdSum.ofLe_toLeBytes, IdSum.ofLe_toLeBytes]
    omega
  · rw [IdSum.combine_eq, IdSum.negate_eq, sumOf_append, add_assoc, add_comm, add_assoc,
      neg_add_cancel, add_zero]
  · rw [IdSum.ofLe_toLeBytes, value_sumOf]

theorem idSum_arithmetic_swapped :
    let top : EntryId := ⟨List.replicate 32 255, by decide⟩
    ofLe ((sumOf [top]).addId IdSum.one).toLeBytes = 0 ∧
      sumOf [IdSum.one, top] = sumOf [top, IdSum.one] :=
  ⟨(idSum_arithmetic _ IdSum.zero _ [] []).1.trans (by decide),
    (idSum_arithmetic .zero .zero IdSum.one [] _).2.2.2.2.2 _ (List.Perm.swap _ _ _)⟩

@[simp] theorem idSum_nil : idSum [] = 0 := rfl

@[simp] theorem idSum_cons (item : Item) (items : List Item) :
    idSum (item :: items) = IdSum.ofId item.id + idSum items := by
  simp [idSum]

@[simp] theorem idSum_append (xs ys : List Item) : idSum (xs ++ ys) = idSum xs + idSum ys := by
  simp [idSum]

theorem fingerprintOf_eq [Sha256] (items : List Item) :
    SealedVec.fingerprintOf items = (idSum items).fingerprint items.length := by
  rw [SealedVec.fingerprintOf, foldl_addId_items, IdSum.zero_eq, zero_add]

end Racnet.Sync
