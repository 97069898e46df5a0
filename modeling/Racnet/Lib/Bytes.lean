import Mathlib.Algebra.Group.Nat.Defs
import Mathlib.Data.List.Lex
import Mathlib.Data.Nat.Basic
import Mathlib.Order.Lattice
import Mathlib.Tactic.Common

namespace Racnet.Lib

/-- A byte array of fixed length. -/
@[ext]
structure FixedBytes (n : Nat) where
  bytes : List UInt8
  length_eq : bytes.length = n
  deriving DecidableEq

/-- A growable array: a list whose length fits in a machine word. -/
@[ext]
structure Vec (α : Type) where
  toList : List α
  length_lt : toList.length < 2 ^ 64
  deriving DecidableEq

theorem Vec.length_nil_lt {α : Type} : ([] : List α).length < 2 ^ 64 := by simp

/-- Bytewise comparison: the first difference decides, and a proper beginning comes first. -/
def bytesLt : List UInt8 → List UInt8 → Bool
  | _, [] => false
  | [], _ :: _ => true
  | a :: as, b :: bs => Nat.blt a.toNat b.toNat || (Nat.beq a.toNat b.toNat && bytesLt as bs)

theorem bytesLt_iff (as bs : List UInt8) :
    bytesLt as bs = true ↔ as.map UInt8.toNat < bs.map UInt8.toNat := by
  induction as generalizing bs with
  | nil => cases bs <;> simp [bytesLt]
  | cons a as ih =>
    cases bs with
    | nil => simp [bytesLt]
    | cons b bs =>
      simp only [bytesLt, Bool.or_eq_true, Bool.and_eq_true, ih, List.map_cons,
        List.cons_lt_cons_iff, Nat.blt_eq, Nat.beq_eq]

namespace FixedBytes

variable {n : Nat}

theorem take_append (a : FixedBytes n) (rest : List UInt8) : (a.bytes ++ rest).take n = a.bytes :=
  List.take_left' a.length_eq

theorem drop_append (a : FixedBytes n) (rest : List UInt8) : (a.bytes ++ rest).drop n = rest :=
  List.drop_left' a.length_eq

theorem not_length_append_lt (a : FixedBytes n) (rest : List UInt8) :
    ¬ (a.bytes ++ rest).length < n := by
  rw [List.length_append, a.length_eq]
  omega

theorem values_injective :
    Function.Injective (fun a : FixedBytes n => a.bytes.map UInt8.toNat) := by
  intro a b same
  exact FixedBytes.ext (List.map_injective_iff.mpr (fun x y h => UInt8.toNat_inj.mp h) same)

instance decidableMem (a : FixedBytes n) (as : List (FixedBytes n)) : Decidable (a ∈ as) :=
  List.instDecidableMemOfLawfulBEq a as

instance : PartialOrder (FixedBytes n) :=
  PartialOrder.lift (fun a : FixedBytes n => a.bytes.map UInt8.toNat) values_injective

instance : DecidableLT (FixedBytes n) := fun a b =>
  decidable_of_iff (bytesLt a.bytes b.bytes = true) (bytesLt_iff a.bytes b.bytes)

/-- The lexicographic order, as `Ord` compares byte arrays. -/
instance : LinearOrder (FixedBytes n) where
  le_total a b := le_total (a.bytes.map UInt8.toNat) (b.bytes.map UInt8.toNat)
  toDecidableLE a b := inferInstanceAs
    (Decidable (a.bytes.map UInt8.toNat ≤ b.bytes.map UInt8.toNat))
  toDecidableEq := inferInstance
  toDecidableLT := inferInstance

theorem lt_def (a b : FixedBytes n) :
    a < b ↔ a.bytes.map UInt8.toNat < b.bytes.map UInt8.toNat := Iff.rfl

theorem le_def (a b : FixedBytes n) :
    a ≤ b ↔ a.bytes.map UInt8.toNat ≤ b.bytes.map UInt8.toNat := Iff.rfl

def zero (n : Nat) : FixedBytes n := ⟨List.replicate n 0, List.length_replicate⟩

theorem replicate_zero_le (values : List Nat) :
    List.replicate values.length 0 ≤ values := by
  induction values with
  | nil => exact le_rfl
  | cons v vs ih =>
    rw [List.length_cons, List.replicate_succ]
    rcases Nat.eq_zero_or_pos v with rfl | pos
    · exact List.cons_le_cons 0 ih
    · exact le_of_lt (List.cons_lt_cons_iff.mpr (Or.inl pos))

theorem zero_le (a : FixedBytes n) : zero n ≤ a := by
  rw [le_def]
  have h := replicate_zero_le (a.bytes.map UInt8.toNat)
  rw [List.length_map, a.length_eq] at h
  simpa [zero] using h

end FixedBytes

end Racnet.Lib
