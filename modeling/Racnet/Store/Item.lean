import Mathlib.Data.Prod.Lex
import Racnet.Lib.Bytes

namespace Racnet.Store
open Lib

/-- The SHA-256 of an entry's canonical encoding. -/
abbrev EntryId := FixedBytes 32

/-- An entry's position in the reconciliation order. -/
@[ext]
structure Item where
  sortKey : UInt64
  id : EntryId
  deriving DecidableEq

namespace Item

def key (item : Item) : Nat ×ₗ EntryId := toLex (item.sortKey.toNat, item.id)

theorem key_injective : Function.Injective key := by
  intro a b same
  obtain ⟨keys, ids⟩ := Prod.mk.inj (toLex.injective same)
  exact Item.ext (UInt64.toNat_inj.mp keys) ids

instance : PartialOrder Item := PartialOrder.lift key key_injective

theorem lt_iff (a b : Item) : a < b ↔
    a.sortKey.toNat < b.sortKey.toNat ∨ a.sortKey.toNat = b.sortKey.toNat ∧ a.id < b.id :=
  Prod.Lex.lt_iff

theorem le_iff (a b : Item) : a ≤ b ↔
    a.sortKey.toNat < b.sortKey.toNat ∨ a.sortKey.toNat = b.sortKey.toNat ∧ a.id ≤ b.id :=
  Prod.Lex.le_iff

instance : DecidableLT Item := fun a b => decidable_of_iff _ (lt_iff a b).symm

/-- Ascending sort key, ties broken by the id: the derived `Ord`. -/
instance : LinearOrder Item where
  le_total a b := le_total a.key b.key
  toDecidableLE a b := inferInstanceAs (Decidable (a.key ≤ b.key))
  toDecidableEq := inferInstance
  toDecidableLT := inferInstance

theorem sortKey_le_of_le {a b : Item} (le : a ≤ b) : a.sortKey.toNat ≤ b.sortKey.toNat := by
  rcases (le_iff a b).mp le with h | h
  · exact h.le
  · exact h.1.le

theorem lt_of_sortKey_lt {a b : Item} (lt : a.sortKey.toNat < b.sortKey.toNat) : a < b :=
  (lt_iff a b).mpr (Or.inl lt)

end Item

end Racnet.Store
