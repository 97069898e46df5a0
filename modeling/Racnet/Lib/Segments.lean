import Mathlib.Order.Lattice
import Mathlib.Data.List.Basic

/-!
# Segments laid end to end

A list of segments covers a stretch of a linear order: every segment starts where the one before it
ends. `P lo r` is what is said of the segment `r` when it starts at `lo`.
-/

namespace Racnet.Lib

variable {α β : Type} {key : β → α}

/-- Where the last segment ends. -/
def endOf (key : β → α) (lo : α) (rs : List β) : α := rs.foldl (fun _ r => key r) lo

@[simp] theorem endOf_nil (lo : α) : endOf key lo [] = lo := rfl

@[simp] theorem endOf_cons (lo : α) (r : β) (rs : List β) :
    endOf key lo (r :: rs) = endOf key (key r) rs := rfl

@[simp] theorem endOf_append (lo : α) (xs ys : List β) :
    endOf key lo (xs ++ ys) = endOf key (endOf key lo xs) ys := List.foldl_append

variable [LinearOrder α] {P Q : α → β → Prop}

def Segments (key : β → α) (P : α → β → Prop) : α → List β → Prop
  | _, [] => True
  | lo, r :: rs => lo ≤ key r ∧ P lo r ∧ Segments key P (key r) rs

namespace Segments

theorem append_iff {lo : α} {xs ys : List β} :
    Segments key P lo (xs ++ ys) ↔
      Segments key P lo xs ∧ Segments key P (endOf key lo xs) ys := by
  induction xs generalizing lo with
  | nil => simp [Segments]
  | cons x xs ih => simp [Segments, ih, and_assoc]

theorem imp (weaken : ∀ lo r, lo ≤ key r → P lo r → Q lo r) {lo : α} {rs : List β}
    (segments : Segments key P lo rs) : Segments key Q lo rs := by
  induction rs generalizing lo with
  | nil => trivial
  | cons r rs ih => exact ⟨segments.1, weaken lo r segments.1 segments.2.1, ih segments.2.2⟩

theorem and {lo : α} {rs : List β} (left : Segments key P lo rs) (right : Segments key Q lo rs) :
    Segments key (fun lo r => P lo r ∧ Q lo r) lo rs := by
  induction rs generalizing lo with
  | nil => trivial
  | cons r rs ih => exact ⟨left.1, ⟨left.2.1, right.2.1⟩, ih left.2.2 right.2.2⟩

theorem of_cuts {n : Nat} (f : Nat → β) (cut : Nat → α)
    (step : ∀ i < n, key (f i) = cut (i + 1) ∧ cut i ≤ cut (i + 1) ∧ P (cut i) (f i)) :
    Segments key P (cut 0) ((List.range n).map f) ∧
      endOf key (cut 0) ((List.range n).map f) = cut n := by
  induction n with
  | zero => exact ⟨trivial, rfl⟩
  | succ n ih =>
    obtain ⟨segments, stop⟩ := ih fun i lt => step i (Nat.lt_succ_of_lt lt)
    obtain ⟨ends, le, holds⟩ := step n (Nat.lt_succ_self n)
    rw [List.range_succ, List.map_append, append_iff, endOf_append, stop]
    exact ⟨⟨segments, by rwa [ends], holds, trivial⟩, ends⟩

end Segments

end Racnet.Lib
