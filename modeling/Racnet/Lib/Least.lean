import Mathlib.Order.Defs.LinearOrder
import Mathlib.Order.Lattice

/-!
# Taking the least

A priority queue as the list of what was pushed.
-/

namespace Racnet.Lib

variable {α β : Type} [LinearOrder β] {key : α → β} {x least : α} {xs rest : List α}

/-- Takes out an element with the least key, the first of several. -/
def popLeast (key : α → β) : List α → Option (α × List α)
  | [] => none
  | x :: xs =>
    match popLeast key xs with
    | none => some (x, [])
    | some (least, rest) => if key x ≤ key least then some (x, xs) else some (least, x :: rest)

theorem popLeast_eq_none : popLeast key xs = none ↔ xs = [] := by
  cases xs with
  | nil => simp [popLeast]
  | cons x xs =>
    rw [popLeast]
    rcases popLeast key xs with _ | ⟨least, rest⟩
    · simp
    · dsimp only
      split_ifs <;> simp

theorem popLeast_spec (popped : popLeast key xs = some (least, rest)) :
    ∃ front back, xs = front ++ least :: back ∧ rest = front ++ back ∧
      (∀ x ∈ front, key least < key x) ∧ ∀ x ∈ back, key least ≤ key x := by
  induction xs generalizing least rest with
  | nil => cases popped
  | cons x xs ih =>
    rw [popLeast] at popped
    rcases later : popLeast key xs with _ | ⟨other, others⟩
    · rw [later] at popped
      cases popped
      rw [popLeast_eq_none.mp later]
      exact ⟨[], [], rfl, rfl, by simp, by simp⟩
    · rw [later] at popped
      dsimp only at popped
      obtain ⟨front, back, split, left, above, notBelow⟩ := ih later
      split_ifs at popped with first
      · cases popped
        refine ⟨[], xs, rfl, rfl, by simp, fun y mem => le_trans first ?_⟩
        rw [split, List.mem_append, List.mem_cons] at mem
        rcases mem with early | rfl | late
        · exact le_of_lt (above y early)
        · exact le_rfl
        · exact notBelow y late
      · cases popped
        refine ⟨x :: front, back, by rw [split]; rfl, by rw [left]; rfl, ?_, notBelow⟩
        exact List.forall_mem_cons.mpr ⟨not_le.mp first, above⟩

end Racnet.Lib
