import Racnet.Lib.Ranks

/-!
# Weights of stretches of a linear order

A stretch weighs as much as the elements in it, and one more when it reaches `top`. The extra one
makes a stretch up to `top` worth visiting even when it is empty.
-/

namespace Racnet.Lib

variable {α : Type} [LinearOrder α] {top lo mid hi : α} {xs : List α}

def weight (top : α) (xs : List α) (lo hi : α) : Nat :=
  (between lo hi xs).length + if lo < top ∧ hi = top then 1 else 0

theorem length_between_add (xs : List α) (lower : lo ≤ mid) (upper : mid ≤ hi) :
    (between lo hi xs).length = (between lo mid xs).length + (between mid hi xs).length := by
  induction xs with
  | nil => rfl
  | cons x xs ih =>
    simp only [between, List.filter_cons, decide_eq_true_eq] at ih ⊢
    by_cases before : x < mid
    · have notAfter : ¬ (mid ≤ x ∧ x < hi) := fun h => absurd before (not_lt.mpr h.1)
      have same : (lo ≤ x ∧ x < hi) ↔ (lo ≤ x ∧ x < mid) :=
        and_congr_right fun _ => iff_of_true (lt_of_lt_of_le before upper) before
      simp only [same, if_neg notAfter]
      split_ifs
      · rw [List.length_cons, List.length_cons, ih, Nat.succ_add]
      · exact ih
    · have notBefore : ¬ (lo ≤ x ∧ x < mid) := fun h => before h.2
      have same : (lo ≤ x ∧ x < hi) ↔ (mid ≤ x ∧ x < hi) :=
        and_congr_left fun _ => iff_of_true (le_trans lower (not_lt.mp before)) (not_lt.mp before)
      simp only [same, if_neg notBefore]
      split_ifs
      · rw [List.length_cons, List.length_cons, ih, Nat.add_assoc]
      · exact ih

theorem weight_add (xs : List α) (lower : lo ≤ mid) (upper : mid ≤ hi) (bound : hi ≤ top) :
    weight top xs lo hi = weight top xs lo mid + weight top xs mid hi := by
  have count := length_between_add xs lower upper
  have extra : (if lo < top ∧ hi = top then 1 else 0) =
      (if lo < top ∧ mid = top then 1 else 0) + (if mid < top ∧ hi = top then 1 else 0) := by
    by_cases ends : mid = top
    · subst ends
      have : hi = mid := le_antisymm bound upper
      simp [this]
    · have inside : mid < top := lt_of_le_of_ne (le_trans upper bound) ends
      simp [ends, inside, lt_of_le_of_lt lower inside]
  simp only [weight, count, extra]
  omega

theorem weight_pos_of_mem {x : α} (mem : x ∈ xs) (lower : lo ≤ x) (upper : x < hi) :
    0 < weight top xs lo hi := by
  have := List.length_pos_of_mem (mem_between.mpr ⟨mem, lower, upper⟩)
  rw [weight]
  omega

theorem weight_top_pos (below : lo < top) : 0 < weight top xs lo top := by
  rw [weight, if_pos ⟨below, rfl⟩]
  omega

theorem lt_of_weight_pos (pos : 0 < weight top xs lo hi) : lo < hi := by
  by_contra order
  rw [weight, between_eq_nil_of_le (not_lt.mp order)] at pos
  split_ifs at pos with ends
  · rw [ends.2] at order
    exact order ends.1
  · exact absurd pos (lt_irrefl 0)

end Racnet.Lib
