import Mathlib.Data.List.Sort
import Mathlib.Order.Lattice

/-!
# Ranks in a strictly ascending list

The rank of a position is the number of elements before it. The elements between two positions are
the slice between their ranks.
-/

namespace Racnet.Lib

variable {α : Type} [LinearOrder α]

def rank (xs : List α) (p : α) : Nat := (xs.takeWhile fun x => decide (x < p)).length

/-- The elements from `lo` on and before `hi`. -/
def between (lo hi : α) (xs : List α) : List α := xs.filter fun x => decide (lo ≤ x ∧ x < hi)

theorem mem_between {lo hi x : α} {xs : List α} :
    x ∈ between lo hi xs ↔ x ∈ xs ∧ lo ≤ x ∧ x < hi := by
  simp [between]

theorem between_eq_nil_of_le {lo hi : α} (le : hi ≤ lo) (xs : List α) : between lo hi xs = [] := by
  rw [List.eq_nil_iff_forall_not_mem]
  intro x mem
  obtain ⟨-, above, below⟩ := mem_between.mp mem
  exact absurd (lt_of_lt_of_le below le) (not_lt.mpr above)

theorem rank_cons_of_lt {x p : α} (lt : x < p) (xs : List α) :
    rank (x :: xs) p = rank xs p + 1 := by
  simp [rank, lt]

theorem rank_cons_of_le {x p : α} (le : p ≤ x) (xs : List α) : rank (x :: xs) p = 0 := by
  simp [rank, not_lt.mpr le]

theorem rank_le_length (xs : List α) (p : α) : rank xs p ≤ xs.length :=
  (List.takeWhile_sublist _).length_le

theorem take_rank {xs : List α} (sorted : xs.Pairwise (· < ·)) (p : α) :
    xs.take (rank xs p) = xs.filter fun x => decide (x < p) := by
  induction xs with
  | nil => rfl
  | cons x xs ih =>
    rw [List.pairwise_cons] at sorted
    by_cases lt : x < p
    · rw [rank_cons_of_lt lt, List.take_succ_cons, ih sorted.2,
        List.filter_cons_of_pos (by simpa using lt)]
    · rw [rank_cons_of_le (not_lt.mp lt), List.take_zero, eq_comm, List.filter_eq_nil_iff]
      intro y mem
      rw [decide_eq_true_eq, not_lt]
      rcases List.mem_cons.mp mem with rfl | later
      · exact not_lt.mp lt
      · exact le_trans (not_lt.mp lt) (sorted.1 y later).le

theorem slice_rank {xs : List α} (sorted : xs.Pairwise (· < ·)) (lo hi : α) :
    (xs.take (rank xs hi)).drop (rank xs lo) = between lo hi xs := by
  induction xs with
  | nil => rfl
  | cons x xs ih =>
    by_cases below : x < lo
    · rw [rank_cons_of_lt below, between, List.filter_cons_of_neg (by simp [below]), ← between,
        ← ih (List.pairwise_cons.mp sorted).2]
      by_cases inside : x < hi
      · rw [rank_cons_of_lt inside, List.take_succ_cons, List.drop_succ_cons]
      · have empty : rank xs hi = 0 ∨ xs = [] := by
          cases xs with
          | nil => exact Or.inr rfl
          | cons y ys =>
            left
            have order : x < y := (List.pairwise_cons.mp sorted).1 y List.mem_cons_self
            exact rank_cons_of_le (le_trans (not_lt.mp inside) order.le) ys
        rw [rank_cons_of_le (not_lt.mp inside)]
        rcases empty with zero | rfl
        · rw [zero, List.take_zero, List.take_zero, List.drop_nil, List.drop_nil]
        · simp
    · rw [rank_cons_of_le (not_lt.mp below), List.drop_zero, take_rank sorted, between]
      apply List.filter_congr
      intro y mem
      have above : lo ≤ y := by
        rcases List.mem_cons.mp mem with rfl | later
        · exact not_lt.mp below
        · exact le_trans (not_lt.mp below) ((List.pairwise_cons.mp sorted).1 y later).le
      simp [above]

theorem rank_eq {xs : List α} {p : α} {k : Nat} (le : k ≤ xs.length)
    (before : ∀ i, (h : i < xs.length) → i < k → xs[i] < p)
    (after : (h : k < xs.length) → p ≤ xs[k]) : rank xs p = k := by
  induction xs generalizing k with
  | nil =>
    rw [List.length_nil, Nat.le_zero] at le
    rw [le]
    rfl
  | cons x xs ih =>
    cases k with
    | zero => exact rank_cons_of_le (after (Nat.zero_lt_succ _)) xs
    | succ k =>
      have first : x < p := before 0 (Nat.zero_lt_succ _) (Nat.zero_lt_succ _)
      rw [rank_cons_of_lt first, ih (Nat.le_of_succ_le_succ le)]
      · intro i h lt
        exact before (i + 1) (Nat.succ_lt_succ h) (Nat.succ_lt_succ lt)
      · intro h
        exact after (Nat.succ_lt_succ h)

theorem rank_getElem {xs : List α} (sorted : xs.Pairwise (· < ·)) {k : Nat} (h : k < xs.length) :
    rank xs xs[k] = k :=
  rank_eq h.le (fun i hi lt => List.pairwise_iff_getElem.mp sorted i k hi h lt) fun _ => le_rfl

theorem rank_eq_zero {xs : List α} {p : α} (first : ∀ x ∈ xs, p ≤ x) : rank xs p = 0 :=
  rank_eq (Nat.zero_le _) (fun i _ lt => absurd lt (Nat.not_lt_zero i))
    fun h => first _ (List.getElem_mem h)

theorem rank_eq_length {xs : List α} {p : α} (last : ∀ x ∈ xs, x < p) : rank xs p = xs.length :=
  rank_eq le_rfl (fun _ h _ => last _ (List.getElem_mem h)) fun h => absurd h (lt_irrefl _)

theorem getElem_lt_iff {xs : List α} (sorted : xs.Pairwise (· < ·)) {p : α} {k : Nat}
    (h : k < xs.length) : xs[k] < p ↔ k < rank xs p := by
  induction xs generalizing k with
  | nil => exact absurd h (Nat.not_lt_zero k)
  | cons x xs ih =>
    rw [List.pairwise_cons] at sorted
    by_cases lt : x < p
    · rw [rank_cons_of_lt lt]
      cases k with
      | zero => exact iff_of_true lt (Nat.zero_lt_succ _)
      | succ k =>
        rw [Nat.add_lt_add_iff_right]
        exact ih sorted.2 (Nat.lt_of_succ_lt_succ h)
    · rw [rank_cons_of_le (not_lt.mp lt)]
      refine iff_of_false (not_lt.mpr (le_trans (not_lt.mp lt) ?_)) (Nat.not_lt_zero k)
      cases k with
      | zero => exact le_rfl
      | succ k => exact (sorted.1 _ (List.getElem_mem _)).le

theorem rank_mono (xs : List α) {p q : α} (le : p ≤ q) : rank xs p ≤ rank xs q := by
  induction xs with
  | nil => exact le_rfl
  | cons x xs ih =>
    by_cases lt : x < p
    · rw [rank_cons_of_lt lt, rank_cons_of_lt (lt_of_lt_of_le lt le)]
      exact Nat.succ_le_succ ih
    · rw [rank_cons_of_le (not_lt.mp lt)]
      exact Nat.zero_le _

theorem lt_of_rank_lt (xs : List α) {p q : α} (lt : rank xs p < rank xs q) : p < q := by
  by_contra order
  exact absurd lt (not_lt.mpr (rank_mono xs (not_lt.mp order)))

/-- Searching on from the rank of an earlier position finds the rank. -/
theorem rank_add_takeWhile (xs : List α) {p q : α} (le : p ≤ q) :
    rank xs p + ((xs.drop (rank xs p)).takeWhile fun x => decide (x < q)).length = rank xs q := by
  induction xs with
  | nil => rfl
  | cons x xs ih =>
    by_cases lt : x < p
    · rw [rank_cons_of_lt lt, rank_cons_of_lt (lt_of_lt_of_le lt le), List.drop_succ_cons, ← ih]
      omega
    · rw [rank_cons_of_le (not_lt.mp lt), List.drop_zero, Nat.zero_add]
      rfl

theorem rank_append_of_lt {xs : List α} {p : α} (before : ∀ x ∈ xs, x < p) (ys : List α) :
    rank (xs ++ ys) p = xs.length + rank ys p := by
  rw [rank, List.takeWhile_append_of_pos fun x mem => decide_eq_true (before x mem),
    List.length_append, rank]

theorem rank_append_of_le {y p : α} (le : p ≤ y) (xs ys : List α) :
    rank (xs ++ y :: ys) p = rank xs p := by
  induction xs with
  | nil => exact rank_cons_of_le le ys
  | cons x xs ih =>
    rw [List.cons_append]
    by_cases lt : x < p
    · rw [rank_cons_of_lt lt, rank_cons_of_lt lt, ih]
    · rw [rank_cons_of_le (not_lt.mp lt), rank_cons_of_le (not_lt.mp lt)]

theorem rank_slice {xs : List α} (sorted : xs.Pairwise (· < ·)) {lo hi : Nat} (order : lo ≤ hi)
    (inside : hi ≤ xs.length) (p : α) :
    lo + rank ((xs.take hi).drop lo) p = max lo (min (rank xs p) hi) := by
  have size : ((xs.take hi).drop lo).length = hi - lo := by
    rw [List.length_drop, List.length_take, Nat.min_eq_left inside]
  have found : rank ((xs.take hi).drop lo) p = max lo (min (rank xs p) hi) - lo := by
    refine rank_eq (by omega) (fun i h lt => ?_) fun h => ?_
    · rw [List.getElem_drop, List.getElem_take]
      exact (getElem_lt_iff sorted (by omega)).mpr (by omega)
    · rw [List.getElem_drop, List.getElem_take, ← not_lt, getElem_lt_iff sorted (by omega)]
      omega
  omega

end Racnet.Lib
