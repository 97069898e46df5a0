import Mathlib.Data.List.Nodup
import Mathlib.Data.List.Perm.Basic
import Mathlib.Order.Compare
import Mathlib.Order.Lattice
import Mathlib.Tactic.Common

/-!
# Search trees with labelled nodes

Weight-balanced insertion by rotations. The labels are the places at which an implementation keeps the
nodes: a rotation moves subtrees and no label changes its value.
-/

namespace Racnet.Lib

inductive LabelTree (α : Type) where
  | leaf
  | node (label : Nat) (left : LabelTree α) (value : α) (right : LabelTree α)
  deriving DecidableEq

namespace LabelTree

variable {α : Type}

@[simp] def toList : LabelTree α → List α
  | leaf => []
  | node _ l x r => l.toList ++ x :: r.toList

@[simp] def labels : LabelTree α → List Nat
  | leaf => []
  | node i l _ r => i :: (l.labels ++ r.labels)

@[simp] def size : LabelTree α → Nat
  | leaf => 0
  | node _ l _ r => 1 + l.size + r.size

@[simp] def left : LabelTree α → LabelTree α
  | leaf => leaf
  | node _ l _ _ => l

@[simp] def right : LabelTree α → LabelTree α
  | leaf => leaf
  | node _ _ _ r => r

def weight (t : LabelTree α) : Nat := t.size + 1

def rotateLeft : LabelTree α → LabelTree α
  | node i a x (node j b y c) => node j (node i a x b) y c
  | t => t

def rotateRight : LabelTree α → LabelTree α
  | node i (node j a x b) y c => node j a x (node i b y c)
  | t => t

/-- One step of rebalancing, after one insertion below the root. -/
def balance (delta gamma : Nat) : LabelTree α → LabelTree α
  | leaf => leaf
  | node i l x r =>
    if l.weight * delta < r.weight then
      if r.left.weight < gamma * r.right.weight then (node i l x r).rotateLeft
      else (node i l x r.rotateRight).rotateLeft
    else if r.weight * delta < l.weight then
      if l.right.weight < gamma * l.left.weight then (node i l x r).rotateRight
      else (node i l.rotateLeft x r).rotateRight
    else node i l x r

/-- Insertion of `item`, with `fresh` in the place of the leaf that the search ends at; `none` when the
item is already there. -/
def insert [LinearOrder α] (delta gamma : Nat) (fresh : LabelTree α) (item : α) : LabelTree α → Option (LabelTree α)
  | leaf => some fresh
  | node i l x r =>
    match compare item x with
    | .eq => none
    | .lt => (insert delta gamma fresh item l).map fun l => balance delta gamma (node i l x r)
    | .gt => (insert delta gamma fresh item r).map fun r => balance delta gamma (node i l x r)

theorem length_toList (t : LabelTree α) : t.toList.length = t.size := by
  induction t with
  | leaf => rfl
  | node i l x r ihl ihr =>
    simp only [toList, List.length_append, List.length_cons, ihl, ihr, size]
    omega

theorem length_labels (t : LabelTree α) : t.labels.length = t.size := by
  induction t with
  | leaf => rfl
  | node i l x r ihl ihr =>
    simp only [labels, List.length_append, List.length_cons, ihl, ihr, size]
    omega

theorem nodup_labels_node {i : Nat} {l r : LabelTree α} {x : α} :
    (node i l x r).labels.Nodup ↔ i ∉ l.labels ∧ i ∉ r.labels ∧ l.labels.Nodup ∧ r.labels.Nodup ∧
      ∀ k ∈ l.labels, k ∉ r.labels := by
  rw [labels, List.nodup_cons, List.mem_append, not_or, List.nodup_append', and_assoc]
  exact Iff.rfl

/-! ## Rotations keep the sequence and the labels -/

theorem toList_rotateLeft (t : LabelTree α) : t.rotateLeft.toList = t.toList := by
  rcases t with _ | ⟨i, a, x, _ | ⟨j, b, y, c⟩⟩
  · rfl
  · rfl
  · simp [rotateLeft]

theorem toList_rotateRight (t : LabelTree α) : t.rotateRight.toList = t.toList := by
  rcases t with _ | ⟨i, _ | ⟨j, a, x, b⟩, y, c⟩
  · rfl
  · rfl
  · simp [rotateRight]

theorem labels_rotateLeft (t : LabelTree α) : t.rotateLeft.labels.Perm t.labels := by
  rcases t with _ | ⟨i, a, x, _ | ⟨j, b, y, c⟩⟩
  · exact List.Perm.refl _
  · exact List.Perm.refl _
  · rw [List.perm_iff_count]
    intro k
    simp only [rotateLeft, labels, List.count_cons, List.count_append]
    omega

theorem labels_rotateRight (t : LabelTree α) : t.rotateRight.labels.Perm t.labels := by
  rcases t with _ | ⟨i, _ | ⟨j, a, x, b⟩, y, c⟩
  · exact List.Perm.refl _
  · exact List.Perm.refl _
  · rw [List.perm_iff_count]
    intro k
    simp only [rotateRight, labels, List.count_cons, List.count_append]
    omega

variable (delta gamma : Nat)

theorem toList_balance (t : LabelTree α) : (balance delta gamma t).toList = t.toList := by
  cases t with
  | leaf => rfl
  | node i l x r =>
    rw [balance]
    split_ifs
    · exact toList_rotateLeft _
    · rw [toList_rotateLeft, toList, toList_rotateRight, toList]
    · exact toList_rotateRight _
    · rw [toList_rotateRight, toList, toList_rotateLeft, toList]
    · rfl

theorem labels_balance (t : LabelTree α) : (balance delta gamma t).labels.Perm t.labels := by
  cases t with
  | leaf => exact List.Perm.refl _
  | node i l x r =>
    rw [balance]
    split_ifs
    · exact labels_rotateLeft _
    · exact (labels_rotateLeft _).trans
        (((labels_rotateRight r).append_left l.labels).cons i)
    · exact labels_rotateRight _
    · exact (labels_rotateRight _).trans
        (((labels_rotateLeft l).append_right r.labels).cons i)
    · exact List.Perm.refl _

/-! ## Insertion -/

variable [LinearOrder α] {delta gamma} {fresh t t' : LabelTree α} {item : α}

theorem mem_of_insert_none (refused : insert delta gamma fresh item t = none) :
    item ∈ t.toList := by
  induction t with
  | leaf => exact absurd refused (by simp [insert])
  | node i l x r ihl ihr =>
    rw [insert] at refused
    cases order : compare item x with
    | eq => simp [compare_eq_iff_eq.mp order]
    | lt =>
      simp only [order, Option.map_eq_none_iff] at refused
      simp [ihl refused]
    | gt =>
      simp only [order, Option.map_eq_none_iff] at refused
      simp [ihr refused]

theorem toList_insert (sorted : t.toList.Pairwise (· < ·))
    (inserted : insert delta gamma fresh item t = some t') :
    ∃ before after, t.toList = before ++ after ∧ (∀ x ∈ before, x < item) ∧
      (∀ x ∈ after, item < x) ∧ t'.toList = before ++ (fresh.toList ++ after) := by
  induction t generalizing t' with
  | leaf =>
    obtain rfl := Option.some.inj inserted
    exact ⟨[], [], rfl, by simp, by simp, by simp⟩
  | node i l x r ihl ihr =>
    rw [insert] at inserted
    rw [toList, List.pairwise_append, List.pairwise_cons] at sorted
    obtain ⟨sortedL, ⟨above, sortedR⟩, apart⟩ := sorted
    cases order : compare item x with
    | eq => simp [order] at inserted
    | lt =>
      have lt : item < x := compare_lt_iff_lt.mp order
      simp only [order, Option.map_eq_some_iff] at inserted
      obtain ⟨l', insertedL, rfl⟩ := inserted
      obtain ⟨before, after, split, smaller, larger, result⟩ := ihl sortedL insertedL
      refine ⟨before, after ++ x :: r.toList, by simp [split], smaller, ?_, ?_⟩
      · intro y mem
        rcases List.mem_append.mp mem with mem | mem
        · exact larger y mem
        · rcases List.mem_cons.mp mem with rfl | mem
          · exact lt
          · exact lt.trans (above y mem)
      · rw [toList_balance, toList, result]
        simp
    | gt =>
      have lt : x < item := compare_gt_iff_gt.mp order
      simp only [order, Option.map_eq_some_iff] at inserted
      obtain ⟨r', insertedR, rfl⟩ := inserted
      obtain ⟨before, after, split, smaller, larger, result⟩ := ihr sortedR insertedR
      refine ⟨l.toList ++ x :: before, after, by simp [split], ?_, larger, ?_⟩
      · intro y mem
        rcases List.mem_append.mp mem with mem | mem
        · exact (apart y mem x (by simp)).trans lt
        · rcases List.mem_cons.mp mem with rfl | mem
          · exact lt
          · exact smaller y mem
      · rw [toList_balance, toList, result]
        simp

theorem labels_insert (inserted : insert delta gamma fresh item t = some t') :
    t'.labels.Perm (t.labels ++ fresh.labels) := by
  induction t generalizing t' with
  | leaf =>
    obtain rfl := Option.some.inj inserted
    exact List.Perm.refl _
  | node i l x r ihl ihr =>
    rw [insert] at inserted
    cases order : compare item x with
    | eq => simp [order] at inserted
    | lt =>
      simp only [order, Option.map_eq_some_iff] at inserted
      obtain ⟨l', insertedL, rfl⟩ := inserted
      refine (labels_balance delta gamma _).trans ?_
      rw [List.perm_iff_count]
      intro k
      have below := (ihl insertedL).count_eq k
      simp only [labels, List.count_cons, List.count_append] at below ⊢
      omega
    | gt =>
      simp only [order, Option.map_eq_some_iff] at inserted
      obtain ⟨r', insertedR, rfl⟩ := inserted
      refine (labels_balance delta gamma _).trans ?_
      rw [List.perm_iff_count]
      intro k
      have below := (ihr insertedR).count_eq k
      simp only [labels, List.count_cons, List.count_append] at below ⊢
      omega

theorem insert_none_of_mem (sorted : t.toList.Pairwise (· < ·)) (mem : item ∈ t.toList) :
    insert delta gamma fresh item t = none := by
  cases inserted : insert delta gamma fresh item t with
  | none => rfl
  | some t' =>
    obtain ⟨before, after, split, smaller, larger, -⟩ := toList_insert sorted inserted
    rw [split] at mem
    rcases List.mem_append.mp mem with mem | mem
    · exact absurd (smaller item mem) (lt_irrefl item)
    · exact absurd (larger item mem) (lt_irrefl item)

theorem sorted_insert (sorted : t.toList.Pairwise (· < ·))
    (fits : fresh.toList = [item] ∨ fresh.toList = [])
    (inserted : insert delta gamma fresh item t = some t') : t'.toList.Pairwise (· < ·) := by
  obtain ⟨before, after, split, smaller, larger, result⟩ := toList_insert sorted inserted
  rw [split, List.pairwise_append] at sorted
  obtain ⟨sortedL, sortedR, apart⟩ := sorted
  rw [result]
  rcases fits with one | none
  · rw [one, List.singleton_append, List.pairwise_append, List.pairwise_cons]
    refine ⟨sortedL, ⟨larger, sortedR⟩, fun x memX y memY => ?_⟩
    rcases List.mem_cons.mp memY with rfl | memY
    · exact smaller x memX
    · exact apart x memX y memY
  · rw [none, List.nil_append, List.pairwise_append]
    exact ⟨sortedL, sortedR, apart⟩

/-! ## Balance -/

section Balance
omit [LinearOrder α]

/-- `P` holds at every node: of its label, its value and its two subtrees. -/
def Every (P : Nat → LabelTree α → α → LabelTree α → Prop) : LabelTree α → Prop
  | leaf => True
  | node i l x r => P i l x r ∧ Every P l ∧ Every P r

theorem Every.imp {P Q : Nat → LabelTree α → α → LabelTree α → Prop}
    (weaken : ∀ i l x r, P i l x r → Q i l x r) {t : LabelTree α} (every : Every P t) : Every Q t := by
  induction t with
  | leaf => trivial
  | node i l x r ihl ihr => exact ⟨weaken i l x r every.1, ihl every.2.1, ihr every.2.2⟩

theorem Every.and {P Q : Nat → LabelTree α → α → LabelTree α → Prop} {t : LabelTree α}
    (left : Every P t) (right : Every Q t) : Every (fun i l x r => P i l x r ∧ Q i l x r) t := by
  induction t with
  | leaf => trivial
  | node i l x r ihl ihr =>
    exact ⟨⟨left.1, right.1⟩, ihl left.2.1 right.2.1, ihr left.2.2 right.2.2⟩

/-- At no node is one side more than three times as heavy as the other. -/
def Balanced : LabelTree α → Prop :=
  Every fun _ l _ r => r.weight ≤ 3 * l.weight ∧ l.weight ≤ 3 * r.weight

@[simp] theorem balanced_node {i : Nat} {l r : LabelTree α} {x : α} : (node i l x r).Balanced ↔
    (r.weight ≤ 3 * l.weight ∧ l.weight ≤ 3 * r.weight) ∧ l.Balanced ∧ r.Balanced := Iff.rfl

@[simp] theorem weight_leaf : (leaf : LabelTree α).weight = 1 := rfl

@[simp] theorem weight_node (i : Nat) (l r : LabelTree α) (x : α) :
    (node i l x r).weight = l.weight + r.weight := by
  simp only [weight, size]
  omega

theorem weight_pos (t : LabelTree α) : 0 < t.weight := Nat.succ_pos _

/-- The right side is one item too heavy: one rotation, or two, repair it. -/
theorem balanced_of_right_heavy {i : Nat} {l r : LabelTree α} {x : α} (left : l.Balanced)
    (right : r.Balanced) (heavy : r.weight = 3 * l.weight + 1) :
    (if r.left.weight < 2 * r.right.weight then (node i l x r).rotateLeft
      else (node i l x r.rotateRight).rotateLeft).Balanced := by
  have positive := l.weight_pos
  rcases r with _ | ⟨j, b, y, c⟩
  · rw [weight_leaf] at heavy
    omega
  obtain ⟨⟨outer, inner⟩, balancedB, balancedC⟩ := right
  rw [weight_node] at heavy
  have positiveC := c.weight_pos
  by_cases single : b.weight < 2 * c.weight
  · rw [LabelTree.left, LabelTree.right, if_pos single]
    simp only [rotateLeft, balanced_node, weight_node]
    exact ⟨by omega, ⟨by omega, left, balancedB⟩, balancedC⟩
  · rw [LabelTree.left, LabelTree.right, if_neg single]
    rcases b with _ | ⟨k, b₁, z, b₂⟩
    · rw [weight_leaf] at heavy single
      omega
    obtain ⟨⟨outer', inner'⟩, balanced₁, balanced₂⟩ := balancedB
    have positive₂ := b₂.weight_pos
    rw [weight_node] at heavy single outer inner
    simp only [rotateRight, rotateLeft, balanced_node, weight_node]
    exact ⟨by omega, ⟨by omega, left, balanced₁⟩, by omega, balanced₂, balancedC⟩

theorem balanced_of_left_heavy {i : Nat} {l r : LabelTree α} {x : α} (left : l.Balanced)
    (right : r.Balanced) (heavy : l.weight = 3 * r.weight + 1) :
    (if l.right.weight < 2 * l.left.weight then (node i l x r).rotateRight
      else (node i l.rotateLeft x r).rotateRight).Balanced := by
  have positive := r.weight_pos
  rcases l with _ | ⟨j, a, y, b⟩
  · rw [weight_leaf] at heavy
    omega
  obtain ⟨⟨outer, inner⟩, balancedA, balancedB⟩ := left
  rw [weight_node] at heavy
  have positiveA := a.weight_pos
  by_cases single : b.weight < 2 * a.weight
  · rw [LabelTree.left, LabelTree.right, if_pos single]
    simp only [rotateRight, balanced_node, weight_node]
    exact ⟨by omega, balancedA, by omega, balancedB, right⟩
  · rw [LabelTree.left, LabelTree.right, if_neg single]
    rcases b with _ | ⟨k, b₁, z, b₂⟩
    · rw [weight_leaf] at heavy single
      omega
    obtain ⟨⟨outer', inner'⟩, balanced₁, balanced₂⟩ := balancedB
    have positive₁ := b₁.weight_pos
    rw [weight_node] at heavy single outer inner
    simp only [rotateLeft, rotateRight, balanced_node, weight_node]
    exact ⟨by omega, ⟨by omega, balancedA, balanced₁⟩, by omega, balanced₂, right⟩

/-- One step of rebalancing is enough after one insertion. -/
theorem balanced_balance {i : Nat} {l r : LabelTree α} {x : α} (left : l.Balanced) (right : r.Balanced)
    (near : r.weight ≤ 3 * l.weight + 1 ∧ l.weight ≤ 3 * r.weight + 1) :
    (balance 3 2 (node i l x r)).Balanced := by
  rw [balance]
  by_cases rightHeavy : l.weight * 3 < r.weight
  · rw [if_pos rightHeavy]
    exact balanced_of_right_heavy left right (by omega)
  by_cases leftHeavy : r.weight * 3 < l.weight
  · rw [if_neg rightHeavy, if_pos leftHeavy]
    exact balanced_of_left_heavy left right (by omega)
  · rw [if_neg rightHeavy, if_neg leftHeavy, balanced_node]
    exact ⟨by omega, left, right⟩

theorem weight_balance (t : LabelTree α) : (balance 3 2 t).weight = t.weight := by
  rw [weight, weight, ← length_toList, ← length_toList, toList_balance]

end Balance

theorem balanced_insert (fits : fresh.weight = 2) (small : fresh.Balanced) (balanced : t.Balanced)
    (inserted : insert 3 2 fresh item t = some t') : t'.Balanced ∧ t'.weight = t.weight + 1 := by
  induction t generalizing t' with
  | leaf =>
    obtain rfl := Option.some.inj inserted
    exact ⟨small, fits⟩
  | node i l x r ihl ihr =>
    obtain ⟨near, left, right⟩ := balanced
    rw [insert] at inserted
    cases order : compare item x with
    | eq => simp [order] at inserted
    | lt =>
      simp only [order, Option.map_eq_some_iff] at inserted
      obtain ⟨l', insertedL, rfl⟩ := inserted
      obtain ⟨left', grown⟩ := ihl left insertedL
      rw [weight_balance, weight_node, weight_node, grown]
      exact ⟨balanced_balance left' right (by omega), by omega⟩
    | gt =>
      simp only [order, Option.map_eq_some_iff] at inserted
      obtain ⟨r', insertedR, rfl⟩ := inserted
      obtain ⟨right', grown⟩ := ihr right insertedR
      rw [weight_balance, weight_node, weight_node, grown]
      exact ⟨balanced_balance left right' (by omega), by omega⟩

end LabelTree

end Racnet.Lib
