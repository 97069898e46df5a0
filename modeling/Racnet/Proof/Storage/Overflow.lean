import Racnet.Proof.Storage.Index

/-!
# An index past its limit

After `2 ^ 32 - 1` items and the one that is lost, the arena gives the next item the number `0` again. If
node `0` is the root, its count is added to that of the node above the new leaf, which overflows.
-/

namespace Racnet.Proof.Storage
open Lib Store Sync

/-! ## The insertion that overflows -/

theorem addChild_heavy {index : OrderIndex} {node : Node} (found : index.nodes[0]? = some node)
    (heavy : node.count = nilIndex) {acc : Nat × IdSum} (counted : 1 ≤ acc.1) :
    index.addChild acc 0 = none := by
  rw [OrderIndex.addChild, if_neg (by rw [nilIndex]; omega), found]
  simp only [Option.bind_eq_bind, Option.bind_some, heavy]
  rw [checkedAdd32, if_neg (by rw [nilIndex]; omega)]
  rfl

theorem one_le_addChild {index : OrderIndex} {acc acc' : Nat × IdSum} {child : Nat}
    (counted : 1 ≤ acc.1) (added : index.addChild acc child = some acc') : 1 ≤ acc'.1 := by
  rw [OrderIndex.addChild] at added
  split_ifs at added
  · rwa [← Option.some.inj added]
  · simp only [Option.bind_eq_bind, Option.bind_eq_some_iff, checkedAdd32] at added
    obtain ⟨node, -, count, summed, last⟩ := added
    split_ifs at summed
    rw [← Option.some.inj last, ← Option.some.inj summed]
    exact le_trans counted (Nat.le_add_right _ _)

theorem pullUp_heavy {index : OrderIndex} {i : Nat} {node root : Node}
    (found : index.nodes[i]? = some node) (linked : node.left = 0 ∨ node.right = 0)
    (top : index.nodes[0]? = some root) (heavy : root.count = nilIndex) :
    index.pullUp i = none := by
  rw [OrderIndex.pullUp, found]
  simp only [Option.bind_eq_bind, Option.bind_some]
  rcases linked with left | right
  · rw [left, addChild_heavy top heavy le_rfl]
    rfl
  · cases first : index.addChild (1, IdSum.zero.addId node.item.id) node.left with
    | none => rfl
    | some acc =>
      rw [right, Option.bind_some, addChild_heavy top heavy (one_le_addChild le_rfl first)]
      rfl

section
variable {index : OrderIndex} {i : Nat} {node root : Node} (apart : i ≠ 0)
  (found : index.nodes[i]? = some node) (first : index.nodes[0]? = some root)
  (heavy : root.count = nilIndex)
include apart found first heavy

theorem setLeft_heavy : ∃ index', index.setLeft i 0 = some index' ∧ index'.pullUp i = none := by
  refine ⟨⟨index.nodes.set i { node with left := 0 }, index.root⟩, ?_, ?_⟩
  · rw [OrderIndex.setLeft, found]
    rfl
  · refine pullUp_heavy (List.getElem?_set_self (List.getElem?_eq_some_iff.mp found).1)
      (Or.inl rfl) ?_ heavy
    rw [List.getElem?_set_ne apart, first]

theorem setRight_heavy : ∃ index', index.setRight i 0 = some index' ∧ index'.pullUp i = none := by
  refine ⟨⟨index.nodes.set i { node with right := 0 }, index.root⟩, ?_, ?_⟩
  · rw [OrderIndex.setRight, found]
    rfl
  · refine pullUp_heavy (List.getElem?_set_self (List.getElem?_eq_some_iff.mp found).1)
      (Or.inr rfl) ?_ heavy
    rw [List.getElem?_set_ne apart, first]

end

variable {nodes : List Node} {t : LabelTree Item} {item : Item} {top : Nat}

theorem insertAt_overflow {root : Node} (full : nodes.length = 2 ^ 32)
    (first : nodes[0]? = some root) (heavy : root.count = nilIndex) (rep : Represents nodes t)
    (filled : t ≠ .leaf) (below : 0 ∉ t.labels) (absent : item ∉ t.toList) {fuel : Nat}
    (enough : t.size ≤ fuel) :
    OrderIndex.insertAt fuel ⟨nodes, top⟩ (rootOf t) item = none := by
  induction t generalizing fuel with
  | leaf => exact absurd rfl filled
  | node i l x r ihl ihr =>
    obtain ⟨small, found, repL, repR⟩ := rep
    simp only [LabelTree.labels, List.mem_cons, List.mem_append, not_or] at below
    simp only [LabelTree.toList, List.mem_append, List.mem_cons, not_or] at absent
    obtain ⟨fuel, rfl⟩ : ∃ n, fuel = n + 1 := ⟨fuel - 1, by rw [LabelTree.size] at enough; omega⟩
    rw [LabelTree.size] at enough
    -- the number that a new leaf gets
    have leaf : OrderIndex.insertAt fuel ⟨nodes, top⟩ nilIndex item =
        some (⟨nodes ++ [nodeOf .leaf item .leaf], top⟩, 0, true) := by
      rw [insertAt_nilIndex]
      simp only [full, Nat.mod_self]
    have found' : (nodes ++ [nodeOf .leaf item .leaf])[i]? = some (nodeOf l x r) := by
      rw [List.getElem?_append_left (List.getElem?_eq_some_iff.mp found).1, found]
    have first' : (nodes ++ [nodeOf .leaf item .leaf])[0]? = some root := by
      rw [List.getElem?_append_left (List.getElem?_eq_some_iff.mp first).1, first]
    rw [show rootOf (.node i l x r) = i from rfl, OrderIndex.insertAt, if_neg small.ne]
    simp only [found, Option.bind_eq_bind, Option.bind_some, nodeOf_item]
    cases order : compare item x with
    | eq => exact absurd (compare_eq_iff_eq.mp order) absent.2.1
    | lt =>
      simp only [show (nodeOf l x r).left = rootOf l from rfl]
      by_cases empty : l = .leaf
      · subst empty
        obtain ⟨index', linked, pulled⟩ := @setLeft_heavy ⟨_, top⟩ i _ root (Ne.symm below.1)
          found' first' heavy
        simp only [show rootOf (.leaf : LabelTree Item) = nilIndex from rfl, leaf, Option.bind_some,
          linked, pulled, if_true, Option.bind_none]
      · rw [ihl repL empty below.2.1 absent.1 (by omega)]
        rfl
    | gt =>
      simp only [show (nodeOf l x r).right = rootOf r from rfl]
      by_cases empty : r = .leaf
      · subst empty
        obtain ⟨index', linked, pulled⟩ := @setRight_heavy ⟨_, top⟩ i _ root (Ne.symm below.1)
          found' first' heavy
        simp only [show rootOf (.leaf : LabelTree Item) = nilIndex from rfl, leaf, Option.bind_some,
          linked, pulled, if_true, Option.bind_none]
      · rw [ihr repR empty below.2.2 absent.2.2 (by omega)]
        rfl

/-! ## Keeping node `0` the root -/

theorem Represents.unique {t' : LabelTree Item} (rep : Represents nodes t) (rep' : Represents nodes t')
    (same : rootOf t = rootOf t') : t = t' := by
  induction t generalizing t' with
  | leaf => exact (rep'.rootOf_eq_nilIndex.mp same.symm).symm
  | node i l x r ihl ihr =>
    cases t' with
    | leaf => exact absurd (rep.rootOf_eq_nilIndex.mp same) (by simp)
    | node j l' x' r' =>
      obtain rfl : i = j := same
      obtain ⟨-, found, repL, repR⟩ := rep
      obtain ⟨-, found', repL', repR'⟩ := rep'
      have nodes := Option.some.inj (found.symm.trans found')
      have value : x = x' := congrArg Node.item nodes
      rw [value, ihl repL repL' (congrArg Node.left nodes),
        ihr repR repR' (congrArg Node.right nodes)]

/-- The tree of an index: node `0` with `before` items to its left and `after` to its right. -/
structure Rooted (index : OrderIndex) (x : Item) (before after : Nat) (l r : LabelTree Item) : Prop where
  keeps : Keeps index (.node 0 l x r)
  left : l.size = before
  right : r.size = after

theorem size_insert {fresh t' : LabelTree Item} (sorted : t.toList.Pairwise (· < ·))
    (inserted : LabelTree.insert delta gamma fresh item t = some t') :
    t'.size = t.size + fresh.size := by
  obtain ⟨before, after, split, -, -, result⟩ := LabelTree.toList_insert sorted inserted
  rw [← LabelTree.length_toList, ← LabelTree.length_toList t, result, split, ← LabelTree.length_toList fresh]
  simp only [List.length_append]
  omega

theorem balance_even {i : Nat} {l r : LabelTree Item} {x : Item} (left : l.size ≤ r.size + 1)
    (right : r.size ≤ l.size + 1) :
    LabelTree.balance delta gamma (.node i l x r) = .node i l x r := by
  rw [LabelTree.balance, LabelTree.weight, LabelTree.weight, delta, if_neg (by omega), if_neg (by omega)]

variable {index : OrderIndex} {x : Item} {before after : Nat} {l r : LabelTree Item}

theorem Rooted.insert_right (rooted : Rooted index x before after l r)
    (room : index.nodes.length ≤ nilIndex) (above : x < item)
    (absent : item ∉ r.toList) (even : after ≤ before ∧ before ≤ after + 1) :
    ∃ index' r', index.insert item = some (index', true) ∧
      Rooted index' x before (after + (freshTree index.nodes.length item).size) l r' ∧
      index'.nodes.length = index.nodes.length + 1 := by
  have sorted := rooted.keeps.sorted
  rw [LabelTree.toList, List.pairwise_append, List.pairwise_cons] at sorted
  have fresh : (freshTree index.nodes.length item).size ≤ 1 := by
    rw [freshTree]
    split_ifs <;> simp
  cases inserted : LabelTree.insert delta gamma (freshTree index.nodes.length item) item r with
  | none => exact absurd (LabelTree.mem_of_insert_none inserted) absent
  | some r' =>
    have size := size_insert sorted.2.1.2 inserted
    have whole : LabelTree.insert delta gamma (freshTree index.nodes.length item) item
        (.node 0 l x r) = some (.node 0 l x r') := by
      have leftSize := rooted.left
      have rightSize := rooted.right
      rw [LabelTree.insert, compare_gt_iff_gt.mpr above, inserted, Option.map_some,
        balance_even (by omega) (by omega)]
    obtain ⟨index', ran, keeps, length⟩ := rooted.keeps.insert_tree room whole
    exact ⟨index', r', ran, ⟨keeps, rooted.left, by rw [size, rooted.right]⟩, length⟩

theorem Rooted.insert_left (rooted : Rooted index x before after l r)
    (room : index.nodes.length ≤ nilIndex) (above : item < x)
    (absent : item ∉ l.toList) (even : before ≤ after ∧ after ≤ before + 1) :
    ∃ index' l', index.insert item = some (index', true) ∧
      Rooted index' x (before + (freshTree index.nodes.length item).size) after l' r ∧
      index'.nodes.length = index.nodes.length + 1 := by
  have sorted := rooted.keeps.sorted
  rw [LabelTree.toList, List.pairwise_append, List.pairwise_cons] at sorted
  have fresh : (freshTree index.nodes.length item).size ≤ 1 := by
    rw [freshTree]
    split_ifs <;> simp
  cases inserted : LabelTree.insert delta gamma (freshTree index.nodes.length item) item l with
  | none => exact absurd (LabelTree.mem_of_insert_none inserted) absent
  | some l' =>
    have size := size_insert sorted.1 inserted
    have whole : LabelTree.insert delta gamma (freshTree index.nodes.length item) item
        (.node 0 l x r) = some (.node 0 l' x r) := by
      have leftSize := rooted.left
      have rightSize := rooted.right
      rw [LabelTree.insert, compare_lt_iff_lt.mpr above, inserted, Option.map_some,
        balance_even (by omega) (by omega)]
    obtain ⟨index', ran, keeps, length⟩ := rooted.keeps.insert_tree room whole
    exact ⟨index', l', ran, ⟨keeps, by rw [size, rooted.left], rooted.right⟩, length⟩

theorem Rooted.insert_overflow (rooted : Rooted index x before after l r)
    (full : index.nodes.length = 2 ^ 32) (filled : 0 < before ∧ 0 < after)
    (count : 1 + before + after = nilIndex) (absent : item ∉ (LabelTree.node 0 l x r).toList) :
    index.insert item = none := by
  obtain ⟨small, found, repL, repR⟩ := rooted.keeps.nodes
  obtain ⟨outL, outR, -, -, -⟩ := LabelTree.nodup_labels_node.mp rooted.keeps.distinct
  have heavy : (nodeOf l x r).count = nilIndex := by
    rw [← count, ← rooted.left, ← rooted.right]
    rfl
  have enough := rooted.keeps.size_le
  have root : index.root = 0 := rooted.keeps.root
  simp only [LabelTree.toList, List.mem_append, List.mem_cons, not_or] at absent
  have sizes : l.size ≤ 2 ^ 32 - 1 ∧ r.size ≤ 2 ^ 32 - 1 := by
    rw [LabelTree.size, full] at enough
    omega
  have left : l ≠ .leaf := by
    rintro rfl
    exact absurd rooted.left (by simp; omega)
  have right : r ≠ .leaf := by
    rintro rfl
    exact absurd rooted.right (by simp; omega)
  obtain ⟨nodes, top⟩ := index
  dsimp only at root full found
  subst root
  rw [OrderIndex.insert]
  have unfolded : OrderIndex.insertAt nodes.length ⟨nodes, 0⟩ 0 item = none := by
    rw [full, show 2 ^ 32 = (2 ^ 32 - 1) + 1 from rfl, OrderIndex.insertAt, if_neg small.ne]
    simp only [found, Option.bind_eq_bind, Option.bind_some]
    cases order : compare item (nodeOf l x r).item with
    | eq => exact absurd (compare_eq_iff_eq.mp order) absent.2.1
    | lt =>
      simp only [show (nodeOf l x r).left = rootOf l from rfl]
      rw [insertAt_overflow full found heavy repL left outL absent.1 sizes.1]
      rfl
    | gt =>
      simp only [show (nodeOf l x r).right = rootOf r from rfl]
      rw [insertAt_overflow full found heavy repR right outR absent.2.2 sizes.2]
      rfl
  simp only [unfolded]
  rfl

end Racnet.Proof.Storage
