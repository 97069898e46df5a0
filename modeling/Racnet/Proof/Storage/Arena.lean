import Mathlib.Tactic.Abel
import Racnet.Lib.Tree
import Racnet.Proof.Negentropy.IdSum
import Racnet.Store.Order

/-!
# The arena as a tree

The arena represents a labelled tree, whose labels are the arena indices. Every function that changes
the arena computes the operation of the same name on the tree, and leaves the nodes of all other trees
alone.
-/

namespace Racnet.Proof.Storage
open Lib Store Sync

def rootOf : LabelTree Item → Nat
  | .leaf => nilIndex
  | .node i _ _ _ => i

def nodeOf (l : LabelTree Item) (x : Item) (r : LabelTree Item) : Node where
  item := x
  left := rootOf l
  right := rootOf r
  count := 1 + l.size + r.size
  sum := idSum (l.toList ++ x :: r.toList)

/-- The nodes of `t` are in the arena, each with the summary of its subtree. -/
def Represents (nodes : List Node) : LabelTree Item → Prop
  | .leaf => True
  | .node i l x r => i < nilIndex ∧ nodes[i]? = some (nodeOf l x r) ∧
      Represents nodes l ∧ Represents nodes r

variable {nodes nodes' : List Node} {t l r a b c : LabelTree Item} {x y item : Item} {i j top : Nat}

@[simp]
theorem rootOf_leaf : rootOf .leaf = nilIndex := rfl

@[simp]
theorem rootOf_node : rootOf (.node i l x r) = i := rfl

@[simp]
theorem nodeOf_item : (nodeOf l x r).item = x := rfl

@[simp]
theorem nodeOf_left : (nodeOf l x r).left = rootOf l := rfl

@[simp]
theorem nodeOf_right : (nodeOf l x r).right = rootOf r := rfl

theorem Represents.frame (rep : Represents nodes t)
    (kept : ∀ k ∈ t.labels, k < nodes.length → nodes'[k]? = nodes[k]?) : Represents nodes' t := by
  induction t with
  | leaf => trivial
  | node i l x r ihl ihr =>
    obtain ⟨below, found, repL, repR⟩ := rep
    have inside : i < nodes.length := (List.getElem?_eq_some_iff.mp found).1
    simp only [LabelTree.labels, List.mem_cons, List.mem_append] at kept
    refine ⟨below, (kept i (Or.inl rfl) inside).trans found, ?_, ?_⟩
    · exact ihl repL fun k mem => kept k (Or.inr (Or.inl mem))
    · exact ihr repR fun k mem => kept k (Or.inr (Or.inr mem))

theorem Represents.lt_nilIndex (rep : Represents nodes t) : ∀ k ∈ t.labels, k < nilIndex := by
  induction t with
  | leaf => simp
  | node i l x r ihl ihr =>
    obtain ⟨below, -, repL, repR⟩ := rep
    intro k mem
    rcases List.mem_cons.mp mem with rfl | mem
    · exact below
    · rcases List.mem_append.mp mem with mem | mem
      · exact ihl repL k mem
      · exact ihr repR k mem

theorem Represents.lt_length (rep : Represents nodes t) : ∀ k ∈ t.labels, k < nodes.length := by
  induction t with
  | leaf => simp
  | node i l x r ihl ihr =>
    obtain ⟨-, found, repL, repR⟩ := rep
    intro k mem
    rcases List.mem_cons.mp mem with rfl | mem
    · exact (List.getElem?_eq_some_iff.mp found).1
    · rcases List.mem_append.mp mem with mem | mem
      · exact ihl repL k mem
      · exact ihr repR k mem

theorem size_le_of_lt {t : LabelTree Item} {n : Nat} (distinct : t.labels.Nodup)
    (below : ∀ k ∈ t.labels, k < n) : t.size ≤ n := by
  rw [← LabelTree.length_labels, ← List.length_range (n := n)]
  exact (List.subperm_of_subset distinct fun k mem => List.mem_range.mpr (below k mem)).length_le

theorem Represents.size_lt (rep : Represents nodes t) (distinct : t.labels.Nodup) :
    t.size < 2 ^ 32 := by
  have := size_le_of_lt distinct rep.lt_nilIndex
  rw [nilIndex] at this
  omega

theorem Represents.rootOf_eq_nilIndex (rep : Represents nodes t) :
    rootOf t = nilIndex ↔ t = .leaf := by
  cases t with
  | leaf => simp [rootOf]
  | node i l x r => simp [rootOf, rep.1.ne]

/-! ## Summaries -/

theorem subtreeCount_rootOf (rep : Represents nodes t) :
    OrderIndex.subtreeCount ⟨nodes, top⟩ (rootOf t) = some t.size := by
  rw [OrderIndex.subtreeCount]
  cases t with
  | leaf => exact if_pos rfl
  | node i l x r =>
    rw [if_neg (show ¬ rootOf (.node i l x r) = nilIndex from rep.1.ne)]
    simp [rootOf, rep.2.1, nodeOf]

theorem weight_rootOf (rep : Represents nodes t) :
    OrderIndex.weight ⟨nodes, top⟩ (rootOf t) = some t.weight := by
  simp [OrderIndex.weight, subtreeCount_rootOf rep, LabelTree.weight]

theorem addChild_rootOf (rep : Represents nodes t) {count : Nat} (fits : count + t.size < 2 ^ 32)
    (sum : IdSum) :
    OrderIndex.addChild ⟨nodes, top⟩ (count, sum) (rootOf t) =
      some (count + t.size, sum + idSum t.toList) := by
  rw [OrderIndex.addChild]
  cases t with
  | leaf => simp [rootOf]
  | node i l x r =>
    rw [if_neg (show ¬ rootOf (.node i l x r) = nilIndex from rep.1.ne)]
    rw [LabelTree.size] at fits
    simp [rootOf, rep.2.1, nodeOf, checkedAdd32_of_lt fits, IdSum.combine_eq]

/-- A change of the arena that touches nothing but the nodes in `labels`. -/
structure Confined (labels : List Nat) (nodes nodes' : List Node) : Prop where
  length_eq : nodes'.length = nodes.length
  kept : ∀ k ∉ labels, nodes'[k]? = nodes[k]?

theorem Confined.refl (labels : List Nat) (nodes : List Node) : Confined labels nodes nodes :=
  ⟨rfl, fun _ _ => rfl⟩

theorem Confined.set (nodes : List Node) (i : Nat) (node : Node) :
    Confined [i] nodes (nodes.set i node) where
  length_eq := List.length_set
  kept k apart := List.getElem?_set_ne fun same => apart (by simp [same])

theorem Confined.mono {labels more : List Nat} (confined : Confined labels nodes nodes')
    (subset : labels ⊆ more) : Confined more nodes nodes' :=
  ⟨confined.length_eq, fun k apart => confined.kept k fun mem => apart (subset mem)⟩

theorem Confined.trans {labels : List Nat} {nodes₁ nodes₂ nodes₃ : List Node}
    (first : Confined labels nodes₁ nodes₂) (second : Confined labels nodes₂ nodes₃) :
    Confined labels nodes₁ nodes₃ where
  length_eq := second.length_eq.trans first.length_eq
  kept k apart := (second.kept k apart).trans (first.kept k apart)

theorem Represents.confined {labels : List Nat} (rep : Represents nodes t)
    (change : Confined labels nodes nodes') (apart : ∀ k ∈ t.labels, k ∉ labels) :
    Represents nodes' t :=
  rep.frame fun k mem _ => change.kept k (apart k mem)

theorem setLeft_spec {node : Node} (found : nodes[i]? = some node) (child : Nat) :
    ∃ nodes', OrderIndex.setLeft ⟨nodes, top⟩ i child = some ⟨nodes', top⟩ ∧
      nodes'[i]? = some { node with left := child } ∧ Confined [i] nodes nodes' := by
  refine ⟨_, ?_, List.getElem?_set_self (List.getElem?_eq_some_iff.mp found).1,
    Confined.set nodes i { node with left := child }⟩
  simp [OrderIndex.setLeft, found]

theorem setRight_spec {node : Node} (found : nodes[i]? = some node) (child : Nat) :
    ∃ nodes', OrderIndex.setRight ⟨nodes, top⟩ i child = some ⟨nodes', top⟩ ∧
      nodes'[i]? = some { node with right := child } ∧ Confined [i] nodes nodes' := by
  refine ⟨_, ?_, List.getElem?_set_self (List.getElem?_eq_some_iff.mp found).1,
    Confined.set nodes i { node with right := child }⟩
  simp [OrderIndex.setRight, found]

theorem pullUp_spec {count : Nat} {sum : IdSum} (below : i < nilIndex)
    (distinct : (LabelTree.node i l x r).labels.Nodup)
    (found : nodes[i]? = some ⟨x, rootOf l, rootOf r, count, sum⟩) (repL : Represents nodes l)
    (repR : Represents nodes r) :
    ∃ nodes', OrderIndex.pullUp ⟨nodes, top⟩ i = some ⟨nodes', top⟩ ∧
      Represents nodes' (.node i l x r) ∧ Confined [i] nodes nodes' := by
  have fits : 1 + l.size + r.size < 2 ^ 32 := by
    have size : (LabelTree.node i l x r).size ≤ nilIndex := by
      refine size_le_of_lt distinct fun k mem => ?_
      rcases List.mem_cons.mp mem with rfl | mem
      · exact below
      · exact (List.mem_append.mp mem).elim (repL.lt_nilIndex k) (repR.lt_nilIndex k)
    rw [LabelTree.size, nilIndex] at size
    omega
  have total : IdSum.ofId x.id + idSum l.toList + idSum r.toList =
      idSum (l.toList ++ x :: r.toList) := by
    rw [idSum_append, idSum_cons]
    abel
  have first : IdSum.zero.addId x.id = IdSum.ofId x.id := by
    rw [IdSum.addId_eq, IdSum.combine_eq, IdSum.zero_eq, zero_add]
  obtain ⟨apartL, apartR, -⟩ := LabelTree.nodup_labels_node.mp distinct
  have change := Confined.set nodes i (nodeOf l x r)
  refine ⟨_, ?_, ⟨below, List.getElem?_set_self (List.getElem?_eq_some_iff.mp found).1,
    repL.confined change ?_, repR.confined change ?_⟩, change⟩
  · simp only [OrderIndex.pullUp, found, first, Option.bind_eq_bind, Option.bind_some,
      addChild_rootOf repL (show 1 + l.size < 2 ^ 32 by omega), addChild_rootOf repR fits, total]
    rfl
  · rintro k mem same
    rw [List.mem_singleton.mp same] at mem
    exact apartL mem
  · rintro k mem same
    rw [List.mem_singleton.mp same] at mem
    exact apartR mem

/-! ## Rotations -/

theorem apart_pair {labels : List Nat} (iT : i ∉ labels) (jT : j ∉ labels) :
    ∀ k ∈ labels, k ∉ [i, j] := by
  intro k mem same
  rcases List.mem_pair.mp same with rfl | rfl
  · exact iT mem
  · exact jT mem

theorem rotateLeft_spec (rep : Represents nodes (.node i a x (.node j b y c)))
    (distinct : (LabelTree.node i a x (.node j b y c)).labels.Nodup) :
    ∃ nodes', OrderIndex.rotateLeft ⟨nodes, top⟩ i = some (⟨nodes', top⟩, j) ∧
      Represents nodes' (.node j (.node i a x b) y c) ∧ Confined [i, j] nodes nodes' := by
  obtain ⟨belowI, foundI, repA, belowJ, foundJ, repB, repC⟩ := rep
  have turned : (LabelTree.node j (.node i a x b) y c).labels.Nodup :=
    (LabelTree.labels_rotateLeft (.node i a x (.node j b y c))).nodup_iff.mpr distinct
  obtain ⟨jI, jC, distinctI, -, apartC⟩ := LabelTree.nodup_labels_node.mp turned
  obtain ⟨iA, iB, -⟩ := LabelTree.nodup_labels_node.mp distinctI
  have iC : i ∉ c.labels := apartC i (by simp)
  simp only [LabelTree.labels, List.mem_cons, List.mem_append, not_or] at jI
  obtain ⟨ji, jA, jB⟩ := jI
  -- The links are turned first, and then the two summaries are recomputed, the lower one first.
  obtain ⟨nodes₁, linkI, foundI₁, change₁⟩ := @setRight_spec _ i top _ foundI (rootOf b)
  have foundJ₁ : nodes₁[j]? = some (nodeOf b y c) := (change₁.kept j (by simpa using ji)).trans foundJ
  obtain ⟨nodes₂, linkJ, foundJ₂, change₂⟩ := @setLeft_spec _ j top _ foundJ₁ i
  have foundI₂ := (change₂.kept i (by simpa using Ne.symm ji)).trans foundI₁
  have links : Confined [i, j] nodes nodes₂ :=
    (change₁.mono (by simp)).trans (change₂.mono (by simp))
  obtain ⟨nodes₃, pulledI, rep₃, change₃⟩ := @pullUp_spec _ a b x i top _ _ belowI distinctI foundI₂
    (repA.confined links (apart_pair iA jA)) (repB.confined links (apart_pair iB jB))
  have foundJ₃ := (change₃.kept j (by simpa using ji)).trans foundJ₂
  have upper : Confined [i, j] nodes nodes₃ := links.trans (change₃.mono (by simp))
  obtain ⟨nodes₄, pulledJ, rep₄, change₄⟩ := @pullUp_spec _ (.node i a x b) c y j top _ _ belowJ
    turned foundJ₃ rep₃ (repC.confined upper (apart_pair iC jC))
  refine ⟨nodes₄, ?_, rep₄, upper.trans (change₄.mono (by simp))⟩
  simp only [OrderIndex.rotateLeft, foundI, nodeOf_right, rootOf_node, foundJ, nodeOf_left, linkI,
    linkJ, pulledI, pulledJ, Option.bind_eq_bind, Option.bind_some]
  rfl

theorem rotateRight_spec (rep : Represents nodes (.node i (.node j a x b) y c))
    (distinct : (LabelTree.node i (.node j a x b) y c).labels.Nodup) :
    ∃ nodes', OrderIndex.rotateRight ⟨nodes, top⟩ i = some (⟨nodes', top⟩, j) ∧
      Represents nodes' (.node j a x (.node i b y c)) ∧ Confined [i, j] nodes nodes' := by
  obtain ⟨belowI, foundI, ⟨belowJ, foundJ, repA, repB⟩, repC⟩ := rep
  have turned : (LabelTree.node j a x (.node i b y c)).labels.Nodup :=
    (LabelTree.labels_rotateRight (.node i (.node j a x b) y c)).nodup_iff.mpr distinct
  obtain ⟨jA, jI, -, distinctI, apartA⟩ := LabelTree.nodup_labels_node.mp turned
  obtain ⟨iB, iC, -⟩ := LabelTree.nodup_labels_node.mp distinctI
  have iA : i ∉ a.labels := fun mem => apartA i mem (by simp)
  simp only [LabelTree.labels, List.mem_cons, List.mem_append, not_or] at jI
  obtain ⟨ji, jB, jC⟩ := jI
  obtain ⟨nodes₁, linkI, foundI₁, change₁⟩ := @setLeft_spec _ i top _ foundI (rootOf b)
  have foundJ₁ : nodes₁[j]? = some (nodeOf a x b) := (change₁.kept j (by simpa using ji)).trans foundJ
  obtain ⟨nodes₂, linkJ, foundJ₂, change₂⟩ := @setRight_spec _ j top _ foundJ₁ i
  have foundI₂ := (change₂.kept i (by simpa using Ne.symm ji)).trans foundI₁
  have links : Confined [i, j] nodes nodes₂ :=
    (change₁.mono (by simp)).trans (change₂.mono (by simp))
  obtain ⟨nodes₃, pulledI, rep₃, change₃⟩ := @pullUp_spec _ b c y i top _ _ belowI distinctI foundI₂
    (repB.confined links (apart_pair iB jB)) (repC.confined links (apart_pair iC jC))
  have foundJ₃ := (change₃.kept j (by simpa using ji)).trans foundJ₂
  have upper : Confined [i, j] nodes nodes₃ := links.trans (change₃.mono (by simp))
  obtain ⟨nodes₄, pulledJ, rep₄, change₄⟩ := @pullUp_spec _ a (.node i b y c) x j top _ _ belowJ
    turned foundJ₃ (repA.confined upper (apart_pair iA jA)) rep₃
  refine ⟨nodes₄, ?_, rep₄, upper.trans (change₄.mono (by simp))⟩
  simp only [OrderIndex.rotateRight, foundI, nodeOf_left, rootOf_node, foundJ, nodeOf_right, linkI,
    linkJ, pulledI, pulledJ, Option.bind_eq_bind, Option.bind_some]
  rfl

theorem ne_leaf_of_weight {n : Nat} (heavy : n * delta < t.weight) (positive : 0 < n) :
    t ≠ .leaf := by
  rintro rfl
  simp only [LabelTree.weight, LabelTree.size, delta] at heavy
  omega

theorem apart_singleton {labels : List Nat} (iT : i ∉ labels) : ∀ k ∈ labels, k ∉ [i] := by
  intro k mem same
  rw [List.mem_singleton.mp same] at mem
  exact iT mem

theorem relinkLeft_spec {l' : LabelTree Item} (below : i < nilIndex)
    (distinct : (LabelTree.node i l' x r).labels.Nodup) (found : nodes[i]? = some (nodeOf l x r))
    (repL : Represents nodes l') (repR : Represents nodes r) :
    ∃ index nodes', OrderIndex.setLeft ⟨nodes, top⟩ i (rootOf l') = some index ∧
      index.pullUp i = some ⟨nodes', top⟩ ∧ Represents nodes' (.node i l' x r) ∧
      Confined [i] nodes nodes' := by
  obtain ⟨iL, iR, -⟩ := LabelTree.nodup_labels_node.mp distinct
  obtain ⟨nodes₁, linked, found₁, change₁⟩ := @setLeft_spec _ i top _ found (rootOf l')
  obtain ⟨nodes₂, pulled, rep₂, change₂⟩ := @pullUp_spec _ l' r x i top _ _ below distinct found₁
    (repL.confined change₁ (apart_singleton iL)) (repR.confined change₁ (apart_singleton iR))
  exact ⟨_, nodes₂, linked, pulled, rep₂, change₁.trans change₂⟩

theorem relinkRight_spec {r' : LabelTree Item} (below : i < nilIndex)
    (distinct : (LabelTree.node i l x r').labels.Nodup) (found : nodes[i]? = some (nodeOf l x r))
    (repL : Represents nodes l) (repR : Represents nodes r') :
    ∃ index nodes', OrderIndex.setRight ⟨nodes, top⟩ i (rootOf r') = some index ∧
      index.pullUp i = some ⟨nodes', top⟩ ∧ Represents nodes' (.node i l x r') ∧
      Confined [i] nodes nodes' := by
  obtain ⟨iL, iR, -⟩ := LabelTree.nodup_labels_node.mp distinct
  obtain ⟨nodes₁, linked, found₁, change₁⟩ := @setRight_spec _ i top _ found (rootOf r')
  obtain ⟨nodes₂, pulled, rep₂, change₂⟩ := @pullUp_spec _ l r' x i top _ _ below distinct found₁
    (repL.confined change₁ (apart_singleton iL)) (repR.confined change₁ (apart_singleton iR))
  exact ⟨_, nodes₂, linked, pulled, rep₂, change₁.trans change₂⟩

theorem balance_right_spec (rep : Represents nodes (.node i a x (.node j b y c)))
    (distinct : (LabelTree.node i a x (.node j b y c)).labels.Nodup)
    (heavy : a.weight * delta < (LabelTree.node j b y c).weight) :
    ∃ nodes', OrderIndex.balance ⟨nodes, top⟩ i = some (⟨nodes', top⟩,
        rootOf (LabelTree.balance delta gamma (.node i a x (.node j b y c)))) ∧
      Represents nodes' (LabelTree.balance delta gamma (.node i a x (.node j b y c))) ∧
      Confined (LabelTree.node i a x (.node j b y c)).labels nodes nodes' := by
  have whole := rep
  obtain ⟨below, found, repA, repR⟩ := rep
  obtain ⟨-, foundJ, repB, repC⟩ := id repR
  rw [LabelTree.balance, OrderIndex.balance]
  simp only [found, nodeOf_left, nodeOf_right, weight_rootOf repA, weight_rootOf repR, Option.bind_eq_bind,
    Option.bind_some]
  rw [if_pos heavy, if_pos heavy]
  simp only [rootOf_node, foundJ, nodeOf_left, nodeOf_right, weight_rootOf repB, weight_rootOf repC,
    Option.bind_some]
  by_cases single : (LabelTree.node j b y c).left.weight < gamma * (LabelTree.node j b y c).right.weight
  · rw [if_pos single, if_pos (show b.weight < gamma * c.weight from single)]
    obtain ⟨nodes', rotated, rep', change⟩ := @rotateLeft_spec _ a b c x y i j top whole distinct
    exact ⟨nodes', rotated, rep', change.mono (by simp)⟩
  · rw [if_neg single, if_neg (show ¬ b.weight < gamma * c.weight from single)]
    rcases b with _ | ⟨k, d, z, e⟩
    · exact absurd (by simp only [LabelTree.left, LabelTree.weight, LabelTree.size, gamma]; omega) single
    obtain ⟨iA, iR, -, inner, apart⟩ := LabelTree.nodup_labels_node.mp distinct
    have turned := LabelTree.labels_rotateRight (.node j (.node k d z e) y c)
    obtain ⟨nodes₁, rotated₁, rep₁, change₁⟩ := @rotateRight_spec _ d e c z y j k top whole.2.2.2 inner
    have inside : Confined (LabelTree.node j (.node k d z e) y c).labels nodes nodes₁ :=
      change₁.mono (by simp)
    have distinct₂ := ((turned.append_left a.labels).cons i).nodup_iff.mpr distinct
    obtain ⟨index, nodes₂, linked, pulled, rep₂, change₂⟩ := @relinkRight_spec _ a _ x i top _ below
      distinct₂ ((inside.kept i iR).trans found) (repA.confined inside apart) rep₁
    obtain ⟨nodes₃, rotated₃, rep₃, change₃⟩ := @rotateLeft_spec _ a d (.node j e y c) x z i k top rep₂
      distinct₂
    refine ⟨nodes₃, ?_, rep₃,
      ((change₁.mono (by simp)).trans (change₂.mono (by simp))).trans (change₃.mono (by simp))⟩
    have rootK : rootOf (LabelTree.rotateRight (.node j (.node k d z e) y c)) = k := rfl
    rw [rootK] at linked
    simp only [rotated₁, linked, pulled, rotated₃, Option.bind_some]
    rfl

theorem balance_left_spec (rep : Represents nodes (.node i (.node j a x b) y c))
    (distinct : (LabelTree.node i (.node j a x b) y c).labels.Nodup)
    (light : ¬ (LabelTree.node j a x b).weight * delta < c.weight)
    (heavy : c.weight * delta < (LabelTree.node j a x b).weight) :
    ∃ nodes', OrderIndex.balance ⟨nodes, top⟩ i = some (⟨nodes', top⟩,
        rootOf (LabelTree.balance delta gamma (.node i (.node j a x b) y c))) ∧
      Represents nodes' (LabelTree.balance delta gamma (.node i (.node j a x b) y c)) ∧
      Confined (LabelTree.node i (.node j a x b) y c).labels nodes nodes' := by
  have whole := rep
  obtain ⟨below, found, repL, repC⟩ := rep
  obtain ⟨-, foundJ, repA, repB⟩ := id repL
  rw [LabelTree.balance, OrderIndex.balance]
  simp only [found, nodeOf_left, nodeOf_right, weight_rootOf repL, weight_rootOf repC, Option.bind_eq_bind,
    Option.bind_some]
  rw [if_neg light, if_neg light, if_pos heavy, if_pos heavy]
  simp only [rootOf_node, foundJ, nodeOf_left, nodeOf_right, weight_rootOf repA, weight_rootOf repB,
    Option.bind_some]
  by_cases single : (LabelTree.node j a x b).right.weight < gamma * (LabelTree.node j a x b).left.weight
  · rw [if_pos single, if_pos (show b.weight < gamma * a.weight from single)]
    obtain ⟨nodes', rotated, rep', change⟩ := @rotateRight_spec _ a b c x y i j top whole distinct
    exact ⟨nodes', rotated, rep', change.mono (by simp)⟩
  · rw [if_neg single, if_neg (show ¬ b.weight < gamma * a.weight from single)]
    rcases b with _ | ⟨k, d, z, e⟩
    · exact absurd (by simp only [LabelTree.right, LabelTree.weight, LabelTree.size, gamma]; omega) single
    obtain ⟨iL, iC, inner, -, apart⟩ := LabelTree.nodup_labels_node.mp distinct
    have turned := LabelTree.labels_rotateLeft (.node j a x (.node k d z e))
    obtain ⟨nodes₁, rotated₁, rep₁, change₁⟩ := @rotateLeft_spec _ a d e x z j k top whole.2.2.1 inner
    have inside : Confined (LabelTree.node j a x (.node k d z e)).labels nodes nodes₁ :=
      change₁.mono (by simp)
    have distinct₂ := ((turned.append_right c.labels).cons i).nodup_iff.mpr distinct
    obtain ⟨index, nodes₂, linked, pulled, rep₂, change₂⟩ := @relinkLeft_spec _ _ c y i top _ below
      distinct₂ ((inside.kept i iL).trans found) rep₁
      (repC.confined inside fun k mem other => apart k other mem)
    obtain ⟨nodes₃, rotated₃, rep₃, change₃⟩ := @rotateRight_spec _ (.node j a x d) e c z y i k top rep₂
      distinct₂
    refine ⟨nodes₃, ?_, rep₃,
      ((change₁.mono (by simp)).trans (change₂.mono (by simp))).trans (change₃.mono (by simp))⟩
    have rootK : rootOf (LabelTree.rotateLeft (.node j a x (.node k d z e))) = k := rfl
    rw [rootK] at linked
    simp only [rotated₁, linked, pulled, rotated₃, Option.bind_some]
    rfl

theorem balance_spec (rep : Represents nodes (.node i l x r))
    (distinct : (LabelTree.node i l x r).labels.Nodup) :
    ∃ nodes', OrderIndex.balance ⟨nodes, top⟩ i =
        some (⟨nodes', top⟩, rootOf (LabelTree.balance delta gamma (.node i l x r))) ∧
      Represents nodes' (LabelTree.balance delta gamma (.node i l x r)) ∧
      Confined (LabelTree.node i l x r).labels nodes nodes' := by
  by_cases rightHeavy : l.weight * delta < r.weight
  · cases r with
    | leaf => exact absurd rfl (ne_leaf_of_weight rightHeavy (Nat.succ_pos _))
    | node j b y c => exact balance_right_spec rep distinct rightHeavy
  · by_cases leftHeavy : r.weight * delta < l.weight
    · cases l with
      | leaf => exact absurd rfl (ne_leaf_of_weight leftHeavy (Nat.succ_pos _))
      | node j a y b => exact balance_left_spec rep distinct rightHeavy leftHeavy
    · refine ⟨nodes, ?_, ?_, Confined.refl _ _⟩
      · rw [LabelTree.balance, OrderIndex.balance]
        simp only [rep.2.1, nodeOf_left, nodeOf_right, weight_rootOf rep.2.2.1, weight_rootOf rep.2.2.2,
          Option.bind_eq_bind, Option.bind_some, if_neg rightHeavy, if_neg leftHeavy]
        rfl
      · rwa [LabelTree.balance, if_neg rightHeavy, if_neg leftHeavy]

/-! ## Insertion -/

/-- What an insertion into an arena of `n` nodes puts at the end of its path: the new node, or nothing
when the index of the new node is the one that means "no child". -/
def freshTree (n : Nat) (item : Item) : LabelTree Item :=
  if n = nilIndex then .leaf else .node n .leaf item .leaf

theorem rootOf_freshTree (n : Nat) (item : Item) : rootOf (freshTree n item) = n := by
  rw [freshTree]
  split_ifs with full
  · exact full.symm
  · rfl

theorem labels_freshTree (n : Nat) (item : Item) : ∀ k ∈ (freshTree n item).labels, k = n := by
  intro k mem
  rw [freshTree] at mem
  split_ifs at mem with full
  · simp at mem
  · simpa using mem

theorem set_same {node : Node} (found : nodes[i]? = some node) : nodes.set i node = nodes := by
  obtain ⟨inside, rfl⟩ := List.getElem?_eq_some_iff.mp found
  exact List.set_getElem_self inside

theorem insertAt_refused (rep : Represents nodes t)
    (refused : LabelTree.insert delta gamma (freshTree nodes.length item) item t = none) {fuel : Nat}
    (enough : t.size ≤ fuel) :
    OrderIndex.insertAt fuel ⟨nodes, top⟩ (rootOf t) item = some (⟨nodes, top⟩, rootOf t, false) := by
  induction t generalizing fuel with
  | leaf => exact absurd refused (by simp [LabelTree.insert])
  | node i l x r ihl ihr =>
    obtain ⟨below, found, repL, repR⟩ := rep
    obtain ⟨fuel, rfl⟩ : ∃ n, fuel = n + 1 := ⟨fuel - 1, by rw [LabelTree.size] at enough; omega⟩
    rw [LabelTree.size] at enough
    rw [rootOf_node, OrderIndex.insertAt, if_neg below.ne]
    simp only [found, Option.bind_eq_bind, Option.bind_some, nodeOf_item]
    rw [LabelTree.insert] at refused
    cases order : compare item x with
    | eq => rfl
    | lt =>
      simp only [order, Option.map_eq_none_iff] at refused
      have linked : OrderIndex.setLeft ⟨nodes, top⟩ i (rootOf l) = some ⟨nodes, top⟩ := by
        simp only [OrderIndex.setLeft, found, Option.bind_eq_bind, Option.bind_some]
        exact congrArg (fun nodes => some (OrderIndex.mk nodes top)) (set_same found)
      simp only [nodeOf_left, ihl repL refused (show l.size ≤ fuel by omega), Option.bind_some, linked]
      rfl
    | gt =>
      simp only [order, Option.map_eq_none_iff] at refused
      have linked : OrderIndex.setRight ⟨nodes, top⟩ i (rootOf r) = some ⟨nodes, top⟩ := by
        simp only [OrderIndex.setRight, found, Option.bind_eq_bind, Option.bind_some]
        exact congrArg (fun nodes => some (OrderIndex.mk nodes top)) (set_same found)
      simp only [nodeOf_right, ihr repR refused (show r.size ≤ fuel by omega), Option.bind_some, linked]
      rfl

section Insert

variable {t' : LabelTree Item}
  (inserted : LabelTree.insert delta gamma (freshTree nodes.length item) item t = some t')
include inserted

theorem mem_labels_insert {k : Nat} (mem : k ∈ t'.labels) : k ∈ t.labels ∨ k = nodes.length := by
  rcases List.mem_append.mp ((LabelTree.labels_insert inserted).subset mem) with mem | mem
  · exact Or.inl mem
  · exact Or.inr (labels_freshTree _ _ k mem)

theorem nodup_labels_insert (rep : Represents nodes t) (distinct : t.labels.Nodup) :
    t'.labels.Nodup := by
  rw [(LabelTree.labels_insert inserted).nodup_iff, List.nodup_append']
  refine ⟨distinct, ?_, ?_⟩
  · rw [freshTree]
    split_ifs <;> simp
  · intro k mem fresh
    have small := rep.lt_length k mem
    rw [labels_freshTree _ _ k fresh] at small
    exact lt_irrefl _ small

end Insert

theorem insertAt_nilIndex (fuel : Nat) (index : OrderIndex) (item : Item) :
    OrderIndex.insertAt fuel index nilIndex item =
      some (⟨index.nodes ++ [nodeOf .leaf item .leaf], index.root⟩, index.nodes.length % 2 ^ 32,
        true) := by
  have sum : IdSum.zero.addId item.id = idSum [item] := by
    rw [IdSum.addId_eq, IdSum.combine_eq, IdSum.zero_eq, zero_add, idSum_cons, idSum_nil, add_zero]
  cases fuel <;>
    · rw [OrderIndex.insertAt, if_pos rfl]
      simp only [sum, List.length_append, List.length_singleton, Nat.add_sub_cancel]
      rfl

theorem insertAt_spec {t' : LabelTree Item} (room : nodes.length ≤ nilIndex) (rep : Represents nodes t)
    (distinct : t.labels.Nodup)
    (inserted : LabelTree.insert delta gamma (freshTree nodes.length item) item t = some t') {fuel : Nat}
    (enough : t.size ≤ fuel) :
    ∃ nodes', OrderIndex.insertAt fuel ⟨nodes, top⟩ (rootOf t) item =
        some (⟨nodes', top⟩, rootOf t', true) ∧
      Represents nodes' t' ∧ nodes'.length = nodes.length + 1 ∧
      ∀ k < nodes.length, k ∉ t.labels → nodes'[k]? = nodes[k]? := by
  induction t generalizing fuel t' with
  | leaf =>
    obtain rfl := Option.some.inj inserted
    refine ⟨nodes ++ [nodeOf .leaf item .leaf], ?_, ?_, by simp, fun k inside _ =>
      List.getElem?_append_left inside⟩
    · have fits : nodes.length < 2 ^ 32 := by
        rw [nilIndex] at room
        omega
      rw [rootOf_freshTree, rootOf_leaf, insertAt_nilIndex, Nat.mod_eq_of_lt fits]
    · rw [freshTree]
      split_ifs with full
      · trivial
      · exact ⟨lt_of_le_of_ne room full, by simp, trivial, trivial⟩
  | node i l x r ihl ihr =>
    obtain ⟨below, found, repL, repR⟩ := rep
    obtain ⟨iL, iR, distinctL, distinctR, apart⟩ := LabelTree.nodup_labels_node.mp distinct
    obtain ⟨fuel, rfl⟩ : ∃ n, fuel = n + 1 := ⟨fuel - 1, by rw [LabelTree.size] at enough; omega⟩
    rw [LabelTree.size] at enough
    have inside : i < nodes.length := (List.getElem?_eq_some_iff.mp found).1
    rw [rootOf_node, OrderIndex.insertAt, if_neg below.ne]
    simp only [found, Option.bind_eq_bind, Option.bind_some, nodeOf_item]
    rw [LabelTree.insert] at inserted
    cases order : compare item x with
    | eq => simp [order] at inserted
    | lt =>
      simp only [order, Option.map_eq_some_iff] at inserted
      obtain ⟨l', insertedL, rfl⟩ := inserted
      obtain ⟨nodes₁, ran, rep₁, size₁, kept₁⟩ :=
        ihl repL distinctL insertedL (show l.size ≤ fuel by omega)
      have distinct' : (LabelTree.node i l' x r).labels.Nodup := by
        refine LabelTree.nodup_labels_node.mpr ⟨fun mem => ?_, iR,
          nodup_labels_insert insertedL repL distinctL, distinctR, fun k mem other => ?_⟩
        · exact (mem_labels_insert insertedL mem).elim iL inside.ne
        · exact (mem_labels_insert insertedL mem).elim (fun old => apart k old other)
            (repR.lt_length k other).ne
      obtain ⟨index, nodes₂, linked, pulled, rep₂, change₂⟩ := @relinkLeft_spec nodes₁ l r x i top
        l' below distinct' ((kept₁ i inside iL).trans found) rep₁
        (repR.frame fun k mem small => kept₁ k small fun other => apart k other mem)
      obtain ⟨nodes₃, balanced, rep₃, change₃⟩ := @balance_spec nodes₂ l' r x i top rep₂ distinct'
      refine ⟨nodes₃, ?_, rep₃, ?_, ?_⟩
      · simp only [nodeOf_left, ran, Option.bind_some, linked, pulled, balanced, if_true]
        rfl
      · rw [change₃.length_eq, change₂.length_eq, size₁]
      · intro k small absent
        simp only [LabelTree.labels, List.mem_cons, List.mem_append, not_or] at absent
        obtain ⟨ki, kL, kR⟩ := absent
        have kL' : k ∉ l'.labels := fun mem =>
          (mem_labels_insert insertedL mem).elim kL small.ne
        rw [change₃.kept k (by simp [ki, kL', kR]), change₂.kept k (by simpa using ki)]
        exact kept₁ k small kL
    | gt =>
      simp only [order, Option.map_eq_some_iff] at inserted
      obtain ⟨r', insertedR, rfl⟩ := inserted
      obtain ⟨nodes₁, ran, rep₁, size₁, kept₁⟩ :=
        ihr repR distinctR insertedR (show r.size ≤ fuel by omega)
      have distinct' : (LabelTree.node i l x r').labels.Nodup := by
        refine LabelTree.nodup_labels_node.mpr ⟨iL, fun mem => ?_, distinctL,
          nodup_labels_insert insertedR repR distinctR, fun k mem other => ?_⟩
        · exact (mem_labels_insert insertedR mem).elim iR inside.ne
        · exact (mem_labels_insert insertedR other).elim (apart k mem)
            (repL.lt_length k mem).ne
      obtain ⟨index, nodes₂, linked, pulled, rep₂, change₂⟩ := @relinkRight_spec nodes₁ l r x i top
        r' below distinct' ((kept₁ i inside iR).trans found)
        (repL.frame fun k mem small => kept₁ k small (apart k mem)) rep₁
      obtain ⟨nodes₃, balanced, rep₃, change₃⟩ := @balance_spec nodes₂ l r' x i top rep₂ distinct'
      refine ⟨nodes₃, ?_, rep₃, ?_, ?_⟩
      · simp only [nodeOf_right, ran, Option.bind_some, linked, pulled, balanced, if_true]
        rfl
      · rw [change₃.length_eq, change₂.length_eq, size₁]
      · intro k small absent
        simp only [LabelTree.labels, List.mem_cons, List.mem_append, not_or] at absent
        obtain ⟨ki, kL, kR⟩ := absent
        have kR' : k ∉ r'.labels := fun mem =>
          (mem_labels_insert insertedR mem).elim kR small.ne
        rw [change₃.kept k (by simp [ki, kL, kR']), change₂.kept k (by simpa using ki)]
        exact kept₁ k small kR

end Racnet.Proof.Storage
