import Mathlib.Data.Finset.Card
import Racnet.Proof.Storage.Index

/-!
# The shape of the index

Insertions keep the arena a weight-balanced search tree without loose nodes.
-/

namespace Racnet.Proof.Storage
open Lib Store Sync

variable {nodes : List Node} {index : OrderIndex} {t : LabelTree Item}

/-- The tree under `idx`, read from the links of the arena alone. -/
def linked (nodes : List Node) : Nat → Nat → Option (LabelTree Item)
  | fuel, idx =>
    if idx = nilIndex then some .leaf
    else
      match fuel with
      | 0 => none
      | fuel + 1 => do
        let node ← nodes[idx]?
        let l ← linked nodes fuel node.left
        let r ← linked nodes fuel node.right
        return .node idx l node.item r

theorem linked_rootOf (rep : Represents nodes t) {fuel : Nat} (enough : t.size ≤ fuel) :
    linked nodes fuel (rootOf t) = some t := by
  induction t generalizing fuel with
  | leaf => cases fuel <;> rw [rootOf, linked, if_pos rfl]
  | node i l x r ihl ihr =>
    obtain ⟨below, found, repL, repR⟩ := rep
    rw [LabelTree.size] at enough
    obtain ⟨fuel, rfl⟩ : ∃ n, fuel = n + 1 := ⟨fuel - 1, by omega⟩
    rw [rootOf, linked, if_neg below.ne]
    simp only [found, Option.bind_eq_bind, Option.bind_some, nodeOf_left, nodeOf_right,
      ihl repL (show l.size ≤ fuel by omega), ihr repR (show r.size ≤ fuel by omega)]
    rfl

theorem Represents.every (rep : Represents nodes t) :
    t.Every fun i l x r => nodes[i]? = some (nodeOf l x r) := by
  induction t with
  | leaf => trivial
  | node i l x r ihl ihr => exact ⟨rep.2.1, ihl rep.2.2.1, ihr rep.2.2.2⟩

/-- An index whose tree is balanced and takes up the whole arena. -/
structure Tidy (index : OrderIndex) (t : LabelTree Item) : Prop extends Keeps index t where
  balanced : t.Balanced
  full : index.nodes.length = t.size

theorem tidy_new : Tidy OrderIndex.new .leaf := ⟨keeps_new, trivial, rfl⟩

theorem Tidy.labels_perm (tidy : Tidy index t) :
    t.labels.Perm (List.range index.nodes.length) := by
  have inside : t.labels ⊆ List.range index.nodes.length := fun i mem =>
    List.mem_range.mpr (tidy.nodes.lt_length i mem)
  refine (List.subperm_of_subset tidy.distinct inside).perm_of_length_le ?_
  rw [List.length_range, LabelTree.length_labels, tidy.full]

theorem Tidy.insert (tidy : Tidy index t) (room : index.nodes.length < nilIndex) (item : Item) :
    ∃ index' t', index.insert item = some (index', decide (item ∉ t.toList)) ∧ Tidy index' t' ∧
      ∀ x, x ∈ t'.toList ↔ x ∈ t.toList ∨ x = item := by
  by_cases held : item ∈ t.toList
  · refine ⟨index, t, by rw [tidy.insert_old held]; simp [held], tidy, fun x => ?_⟩
    refine ⟨Or.inl, ?_⟩
    rintro (mem | rfl)
    · exact mem
    · exact held
  have single : freshTree index.nodes.length item = .node index.nodes.length .leaf item .leaf :=
    if_neg room.ne
  cases inserted : LabelTree.insert delta gamma (freshTree index.nodes.length item) item t with
  | none => exact absurd (LabelTree.mem_of_insert_none inserted) held
  | some t' =>
    obtain ⟨index', ran, keeps', size⟩ := tidy.insert_tree room.le inserted
    obtain ⟨before, after, split, -, -, result⟩ := LabelTree.toList_insert tidy.sorted inserted
    obtain ⟨balanced, grown⟩ := LabelTree.balanced_insert (by rw [single]; rfl)
      (by rw [single, LabelTree.balanced_node]; exact ⟨by simp, trivial, trivial⟩) tidy.balanced inserted
    refine ⟨index', t', by rw [ran]; simp [held], ⟨keeps', balanced, ?_⟩, fun x => ?_⟩
    · have grown' : t'.size + 1 = t.size + 1 + 1 := grown
      rw [size, tidy.full]
      omega
    · rw [result, split, single]
      simp only [LabelTree.toList, List.nil_append, List.mem_append, List.mem_cons,
        List.not_mem_nil, or_false]
      tauto

theorem insertAll_tidy (tidy : Tidy index t) {items : List Item}
    (few : (t.toList ++ items).toFinset.card < nilIndex) :
    ∃ index' t' results, insertAll index items = some (index', results) ∧ Tidy index' t' ∧
      ∀ x, x ∈ t'.toList ↔ x ∈ t.toList ∨ x ∈ items := by
  induction items generalizing index t with
  | nil => exact ⟨index, t, [], rfl, tidy, by simp⟩
  | cons item items ih =>
    have room : index.nodes.length < nilIndex := by
      have nodup : t.toList.Nodup := tidy.sorted.imp fun lt => lt.ne
      rw [tidy.full, ← LabelTree.length_toList, ← List.toFinset_card_of_nodup nodup]
      refine lt_of_le_of_lt (Finset.card_le_card ?_) few
      rw [List.toFinset_append]
      exact Finset.subset_union_left
    obtain ⟨index₁, t₁, ran, tidy₁, mem⟩ := tidy.insert room item
    have same : (t₁.toList ++ items).toFinset = (t.toList ++ item :: items).toFinset := by
      ext x
      simp only [List.mem_toFinset, List.mem_append, mem, List.mem_cons, or_assoc]
    obtain ⟨index₂, t₂, results, rest, tidy₂, mem₂⟩ := ih tidy₁ (by rwa [same])
    refine ⟨index₂, t₂, decide (item ∉ t.toList) :: results, ?_, tidy₂, fun x => ?_⟩
    · simp only [insertAll, ran, rest, Option.bind_eq_bind, Option.bind_some]
      rfl
    · rw [mem₂, mem, List.mem_cons, or_assoc]

/-- After any insertions of fewer than 2^32 - 1 different items, the links under the root form a tree
that reaches every node of the arena once and lists the items in ascending order; every node stores the
count and the id sum of its subtree, and neither of its sides weighs more than three times the other. -/
theorem index_balanced {items : List Item} (few : items.toFinset.card < 2 ^ 32 - 1) :
    ∃ index isNew t, insertAll OrderIndex.new items = some (index, isNew) ∧
      linked index.nodes index.nodes.length index.root = some t ∧
      t.labels.Perm (List.range index.nodes.length) ∧
      t.toList.Pairwise (· < ·) ∧ (∀ x, x ∈ t.toList ↔ x ∈ items) ∧
      t.Every fun i l x r => ∃ node, index.nodes[i]? = some node ∧ node.item = x ∧
        node.count = (LabelTree.node i l x r).size ∧
        node.sum = idSum (LabelTree.node i l x r).toList ∧
        3 * (l.size + 1) ≥ r.size + 1 ∧ 3 * (r.size + 1) ≥ l.size + 1 := by
  obtain ⟨index, t, isNew, ran, tidy, mem⟩ := @insertAll_tidy _ _ tidy_new items few
  refine ⟨index, isNew, t, ran, ?_, tidy.labels_perm, tidy.sorted, fun x => ?_, ?_⟩
  · rw [tidy.root]
    exact linked_rootOf tidy.nodes tidy.full.ge
  · rw [mem]
    simp
  · refine (tidy.nodes.every.and tidy.balanced).imp ?_
    rintro i l x r ⟨found, near⟩
    exact ⟨nodeOf l x r, found, rfl, rfl, rfl, near⟩

theorem index_balanced_ascending :
    ∃ index isNew t, insertAll OrderIndex.new [⟨0, ⟨List.replicate 32 0, rfl⟩⟩, ⟨1, ⟨List.replicate 32 0, rfl⟩⟩, ⟨2, ⟨List.replicate 32 0, rfl⟩⟩] =
        some (index, isNew) ∧ linked index.nodes index.nodes.length index.root = some t ∧
      t.labels.Perm (List.range index.nodes.length) := by
  obtain ⟨index, isNew, t, ran, links, places, -⟩ :=
    @index_balanced [⟨0, ⟨List.replicate 32 0, rfl⟩⟩, ⟨1, ⟨List.replicate 32 0, rfl⟩⟩, ⟨2, ⟨List.replicate 32 0, rfl⟩⟩] (by decide)
  exact ⟨index, isNew, t, ran, links, places⟩

end Racnet.Proof.Storage
