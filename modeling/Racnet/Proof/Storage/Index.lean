import Racnet.Lib.Ranks
import Racnet.Proof.Storage.Arena
import Racnet.Sync.Negentropy.Store

/-!
# The index as a sorted list

An index that keeps a tree answers every query as the sorted list of the tree's items does.
-/

namespace Racnet.Proof.Storage
open Lib Store Sync

structure Keeps (index : OrderIndex) (t : LabelTree Item) : Prop where
  root : index.root = rootOf t
  nodes : Represents index.nodes t
  distinct : t.labels.Nodup
  sorted : t.toList.Pairwise (· < ·)

variable {nodes : List Node} {t : LabelTree Item} {top : Nat} {index : OrderIndex} {bound : Item}

theorem Keeps.size_le (keeps : Keeps index t) : t.size ≤ index.nodes.length :=
  size_le_of_lt keeps.distinct keeps.nodes.lt_length

theorem Keeps.length_lt (keeps : Keeps index t) : t.toList.length < 2 ^ 32 := by
  rw [LabelTree.length_toList]
  exact keeps.nodes.size_lt keeps.distinct

theorem Keeps.len (keeps : Keeps index t) : index.len = some t.toList.length := by
  rw [OrderIndex.len, keeps.root, LabelTree.length_toList]
  exact subtreeCount_rootOf keeps.nodes

/-! ## Rank navigation -/

theorem itemAtLoop_spec (rep : Represents nodes t) {rank fuel : Nat} (inside : rank < t.size)
    (enough : t.size ≤ fuel) :
    OrderIndex.itemAtLoop ⟨nodes, top⟩ fuel rank (rootOf t) = t.toList[rank]? := by
  induction t generalizing rank fuel with
  | leaf => exact absurd inside (Nat.not_lt_zero rank)
  | node i l x r ihl ihr =>
    obtain ⟨-, found, repL, repR⟩ := rep
    rw [LabelTree.size] at inside enough
    obtain ⟨fuel, rfl⟩ : ∃ n, fuel = n + 1 := ⟨fuel - 1, by omega⟩
    have size := LabelTree.length_toList l
    rw [rootOf_node, OrderIndex.itemAtLoop]
    simp only [found, nodeOf_left, nodeOf_right, subtreeCount_rootOf repL, Option.bind_eq_bind, Option.bind_some,
      LabelTree.toList]
    split_ifs with low here
    · rw [ihl repL low (by omega), List.getElem?_append_left (by omega)]
    · rw [List.getElem?_append_right (by omega), here, size, Nat.sub_self]
      rfl
    · rw [ihr repR (by omega) (by omega), List.getElem?_append_right (by omega), size,
        show rank - l.size = rank - (l.size + 1) + 1 by omega, List.getElem?_cons_succ]

theorem Keeps.itemAt (keeps : Keeps index t) (rank : Nat) : index.itemAt rank = t.toList[rank]? := by
  simp only [OrderIndex.itemAt, keeps.len, Option.bind_eq_bind, Option.bind_some]
  split_ifs with inside
  · have small := keeps.length_lt
    rw [Nat.mod_eq_of_lt (by omega), keeps.root]
    rw [LabelTree.length_toList] at inside
    exact itemAtLoop_spec keeps.nodes inside keeps.size_le
  · exact (List.getElem?_eq_none (not_lt.mp inside)).symm

theorem lowerBoundLoop_spec (rep : Represents nodes t) (sorted : t.toList.Pairwise (· < ·))
    (acc : Nat) {fuel : Nat} (enough : t.size ≤ fuel) :
    OrderIndex.lowerBoundLoop ⟨nodes, top⟩ bound fuel acc (rootOf t) =
      some (acc + rank t.toList bound) := by
  induction t generalizing acc fuel with
  | leaf =>
    cases fuel <;> rw [rootOf_leaf, OrderIndex.lowerBoundLoop, if_pos rfl] <;> rfl
  | node i l x r ihl ihr =>
    obtain ⟨below, found, repL, repR⟩ := rep
    rw [LabelTree.size] at enough
    obtain ⟨fuel, rfl⟩ : ∃ n, fuel = n + 1 := ⟨fuel - 1, by omega⟩
    rw [LabelTree.toList, List.pairwise_append, List.pairwise_cons] at sorted
    obtain ⟨sortedL, ⟨-, sortedR⟩, apart⟩ := sorted
    rw [rootOf_node, OrderIndex.lowerBoundLoop, if_neg below.ne, LabelTree.toList]
    simp only [found, nodeOf_left, nodeOf_right, nodeOf_item, subtreeCount_rootOf repL, Option.bind_eq_bind,
      Option.bind_some]
    split_ifs with lt
    · rw [ihr repR sortedR _ (by omega), rank_append_of_lt (fun y mem =>
        (apart y mem x (by simp)).trans lt), rank_cons_of_lt lt, LabelTree.length_toList]
      congr 1
      omega
    · rw [ihl repL sortedL _ (by omega), rank_append_of_le (not_lt.mp lt)]

theorem Keeps.lowerBound (keeps : Keeps index t) (bound : Item) :
    index.lowerBound bound = some (rank t.toList bound) := by
  rw [OrderIndex.lowerBound, keeps.root]
  have found := @lowerBoundLoop_spec _ _ index.root bound keeps.nodes keeps.sorted 0 _ keeps.size_le
  rwa [Nat.zero_add] at found

/-! ## Range summaries -/

theorem addLeft_rootOf (rep : Represents nodes t) (count : Nat) (sum : IdSum) :
    OrderIndex.addLeft ⟨nodes, top⟩ (count, sum) (rootOf t) =
      some (count + t.size, sum + idSum t.toList) := by
  rw [OrderIndex.addLeft]
  cases t with
  | leaf => simp [rootOf]
  | node i l x r =>
    rw [if_neg (show ¬ rootOf (.node i l x r) = nilIndex from rep.1.ne)]
    simp [rootOf, rep.2.1, nodeOf, IdSum.combine_eq]

theorem prefixLoop_spec (rep : Represents nodes t) {k : Nat} (inside : k ≤ t.size) (count : Nat)
    (sum : IdSum) {fuel : Nat} (enough : t.size ≤ fuel) :
    OrderIndex.prefixLoop ⟨nodes, top⟩ fuel k count sum (rootOf t) =
      some (count + k, sum + idSum (t.toList.take k)) := by
  induction t generalizing k count sum fuel with
  | leaf =>
    obtain rfl : k = 0 := Nat.le_zero.mp inside
    cases fuel <;> rw [OrderIndex.prefixLoop, if_pos (Or.inr rfl)] <;> simp
  | node i l x r ihl ihr =>
    obtain ⟨below, found, repL, repR⟩ := rep
    rw [LabelTree.size] at inside enough
    obtain ⟨fuel, rfl⟩ : ∃ n, fuel = n + 1 := ⟨fuel - 1, by omega⟩
    by_cases done : k = 0
    · rw [OrderIndex.prefixLoop, if_pos (Or.inr done), done]
      simp
    have size := LabelTree.length_toList l
    rw [rootOf_node, OrderIndex.prefixLoop, if_neg (by simp [below.ne, done]), LabelTree.toList]
    simp only [found, nodeOf_left, nodeOf_right, nodeOf_item, subtreeCount_rootOf repL, Option.bind_eq_bind,
      Option.bind_some]
    by_cases low : k ≤ l.size
    · rw [if_pos low, ihl repL low _ _ (by omega), List.take_append_of_le_length (by omega)]
    · have taken : (l.toList ++ x :: r.toList).take k =
          l.toList ++ x :: r.toList.take (k - (l.size + 1)) := by
        rw [List.take_append, List.take_of_length_le (by omega), size,
          show k - l.size = k - (l.size + 1) + 1 by omega, List.take_succ_cons]
      rw [if_neg low, addLeft_rootOf repL, Option.bind_some, ihr repR (by omega) _ _ (by omega),
        taken, IdSum.addId_eq, IdSum.combine_eq, idSum_append, idSum_cons]
      have counted : count + (l.size + (1 + (k - (l.size + 1)))) = count + k := by omega
      simp only [add_assoc, counted]

theorem Keeps.prefixSummary (keeps : Keeps index t) {k : Nat} (inside : k ≤ t.toList.length) :
    index.prefixSummary k = some (k, idSum (t.toList.take k)) := by
  have small := keeps.length_lt
  rw [OrderIndex.prefixSummary, keeps.root, Nat.mod_eq_of_lt (by omega)]
  rw [LabelTree.length_toList] at inside
  have found := @prefixLoop_spec _ _ index.root keeps.nodes _ inside 0 0 _ keeps.size_le
  rwa [Nat.zero_add, zero_add] at found

theorem Keeps.summary (keeps : Keeps index t) (lo hi : Nat) :
    index.summary lo hi = (slice t.toList lo hi).map fun xs => (xs.length, idSum xs) := by
  simp only [OrderIndex.summary, keeps.len, Option.bind_eq_bind, Option.bind_some, slice]
  split_ifs with range
  · obtain ⟨order, inside⟩ := range
    have parts : t.toList.take hi = t.toList.take lo ++ (t.toList.take hi).drop lo := by
      conv_lhs => rw [← List.take_append_drop lo (t.toList.take hi), List.take_take,
        Nat.min_eq_left order]
    have sums : idSum (t.toList.take hi) + -idSum (t.toList.take lo) =
        idSum ((t.toList.take hi).drop lo) := by
      conv_lhs => rw [parts, idSum_append]
      abel
    have size : ((t.toList.take hi).drop lo).length = hi - lo := by
      rw [List.length_drop, List.length_take, Nat.min_eq_left inside]
    simp only [keeps.prefixSummary inside, keeps.prefixSummary (order.trans inside),
      Option.bind_some, checkedSub_of_le order, IdSum.negate_eq, IdSum.combine_eq, sums, size,
      Option.map_some]
    rfl
  · rfl

/-! ## Iteration -/

/-- The stack of the iterator stands for the items still to come: of each node on it, the node itself
and what is to its right. -/
def Pending (nodes : List Node) : List Nat → List Item → Prop
  | [], items => items = []
  | i :: stack, items => ∃ l x r rest, Represents nodes (.node i l x r) ∧
      (LabelTree.node i l x r).labels.Nodup ∧ items = x :: (r.toList ++ rest) ∧ Pending nodes stack rest

theorem pushLeft_spec (rep : Represents nodes t) (distinct : t.labels.Nodup) {stack : List Nat}
    {rest : List Item} (pending : Pending nodes stack rest) {fuel : Nat} (enough : t.size ≤ fuel) :
    ∃ stack', OrderIndex.pushLeft ⟨nodes, top⟩ fuel stack (rootOf t) = some stack' ∧
      Pending nodes stack' (t.toList ++ rest) := by
  induction t generalizing stack rest fuel with
  | leaf =>
    refine ⟨stack, ?_, pending⟩
    cases fuel <;> rw [rootOf_leaf, OrderIndex.pushLeft, if_pos rfl]
  | node i l x r ihl ihr =>
    obtain ⟨-, -, distinctL, -, -⟩ := LabelTree.nodup_labels_node.mp distinct
    rw [LabelTree.size] at enough
    obtain ⟨fuel, rfl⟩ : ∃ n, fuel = n + 1 := ⟨fuel - 1, by omega⟩
    obtain ⟨stack', pushed, pending'⟩ := ihl rep.2.2.1 distinctL
      (show Pending nodes (i :: stack) (x :: (r.toList ++ rest)) from
        ⟨l, x, r, rest, rep, distinct, rfl, pending⟩) (show l.size ≤ fuel by omega)
    refine ⟨stack', ?_, by simpa using pending'⟩
    rw [rootOf_node, OrderIndex.pushLeft, if_neg rep.1.ne]
    simp only [rep.2.1, nodeOf_left, Option.bind_eq_bind, Option.bind_some, pushed]

theorem seedLoop_spec (rep : Represents nodes t) (distinct : t.labels.Nodup) {stack : List Nat}
    {rest : List Item} (pending : Pending nodes stack rest) {start fuel : Nat}
    (inside : start ≤ t.size) (enough : t.size ≤ fuel) :
    ∃ stack', OrderIndex.seedLoop ⟨nodes, top⟩ fuel start stack (rootOf t) = some stack' ∧
      Pending nodes stack' (t.toList.drop start ++ rest) := by
  induction t generalizing stack rest start fuel with
  | leaf =>
    refine ⟨stack, ?_, by simpa using pending⟩
    cases fuel <;> rw [rootOf_leaf, OrderIndex.seedLoop, if_pos rfl]
  | node i l x r ihl ihr =>
    obtain ⟨-, -, distinctL, distinctR, -⟩ := LabelTree.nodup_labels_node.mp distinct
    rw [LabelTree.size] at inside enough
    obtain ⟨fuel, rfl⟩ : ∃ n, fuel = n + 1 := ⟨fuel - 1, by omega⟩
    have size := LabelTree.length_toList l
    have here : Pending nodes (i :: stack) (x :: (r.toList ++ rest)) :=
      ⟨l, x, r, rest, rep, distinct, rfl, pending⟩
    rw [rootOf_node, OrderIndex.seedLoop, if_neg rep.1.ne, LabelTree.toList]
    simp only [rep.2.1, nodeOf_left, nodeOf_right, subtreeCount_rootOf rep.2.2.1, Option.bind_eq_bind,
      Option.bind_some]
    rcases lt_trichotomy start l.size with low | rfl | high
    · obtain ⟨stack', seeded, pending'⟩ := ihl rep.2.2.1 distinctL here low.le
        (show l.size ≤ fuel by omega)
      refine ⟨stack', by rw [if_pos low, seeded], ?_⟩
      rw [List.drop_append_of_le_length (by omega)]
      simpa using pending'
    · refine ⟨i :: stack, by rw [if_neg (lt_irrefl _), if_pos rfl]; rfl, ?_⟩
      rw [List.drop_append, List.drop_of_length_le (by omega), size, Nat.sub_self]
      exact here
    · obtain ⟨stack', seeded, pending'⟩ := @ihr rep.2.2.2 distinctR stack rest pending
        (start - (l.size + 1)) fuel (by omega) (by omega)
      refine ⟨stack', by rw [if_neg (by omega), if_neg (by omega), seeded], ?_⟩
      rw [List.drop_append, List.drop_of_length_le (by omega), size,
        show start - l.size = start - (l.size + 1) + 1 by omega, List.drop_succ_cons]
      exact pending'

theorem visitLoop_spec {σ : Type} (f : σ → Nat → Item → Option (σ × Bool)) {stack : List Nat}
    {items : List Item} (pending : Pending nodes stack items) (remaining rank : Nat) (state : σ) :
    OrderIndex.visitLoop ⟨nodes, top⟩ f (remaining + 1) rank ⟨stack, remaining⟩ state =
      visitFrom f rank (items.take remaining) state := by
  induction remaining generalizing stack items rank state with
  | zero =>
    rw [OrderIndex.visitLoop, List.take_zero, visitFrom]
    simp [OrderIndex.next]
  | succ remaining ih =>
    cases stack with
    | nil =>
      obtain rfl : items = [] := pending
      rw [OrderIndex.visitLoop, List.take_nil, visitFrom]
      simp [OrderIndex.next]
    | cons i stack =>
      obtain ⟨l, x, r, rest, rep, distinct, rfl, later⟩ := pending
      obtain ⟨-, -, -, distinctR, -⟩ := LabelTree.nodup_labels_node.mp distinct
      obtain ⟨stack', pushed, pending'⟩ := @pushLeft_spec nodes r top rep.2.2.2 distinctR stack
        rest later _ (size_le_of_lt distinctR rep.2.2.2.lt_length)
      rw [OrderIndex.visitLoop, List.take_succ_cons, visitFrom]
      simp only [OrderIndex.next, Nat.succ_ne_zero, if_false, rep.2.1, nodeOf_right, nodeOf_item, pushed,
        Option.bind_eq_bind, Option.bind_some, Option.pure_def, Nat.add_sub_cancel,
        ih pending']

theorem Keeps.visitRange {σ : Type} (keeps : Keeps index t) (lo hi : Nat)
    (f : σ → Nat → Item → Option (σ × Bool)) (state : σ) :
    index.visitRange lo hi f state = (slice t.toList lo hi).bind fun xs => visitFrom f lo xs state := by
  simp only [OrderIndex.visitRange, OrderIndex.iterRange, keeps.len, Option.bind_eq_bind,
    Option.bind_some, slice]
  split_ifs with range
  · obtain ⟨order, inside⟩ := range
    have small := keeps.length_lt
    have start : lo ≤ t.size := by
      rw [← LabelTree.length_toList]
      omega
    obtain ⟨stack, seeded, pending⟩ := @seedLoop_spec _ _ index.root keeps.nodes keeps.distinct [] []
      rfl _ _ start keeps.size_le
    rw [List.append_nil] at pending
    rw [Nat.mod_eq_of_lt (by omega), keeps.root]
    have walked := @visitLoop_spec index.nodes index.root σ f stack _ pending (hi - lo) lo state
    simp only [seeded, Option.bind_some, List.drop_take]
    exact walked
  · rfl

theorem visitFrom_collect (rank : Nat) (items xs : List Item) :
    visitFrom (fun items _ item => some (items ++ [item], true)) rank xs items =
      some (items ++ xs) := by
  induction xs generalizing rank items with
  | nil => simp [visitFrom]
  | cons x xs ih =>
    simp only [visitFrom, Option.bind_eq_bind, Option.bind_some, if_true]
    rw [ih, List.append_assoc, List.singleton_append]

theorem Keeps.collectRange (keeps : Keeps index t) (lo hi : Nat) :
    index.collectRange lo hi = slice t.toList lo hi := by
  rw [OrderIndex.collectRange, keeps.visitRange]
  cases slice t.toList lo hi with
  | none => rfl
  | some xs => rw [Option.bind_some, visitFrom_collect, List.nil_append]

/-! ## Insertion -/

theorem keeps_new : Keeps OrderIndex.new .leaf := ⟨rfl, trivial, List.nodup_nil, List.Pairwise.nil⟩

variable {item : Item}

theorem Keeps.insert_old (keeps : Keeps index t) (held : item ∈ t.toList) :
    index.insert item = some (index, false) := by
  have refused := @insertAt_refused _ _ item index.root keeps.nodes
    (LabelTree.insert_none_of_mem keeps.sorted held) _ keeps.size_le
  rw [← keeps.root] at refused
  simp only [OrderIndex.insert, refused, Option.bind_eq_bind, Option.bind_some]
  rfl

theorem Keeps.insert_tree {t' : LabelTree Item} (keeps : Keeps index t)
    (room : index.nodes.length ≤ nilIndex)
    (inserted : LabelTree.insert delta gamma (freshTree index.nodes.length item) item t = some t') :
    ∃ index', index.insert item = some (index', true) ∧ Keeps index' t' ∧
      index'.nodes.length = index.nodes.length + 1 := by
  obtain ⟨nodes', ran, rep, size, -⟩ := @insertAt_spec _ _ item index.root t' room keeps.nodes
    keeps.distinct inserted _ keeps.size_le
  have fits : (freshTree index.nodes.length item).toList = [item] ∨
      (freshTree index.nodes.length item).toList = [] := by
    rw [freshTree]
    split_ifs
    · exact Or.inr rfl
    · exact Or.inl rfl
  refine ⟨⟨nodes', rootOf t'⟩, ?_, ?_, size⟩
  · rw [← keeps.root] at ran
    simp only [OrderIndex.insert, ran, Option.bind_eq_bind, Option.bind_some]
    rfl
  · exact ⟨rfl, rep, nodup_labels_insert inserted keeps.nodes keeps.distinct,
      LabelTree.sorted_insert keeps.sorted fits inserted⟩

theorem Keeps.insert_new (keeps : Keeps index t) (room : index.nodes.length ≤ nilIndex)
    (absent : item ∉ t.toList) :
    ∃ index' t' before after, index.insert item = some (index', true) ∧ Keeps index' t' ∧
      index'.nodes.length = index.nodes.length + 1 ∧ t.toList = before ++ after ∧
      t'.toList = before ++ ((freshTree index.nodes.length item).toList ++ after) := by
  cases inserted : LabelTree.insert delta gamma (freshTree index.nodes.length item) item t with
  | none => exact absurd (LabelTree.mem_of_insert_none inserted) absent
  | some t' =>
    obtain ⟨before, after, split, -, -, result⟩ := LabelTree.toList_insert keeps.sorted inserted
    obtain ⟨index', ran, keeps', size⟩ := keeps.insert_tree room inserted
    exact ⟨index', t', before, after, ran, keeps', size, split, result⟩

theorem Keeps.insert (keeps : Keeps index t) (room : index.nodes.length < nilIndex) (item : Item) :
    ∃ index' t', index.insert item = some (index', decide (item ∉ t.toList)) ∧ Keeps index' t' ∧
      index'.nodes.length ≤ index.nodes.length + 1 ∧
      ∀ x, x ∈ t'.toList ↔ x ∈ t.toList ∨ x = item := by
  by_cases held : item ∈ t.toList
  · refine ⟨index, t, by rw [keeps.insert_old held]; simp [held], keeps, by omega, fun x => ?_⟩
    refine ⟨Or.inl, ?_⟩
    rintro (mem | rfl)
    · exact mem
    · exact held
  · obtain ⟨index', t', before, after, ran, keeps', size, split, result⟩ :=
      keeps.insert_new room.le held
    refine ⟨index', t', by rw [ran]; simp [held], keeps', size.le, fun x => ?_⟩
    rw [result, split, freshTree, if_neg room.ne]
    simp only [LabelTree.toList, List.nil_append, List.mem_append, List.mem_cons, List.not_mem_nil,
      or_false]
    tauto

theorem Keeps.insert_full (keeps : Keeps index t) (full : index.nodes.length = nilIndex)
    (absent : item ∉ t.toList) :
    ∃ index' t', index.insert item = some (index', true) ∧ Keeps index' t' ∧
      t'.toList = t.toList := by
  obtain ⟨index', t', before, after, ran, keeps', -, split, result⟩ :=
    keeps.insert_new full.le absent
  refine ⟨index', t', ran, keeps', ?_⟩
  rw [result, split, freshTree, if_pos full]
  rfl

/-! ## Runs of insertions -/

/-- The calls `insert` for each of `items`, and what they returned. -/
def insertAll (index : OrderIndex) : List Item → Option (OrderIndex × List Bool)
  | [] => some (index, [])
  | item :: items => do
    let (index, isNew) ← index.insert item
    let (index, results) ← insertAll index items
    return (index, isNew :: results)

theorem insertAll_spec (keeps : Keeps index t) {items : List Item}
    (room : index.nodes.length + items.length ≤ nilIndex) :
    ∃ index' t' results, insertAll index items = some (index', results) ∧ Keeps index' t' ∧
      (∀ x, x ∈ t'.toList ↔ x ∈ t.toList ∨ x ∈ items) ∧
      results.length = items.length ∧ ∀ k item, items[k]? = some item →
        results[k]? = some (decide (item ∉ t.toList ∧ item ∉ items.take k)) := by
  induction items generalizing index t with
  | nil => exact ⟨index, t, [], rfl, keeps, by simp, rfl, by simp⟩
  | cons item items ih =>
    rw [List.length_cons] at room
    obtain ⟨index₁, t₁, ran, keeps₁, size, mem⟩ := keeps.insert (by omega) item
    obtain ⟨index₂, t₂, results, rest, keeps₂, mem₂, count, flags⟩ :=
      ih keeps₁ (show index₁.nodes.length + items.length ≤ nilIndex by omega)
    refine ⟨index₂, t₂, decide (item ∉ t.toList) :: results, ?_, keeps₂, fun x => ?_,
      by rw [List.length_cons, List.length_cons, count], fun k x found => ?_⟩
    · simp only [insertAll, ran, rest, Option.bind_eq_bind, Option.bind_some]
      rfl
    · rw [mem₂, mem, List.mem_cons, or_assoc]
    · cases k with
      | zero =>
        obtain rfl : item = x := by simpa using found
        simp
      | succ k =>
        rw [List.getElem?_cons_succ] at found
        rw [List.getElem?_cons_succ, flags k x found, List.take_succ_cons]
        simp only [mem, List.mem_cons, not_or, and_assoc]

end Racnet.Proof.Storage
