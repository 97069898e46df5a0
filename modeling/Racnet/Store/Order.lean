import Racnet.Lib.Exec
import Racnet.Sync.Negentropy.Fingerprint

namespace Racnet.Store
open Lib Sync

/-- The index that means "no child": `u32::MAX`. -/
def nilIndex : Nat := 2 ^ 32 - 1

def delta : Nat := 3
def gamma : Nat := 2

/-- A node of the arena. The links and the count are `u32`s. -/
structure Node where
  item : Item
  left : Nat
  right : Nat
  count : Nat
  sum : IdSum
  deriving DecidableEq

/-- The ordered index of a store. Its functions return `none` where the program panics. -/
structure OrderIndex where
  nodes : List Node
  root : Nat
  deriving DecidableEq

/-- Addition of `u32`s: an overflow is a panic. -/
def checkedAdd32 (a b : Nat) : Option Nat := if a + b < 2 ^ 32 then some (a + b) else none

theorem checkedAdd32_of_lt {a b : Nat} (fits : a + b < 2 ^ 32) : checkedAdd32 a b = some (a + b) :=
  if_pos fits

namespace OrderIndex

def new : OrderIndex := ⟨[], nilIndex⟩

def subtreeCount (index : OrderIndex) (idx : Nat) : Option Nat :=
  if idx = nilIndex then some 0 else index.nodes[idx]?.map Node.count

def len (index : OrderIndex) : Option Nat := index.subtreeCount index.root

def weight (index : OrderIndex) (idx : Nat) : Option Nat := do
  return (← index.subtreeCount idx) + 1

/-! ## Insertion -/

def setLeft (index : OrderIndex) (idx child : Nat) : Option OrderIndex := do
  let node ← index.nodes[idx]?
  return { index with nodes := index.nodes.set idx { node with left := child } }

def setRight (index : OrderIndex) (idx child : Nat) : Option OrderIndex := do
  let node ← index.nodes[idx]?
  return { index with nodes := index.nodes.set idx { node with right := child } }

/-- The body of the loop over the children in `pull_up`. -/
def addChild (index : OrderIndex) (acc : Nat × IdSum) (child : Nat) : Option (Nat × IdSum) :=
  if child = nilIndex then some acc
  else do
    let c ← index.nodes[child]?
    let count ← checkedAdd32 acc.1 c.count
    return (count, acc.2.combine c.sum)

def pullUp (index : OrderIndex) (idx : Nat) : Option OrderIndex := do
  let node ← index.nodes[idx]?
  let acc ← index.addChild (1, IdSum.zero.addId node.item.id) node.left
  let (count, sum) ← index.addChild acc node.right
  return { index with nodes := index.nodes.set idx { node with count, sum } }

def rotateLeft (index : OrderIndex) (idx : Nat) : Option (OrderIndex × Nat) := do
  let node ← index.nodes[idx]?
  let right := node.right
  let rightNode ← index.nodes[right]?
  let index ← index.setRight idx rightNode.left
  let index ← index.setLeft right idx
  let index ← index.pullUp idx
  let index ← index.pullUp right
  return (index, right)

def rotateRight (index : OrderIndex) (idx : Nat) : Option (OrderIndex × Nat) := do
  let node ← index.nodes[idx]?
  let left := node.left
  let leftNode ← index.nodes[left]?
  let index ← index.setLeft idx leftNode.right
  let index ← index.setRight left idx
  let index ← index.pullUp idx
  let index ← index.pullUp left
  return (index, left)

/-- Restores the weight balance at `idx` after one insertion below it; returns the new root of the
subtree. -/
def balance (index : OrderIndex) (idx : Nat) : Option (OrderIndex × Nat) := do
  let node ← index.nodes[idx]?
  let leftWeight ← index.weight node.left
  let rightWeight ← index.weight node.right
  if leftWeight * delta < rightWeight then
    let r ← index.nodes[node.right]?
    if (← index.weight r.left) < gamma * (← index.weight r.right) then index.rotateLeft idx
    else
      let (index, newRight) ← index.rotateRight node.right
      let index ← index.setRight idx newRight
      let index ← index.pullUp idx
      index.rotateLeft idx
  else if rightWeight * delta < leftWeight then
    let l ← index.nodes[node.left]?
    if (← index.weight l.right) < gamma * (← index.weight l.left) then index.rotateRight idx
    else
      let (index, newLeft) ← index.rotateLeft node.left
      let index ← index.setLeft idx newLeft
      let index ← index.pullUp idx
      index.rotateRight idx
  else return (index, idx)

/-- Inserts below `idx`: the index, the new root of the subtree, and whether the item was new. A path
down the tree is no longer than the arena, so the number of nodes is fuel enough. -/
def insertAt : Nat → OrderIndex → Nat → Item → Option (OrderIndex × Nat × Bool)
  | fuel, index, idx, item =>
    if idx = nilIndex then
      let nodes := index.nodes ++ [⟨item, nilIndex, nilIndex, 1, IdSum.zero.addId item.id⟩]
      some ({ index with nodes }, (nodes.length - 1) % 2 ^ 32, true)
    else
      match fuel with
      | 0 => none
      | fuel + 1 => do
        let node ← index.nodes[idx]?
        match compare item node.item with
        | .eq => return (index, idx, false)
        | .lt =>
          let (index, child, inserted) ← insertAt fuel index node.left item
          let index ← index.setLeft idx child
          if inserted then
            let (index, top) ← (← index.pullUp idx).balance idx
            return (index, top, true)
          else return (index, idx, false)
        | .gt =>
          let (index, child, inserted) ← insertAt fuel index node.right item
          let index ← index.setRight idx child
          if inserted then
            let (index, top) ← (← index.pullUp idx).balance idx
            return (index, top, true)
          else return (index, idx, false)

/-- Inserts an item; `false` when an equal one is there already. -/
def insert (index : OrderIndex) (item : Item) : Option (OrderIndex × Bool) := do
  let (index, root, inserted) ← insertAt index.nodes.length index index.root item
  return ({ index with root }, inserted)

/-! ## Queries -/

def itemAtLoop (index : OrderIndex) : Nat → Nat → Nat → Option Item
  | 0, _, _ => none
  | fuel + 1, rank, idx => do
    let node ← index.nodes[idx]?
    let left ← index.subtreeCount node.left
    if rank < left then index.itemAtLoop fuel rank node.left
    else if rank = left then return node.item
    else index.itemAtLoop fuel (rank - (left + 1)) node.right

def itemAt (index : OrderIndex) (rank : Nat) : Option Item := do
  if rank < (← index.len) then
    index.itemAtLoop index.nodes.length (rank % 2 ^ 32) index.root
  else none

def lowerBoundLoop (index : OrderIndex) (bound : Item) : Nat → Nat → Nat → Option Nat
  | fuel, acc, idx =>
    if idx = nilIndex then some acc
    else
      match fuel with
      | 0 => none
      | fuel + 1 => do
        let node ← index.nodes[idx]?
        if node.item < bound then
          index.lowerBoundLoop bound fuel (acc + (← index.subtreeCount node.left) + 1) node.right
        else index.lowerBoundLoop bound fuel acc node.left

/-- The first rank whose item is not below `bound`. -/
def lowerBound (index : OrderIndex) (bound : Item) : Option Nat :=
  index.lowerBoundLoop bound index.nodes.length 0 index.root

/-- Adds a left subtree to the running count, a `u64`, and sum. -/
def addLeft (index : OrderIndex) (acc : Nat × IdSum) (left : Nat) : Option (Nat × IdSum) :=
  if left = nilIndex then some acc
  else do
    let l ← index.nodes[left]?
    return (acc.1 + l.count, acc.2.combine l.sum)

def prefixLoop (index : OrderIndex) : Nat → Nat → Nat → IdSum → Nat → Option (Nat × IdSum)
  | fuel, remaining, count, sum, idx =>
    if idx = nilIndex ∨ remaining = 0 then some (count, sum)
    else
      match fuel with
      | 0 => none
      | fuel + 1 => do
        let node ← index.nodes[idx]?
        let left ← index.subtreeCount node.left
        if remaining ≤ left then index.prefixLoop fuel remaining count sum node.left
        else
          let (count, sum) ← index.addLeft (count, sum) node.left
          index.prefixLoop fuel (remaining - (left + 1)) (count + 1) (sum.addId node.item.id)
            node.right

/-- The count and the id sum of the first `k` items. -/
def prefixSummary (index : OrderIndex) (k : Nat) : Option (Nat × IdSum) :=
  index.prefixLoop index.nodes.length (k % 2 ^ 32) 0 IdSum.zero index.root

/-- The count and the id sum of the items at ranks `lo..hi`. -/
def summary (index : OrderIndex) (lo hi : Nat) : Option (Nat × IdSum) := do
  if lo ≤ hi ∧ hi ≤ (← index.len) then
    let (hiCount, hiSum) ← index.prefixSummary hi
    let (loCount, loSum) ← index.prefixSummary lo
    return (← checkedSub hiCount loCount, hiSum.combine loSum.negate)
  else none

/-- The iterator over a range of ranks; the top of the stack is the head of the list. -/
structure RangeIter where
  stack : List Nat
  remaining : Nat

def seedLoop (index : OrderIndex) : Nat → Nat → List Nat → Nat → Option (List Nat)
  | fuel, rank, stack, idx =>
    if idx = nilIndex then some stack
    else
      match fuel with
      | 0 => none
      | fuel + 1 => do
        let node ← index.nodes[idx]?
        let left ← index.subtreeCount node.left
        if rank < left then index.seedLoop fuel rank (idx :: stack) node.left
        else if rank = left then return idx :: stack
        else index.seedLoop fuel (rank - (left + 1)) stack node.right

def iterRange (index : OrderIndex) (lo hi : Nat) : Option RangeIter := do
  if lo ≤ hi ∧ hi ≤ (← index.len) then
    return ⟨← index.seedLoop index.nodes.length (lo % 2 ^ 32) [] index.root, hi - lo⟩
  else none

/-- Pushes the leftmost path from `child` down. -/
def pushLeft (index : OrderIndex) : Nat → List Nat → Nat → Option (List Nat)
  | fuel, stack, child =>
    if child = nilIndex then some stack
    else
      match fuel with
      | 0 => none
      | fuel + 1 => do
        let node ← index.nodes[child]?
        index.pushLeft fuel (child :: stack) node.left

/-- `RangeIter::next`: the item, if there is one, and the iterator after it. -/
def next (index : OrderIndex) (iter : RangeIter) : Option (Option Item × RangeIter) :=
  if iter.remaining = 0 then some (none, iter)
  else
    match iter.stack with
    | [] => some (none, iter)
    | idx :: stack => do
      let node ← index.nodes[idx]?
      let stack ← index.pushLeft index.nodes.length stack node.right
      return (some node.item, ⟨stack, iter.remaining - 1⟩)

/-- A `for` loop over the iterator. Every item takes one from `remaining`, so one more pass than that
always reaches the end. -/
def visitLoop {σ : Type} (index : OrderIndex) (f : σ → Nat → Item → Option (σ × Bool)) :
    Nat → Nat → RangeIter → σ → Option σ
  | 0, _, _, _ => none
  | fuel + 1, rank, iter, state => do
    match ← index.next iter with
    | (none, _) => some state
    | (some item, iter) =>
      let (state, more) ← f state rank item
      if more then index.visitLoop f fuel (rank + 1) iter state else some state

/-- `iter_range(lo..hi)` run to its end or to the first `false` of the visitor, which gets the rank of
each item. -/
def visitRange {σ : Type} (index : OrderIndex) (lo hi : Nat)
    (f : σ → Nat → Item → Option (σ × Bool)) (state : σ) : Option σ := do
  let iter ← index.iterRange lo hi
  index.visitLoop f (iter.remaining + 1) lo iter state

/-- `iter_range(lo..hi).collect()`. -/
def collectRange (index : OrderIndex) (lo hi : Nat) : Option (List Item) :=
  index.visitRange lo hi (fun items _ item => some (items ++ [item], true)) []

end OrderIndex

end Racnet.Store
