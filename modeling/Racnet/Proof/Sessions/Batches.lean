import Mathlib.Data.List.Chain
import Racnet.Sync.Session

/-!
# Batches of pushed entries
-/

namespace Racnet.Proof.Sessions
open Lib Store Wire Sync

def entriesOf : Message → List Entry
  | .gossipPush push => push.entries
  | _ => []

def batchBytes (batch : List Entry) : Nat := (batch.map fun entry => entry.toBytes.length).sum

structure Batch (store : EntryStore) (batch : List Entry) : Prop where
  filled : batch ≠ []
  bounded : batchBytes batch ≤ pushBatchBudget ∨ batch.length = 1
  stored : ∀ entry ∈ batch, ∃ id, store.get id = some entry

/-- What the loop has done with the ids in `done`. -/
structure Batching (store : EntryStore) (ttl : UInt64) (done : List EntryId)
    (state : List Message × List Entry × Nat) : Prop where
  entries : state.1.flatMap entriesOf ++ state.2.1 = done.filterMap store.get
  counted : state.2.2 = batchBytes state.2.1
  full : ∀ message ∈ state.1, ∃ batch, message = .gossipPush ⟨batch, ttl⟩ ∧ Batch store batch
  bounded : batchBytes state.2.1 ≤ pushBatchBudget ∨ state.2.1.length = 1
  stored : ∀ entry ∈ state.2.1, ∃ id, store.get id = some entry

theorem batchBytes_append (batch : List Entry) (entry : Entry) :
    batchBytes (batch ++ [entry]) = batchBytes batch + entry.toBytes.length := by
  simp [batchBytes]

theorem batching_start (store : EntryStore) (ttl : UInt64) : Batching store ttl [] ([], [], 0) :=
  ⟨rfl, rfl, fun _ mem => absurd mem List.not_mem_nil, Or.inl (Nat.zero_le _),
    fun _ mem => absurd mem List.not_mem_nil⟩

theorem Batching.step {store : EntryStore} {ttl : UInt64} {done : List EntryId}
    {state : List Message × List Entry × Nat} (batching : Batching store ttl done state)
    (id : EntryId) : Batching store ttl (done ++ [id]) (pushStep store ttl state id) := by
  obtain ⟨messages, batch, bytes⟩ := state
  obtain ⟨entries, counted, full, bounded, stored⟩ := batching
  dsimp only at entries counted full bounded stored
  rw [pushStep]
  dsimp only
  cases found : store.get id with
  | none =>
    refine ⟨?_, counted, full, bounded, stored⟩
    rw [List.filterMap_append, ← entries]
    simp [found]
  | some entry =>
    have last : (done ++ [id]).filterMap store.get = done.filterMap store.get ++ [entry] := by
      rw [List.filterMap_append]
      simp [found]
    dsimp only
    split_ifs with exceeded
    · refine ⟨?_, ?_, fun message mem => ?_, Or.inr rfl, fun other mem => ?_⟩
      · rw [last, ← entries]
        simp [entriesOf]
      · simp [batchBytes]
      · rcases List.mem_append.mp mem with old | new
        · exact full message old
        · exact ⟨batch, List.mem_singleton.mp new, exceeded.1, bounded, stored⟩
      · exact ⟨id, List.mem_singleton.mp mem ▸ found⟩
    · refine ⟨?_, ?_, full, ?_, fun other mem => ?_⟩
      · rw [last, ← entries, List.append_assoc]
      · dsimp only
        rw [batchBytes_append, counted]
      · dsimp only
        rw [batchBytes_append]
        rw [not_and_or, not_not, counted] at exceeded
        rcases exceeded with empty | fits
        · exact Or.inr (by rw [empty]; rfl)
        · exact Or.inl (Nat.not_lt.mp fits)
      · rcases List.mem_append.mp mem with old | new
        · exact stored other old
        · exact ⟨id, List.mem_singleton.mp new ▸ found⟩

theorem batching_fold {store : EntryStore} {ttl : UInt64} {done : List EntryId}
    {state : List Message × List Entry × Nat} (batching : Batching store ttl done state)
    (ids : List EntryId) :
    Batching store ttl (done ++ ids) (ids.foldl (pushStep store ttl) state) := by
  induction ids generalizing done state with
  | nil => rwa [List.append_nil]
  | cons id ids ih =>
    rw [List.append_cons]
    exact ih (batching.step id)

theorem pushBatches_spec (store : EntryStore) (ids : List EntryId) (ttl : UInt64) :
    (pushBatches store ids ttl).flatMap entriesOf = ids.filterMap store.get ∧
      ∀ message ∈ pushBatches store ids ttl,
        ∃ batch, message = .gossipPush ⟨batch, ttl⟩ ∧ Batch store batch := by
  have done := batching_fold (batching_start store ttl) ids
  rw [List.nil_append] at done
  rw [pushBatches]
  generalize ids.foldl (pushStep store ttl) ([], [], 0) = state at done
  obtain ⟨messages, batch, bytes⟩ := state
  obtain ⟨entries, counted, full, bounded, stored⟩ := done
  dsimp only at entries counted full bounded stored ⊢
  split_ifs with empty
  · rw [empty, List.append_nil] at entries
    exact ⟨entries, full⟩
  · refine ⟨?_, fun message mem => ?_⟩
    · rw [List.flatMap_append, ← entries]
      simp [entriesOf]
    · rcases List.mem_append.mp mem with old | new
      · exact full message old
      · exact ⟨batch, List.mem_singleton.mp new, empty, bounded, stored⟩

/-- The first entry of the later batch did not fit in the earlier one. -/
def Tight (earlier later : List Entry) : Prop :=
  ∀ entry ∈ later.head?, pushBatchBudget < batchBytes earlier + entry.toBytes.length

/-- The batches pushed so far and the current one are filled greedily. -/
structure Greedy (state : List Message × List Entry × Nat) : Prop where
  chain : (state.1.map entriesOf ++ [state.2.1]).IsChain Tight
  started : state.2.1 = [] → state.1 = []

theorem Greedy.step {store : EntryStore} {ttl : UInt64}
    {state : List Message × List Entry × Nat} (greedy : Greedy state)
    (counted : state.2.2 = batchBytes state.2.1) (id : EntryId) :
    Greedy (pushStep store ttl state id) := by
  obtain ⟨messages, batch, bytes⟩ := state
  obtain ⟨chain, started⟩ := greedy
  dsimp only at chain started counted
  rw [pushStep]
  dsimp only
  cases store.get id with
  | none => exact ⟨chain, started⟩
  | some entry =>
    dsimp only
    split_ifs with exceeded
    · refine ⟨?_, fun empty => absurd empty (List.cons_ne_nil _ _)⟩
      have past : Tight batch [entry] := by
        intro first mem
        obtain rfl := Option.some.inj mem
        rw [← counted]
        exact exceeded.2
      simp only [List.map_append, List.map_singleton, List.append_assoc, List.singleton_append,
        List.isChain_append_cons_cons]
      exact ⟨chain, past, List.isChain_singleton _⟩
    · refine ⟨?_, fun empty => absurd empty (by simp)⟩
      -- The head of a batch stays; only a first batch has none before it gets an entry.
      cases batch with
      | nil =>
        rw [started rfl]
        exact List.isChain_singleton _
      | cons first batch =>
        rw [List.isChain_append] at chain ⊢
        exact ⟨chain.1, List.isChain_singleton _, by simpa [Tight] using chain.2.2⟩

theorem greedy_fold {store : EntryStore} {ttl : UInt64} {done : List EntryId}
    {state : List Message × List Entry × Nat} (batching : Batching store ttl done state)
    (greedy : Greedy state) (ids : List EntryId) :
    Greedy (ids.foldl (pushStep store ttl) state) := by
  induction ids generalizing done state with
  | nil => exact greedy
  | cons id ids ih => exact ih (batching.step id) (greedy.step batching.counted id)

theorem pushBatches_tight (store : EntryStore) (ids : List EntryId) (ttl : UInt64) :
    ((pushBatches store ids ttl).map entriesOf).IsChain Tight := by
  have done := greedy_fold (batching_start store ttl) ⟨List.isChain_singleton _, fun _ => rfl⟩ ids
  rw [pushBatches]
  generalize ids.foldl (pushStep store ttl) ([], [], 0) = state at done
  obtain ⟨messages, batch, bytes⟩ := state
  dsimp only
  split_ifs with empty
  · exact done.chain.left_of_append
  · rw [List.map_append]
    exact done.chain

/-- The pushes hold the stored entries of the ids, in order. None is empty, those of two entries
and more are within the budget, and none could have taken the first entry of the next. -/
theorem pushBatches_lossless (store : EntryStore) (ids : List EntryId) (ttl : UInt64) :
    (pushBatches store ids ttl).flatMap entriesOf = ids.filterMap store.get ∧
    (∀ message ∈ pushBatches store ids ttl, ∃ batch, message = .gossipPush ⟨batch, ttl⟩ ∧
      batch ≠ [] ∧
      (2 ≤ batch.length → (batch.map fun entry => entry.toBytes.length).sum ≤ 32768)) ∧
    ∀ front back earlier later,
      pushBatches store ids ttl = front ++ earlier :: later :: back →
        ∃ entry rest, entriesOf later = entry :: rest ∧
          32768 < ((entriesOf earlier).map fun entry => entry.toBytes.length).sum +
            entry.toBytes.length := by
  obtain ⟨entries, batches⟩ := pushBatches_spec store ids ttl
  refine ⟨entries, fun message mem => ?_, fun front back earlier later split => ?_⟩
  · obtain ⟨batch, push, whole⟩ := batches message mem
    exact ⟨batch, push, whole.filled, fun two => whole.bounded.resolve_right (by omega)⟩
  · obtain ⟨batch, rfl, whole⟩ := batches later (by simp [split])
    obtain ⟨entry, rest, rfl⟩ := List.exists_cons_of_ne_nil whole.filled
    have chain := pushBatches_tight store ids ttl
    rw [split, List.map_append, List.map_cons, List.map_cons, List.isChain_append_cons_cons] at chain
    exact ⟨entry, rest, rfl, chain.2.1 entry rfl⟩

end Racnet.Proof.Sessions
