import Racnet.Lib.Table
import Racnet.Android.NodeRuntime

/-!
# Changes and the scheduler

Whatever the core does, as long as it reports what it does, every entry that a link has not seen is in the
snapshot of the last session on the link, or the link is pending.
-/

namespace Racnet.Proof.Scheduler
open Lib Api Link Android

/-! ## The scheduler -/

section
variable (scheduler : SyncScheduler) (linkId sessionId other : UInt64) (linkIds : List UInt64)

theorem mem_pending_request :
    other ∈ (scheduler.request linkId).pending ↔ other = linkId ∨ other ∈ scheduler.pending := by
  rw [SyncScheduler.request]
  split_ifs with known
  · constructor
    · exact Or.inr
    · rintro (rfl | mem)
      · exact known
      · exact mem
  · rw [List.mem_append, List.mem_singleton, or_comm]

theorem active_request : (scheduler.request linkId).active = scheduler.active := by
  rw [SyncScheduler.request]
  split_ifs <;> rfl

theorem mem_pending_requestAll :
    other ∈ (scheduler.requestAll linkIds).pending ↔ other ∈ linkIds ∨ other ∈ scheduler.pending := by
  induction linkIds generalizing scheduler with
  | nil => simp [SyncScheduler.requestAll]
  | cons head tail ih =>
    change other ∈ ((scheduler.request head).requestAll tail).pending ↔ _
    rw [ih, mem_pending_request, List.mem_cons]
    tauto

theorem active_requestAll : (scheduler.requestAll linkIds).active = scheduler.active := by
  induction linkIds generalizing scheduler with
  | nil => rfl
  | cons head tail ih => exact (ih _).trans (active_request _ _)

theorem lookup_completed :
    (scheduler.completed linkId sessionId).active.lookup other =
      if other = linkId ∧ scheduler.active.lookup linkId = some sessionId then none
      else scheduler.active.lookup other := by
  rw [SyncScheduler.completed]
  by_cases running : scheduler.active.lookup linkId = some sessionId
  · rw [if_pos running, lookup_erase_eq]
    simp only [running, and_true]
  · rw [if_neg running, if_neg (fun both => running both.2)]

theorem pending_completed : (scheduler.completed linkId sessionId).pending = scheduler.pending := by
  rw [SyncScheduler.completed]
  split_ifs <;> rfl

theorem mem_pending_closed :
    other ∈ (scheduler.closed linkId).pending ↔ other ∈ scheduler.pending ∧ other ≠ linkId := by
  rw [SyncScheduler.closed, SyncScheduler.remove, List.mem_filter, decide_eq_true_iff]

theorem lookup_closed :
    (scheduler.closed linkId).active.lookup other =
      if other = linkId then none else scheduler.active.lookup other :=
  lookup_erase_eq _ _ _

theorem mem_pending_started : other ∈ (scheduler.started linkId sessionId).pending ↔
    other ∈ scheduler.pending ∧ other ≠ linkId :=
  mem_pending_closed scheduler linkId other

theorem lookup_started :
    (scheduler.started linkId sessionId).active.lookup other =
      if other = linkId then some sessionId else scheduler.active.lookup other :=
  lookup_insert_eq _ _ _ _

/-- What holds of the links that are left, of the scheduler and of the state in every round of a drain holds
after the last one. -/
theorem drainLoop_rule {σ : Type} {start : UInt64 → σ → Option (Option UInt64 × σ)}
    {P : List UInt64 → SyncScheduler → σ → Prop}
    (skipped : ∀ {linkId linkIds scheduler state}, P (linkId :: linkIds) scheduler state →
      linkId ∈ scheduler.active → P linkIds scheduler state)
    (refused : ∀ {linkId linkIds scheduler state state'}, P (linkId :: linkIds) scheduler state →
      linkId ∉ scheduler.active → start linkId state = some (none, state') → P linkIds scheduler state')
    (started : ∀ {linkId linkIds scheduler state sessionId state'},
      P (linkId :: linkIds) scheduler state → linkId ∉ scheduler.active →
      start linkId state = some (some sessionId, state') →
      P linkIds (scheduler.started linkId sessionId) state')
    {linkIds : List UInt64} {scheduler scheduler' : SyncScheduler} {state state' : σ}
    (ran : SyncScheduler.drainLoop start linkIds scheduler state = some (scheduler', state'))
    (before : P linkIds scheduler state) : P [] scheduler' state' := by
  induction linkIds generalizing scheduler state with
  | nil =>
    cases ran
    exact before
  | cons linkId linkIds ih =>
    rw [SyncScheduler.drainLoop] at ran
    split_ifs at ran with running
    · exact ih ran (skipped before running)
    rcases begun : start linkId state with _ | ⟨_ | sessionId, state₁⟩
    · rw [begun] at ran
      cases ran
    · rw [begun] at ran
      exact ih ran (refused before running begun)
    · rw [begun] at ran
      exact ih ran (started before running begun)

end

/-! ## The event stream -/

/-- What a core holds: the ids of its entries, and the sessions on a link that it has opened and that are
still open. A rehashed core has its hash tables in another order. -/
class Observed (ν : Type) where
  entries : ν → Finset (List UInt8)
  sessions : ν → UInt64 → Finset UInt64
  rehashed : ν → ν → Prop

def Ends (linkId sessionId : UInt64) (event : Event) : Prop :=
  event = .syncSessionClosed linkId sessionId true ∨ ∃ cause, event = .closed linkId cause

def Requests : Event → Prop
  | .established _ _ | .entryStored _ _ => True
  | .duplicateIgnored _ _ | .reconciled _ _ _ _ | .syncSessionClosed _ _ _ | .closed _ _ => False

theorem Ends.linkId_eq {linkId sessionId : UInt64} {event : Event} (ends : Ends linkId sessionId event) :
    event.linkId = linkId := by
  rcases ends with rfl | ⟨cause, rfl⟩ <;> rfl

section
variable {ν : Type} [CoreNode ν] [Observed ν]
open Observed

def Follows (events : List Event) (before after : UInt64 → UInt64 → Prop) : Prop :=
  ∀ linkId sessionId, after linkId sessionId ↔
    before linkId sessionId ∧ ∀ event ∈ events, ¬ Ends linkId sessionId event

def Running (node : ν) (linkId sessionId : UInt64) : Prop := sessionId ∈ sessions node linkId

/-- The events of a core: an entry that was received is reported as stored, and a session that has ended or
whose link is gone is reported as closed. Nothing else stores an entry but its creation, and starting a
session reports nothing but its end. -/
structure EventStream (ν : Type) [CoreNode ν] [Observed ν] : Prop where
  connect : ∀ {node node' : ν} {entropy nowUs result},
    CoreNode.connect node entropy nowUs = some (node', result) →
    entries node' = entries node ∧ sessions node' = sessions node
  accept : ∀ {node node' : ν} {entropy remoteAddr nowUs result},
    CoreNode.accept node entropy remoteAddr nowUs = some (node', result) →
    entries node' = entries node ∧ sessions node' = sessions node
  onBytes : ∀ {node node' : ν} {linkId bytes nowUs io},
    CoreNode.onBytes node linkId bytes nowUs = some (node', io) →
    (∀ id ∈ entries node', id ∈ entries node ∨ .entryStored linkId id ∈ io.events) ∧
      Follows io.events (Running node) (Running node')
  onTransportClosed : ∀ {node node' : ν} {linkId nowUs events},
    CoreNode.onTransportClosed node linkId nowUs = (node', events) →
    entries node' = entries node ∧ Follows events (Running node) (Running node')
  tick : ∀ {node node' : ν} {nowUs events}, CoreNode.tick node nowUs = (node', events) →
    entries node' = entries node ∧ Follows events (Running node) (Running node')
  refused : ∀ {node node' : ν} {linkId window error},
    CoreNode.startSync node linkId window = some (node', .error error) →
    entries node' = entries node ∧ sessions node' = sessions node
  started : ∀ {node node' : ν} {linkId window start},
    CoreNode.startSync node linkId window = some (node', .ok start) →
    entries node' = entries node ∧
      (∀ event ∈ start.io.events, event.linkId = linkId ∧ ¬ Requests event) ∧
      Follows start.io.events
        (fun link session => Running node link session ∨ link = linkId ∧ session = start.sessionId)
        (Running node')
  createEntry : ∀ {node node' : ν} {kind payload nowMs result},
    CoreNode.createEntry node kind payload nowMs = some (node', result) →
    sessions node' = sessions node ∧ ((∃ error, result = .error error) → entries node' = entries node)
  rehashed : ∀ {node node' : ν}, rehashed node node' →
    entries node' = entries node ∧ sessions node' = sessions node

end

end Racnet.Proof.Scheduler
