import Racnet.Proof.Scheduler.EventStream

/-!
# What the scheduler keeps track of
-/

namespace Racnet.Proof.Scheduler
open Lib Api Link Android Observed

/-! ## A core with its history -/

/-- A core, the entries that arrived over a link, and the entries that were in the store when the last
session on a link was started. -/
structure Recorded (ν : Type) where
  core : ν
  arrived : UInt64 → Finset (List UInt8)
  atStart : UInt64 → Finset (List UInt8)

section
variable {ν : Type} [CoreNode ν] [Observed ν]

namespace Recorded

omit [CoreNode ν] [Observed ν] in
def new (core : ν) : Recorded ν := ⟨core, fun _ => ∅, fun _ => ∅⟩

omit [CoreNode ν] in
def arrive (record : Recorded ν) (linkId : UInt64) (core : ν) : Recorded ν where
  core
  arrived := Function.update record.arrived linkId
    (record.arrived linkId ∪ (entries core \ entries record.core))
  atStart := record.atStart

omit [CoreNode ν] in
def start (record : Recorded ν) (linkId : UInt64) (core : ν) : Recorded ν where
  core
  arrived := record.arrived
  atStart := Function.update record.atStart linkId (entries record.core)

omit [CoreNode ν] in
theorem atStart_start (record : Recorded ν) (linkId : UInt64) (core : ν) (other : UInt64) :
    (record.start linkId core).atStart other =
      if other = linkId then entries record.core else record.atStart other :=
  Function.update_apply _ _ _ _

omit [CoreNode ν] in
theorem arrived_arrive (record : Recorded ν) (linkId : UInt64) (core : ν) (other : UInt64) :
    (record.arrive linkId core).arrived other =
      if other = linkId then record.arrived linkId ∪ (entries core \ entries record.core)
      else record.arrived other :=
  Function.update_apply _ _ _ _

instance : CoreNode (Recorded ν) where
  connect record entropy nowUs :=
    (CoreNode.connect record.core entropy nowUs).map fun (core, result) => ({ record with core }, result)
  accept record entropy remoteAddr nowUs :=
    (CoreNode.accept record.core entropy remoteAddr nowUs).map fun (core, result) =>
      ({ record with core }, result)
  onBytes record linkId bytes nowUs :=
    (CoreNode.onBytes record.core linkId bytes nowUs).map fun (core, io) => (record.arrive linkId core, io)
  onTransportClosed record linkId nowUs :=
    let (core, events) := CoreNode.onTransportClosed record.core linkId nowUs
    ({ record with core }, events)
  tick record nowUs :=
    let (core, events) := CoreNode.tick record.core nowUs
    ({ record with core }, events)
  startSync record linkId window :=
    (CoreNode.startSync record.core linkId window).map fun (core, result) =>
      match result with
      | .error error => ({ record with core }, .error error)
      | .ok start => (record.start linkId core, .ok start)
  createEntry record kind payload nowMs :=
    (CoreNode.createEntry record.core kind payload nowMs).map fun (core, result) =>
      ({ record with core }, result)
  entryCount record := CoreNode.entryCount record.core

omit [CoreNode ν] in
instance : Observed (Recorded ν) where
  entries record := entries record.core
  sessions record := sessions record.core
  rehashed record after := rehashed record.core after.core ∧ after = { record with core := after.core }

section
variable (record : Recorded ν)

theorem connect_eq (entropy : Option (FixedBytes 32)) (nowUs : UInt64) :
    CoreNode.connect record entropy nowUs = (CoreNode.connect record.core entropy nowUs).map
      fun (core, result) => ({ record with core }, result) := rfl

theorem accept_eq (entropy : Option (FixedBytes 32)) (remoteAddr : Address) (nowUs : UInt64) :
    CoreNode.accept record entropy remoteAddr nowUs =
      (CoreNode.accept record.core entropy remoteAddr nowUs).map
        fun (core, result) => ({ record with core }, result) := rfl

theorem onBytes_eq (linkId : UInt64) (bytes : List UInt8) (nowUs : UInt64) :
    CoreNode.onBytes record linkId bytes nowUs = (CoreNode.onBytes record.core linkId bytes nowUs).map
      fun (core, io) => (record.arrive linkId core, io) := rfl

theorem createEntry_eq (kind : UInt64) (payload : Vec UInt8) (nowMs : UInt64) :
    CoreNode.createEntry record kind payload nowMs =
      (CoreNode.createEntry record.core kind payload nowMs).map
        fun (core, result) => ({ record with core }, result) := rfl

theorem startSync_eq (linkId : UInt64) (window : SyncWindow) :
    CoreNode.startSync record linkId window =
      (CoreNode.startSync record.core linkId window).map fun (core, result) =>
        match result with
        | .error error => ({ record with core }, .error error)
        | .ok start => (record.start linkId core, .ok start) := rfl

end

end Recorded

end

/-! ## The invariant -/

section
variable {ν : Type} [Observed ν]

structure Tracked (record : Recorded ν) (links : List UInt64) (scheduler : SyncScheduler)
    (due : List Event) : Prop where
  relayed : ∀ linkId ∈ links, ∀ id ∈ entries record.core,
    id ∈ record.arrived linkId ∨ id ∈ record.atStart linkId ∨ linkId ∈ scheduler.pending ∨
      ∃ source, source ≠ linkId ∧ .entryStored source id ∈ due
  running : Follows due (fun linkId sessionId => scheduler.active.lookup linkId = some sessionId)
    (Running record.core)
  pending : ∀ linkId ∈ scheduler.pending, linkId ∈ links
  active : ∀ linkId sessionId, scheduler.active.lookup linkId = some sessionId → linkId ∈ links

variable {record : Recorded ν} {links : List UInt64} {scheduler : SyncScheduler} {due : List Event}
  {linkId : UInt64}

theorem Tracked.requestAll (tracked : Tracked record links scheduler due) {linkIds : List UInt64}
    (known : ∀ linkId ∈ linkIds, linkId ∈ links) :
    Tracked record links (scheduler.requestAll linkIds) due where
  relayed linkId established id held := by
    rw [mem_pending_requestAll]
    rcases tracked.relayed linkId established id held with arrived | snapshot | pending | reported
    · exact Or.inl arrived
    · exact Or.inr (Or.inl snapshot)
    · exact Or.inr (Or.inr (Or.inl (Or.inr pending)))
    · exact Or.inr (Or.inr (Or.inr reported))
  running := by
    rw [active_requestAll]
    exact tracked.running
  pending linkId := by
    rw [mem_pending_requestAll]
    rintro (mem | mem)
    · exact known linkId mem
    · exact tracked.pending linkId mem
  active linkId sessionId := by
    rw [active_requestAll]
    exact tracked.active linkId sessionId

theorem Follows.tail {event : Event} {before before' after : UInt64 → UInt64 → Prop}
    (follows : Follows (event :: due) before after)
    (kept : ∀ linkId sessionId, before' linkId sessionId ↔
      before linkId sessionId ∧ ¬ Ends linkId sessionId event) : Follows due before' after := by
  intro linkId sessionId
  rw [follows linkId sessionId, kept, List.forall_mem_cons, and_assoc]

theorem Follows.trans {first second : List Event} {before middle after : UInt64 → UInt64 → Prop}
    (earlier : Follows first before middle) (later : Follows second middle after) :
    Follows (first ++ second) before after := by
  intro id sid
  rw [later id sid, earlier id sid, List.forall_mem_append, and_assoc]

theorem Tracked.established {remote : List UInt8}
    (tracked : Tracked record links scheduler (.established linkId remote :: due)) :
    Tracked record (links.insert linkId) (scheduler.request linkId) due where
  relayed other known id held := by
    rw [mem_pending_request]
    rcases List.mem_insert_iff.mp known with rfl | known
    · exact Or.inr (Or.inr (Or.inl (Or.inl rfl)))
    · have before := tracked.relayed other known id held
      simp only [List.mem_cons, reduceCtorEq, false_or] at before
      tauto
  running := by
    rw [active_request]
    exact tracked.running.tail (by simp [Ends])
  pending other := by
    rw [mem_pending_request, List.mem_insert_iff]
    exact Or.imp_right (tracked.pending other)
  active other sessionId running := by
    rw [active_request] at running
    exact List.mem_insert_of_mem (tracked.active other sessionId running)

theorem Tracked.closed {cause : CloseCause}
    (tracked : Tracked record links scheduler (.closed linkId cause :: due)) :
    Tracked record (links.filter (· ≠ linkId)) (scheduler.closed linkId) due where
  relayed other known id held := by
    obtain ⟨known, ne⟩ := List.mem_filter.mp known
    have before := tracked.relayed other known id held
    simp only [List.mem_cons, reduceCtorEq, false_or] at before
    rw [mem_pending_closed]
    rw [decide_eq_true_iff] at ne
    tauto
  running := by
    refine tracked.running.tail fun other sessionId => ?_
    rw [lookup_closed]
    by_cases same : other = linkId
    · simp [same, Ends]
    · simp [same, Ends, Ne.symm same]
  pending other mem := by
    rw [mem_pending_closed] at mem
    exact List.mem_filter.mpr ⟨tracked.pending other mem.1, decide_eq_true mem.2⟩
  active other sessionId running := by
    rw [lookup_closed] at running
    split_ifs at running with same
    exact List.mem_filter.mpr ⟨tracked.active other sessionId running, decide_eq_true same⟩

theorem Tracked.stored {id : List UInt8}
    (tracked : Tracked record links scheduler (.entryStored linkId id :: due)) :
    Tracked record links (scheduler.requestAll (links.filter (· ≠ linkId))) due := by
  have known : ∀ other ∈ links.filter (· ≠ linkId), other ∈ links := fun _ mem => List.mem_of_mem_filter mem
  have requested := tracked.requestAll known
  refine ⟨fun other established held mem => ?_, ?_, requested.pending, requested.active⟩
  · rcases requested.relayed other established held mem with arrived | snapshot | pending | ⟨source, ne, found⟩
    · exact Or.inl arrived
    · exact Or.inr (Or.inl snapshot)
    · exact Or.inr (Or.inr (Or.inl pending))
    · rcases List.mem_cons.mp found with same | found
      · -- the event itself: its entry is asked for on every link but the one it came from
        obtain ⟨rfl, -⟩ := Event.entryStored.inj same
        refine Or.inr (Or.inr (Or.inl ((mem_pending_requestAll _ _ _).mpr (Or.inl ?_))))
        exact List.mem_filter.mpr ⟨established, decide_eq_true ne.symm⟩
      · exact Or.inr (Or.inr (Or.inr ⟨source, ne, found⟩))
  · exact requested.running.tail (by simp [Ends])

theorem Tracked.completed {sessionId : UInt64}
    (tracked : Tracked record links scheduler (.syncSessionClosed linkId sessionId true :: due)) :
    Tracked record links (scheduler.completed linkId sessionId) due where
  relayed other known id held := by
    have before := tracked.relayed other known id held
    simp only [List.mem_cons, reduceCtorEq, false_or] at before
    rwa [pending_completed]
  running := by
    refine tracked.running.tail fun other session => ?_
    rw [lookup_completed]
    split_ifs with ended
    · obtain ⟨rfl, running⟩ := ended
      simp only [running, Ends, reduceCtorEq, false_iff, not_and, not_not, Option.some.injEq]
      rintro rfl
      exact Or.inl rfl
    · refine ⟨fun running => ⟨running, ?_⟩, And.left⟩
      rintro (same | ⟨cause, ⟨⟩⟩)
      obtain ⟨rfl, rfl, -⟩ := Event.syncSessionClosed.inj same
      exact ended ⟨rfl, running⟩
  pending other := by
    rw [pending_completed]
    exact tracked.pending other
  active other session running := by
    rw [lookup_completed] at running
    split_ifs at running
    exact tracked.active other session running

theorem Tracked.skip {event : Event} (tracked : Tracked record links scheduler (event :: due))
    (quiet : ¬ Requests event) (lasting : ∀ linkId sessionId, ¬ Ends linkId sessionId event) :
    Tracked record links scheduler due where
  relayed other known id held := by
    have before := tracked.relayed other known id held
    have ne : ∀ source, ¬ .entryStored source id = event := by
      rintro source rfl
      exact quiet trivial
    simpa only [List.mem_cons, ne, false_or] using before
  running := tracked.running.tail (by simp [lasting])
  pending := tracked.pending
  active := tracked.active

theorem Tracked.start {core : ν} {sessionId : UInt64} {events : List Event}
    (tracked : Tracked record links scheduler due) (known : linkId ∈ links)
    (idle : scheduler.active.lookup linkId = none) (about : ∀ event ∈ due, event.linkId ≠ linkId)
    (same : entries core = entries record.core)
    (follows : Follows events
      (fun link session => Running record.core link session ∨ link = linkId ∧ session = sessionId)
      (Running core)) :
    Tracked (record.start linkId core) links (scheduler.started linkId sessionId) (due ++ events) where
  relayed other established id held := by
    by_cases self : other = linkId
    · subst self
      refine Or.inr (Or.inl ?_)
      rw [Recorded.atStart_start, if_pos rfl, ← same]
      exact held
    · rw [Recorded.atStart_start, if_neg self, mem_pending_started]
      rcases tracked.relayed other established id (same ▸ held) with
        arrived | snapshot | pending | ⟨source, ne, found⟩
      · exact Or.inl arrived
      · exact Or.inr (Or.inl snapshot)
      · exact Or.inr (Or.inr (Or.inl ⟨pending, self⟩))
      · exact Or.inr (Or.inr (Or.inr ⟨source, ne, List.mem_append_left _ found⟩))
  running other session := by
    change Running core other session ↔
      (scheduler.started linkId sessionId).active.lookup other = some session ∧ _
    have before := tracked.running other session
    rw [lookup_started, List.forall_mem_append, follows other session]
    simp only [before]
    by_cases self : other = linkId
    · subst self
      have lasting : ∀ event ∈ due, ¬ Ends other session event :=
        fun event mem ends => about event mem ends.linkId_eq
      simp only [idle, reduceCtorEq, false_and, true_and, false_or, if_true, Option.some.injEq, eq_comm]
      tauto
    · simp only [self, false_and, or_false, if_false, and_assoc]
  pending other mem := by
    rw [mem_pending_started] at mem
    exact tracked.pending other mem.1
  active other session running := by
    rw [lookup_started] at running
    split_ifs at running with self
    · exact self ▸ known
    · exact tracked.active other session running

theorem Tracked.unchanged {core : ν} (tracked : Tracked record links scheduler due)
    (same : entries core = entries record.core) (same' : sessions core = sessions record.core) :
    Tracked { record with core } links scheduler due where
  relayed other established id held := tracked.relayed other established id (same ▸ held)
  running other session := by
    rw [← tracked.running other session, Running, Running, same']
  pending := tracked.pending
  active := tracked.active

theorem Tracked.arrive {core : ν} {events : List Event} (tracked : Tracked record links scheduler [])
    (stored : ∀ id ∈ entries core, id ∈ entries record.core ∨ .entryStored linkId id ∈ events)
    (follows : Follows events (Running record.core) (Running core)) :
    Tracked (record.arrive linkId core) links scheduler events where
  relayed other established id held := by
    rw [Recorded.arrived_arrive]
    by_cases old : id ∈ entries record.core
    · have before := tracked.relayed other established id old
      simp only [List.not_mem_nil, and_false, exists_false, or_false] at before
      rcases before with arrived | seen
      · refine Or.inl ?_
        split_ifs with self
        · exact Finset.mem_union_left _ (self ▸ arrived)
        · exact arrived
      · exact Or.inr (seen.imp_right Or.inl)
    by_cases self : other = linkId
    · rw [if_pos self]
      exact Or.inl (Finset.mem_union_right _ (Finset.mem_sdiff.mpr ⟨held, old⟩))
    · have reported := (stored id held).resolve_left old
      exact Or.inr (Or.inr (Or.inr ⟨linkId, Ne.symm self, reported⟩))
  running := tracked.running.trans follows
  pending := tracked.pending
  active := tracked.active

theorem Tracked.follow {core : ν} {events : List Event} (tracked : Tracked record links scheduler [])
    (same : entries core = entries record.core)
    (follows : Follows events (Running record.core) (Running core)) :
    Tracked { record with core } links scheduler events where
  relayed other established id held := by
    have before := tracked.relayed other established id (same ▸ held)
    simp only [List.not_mem_nil, and_false, exists_false, or_false] at before
    exact before.imp_right (Or.imp_right Or.inl)
  running := tracked.running.trans follows
  pending := tracked.pending
  active := tracked.active

theorem Tracked.create {core : ν} (tracked : Tracked record links scheduler [])
    (same : sessions core = sessions record.core) :
    Tracked { record with core } links (scheduler.requestAll links) [] := by
  have requested := tracked.requestAll fun _ => id
  refine ⟨fun other established id held => ?_, fun other session => ?_, requested.pending, requested.active⟩
  · exact Or.inr (Or.inr (Or.inl ((mem_pending_requestAll _ _ _).mpr (Or.inl established))))
  · rw [← requested.running other session, Running, Running, same]

end

end Racnet.Proof.Scheduler
