import Mathlib.Logic.Relation
import Racnet.Proof.Scheduler.Tracking

/-!
# A runtime over another core

A runtime uses its core only through the calls. So a runtime over a core with a history does just what a
runtime over the core does.
-/

namespace Racnet.Proof.Scheduler
open Lib Api Link Android

inductive Call where
  | connect (entropy : Option (FixedBytes 32)) (nowUs : UInt64)
  | accept (entropy : Option (FixedBytes 32)) (remoteAddr : Address) (nowUs : UInt64)
  | onBytes (linkId : UInt64) (bytes : List UInt8) (nowUs : UInt64)
  | onTransportClosed (linkId nowUs : UInt64)
  | tick (nowUs : UInt64)
  | createEntry (kind : UInt64) (payload : Vec UInt8) (nowMs : UInt64)
  | clearReceiveFailure

def perform {ν : Type} [CoreNode ν] (runtime : NodeRuntime ν) : Call → Option (NodeRuntime ν)
  | .connect entropy nowUs => (runtime.connect entropy nowUs).map Prod.fst
  | .accept entropy remoteAddr nowUs => (runtime.accept entropy remoteAddr nowUs).map Prod.fst
  | .onBytes linkId bytes nowUs => runtime.onBytes linkId bytes nowUs
  | .onTransportClosed linkId nowUs => runtime.onTransportClosed linkId nowUs
  | .tick nowUs => runtime.tick nowUs
  | .createEntry kind payload nowMs => (runtime.createEntry kind payload nowMs).map Prod.fst
  | .clearReceiveFailure => some runtime.clearReceiveFailure

section
variable {ν : Type} [CoreNode ν]

/-- What a call makes of the core, before sessions are started. -/
def coreCall (node : ν) : Call → Option ν
  | .connect entropy nowUs => (CoreNode.connect node entropy nowUs).map Prod.fst
  | .accept entropy remoteAddr nowUs => (CoreNode.accept node entropy remoteAddr nowUs).map Prod.fst
  | .onBytes linkId bytes nowUs => (CoreNode.onBytes node linkId bytes nowUs).map Prod.fst
  | .onTransportClosed linkId nowUs => some (CoreNode.onTransportClosed node linkId nowUs).1
  | .tick nowUs => some (CoreNode.tick node nowUs).1
  | .createEntry kind payload nowMs => (CoreNode.createEntry node kind payload nowMs).map Prod.fst
  | .clearReceiveFailure => some node

/-- A session is started on a link, or refused. -/
def Starts (node after : ν) : Prop :=
  ∃ linkId result, CoreNode.startSync node linkId NodeRuntime.wholeWindow = some (after, result)

/-- Sessions are started, until starting one panics. -/
def StartPanics (node : ν) : Prop :=
  ∃ last linkId, Relation.ReflTransGen Starts node last ∧
    CoreNode.startSync last linkId NodeRuntime.wholeWindow = none

/-- The core panics at a call, or at a session that is started after it. -/
def Panics (node : ν) (call : Call) : Prop :=
  coreCall node call = none ∨ ∃ after, coreCall node call = some after ∧ StartPanics after

end

/-- The runtimes that calls lead to. A hash table may be in another order at any time. -/
inductive Reaches {ν : Type} [CoreNode ν] [Observed ν] (start : NodeRuntime ν) : NodeRuntime ν → Prop where
  | start : Reaches start start
  | call {middle after : NodeRuntime ν} (call : Call) (reached : Reaches start middle)
      (ran : perform middle call = some after) : Reaches start after
  | shuffled {middle : NodeRuntime ν} (links : List UInt64) (reached : Reaches start middle)
      (order : links.Perm middle.establishedLinks) :
      Reaches start { middle with establishedLinks := links }
  | rehashed {middle : NodeRuntime ν} (node : ν) (reached : Reaches start middle)
      (order : Observed.rehashed middle.node node) : Reaches start { middle with node }

section
variable {μ ν : Type} [CoreNode μ] [CoreNode ν]

/-- A map of cores that commutes with the calls. -/
structure Commutes (f : μ → ν) : Prop where
  connect : ∀ node entropy nowUs, CoreNode.connect (f node) entropy nowUs =
    (CoreNode.connect node entropy nowUs).map (Prod.map f id)
  accept : ∀ node entropy remoteAddr nowUs, CoreNode.accept (f node) entropy remoteAddr nowUs =
    (CoreNode.accept node entropy remoteAddr nowUs).map (Prod.map f id)
  onBytes : ∀ node linkId bytes nowUs, CoreNode.onBytes (f node) linkId bytes nowUs =
    (CoreNode.onBytes node linkId bytes nowUs).map (Prod.map f id)
  onTransportClosed : ∀ node linkId nowUs, CoreNode.onTransportClosed (f node) linkId nowUs =
    Prod.map f id (CoreNode.onTransportClosed node linkId nowUs)
  tick : ∀ node nowUs, CoreNode.tick (f node) nowUs = Prod.map f id (CoreNode.tick node nowUs)
  startSync : ∀ node linkId window, CoreNode.startSync (f node) linkId window =
    (CoreNode.startSync node linkId window).map (Prod.map f id)
  createEntry : ∀ node kind payload nowMs, CoreNode.createEntry (f node) kind payload nowMs =
    (CoreNode.createEntry node kind payload nowMs).map (Prod.map f id)
  entryCount : ∀ node, CoreNode.entryCount (f node) = CoreNode.entryCount node

def mapCore (f : μ → ν) (runtime : NodeRuntime μ) : NodeRuntime ν :=
  { runtime with node := f runtime.node }

def mapDraining (f : μ → ν) (state : NodeRuntime.Draining μ) : NodeRuntime.Draining ν :=
  { state with runtime := mapCore f state.runtime }

variable {f : μ → ν} {runtime : NodeRuntime μ}

omit [CoreNode μ] [CoreNode ν] in
theorem mapCore_ask (linkId : UInt64) (call : TransportCall) :
    mapCore f (runtime.ask linkId call) = (mapCore f runtime).ask linkId call := by
  rw [NodeRuntime.ask, NodeRuntime.ask]
  by_cases known : linkId ∈ runtime.transports
  · rw [if_pos known, if_pos (show linkId ∈ (mapCore f runtime).transports from known)]
    rfl
  · rw [if_neg known, if_neg (show linkId ∉ (mapCore f runtime).transports from known)]

theorem mapCore_dispatchEvent (commutes : Commutes f) (finals : List UInt64) (event : Event) :
    mapCore f (NodeRuntime.dispatchEvent finals runtime event) =
      NodeRuntime.dispatchEvent finals (mapCore f runtime) event := by
  cases event with
  | established linkId _ | closed linkId _ =>
    by_cases known : linkId ∈ runtime.transports <;>
      simp only [NodeRuntime.dispatchEvent, NodeRuntime.ask, mapCore, known, if_true, if_false]
  | entryStored linkId id =>
    simp only [NodeRuntime.dispatchEvent, NodeRuntime.requestAll, mapCore, commutes.entryCount]
  | syncSessionClosed linkId sessionId openedByUs => cases openedByUs <;> rfl
  | duplicateIgnored | reconciled => rfl

theorem mapCore_dispatched (commutes : Commutes f) (finals : List UInt64) (events : List Event) :
    mapCore f (events.foldl (NodeRuntime.dispatchEvent finals) runtime) =
      events.foldl (NodeRuntime.dispatchEvent finals) (mapCore f runtime) := by
  induction events generalizing runtime with
  | nil => rfl
  | cons event events ih => rw [List.foldl_cons, List.foldl_cons, ih, mapCore_dispatchEvent commutes]

theorem mapCore_startSync (commutes : Commutes f) (linkId : UInt64) (state : NodeRuntime.Draining μ) :
    NodeRuntime.startSync linkId (mapDraining f state) =
      (NodeRuntime.startSync linkId state).map (Prod.map id (mapDraining f)) := by
  rw [NodeRuntime.startSync, NodeRuntime.startSync,
    show (mapDraining f state).runtime.node = f state.runtime.node from rfl, commutes.startSync]
  rcases CoreNode.startSync state.runtime.node linkId NodeRuntime.wholeWindow with
    _ | ⟨node, error | start⟩
  · rfl
  · rfl
  · simp only [Option.map_some, Prod.map, id, mapDraining, mapCore_ask]
    rfl

theorem drainLoop_map {σ τ : Type} {start : UInt64 → σ → Option (Option UInt64 × σ)}
    {start' : UInt64 → τ → Option (Option UInt64 × τ)} {g : σ → τ}
    (same : ∀ linkId state, start' linkId (g state) = (start linkId state).map (Prod.map id g))
    (linkIds : List UInt64) (scheduler : SyncScheduler) (state : σ) :
    SyncScheduler.drainLoop start' linkIds scheduler (g state) =
      (SyncScheduler.drainLoop start linkIds scheduler state).map (Prod.map id g) := by
  induction linkIds generalizing scheduler state with
  | nil => rfl
  | cons linkId linkIds ih =>
    rw [SyncScheduler.drainLoop, SyncScheduler.drainLoop]
    by_cases running : linkId ∈ scheduler.active
    · rw [if_pos running, if_pos running, ih]
    · rw [if_neg running, if_neg running, same]
      rcases start linkId state with _ | ⟨_ | sessionId, state'⟩
      · rfl
      · exact ih _ _
      · exact ih _ _

theorem mapCore_drainLoop (commutes : Commutes f) (fuel : Nat) :
    NodeRuntime.drainLoop fuel (mapCore f runtime) = (NodeRuntime.drainLoop fuel runtime).map (mapCore f) := by
  induction fuel generalizing runtime with
  | zero => rfl
  | succ fuel ih =>
    have drained := drainLoop_map (mapCore_startSync commutes) runtime.syncScheduler.pending
      runtime.syncScheduler ⟨runtime, [], []⟩
    rw [NodeRuntime.drainLoop, NodeRuntime.drainLoop, SyncScheduler.drain, SyncScheduler.drain,
      show (mapCore f runtime).syncScheduler = runtime.syncScheduler from rfl,
      show (⟨mapCore f runtime, [], []⟩ : NodeRuntime.Draining ν) = mapDraining f ⟨runtime, [], []⟩ from rfl,
      drained]
    rcases SyncScheduler.drainLoop NodeRuntime.startSync runtime.syncScheduler.pending
      runtime.syncScheduler ⟨runtime, [], []⟩ with _ | ⟨scheduler, state⟩
    · rfl
    by_cases quiet : state.events = []
    · simp only [Option.map_some, Prod.map, id, mapDraining, quiet, if_true]
      rfl
    · simp only [Option.map_some, Prod.map, id, mapDraining, quiet, if_false, ← ih,
        mapCore_dispatched commutes]
      rfl

theorem mapCore_drainSyncsLocked (commutes : Commutes f) (runtime : NodeRuntime μ) :
    (mapCore f runtime).drainSyncsLocked = runtime.drainSyncsLocked.map (mapCore f) :=
  mapCore_drainLoop commutes _

theorem mapCore_dispatchEvents (commutes : Commutes f) (events : List Event) (finals : List UInt64) :
    (mapCore f runtime).dispatchEvents events finals = (runtime.dispatchEvents events finals).map (mapCore f) := by
  rw [NodeRuntime.dispatchEvents, NodeRuntime.dispatchEvents, ← mapCore_dispatched commutes,
    mapCore_drainSyncsLocked commutes]

theorem mapCore_onBytes (commutes : Commutes f) (linkId : UInt64) (bytes : List UInt8) (nowUs : UInt64) :
    (mapCore f runtime).onBytes linkId bytes nowUs = (runtime.onBytes linkId bytes nowUs).map (mapCore f) := by
  rw [NodeRuntime.onBytes, NodeRuntime.onBytes, show (mapCore f runtime).node = f runtime.node from rfl,
    commutes.onBytes]
  rcases CoreNode.onBytes runtime.node linkId bytes nowUs with _ | ⟨node, io⟩
  · rfl
  have dispatch : ∀ runtime : NodeRuntime μ,
      (mapCore f runtime).dispatch linkId io = (runtime.dispatch linkId io).map (mapCore f) := by
    intro runtime
    rw [NodeRuntime.dispatch, NodeRuntime.dispatch]
    split_ifs
    · exact mapCore_dispatchEvents commutes _ _
    · rw [← mapCore_ask, mapCore_dispatchEvents commutes]
  simp only [Option.map_some, Prod.map, id, commutes.entryCount, ← dispatch]
  by_cases same : CoreNode.entryCount node = runtime.entryCount
  · simp only [mapCore, same, ne_eq, not_true_eq_false, if_false]
  · simp only [mapCore, same, ne_eq, not_false_eq_true, if_true, NodeRuntime.requestAll]

theorem mapCore_perform (commutes : Commutes f) (call : Call) :
    perform (mapCore f runtime) call = (perform runtime call).map (mapCore f) := by
  have node : (mapCore f runtime).node = f runtime.node := rfl
  cases call with
  | connect entropy nowUs =>
    rw [perform, perform, NodeRuntime.connect, NodeRuntime.connect, node, commutes.connect]
    rcases CoreNode.connect runtime.node entropy nowUs with _ | ⟨node, error | link⟩
    · rfl
    · rfl
    · simp only [Option.map_some, Prod.map, id, mapCore_ask]
      rfl
  | accept entropy remoteAddr nowUs =>
    rw [perform, perform, NodeRuntime.accept, NodeRuntime.accept, node, commutes.accept]
    rcases CoreNode.accept runtime.node entropy remoteAddr nowUs with _ | ⟨node, error | _ | link⟩ <;> rfl
  | onBytes linkId bytes nowUs => exact mapCore_onBytes commutes linkId bytes nowUs
  | onTransportClosed linkId nowUs =>
    rw [perform, perform, NodeRuntime.onTransportClosed, NodeRuntime.onTransportClosed, node,
      commutes.onTransportClosed]
    rcases CoreNode.onTransportClosed runtime.node linkId nowUs with ⟨node, events⟩
    exact @mapCore_dispatchEvents _ _ _ _ f { runtime with node } commutes events []
  | tick nowUs =>
    rw [perform, perform, NodeRuntime.tick, NodeRuntime.tick, node, commutes.tick]
    rcases CoreNode.tick runtime.node nowUs with ⟨node, events⟩
    exact @mapCore_dispatchEvents _ _ _ _ f { runtime with node } commutes events []
  | createEntry kind payload nowMs =>
    rw [perform, perform, NodeRuntime.createEntry, NodeRuntime.createEntry, node, commutes.createEntry]
    rcases CoreNode.createEntry runtime.node kind payload nowMs with _ | ⟨node, error | view⟩
    · rfl
    · rfl
    · simp only [Option.map_some, Prod.map, id, commutes.entryCount, Option.map_map, Function.comp_def,
        Option.map_id']
      exact mapCore_drainSyncsLocked commutes
        ({ runtime with node, entryCount := CoreNode.entryCount node }.requestAll runtime.establishedLinks)
  | clearReceiveFailure => rfl

theorem mapCore_reaches [Observed μ] [Observed ν] (commutes : Commutes f)
    (lifts : ∀ node after, Observed.rehashed (f node) after → ∃ node', Observed.rehashed node node' ∧ f node' = after)
    {start : NodeRuntime μ} {last : NodeRuntime ν} (reached : Reaches (mapCore f start) last) : ∃ runtime, Reaches start runtime ∧ mapCore f runtime = last := by
  induction reached with
  | start => exact ⟨start, .start, rfl⟩
  | call call reached ran ih =>
    obtain ⟨middle, reached', rfl⟩ := ih
    rw [mapCore_perform commutes] at ran
    obtain ⟨after, ran', rfl⟩ := Option.map_eq_some_iff.mp ran
    exact ⟨after, .call call reached' ran', rfl⟩
  | shuffled links reached order ih =>
    obtain ⟨middle, reached', rfl⟩ := ih
    exact ⟨_, .shuffled links reached' order, rfl⟩
  | rehashed node reached order ih =>
    obtain ⟨middle, reached', rfl⟩ := ih
    obtain ⟨node', order', rfl⟩ := lifts middle.node node order
    exact ⟨_, .rehashed node' reached' order', rfl⟩

end

theorem commutes_core {ν : Type} [CoreNode ν] [Observed ν] :
    Commutes (Recorded.core : Recorded ν → ν) where
  connect node entropy nowUs := by
    rw [Recorded.connect_eq]
    cases CoreNode.connect node.core entropy nowUs <;> rfl
  accept node entropy remoteAddr nowUs := by
    rw [Recorded.accept_eq]
    cases CoreNode.accept node.core entropy remoteAddr nowUs <;> rfl
  onBytes node linkId bytes nowUs := by
    rw [Recorded.onBytes_eq]
    cases CoreNode.onBytes node.core linkId bytes nowUs <;> rfl
  onTransportClosed node linkId nowUs := rfl
  tick node nowUs := rfl
  startSync node linkId window := by
    rw [Recorded.startSync_eq]
    rcases CoreNode.startSync node.core linkId window with _ | ⟨core, error | start⟩ <;> rfl
  createEntry node kind payload nowMs := by
    rw [Recorded.createEntry_eq]
    cases CoreNode.createEntry node.core kind payload nowMs <;> rfl
  entryCount node := rfl

theorem reaches_recorded {ν : Type} [CoreNode ν] [Observed ν] {core : ν} {last : NodeRuntime ν}
    (reached : Reaches (.new core) last) : ∃ recorded : NodeRuntime (Recorded ν),
      Reaches (.new (.new core)) recorded ∧ mapCore Recorded.core recorded = last := by
  refine mapCore_reaches commutes_core (fun node after order => ?_)
    (show Reaches (mapCore Recorded.core (.new (.new core))) last from reached)
  exact ⟨{ node with core := after }, ⟨order, rfl⟩, rfl⟩

end Racnet.Proof.Scheduler
