import Mathlib.Data.Finset.Card
import Racnet.Proof.Scheduler.Erasure

/-!
# Every change is relayed
-/

namespace Racnet.Proof.Scheduler
open Lib Api Link Android Observed

section
variable {ν : Type} (runtime : NodeRuntime ν) (linkId : UInt64) (call : TransportCall)

@[simp] theorem node_ask : (runtime.ask linkId call).node = runtime.node := by
  rw [NodeRuntime.ask]
  split_ifs <;> rfl

@[simp] theorem establishedLinks_ask :
    (runtime.ask linkId call).establishedLinks = runtime.establishedLinks := by
  rw [NodeRuntime.ask]
  split_ifs <;> rfl

@[simp] theorem syncScheduler_ask : (runtime.ask linkId call).syncScheduler = runtime.syncScheduler := by
  rw [NodeRuntime.ask]
  split_ifs <;> rfl

end

theorem node_dispatchEvent {ν : Type} [CoreNode ν] {runtime : NodeRuntime ν} {finals : List UInt64}
    (event : Event) : (NodeRuntime.dispatchEvent finals runtime event).node = runtime.node := by
  cases event with
  | established | closed => simp only [NodeRuntime.dispatchEvent, node_ask]
  | syncSessionClosed linkId sessionId openedByUs => cases openedByUs <;> rfl
  | entryStored | duplicateIgnored | reconciled => rfl

theorem node_dispatched {ν : Type} [CoreNode ν] {runtime : NodeRuntime ν} {finals : List UInt64}
    (events : List Event) : (events.foldl (NodeRuntime.dispatchEvent finals) runtime).node = runtime.node := by
  induction events generalizing runtime with
  | nil => rfl
  | cons event events ih => exact ih.trans (node_dispatchEvent event)

theorem mem_active_started {scheduler : SyncScheduler} {linkId sessionId other : UInt64} :
    other ∈ (scheduler.started linkId sessionId).active ↔ other = linkId ∨ other ∈ scheduler.active :=
  AList.mem_insert _

theorem length_pending_started {scheduler : SyncScheduler} {linkId sessionId : UInt64}
    (pending : linkId ∈ scheduler.pending) :
    (scheduler.started linkId sessionId).pending.length < scheduler.pending.length :=
  List.length_filter_lt_length_iff_exists.mpr ⟨linkId, pending, by simp⟩

section
variable {ν : Type} [CoreNode ν] [Observed ν]

def Tracks (runtime : NodeRuntime (Recorded ν)) (due : List Event) : Prop :=
  Tracked runtime.node runtime.establishedLinks runtime.syncScheduler due

variable {runtime after : NodeRuntime (Recorded ν)} {due events : List Event} {finals : List UInt64}

/-! ## Dispatching -/

theorem Tracks.dispatchEvent {event : Event} (tracks : Tracks runtime (event :: due)) :
    Tracks (NodeRuntime.dispatchEvent finals runtime event) due := by
  cases event with
  | established linkId remote =>
    have next := Tracked.established tracks
    simpa only [Tracks, NodeRuntime.dispatchEvent, node_ask, establishedLinks_ask, syncScheduler_ask]
      using next
  | closed linkId cause =>
    have next := Tracked.closed tracks
    simpa only [Tracks, NodeRuntime.dispatchEvent, node_ask, establishedLinks_ask, syncScheduler_ask]
      using next
  | entryStored linkId id => exact Tracked.stored tracks
  | syncSessionClosed linkId sessionId openedByUs =>
    cases openedByUs with
    | true => exact Tracked.completed tracks
    | false => exact Tracked.skip tracks (by simp [Requests]) (by simp [Ends])
  | duplicateIgnored | reconciled => exact Tracked.skip tracks (by simp [Requests]) (by simp [Ends])

theorem Tracks.dispatched (tracks : Tracks runtime events) :
    Tracks (events.foldl (NodeRuntime.dispatchEvent finals) runtime) [] := by
  induction events generalizing runtime with
  | nil => exact tracks
  | cons event events ih => exact ih tracks.dispatchEvent

theorem pending_dispatched (quiet : ∀ event ∈ events, ¬ Requests event) :
    (events.foldl (NodeRuntime.dispatchEvent finals) runtime).syncScheduler.pending.length ≤
      runtime.syncScheduler.pending.length := by
  induction events generalizing runtime with
  | nil => exact le_rfl
  | cons event events ih =>
    obtain ⟨now, later⟩ := List.forall_mem_cons.mp quiet
    refine (ih later).trans ?_
    cases event with
    | established | entryStored => exact absurd trivial now
    | closed linkId cause =>
      simp only [NodeRuntime.dispatchEvent, syncScheduler_ask]
      exact List.length_filter_le _ _
    | syncSessionClosed linkId sessionId openedByUs =>
      rw [NodeRuntime.dispatchEvent]
      split_ifs
      · exact (congrArg List.length (pending_completed _ _ _)).le
      · exact le_rfl
    | duplicateIgnored | reconciled => exact le_rfl

/-! ## Draining -/

/-- In the middle of a drain. The events are those of the sessions that were started in it, each on a link
that was pending before. -/
structure Midway (links : List UInt64) (bound : Nat) (linkIds : List UInt64) (scheduler : SyncScheduler)
    (state : NodeRuntime.Draining (Recorded ν)) : Prop where
  tracked : Tracked state.runtime.node links scheduler state.events
  kept : state.runtime.establishedLinks = links
  known : ∀ linkId ∈ linkIds, linkId ∈ links
  about : ∀ event ∈ state.events, event.linkId ∈ scheduler.active ∧ ¬ Requests event
  left : ∀ linkId ∈ linkIds, linkId ∈ scheduler.pending ∨ linkId ∈ scheduler.active
  shrunk : scheduler.pending.length ≤ bound ∧ (state.events ≠ [] → scheduler.pending.length < bound)

variable {linkId sessionId : UInt64} {linkIds links : List UInt64} {bound : Nat}
  {scheduler scheduler' : SyncScheduler} {state state' : NodeRuntime.Draining (Recorded ν)}

theorem startSync_refused (ran : NodeRuntime.startSync linkId state = some (none, state')) :
    ∃ core error, CoreNode.startSync state.runtime.node.core linkId NodeRuntime.wholeWindow =
        some (core, .error error) ∧
      state' = { state with runtime := { state.runtime with node := { state.runtime.node with core } } } := by
  rw [NodeRuntime.startSync, Recorded.startSync_eq] at ran
  rcases begun : CoreNode.startSync state.runtime.node.core linkId NodeRuntime.wholeWindow with
    _ | ⟨core, error | start⟩
  · rw [begun] at ran
    cases ran
  · rw [begun] at ran
    cases ran
    exact ⟨core, error, rfl, rfl⟩
  · rw [begun] at ran
    cases ran

theorem startSync_started (ran : NodeRuntime.startSync linkId state = some (some sessionId, state')) :
    ∃ core start, CoreNode.startSync state.runtime.node.core linkId NodeRuntime.wholeWindow =
        some (core, .ok start) ∧ start.sessionId = sessionId ∧
      state'.runtime.node = state.runtime.node.start linkId core ∧
      state'.runtime.establishedLinks = state.runtime.establishedLinks ∧
      state'.events = state.events ++ start.io.events := by
  rw [NodeRuntime.startSync, Recorded.startSync_eq] at ran
  rcases begun : CoreNode.startSync state.runtime.node.core linkId NodeRuntime.wholeWindow with
    _ | ⟨core, error | start⟩
  · rw [begun] at ran
    cases ran
  · rw [begun] at ran
    cases ran
  · rw [begun] at ran
    cases ran
    exact ⟨core, start, rfl, rfl, node_ask _ _ _, establishedLinks_ask _ _ _, rfl⟩

theorem Midway.drained (stream : EventStream ν)
    (ran : SyncScheduler.drainLoop NodeRuntime.startSync linkIds scheduler state = some (scheduler', state'))
    (midway : Midway links bound linkIds scheduler state) :
    Midway links bound [] scheduler' state' := by
  refine drainLoop_rule ?_ ?_ ?_ ran midway
  · intro linkId linkIds scheduler state midway running
    exact { midway with
      known := (List.forall_mem_cons.mp midway.known).2
      left := (List.forall_mem_cons.mp midway.left).2 }
  · intro linkId linkIds scheduler state state' midway idle refused
    obtain ⟨core, error, begun, rfl⟩ := startSync_refused refused
    obtain ⟨same, same'⟩ := stream.refused begun
    exact { midway with
      tracked := midway.tracked.unchanged same same'
      known := (List.forall_mem_cons.mp midway.known).2
      left := (List.forall_mem_cons.mp midway.left).2 }
  · intro linkId linkIds scheduler state sessionId state' midway idle started
    obtain ⟨core, start, begun, rfl, node, kept, events⟩ := startSync_started started
    obtain ⟨same, about, follows⟩ := stream.started begun
    obtain ⟨known, known'⟩ := List.forall_mem_cons.mp midway.known
    obtain ⟨here, left⟩ := List.forall_mem_cons.mp midway.left
    have pending := here.resolve_right idle
    have fewer : (scheduler.started linkId start.sessionId).pending.length < scheduler.pending.length :=
      length_pending_started pending
    refine ⟨?_, kept.trans midway.kept, known', ?_, fun other mem => ?_, ?_, fun _ => ?_⟩
    · rw [node, events]
      refine midway.tracked.start known (AList.lookup_eq_none.mpr idle) (fun event mem same => ?_) same
        follows
      exact idle (same ▸ (midway.about event mem).1)
    · rw [events, List.forall_mem_append]
      refine ⟨fun event mem => ?_, fun event mem => ?_⟩
      · exact ⟨mem_active_started.mpr (Or.inr (midway.about event mem).1), (midway.about event mem).2⟩
      · exact ⟨mem_active_started.mpr (Or.inl (about event mem).1), (about event mem).2⟩
    · by_cases self : other = linkId
      · exact Or.inr (mem_active_started.mpr (Or.inl self))
      · exact (left other mem).imp (fun pending => (mem_pending_started _ _ _ _).mpr ⟨pending, self⟩)
          fun running => mem_active_started.mpr (Or.inr running)
    · exact fewer.le.trans midway.shrunk.1
    · exact fewer.trans_le midway.shrunk.1

omit [CoreNode ν] in
theorem Tracks.midway (tracks : Tracks runtime []) :
    Midway runtime.establishedLinks runtime.syncScheduler.pending.length runtime.syncScheduler.pending
      runtime.syncScheduler ⟨runtime, [], []⟩ where
  tracked := tracks
  kept := rfl
  known := tracks.pending
  about := by simp
  left _ := Or.inl
  shrunk := ⟨le_rfl, absurd rfl⟩

theorem Midway.dispatched (midway : Midway links bound [] scheduler state) :
    Tracks (state.events.foldl (NodeRuntime.dispatchEvent state.finalFrameLinks)
      { state.runtime with syncScheduler := scheduler }) [] ∧
    (state.events ≠ [] → (state.events.foldl (NodeRuntime.dispatchEvent state.finalFrameLinks)
      { state.runtime with syncScheduler := scheduler }).syncScheduler.pending.length < bound) := by
  have tracks : Tracks { state.runtime with syncScheduler := scheduler } state.events := by
    rw [Tracks, midway.kept]
    exact midway.tracked
  refine ⟨tracks.dispatched, fun reported => ?_⟩
  exact (pending_dispatched fun event mem => (midway.about event mem).2).trans_lt (midway.shrunk.2 reported)

theorem Tracks.drainLoop (stream : EventStream ν) {fuel : Nat} (tracks : Tracks runtime [])
    (ran : NodeRuntime.drainLoop fuel runtime = some after) : Tracks after [] := by
  induction fuel generalizing runtime with
  | zero => cases ran
  | succ fuel ih =>
    rw [NodeRuntime.drainLoop] at ran
    rcases drained : runtime.syncScheduler.drain NodeRuntime.startSync ⟨runtime, [], []⟩ with
      _ | ⟨scheduler, state⟩
    · rw [drained] at ran
      cases ran
    rw [drained] at ran
    have midway := tracks.midway.drained stream drained
    dsimp only at ran
    split_ifs at ran with quiet
    · cases ran
      have dispatched := midway.dispatched.1
      rwa [quiet] at dispatched
    · exact ih midway.dispatched.1 ran

theorem drain_panics {σ : Type} {start : UInt64 → σ → Option (Option UInt64 × σ)} {P : σ → Prop}
    (kept : ∀ {linkId state session state'}, P state → start linkId state = some (session, state') → P state')
    {state : σ} (stuck : SyncScheduler.drainLoop start linkIds scheduler state = none) (before : P state) :
    ∃ linkId state, P state ∧ start linkId state = none := by
  induction linkIds generalizing scheduler state with
  | nil => cases stuck
  | cons linkId linkIds ih =>
    rw [SyncScheduler.drainLoop] at stuck
    split_ifs at stuck
    · exact ih stuck before
    rcases begun : start linkId state with _ | ⟨_ | sessionId, state'⟩
    · exact ⟨linkId, state, before, begun⟩
    all_goals
      rw [begun] at stuck
      exact ih stuck (kept before begun)

def StartedFrom (first : ν) (state : NodeRuntime.Draining (Recorded ν)) : Prop :=
  Relation.ReflTransGen Starts first state.runtime.node.core

theorem StartedFrom.startSync {first : ν} {session : Option UInt64} (begun : StartedFrom first state)
    (ran : NodeRuntime.startSync linkId state = some (session, state')) : StartedFrom first state' := by
  cases session with
  | none =>
    obtain ⟨core, error, started, rfl⟩ := startSync_refused ran
    exact begun.tail ⟨linkId, _, started⟩
  | some sessionId =>
    obtain ⟨core, start, started, -, node, -⟩ := startSync_started ran
    rw [StartedFrom, node]
    exact begun.tail ⟨linkId, _, started⟩

theorem startSync_panics (stuck : NodeRuntime.startSync linkId state = none) :
    CoreNode.startSync state.runtime.node.core linkId NodeRuntime.wholeWindow = none := by
  rw [NodeRuntime.startSync, Recorded.startSync_eq] at stuck
  rcases begun : CoreNode.startSync state.runtime.node.core linkId NodeRuntime.wholeWindow with
    _ | ⟨core, error | start⟩
  · rfl
  all_goals
    rw [begun] at stuck
    cases stuck

/-- The fuel of a drain suffices: one that does not return has met a panic of the core. -/
theorem Tracks.drain_returns (stream : EventStream ν) {fuel : Nat} (tracks : Tracks runtime [])
    (enough : runtime.syncScheduler.pending.length < fuel)
    (stuck : NodeRuntime.drainLoop fuel runtime = none) : StartPanics runtime.node.core := by
  suffices ∀ first, StartedFrom first ⟨runtime, [], []⟩ → StartPanics first from this _ .refl
  intro first begun
  induction fuel generalizing runtime with
  | zero => exact absurd enough (Nat.not_lt_zero _)
  | succ fuel ih =>
    rw [NodeRuntime.drainLoop] at stuck
    rcases drained : runtime.syncScheduler.drain NodeRuntime.startSync ⟨runtime, [], []⟩ with
      _ | ⟨scheduler, state⟩
    · obtain ⟨linkId, state, begun, panics⟩ := drain_panics StartedFrom.startSync drained begun
      exact ⟨_, linkId, begun, startSync_panics panics⟩
    · rw [drained] at stuck
      have midway := tracks.midway.drained stream drained
      have begun' : StartedFrom first state :=
        drainLoop_rule (P := fun _ _ state => StartedFrom first state) (fun begun _ => begun)
          (fun begun _ => begun.startSync) (fun begun _ => begun.startSync) drained begun
      dsimp only at stuck
      split_ifs at stuck with quiet
      refine ih midway.dispatched.1 ?_ stuck ?_
      · have fewer := midway.dispatched.2 quiet
        omega
      · rwa [StartedFrom, node_dispatched]

/-! ## Calls -/

theorem Tracks.dispatch_returns (stream : EventStream ν) (tracks : Tracks runtime events)
    (stuck : runtime.dispatchEvents events finals = none) : StartPanics runtime.node.core := by
  have panics := tracks.dispatched.drain_returns stream (Nat.lt_succ_self _) stuck
  rwa [node_dispatched] at panics

/-- What a call comes to: a panic of the core, a result, or events that are dispatched. -/
inductive Answers (runtime : NodeRuntime (Recorded ν)) (call : Call) : Option (NodeRuntime (Recorded ν)) → Prop where
  | panicked (stuck : coreCall runtime.node.core call = none) : Answers runtime call none
  | returned {after : NodeRuntime (Recorded ν)} (tracks : Tracks after []) : Answers runtime call (some after)
  | dispatched {middle : NodeRuntime (Recorded ν)} {events : List Event} (finals : List UInt64)
      (called : coreCall runtime.node.core call = some middle.node.core) (tracks : Tracks middle events) :
      Answers runtime call (middle.dispatchEvents events finals)

theorem Tracks.onBytes (stream : EventStream ν) (tracks : Tracks runtime []) (linkId : UInt64)
    (bytes : List UInt8) (nowUs : UInt64) :
    Answers runtime (.onBytes linkId bytes nowUs) (runtime.onBytes linkId bytes nowUs) := by
  rw [NodeRuntime.onBytes, Recorded.onBytes_eq]
  rcases read : CoreNode.onBytes runtime.node.core linkId bytes nowUs with _ | ⟨core, io⟩
  · exact .panicked (by rw [coreCall, read, Option.map_none])
  have called : coreCall runtime.node.core (.onBytes linkId bytes nowUs) = some core := by
    rw [coreCall, read, Option.map_some]
  obtain ⟨stored, follows⟩ := stream.onBytes read
  have arrived := Tracked.arrive tracks stored follows
  have others : ∀ other ∈ runtime.establishedLinks.filter (· ≠ linkId), other ∈ runtime.establishedLinks :=
    fun _ mem => List.mem_of_mem_filter mem
  have dispatch : ∀ {middle : NodeRuntime (Recorded ν)}, middle.node.core = core → Tracks middle io.events →
      Answers runtime (.onBytes linkId bytes nowUs) (middle.dispatch linkId io) := by
    intro middle same tracks
    rw [NodeRuntime.dispatch]
    split_ifs
    · exact .dispatched [] (same ▸ called) tracks
    · refine .dispatched [linkId] ?_ ?_
      · rw [node_ask, called, same]
      · rwa [Tracks, node_ask, establishedLinks_ask, syncScheduler_ask]
  dsimp only [Option.map_some]
  split_ifs
  · exact dispatch rfl (arrived.requestAll others)
  · exact dispatch rfl arrived

theorem Tracks.answers (stream : EventStream ν) (tracks : Tracks runtime []) (call : Call) :
    Answers runtime call (perform runtime call) := by
  cases call with
  | connect entropy nowUs =>
    rw [perform, NodeRuntime.connect, Recorded.connect_eq]
    rcases connected : CoreNode.connect runtime.node.core entropy nowUs with _ | ⟨core, error | link⟩
    · exact .panicked (by rw [coreCall, connected, Option.map_none])
    · exact .returned (Tracked.unchanged tracks (stream.connect connected).1 (stream.connect connected).2)
    · refine .returned ?_
      rw [Tracks, node_ask, establishedLinks_ask, syncScheduler_ask]
      exact Tracked.unchanged tracks (stream.connect connected).1 (stream.connect connected).2
  | accept entropy remoteAddr nowUs =>
    rw [perform, NodeRuntime.accept, Recorded.accept_eq]
    rcases accepted : CoreNode.accept runtime.node.core entropy remoteAddr nowUs with
      _ | ⟨core, error | _ | link⟩
    · exact .panicked (by rw [coreCall, accepted, Option.map_none])
    all_goals
      exact .returned (Tracked.unchanged tracks (stream.accept accepted).1 (stream.accept accepted).2)
  | onBytes linkId bytes nowUs => exact tracks.onBytes stream linkId bytes nowUs
  | onTransportClosed linkId nowUs =>
    obtain ⟨same, follows⟩ := @EventStream.onTransportClosed ν _ _ stream runtime.node.core _ _ _ _ rfl
    exact .dispatched [] rfl (Tracked.follow tracks same follows)
  | tick nowUs =>
    obtain ⟨same, follows⟩ := @EventStream.tick ν _ _ stream runtime.node.core _ _ _ rfl
    exact .dispatched [] rfl (Tracked.follow tracks same follows)
  | createEntry kind payload nowMs =>
    rw [perform, NodeRuntime.createEntry, Recorded.createEntry_eq]
    rcases created : CoreNode.createEntry runtime.node.core kind payload nowMs with
      _ | ⟨core, error | view⟩
    · exact .panicked (by rw [coreCall, created, Option.map_none])
    · obtain ⟨same, unchanged⟩ := stream.createEntry created
      exact .returned (Tracked.unchanged tracks (unchanged ⟨error, rfl⟩) same)
    · simp only [Option.map_some, Option.map_map, Function.comp_def, Option.map_id']
      have called : coreCall runtime.node.core (.createEntry kind payload nowMs) = some core := by
        rw [coreCall, created]
        rfl
      change Answers runtime _ (NodeRuntime.dispatchEvents _ [] [])
      refine .dispatched [] called ?_
      exact Tracked.create tracks (stream.createEntry created).1
  | clearReceiveFailure => exact .returned tracks

theorem Tracks.performed (stream : EventStream ν) {call : Call} (tracks : Tracks runtime [])
    (ran : perform runtime call = some after) : Tracks after [] := by
  have answers := tracks.answers stream call
  generalize perform runtime call = out at answers ran
  cases answers with
  | panicked stuck => cases ran
  | returned tracks =>
    cases ran
    exact tracks
  | dispatched finals called tracks => exact tracks.dispatched.drainLoop stream ran

theorem Tracks.returns (stream : EventStream ν) {call : Call} (tracks : Tracks runtime [])
    (stuck : perform runtime call = none) : Panics runtime.node.core call := by
  have answers := tracks.answers stream call
  generalize perform runtime call = out at answers stuck
  cases answers with
  | panicked panicked => exact Or.inl panicked
  | returned tracks => cases stuck
  | dispatched finals called tracks => exact Or.inr ⟨_, called, tracks.dispatch_returns stream stuck⟩

/-! ## Runs -/

theorem tracks_new {core : ν} (fresh : ∀ linkId, sessions core linkId = ∅) :
    Tracks (NodeRuntime.new (Recorded.new core)) [] where
  relayed := by
    intro linkId known
    cases known
  running linkId sessionId := by
    have none : sessionId ∉ sessions core linkId := by
      rw [fresh]
      exact Finset.notMem_empty _
    refine ⟨fun running => absurd running none, ?_⟩
    rintro ⟨⟨⟩, -⟩
  pending := by
    intro linkId known
    cases known
  active := by
    intro linkId sessionId running
    cases running

theorem Reaches.tracks (stream : EventStream ν) {start : NodeRuntime (Recorded ν)}
    (reached : Reaches start runtime) (tracks : Tracks start []) : Tracks runtime [] := by
  induction reached with
  | start => exact tracks
  | call call reached ran ih => exact ih.performed stream ran
  | shuffled links reached order ih =>
    exact ⟨fun linkId known => ih.relayed linkId (order.mem_iff.mp known), ih.running,
      fun linkId pending => order.mem_iff.mpr (ih.pending linkId pending),
      fun linkId sessionId running => order.mem_iff.mpr (ih.active linkId sessionId running)⟩
  | rehashed node reached order ih =>
    obtain ⟨same, same'⟩ := stream.rehashed order.1
    rw [order.2]
    exact Tracked.unchanged ih same same'

omit [CoreNode ν] in
theorem Tracks.relays (tracks : Tracks runtime []) {id : List UInt8}
    (known : linkId ∈ runtime.establishedLinks) (held : id ∈ entries runtime.node.core) :
    id ∈ runtime.node.arrived linkId ∨ id ∈ runtime.node.atStart linkId ∨
      linkId ∈ runtime.syncScheduler.pending := by
  have relayed := tracks.relayed linkId known id held
  simp only [List.not_mem_nil, and_false, exists_false, or_false] at relayed
  exact relayed

omit [CoreNode ν] in
theorem Tracks.sessions_iff (tracks : Tracks runtime []) (linkId sessionId : UInt64) :
    sessionId ∈ sessions runtime.node.core linkId ↔
      runtime.syncScheduler.active.lookup linkId = some sessionId := by
  have follows := tracks.running linkId sessionId
  simp only [List.not_mem_nil, false_implies, implies_true, and_true] at follows
  exact follows

theorem changes_relayed (stream : EventStream ν) {core : ν} (fresh : ∀ linkId, sessions core linkId = ∅)
    {last : NodeRuntime ν} (reached : Reaches (.new core) last) :
    (∃ recorded : NodeRuntime (Recorded ν),
      Reaches (.new (.new core)) recorded ∧ mapCore Recorded.core recorded = last) ∧
    ∀ recorded : NodeRuntime (Recorded ν),
      Reaches (.new (.new core)) recorded → mapCore Recorded.core recorded = last →
      (∀ linkId ∈ last.establishedLinks, ∀ id ∈ entries last.node,
        id ∈ recorded.node.arrived linkId ∨ id ∈ recorded.node.atStart linkId ∨
          linkId ∈ last.syncScheduler.pending) ∧
      (∀ linkId, (sessions last.node linkId).card ≤ 1 ∧ ∀ sessionId,
        sessionId ∈ sessions last.node linkId ↔
          last.syncScheduler.active.lookup linkId = some sessionId) ∧
      (∀ linkId ∈ last.syncScheduler.pending, linkId ∈ last.establishedLinks) ∧
      (∀ linkId ∈ last.syncScheduler.active, linkId ∈ last.establishedLinks) ∧
      ∀ call, perform last call = none → Panics last.node call := by
  refine ⟨reaches_recorded reached, ?_⟩
  rintro recorded reached' rfl
  have tracks := reached'.tracks stream (tracks_new fresh)
  have running := tracks.sessions_iff
  refine ⟨fun linkId known id held => tracks.relays known held, fun linkId => ⟨?_, running linkId⟩,
    tracks.pending, fun linkId active => ?_, fun call stuck => ?_⟩
  · refine Finset.card_le_one.mpr fun first mem second mem' => ?_
    exact Option.some.inj (((running linkId first).mp mem).symm.trans ((running linkId second).mp mem'))
  · obtain ⟨sessionId, found⟩ := Option.isSome_iff_exists.mp (AList.lookup_isSome.mpr active)
    exact tracks.active linkId sessionId found
  · rw [mapCore_perform commutes_core, Option.map_eq_none_iff] at stuck
    exact tracks.returns stream stuck

end

/-! ## A core of plain bytes -/

/-- A stand-in for the core: a link is established by an empty message, and any other message is an entry. -/
structure PlainCore where
  held : Finset (List UInt8)
  opened : List (UInt64 × UInt64)
  nextId : UInt64

instance : Observed PlainCore where
  entries core := core.held
  sessions core linkId := ((core.opened.filter (·.1 = linkId)).map (·.2)).toFinset
  rehashed core after := after.opened.Perm core.opened ∧ after = { core with opened := after.opened }

instance : CoreNode PlainCore where
  connect core _ _ := some ({ core with nextId := core.nextId + 1 }, .ok ⟨core.nextId, []⟩)
  accept core _ _ _ := some (core, .ok none)
  onBytes core linkId bytes _ :=
    if bytes = [] then some (core, ⟨[], [.established linkId []]⟩)
    else some ({ core with held := insert bytes core.held }, ⟨[], [.entryStored linkId bytes]⟩)
  onTransportClosed core linkId _ :=
    ({ core with opened := core.opened.filter (·.1 ≠ linkId) }, [.closed linkId .transportClosed])
  tick core _ := (core, [])
  startSync core linkId _ :=
    some ({ core with opened := (linkId, core.nextId) :: core.opened, nextId := core.nextId + 1 },
      .ok ⟨core.nextId, {}⟩)
  createEntry core kind payload nowMs :=
    some ({ core with held := insert payload.toList core.held },
      .ok ⟨payload.toList, [], nowMs, kind, payload.toList⟩)
  entryCount core := core.held.card

theorem running_plain {core : PlainCore} {linkId sessionId : UInt64} :
    Running core linkId sessionId ↔ (linkId, sessionId) ∈ core.opened := by
  simp [Running, sessions]

theorem plain_eventStream : EventStream PlainCore where
  connect ran := by
    cases ran
    exact ⟨rfl, rfl⟩
  accept ran := by
    cases ran
    exact ⟨rfl, rfl⟩
  onBytes {node node' linkId bytes nowUs io} ran := by
    by_cases empty : bytes = []
    · cases (if_pos empty).symm.trans ran
      exact ⟨fun id held => Or.inl held, fun link session => by simp [Ends]⟩
    · cases (if_neg empty).symm.trans ran
      refine ⟨fun id held => ?_, fun link session => by simp [running_plain, Ends]⟩
      rcases Finset.mem_insert.mp held with rfl | held
      · exact Or.inr (List.mem_singleton_self _)
      · exact Or.inl held
  onTransportClosed {node node' linkId nowUs events} ran := by
    cases ran
    refine ⟨rfl, fun link session => ?_⟩
    simp only [running_plain, Ends, List.mem_filter, decide_eq_true_iff, List.forall_mem_singleton,
      reduceCtorEq, false_or, Event.closed.injEq, exists_eq_right', ne_comm, ne_eq]
  tick ran := by
    cases ran
    exact ⟨rfl, fun linkId sessionId => by simp⟩
  refused ran := by cases ran
  started ran := by
    cases ran
    refine ⟨rfl, by simp, fun linkId sessionId => ?_⟩
    simp only [running_plain, List.mem_cons, Prod.mk.injEq, List.not_mem_nil, false_implies, implies_true,
      and_true]
    tauto
  createEntry ran := by
    cases ran
    refine ⟨rfl, ?_⟩
    rintro ⟨error, ⟨⟩⟩
  rehashed := by
    rintro node after ⟨order, same⟩
    refine ⟨by rw [same]; rfl, funext fun linkId => Finset.ext fun sessionId => ?_⟩
    change Running after linkId sessionId ↔ Running node linkId sessionId
    rw [running_plain, running_plain, order.mem_iff]

/-- A link is established, and two entries are stored: one arrives over the link, and one is created. -/
theorem changes_relayed_plain : ∃ (last : NodeRuntime PlainCore) (recorded : NodeRuntime (Recorded PlainCore)),
    Reaches (.new ⟨∅, [], 0⟩) last ∧ Reaches (.new (.new ⟨∅, [], 0⟩)) recorded ∧
      mapCore Recorded.core recorded = last ∧ last.establishedLinks = [0] ∧ [9] ∈ entries last.node ∧
      ([9] ∈ recorded.node.arrived 0 ∨ [9] ∈ recorded.node.atStart 0 ∨ 0 ∈ last.syncScheduler.pending) := by
  have reached : ∃ last : NodeRuntime PlainCore, Reaches (.new ⟨∅, [], 0⟩) last ∧
      last.establishedLinks = [0] ∧ [9] ∈ entries last.node :=
    ⟨_, .call (.createEntry 0 ⟨[9], by simp⟩ 0) (.call (.onBytes 0 [7] 0) (.call (.onBytes 0 [] 0)
      (.call (.connect none 0) .start rfl) rfl) rfl) rfl, rfl, by decide⟩
  obtain ⟨last, reached, links, held⟩ := reached
  obtain ⟨⟨recorded, reached', same⟩, every⟩ :=
    changes_relayed plain_eventStream (fun linkId => rfl) reached
  have relayed := (every recorded reached' same).1 0 (by rw [links]; simp) [9] held
  exact ⟨last, recorded, reached, reached', same, links, held, relayed⟩

end Racnet.Proof.Scheduler
