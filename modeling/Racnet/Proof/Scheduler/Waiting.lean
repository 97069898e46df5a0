import Racnet.Proof.Scheduler.Mirror

/-!
# The runtime between its calls

After every call the runtime shows the links as they are in its core, and a link stays pending only while a
session is running on it or while the sessions of the peer take up its table.
-/

namespace Racnet.Proof.Scheduler
open Lib Noise Sync Wire Link Api Android
open Store hiding Node
open Proof.Nodes (OnLinks DriverInvariant tablesOf about reportKind)
open Proof.Sessions (Orderly TableStep orderly_new sealedEngine_fresh)
open Proof.Negentropy (initiate_short)
open Relation (ReflTransGen)

/-! ## Why a session is refused -/

/-- The table of sessions is in order, and is that of the default configuration. -/
def Tidy (driver : LinkDriver) : Prop := Orderly driver.syncer ∧ driver.syncer.config = .default

theorem config_table {syncer after : Syncer} (step : TableStep syncer after) :
    after.config = syncer.config := by
  cases step <;> rfl

theorem tidy_step {driver after : LinkDriver} (tidy : Tidy driver)
    (step : TableStep driver.syncer after.syncer) : Tidy after :=
  ⟨tidy.1.step step, (config_table step).trans tidy.2⟩

section
variable [Sha256] [HmacSha256] [X25519] [ChaCha20Poly1305] [Ed25519]

theorem tidy_invariant : DriverInvariant (fun _ => True) Tidy where
  begun begun := by
    cases begun with
    | connected ran =>
      rw [Tidy, Driver.start_syncer ran]
      exact ⟨orderly_new .initiator _, rfl⟩
    | accepted => exact ⟨orderly_new .responder _, rfl⟩
  onBytes {driver after _ _ _ _ _} ran _ tidy := by
    obtain ⟨effect, step, -⟩ := Driver.onBytes_step ran
    have all : ∀ {syncer : Syncer}, ReflTransGen TableStep driver.syncer syncer →
        Orderly syncer ∧ syncer.config = .default := by
      intro syncer steps
      induction steps with
      | refl => exact tidy
      | tail earlier step ih => exact ⟨ih.1.step step, (config_table step).trans ih.2⟩
    exact ⟨all step.table, trivial⟩
  onTick {driver} nowUs tidy := tidy_step tidy (Driver.onTick_syncer driver nowUs ▸ .same)
  openSync {driver after store window _ _} opened _ tidy := by
    have step := Driver.openSync_table driver store window
    rw [opened] at step
    exact tidy_step tidy step
  created _ _ := trivial

omit [HmacSha256] [X25519] [ChaCha20Poly1305] [Ed25519] in
theorem openSession_full {syncer after : Syncer} {store : EntryStore} {window : SortKeyWindow}
    {error : SyncError} (config : syncer.config = .default)
    (refused : syncer.openSession store window = (.error (.err error), after)) :
    syncer.config.maxSessions ≤ syncer.openSessions := by
  by_contra room
  rw [Syncer.openSession, if_neg room] at refused
  have errorless : Exec.Errorless (fun _ => True) (syncer.sealedEngine store window) := by
    rw [Syncer.sealedEngine]
    refine (Exec.errorless_orPanic _).bind fun items _ => ?_
    split_ifs
    · rw [config]
      exact trivial
    · exact trivial
  cases made : syncer.sealedEngine store window with
  | error trap =>
    rw [made] at refused errorless
    cases trap with
    | err error => exact errorless
    | panic => cases (Prod.mk.inj refused).1
  | ok engine =>
    obtain ⟨msg, started, -⟩ := initiate_short (sealedEngine_fresh made).theirs
    rw [made, Exec.ok_bind, started] at refused
    dsimp only at refused
    split_ifs at refused
    · cases (Prod.mk.inj refused).1
    · cases (Prod.mk.inj refused).1

omit [HmacSha256] [X25519] [Ed25519] in
theorem startSync_full {node after : Node} {linkId : UInt64} {link : LiveLink} {window : SyncWindow}
    {error : ApiError} (found : node.links.lookup linkId = some link)
    (established : link.driver.isEstablished = true) (tidy : Tidy link.driver)
    (refused : node.startSync linkId window = some (after, .error error)) :
    link.driver.syncer.config.maxSessions ≤ link.driver.syncer.openSessions := by
  rw [Node.startSync, found] at refused
  dsimp only at refused
  rw [LinkDriver.openSync, if_neg (not_not.mpr established)] at refused
  rcases opened : link.driver.syncer.openSession node.store window.into with
    ⟨⟨err | _⟩ | ⟨sid, msg⟩, syncer⟩ <;> rw [opened] at refused
  · exact openSession_full tidy.2 opened
  · cases refused
  · cases refused

end

/-! ## Pending links are established -/

def Known (runtime : NodeRuntime SoundNode) : Prop :=
  ∀ linkId ∈ runtime.syncScheduler.pending, linkId ∈ runtime.establishedLinks

section
variable [CoreNode SoundNode] {runtime : NodeRuntime SoundNode} {finals : List UInt64}

omit [CoreNode SoundNode] in
theorem Known.requestAll (known : Known runtime) {linkIds : List UInt64}
    (others : ∀ linkId ∈ linkIds, linkId ∈ runtime.establishedLinks) : Known (runtime.requestAll linkIds) := by
  intro linkId mem
  rcases (mem_pending_requestAll _ _ _).mp mem with asked | pending
  · exact others linkId asked
  · exact known linkId pending

theorem Known.dispatchEvent {event : Event} (known : Known runtime) :
    Known (NodeRuntime.dispatchEvent finals runtime event) := by
  intro other
  cases event with
  | established linkId remote =>
    simp only [NodeRuntime.dispatchEvent, syncScheduler_ask, establishedLinks_ask, mem_pending_request,
      List.mem_insert_iff]
    exact Or.imp_right (known other)
  | closed linkId cause =>
    simp only [NodeRuntime.dispatchEvent, syncScheduler_ask, establishedLinks_ask, mem_pending_closed,
      List.mem_filter, decide_eq_true_eq]
    exact And.imp_left (known other)
  | entryStored linkId id =>
    exact @Known.requestAll { runtime with entryCount := CoreNode.entryCount runtime.node } known _
      (fun _ mem => List.mem_of_mem_filter mem) other
  | syncSessionClosed linkId sessionId openedByUs =>
    cases openedByUs with
    | true =>
      intro pending
      refine known other ?_
      rwa [← pending_completed runtime.syncScheduler linkId sessionId]
    | false => exact known other
  | duplicateIgnored | reconciled => exact known other

end

/-! ## Draining -/

def Full (node : Node) (linkId : UInt64) : Prop :=
  ∃ link, node.links.lookup linkId = some link ∧
    link.driver.syncer.config.maxSessions ≤ link.driver.syncer.openSessions

/-- What holds all the time, up to the events that are due. -/
structure Settled (runtime : NodeRuntime SoundNode) (due : List Event) : Prop where
  mirrors : Mirrors runtime due
  known : Known runtime
  tidy : OnLinks Tidy runtime.node.node

/-- What holds after a drain: a link that is pending could not be started. -/
def Waits (runtime : NodeRuntime SoundNode) : Prop :=
  ∀ linkId ∈ runtime.syncScheduler.pending,
    linkId ∈ runtime.syncScheduler.active ∨ Full runtime.node.node linkId

structure Halfway (linkIds : List UInt64) (scheduler : SyncScheduler)
    (state : NodeRuntime.Draining SoundNode) : Prop where
  mirrors : Mirrors state.runtime state.events
  tidy : OnLinks Tidy state.runtime.node.node
  known : ∀ linkId ∈ scheduler.pending, linkId ∈ state.runtime.establishedLinks
  left : ∀ linkId ∈ linkIds, linkId ∈ state.runtime.establishedLinks
  started_ : ∀ event ∈ state.events, event.linkId ∈ scheduler.active
  waits : ∀ linkId ∈ scheduler.pending,
    linkId ∈ linkIds ∨ linkId ∈ scheduler.active ∨ Full state.runtime.node.node linkId

section
variable [Sha256] [HmacSha256] [X25519] [ChaCha20Poly1305] [Ed25519] [Ed25519Signer]
  {linkId : UInt64} {linkIds : List UInt64} {scheduler scheduler' : SyncScheduler}
  {state state' : NodeRuntime.Draining SoundNode} {runtime after : NodeRuntime SoundNode}

omit [Sha256] [HmacSha256] [X25519] [ChaCha20Poly1305] [Ed25519] [Ed25519Signer] in
theorem Halfway.live (halfway : Halfway (linkId :: linkIds) scheduler state)
    (idle : linkId ∉ scheduler.active) :
    ∃ link, state.runtime.node.node.links.lookup linkId = some link ∧ link.driver.isEstablished = true := by
  obtain ⟨stage, shows_, followed⟩ := halfway.mirrors linkId
  have quiet : about linkId (state.events.map .event) = [] := by
    rw [Nodes.about_events, List.map_eq_nil_iff, Nodes.eventsAbout, List.filter_eq_nil_iff]
    intro event mem same
    exact idle (of_decide_eq_true same ▸ halfway.started_ event mem)
  rw [quiet] at followed
  rw [← stageIn_established_iff, ← Option.some.inj followed]
  exact shows_.known.mp (halfway.left linkId List.mem_cons_self)

theorem Halfway.refused (halfway : Halfway (linkId :: linkIds) scheduler state)
    (idle : linkId ∉ scheduler.active)
    (refused : NodeRuntime.startSync linkId state = some (none, state')) :
    Halfway linkIds scheduler state' := by
  obtain ⟨link, found, established⟩ := halfway.live idle
  have mirrors := halfway.mirrors.startSync refused
  rw [NodeRuntime.startSync] at refused
  rcases begun : CoreNode.startSync state.runtime.node linkId NodeRuntime.wholeWindow with
    _ | ⟨node, error | start⟩ <;> rw [begun] at refused <;> cases refused
  have called := pmap_sound begun
  obtain ⟨-, ⟨-, links⟩ | ⟨_, _, _, _, -, -, -, ⟨⟩, -⟩⟩ := Nodes.startSync_cases state.runtime.node.sound called
  have same : ∀ other, node.node.links.lookup other = state.runtime.node.node.links.lookup other :=
    congrFun links
  have full := startSync_full found established (halfway.tidy linkId link found) called
  refine ⟨mirrors, fun other link' found' => halfway.tidy other link' ((same other).symm.trans found'),
    halfway.known, (List.forall_mem_cons.mp halfway.left).2, halfway.started_, fun other pending => ?_⟩
  rcases halfway.waits other pending with left | running | ⟨link', found', full'⟩
  · rcases List.mem_cons.mp left with rfl | left
    · exact Or.inr (Or.inr ⟨link, (same other).trans found, full⟩)
    · exact Or.inl left
  · exact Or.inr (Or.inl running)
  · exact Or.inr (Or.inr ⟨link', (same other).trans found', full'⟩)

theorem Halfway.started {sessionId : UInt64} (halfway : Halfway (linkId :: linkIds) scheduler state)
    (started : NodeRuntime.startSync linkId state = some (some sessionId, state')) :
    Halfway linkIds (scheduler.started linkId sessionId) state' := by
  have mirrors := halfway.mirrors.startSync started
  rw [NodeRuntime.startSync] at started
  rcases begun : CoreNode.startSync state.runtime.node linkId NodeRuntime.wholeWindow with
    _ | ⟨node, error | start⟩ <;> rw [begun] at started <;> cases started
  have called := pmap_sound begun
  have tidy := halfway.tidy.startSync trivial tidy_invariant state.runtime.node.sound called
  obtain ⟨-, own, -⟩ := follows_startSync state.runtime.node.sound called
  obtain ⟨-, ⟨⟨_, ⟨⟩⟩, -⟩ | ⟨_, _, _, _, -, -, -, -, links⟩⟩ :=
    Nodes.startSync_cases state.runtime.node.sound called
  refine ⟨mirrors, by rwa [node_ask], fun other pending => ?_, ?_, ?_, fun other pending => ?_⟩
  · rw [establishedLinks_ask]
    exact halfway.known other ((mem_pending_started _ _ _ _).mp pending).1
  · rw [establishedLinks_ask]
    exact (List.forall_mem_cons.mp halfway.left).2
  · rw [List.forall_mem_append]
    refine ⟨fun event mem => mem_active_started.mpr (Or.inr (halfway.started_ event mem)), fun event mem => ?_⟩
    exact mem_active_started.mpr (Or.inl (own event mem).1)
  · obtain ⟨pending, ne⟩ := (mem_pending_started _ _ _ _).mp pending
    rw [node_ask]
    rcases halfway.waits other pending with left | running | ⟨link', found', full'⟩
    · exact Or.inl (List.mem_of_ne_of_mem ne left)
    · exact Or.inr (Or.inl (mem_active_started.mpr (Or.inr running)))
    · exact Or.inr (Or.inr ⟨link', ((congrFun links other).trans (Nodes.advance_link_other ne)).trans found',
        full'⟩)

theorem Halfway.drained
    (ran : SyncScheduler.drainLoop NodeRuntime.startSync linkIds scheduler state = some (scheduler', state'))
    (halfway : Halfway linkIds scheduler state) : Halfway [] scheduler' state' := by
  refine drainLoop_rule (P := Halfway) ?_ ?_ ?_ ran halfway
  · intro linkId linkIds scheduler state halfway running
    exact { halfway with
      left := (List.forall_mem_cons.mp halfway.left).2
      waits := fun other pending => by
        rcases halfway.waits other pending with left | later
        · rcases List.mem_cons.mp left with rfl | left
          · exact Or.inr (Or.inl running)
          · exact Or.inl left
        · exact Or.inr later }
  · exact fun halfway idle refused => halfway.refused idle refused
  · exact fun halfway _ started => halfway.started started

theorem Settled.dispatched {events : List Event} {finals : List UInt64} (settled : Settled runtime events) :
    Settled (events.foldl (NodeRuntime.dispatchEvent finals) runtime) [] := by
  induction events generalizing runtime with
  | nil => exact settled
  | cons event events ih =>
    refine ih ⟨settled.mirrors.dispatchEvent, settled.known.dispatchEvent, ?_⟩
    rw [node_dispatchEvent]
    exact settled.tidy

theorem Settled.drainLoop {fuel : Nat} (settled : Settled runtime [])
    (ran : NodeRuntime.drainLoop fuel runtime = some after) : Settled after [] ∧ Waits after := by
  induction fuel generalizing runtime with
  | zero => cases ran
  | succ fuel ih =>
    rw [NodeRuntime.drainLoop] at ran
    rcases drained : runtime.syncScheduler.drain NodeRuntime.startSync ⟨runtime, [], []⟩ with
      _ | ⟨scheduler, state⟩
    · rw [drained] at ran
      cases ran
    rw [drained] at ran
    have halfway : Halfway [] scheduler state := Halfway.drained drained
      ⟨settled.mirrors, settled.tidy, settled.known, settled.known, by simp, fun _ => Or.inl⟩
    have middle : Settled { state.runtime with syncScheduler := scheduler } state.events :=
      ⟨halfway.mirrors, halfway.known, halfway.tidy⟩
    dsimp only at ran
    split_ifs at ran with quiet
    · cases ran
      rw [quiet] at middle
      exact ⟨middle, fun linkId pending => (halfway.waits linkId pending).resolve_left List.not_mem_nil⟩
    · exact ih middle.dispatched ran

/-! ## Calls -/

theorem Settled.called {node : SoundNode} {call : Nodes.Call} {events : List Event}
    (settled : Settled runtime [])
    (ran : Nodes.perform runtime.node.node call = some (node.node, { events })) :
    Settled { runtime with node } events :=
  ⟨Mirrors.called settled.mirrors (node_follows ran), settled.known,
    (settled.tidy.performed trivial tidy_invariant runtime.node.sound ran).1⟩

theorem Settled.opened {node : SoundNode} {call : Nodes.Call} {opened : UInt64} (settled : Settled runtime [])
    (ran : Nodes.perform runtime.node.node call = some (node.node, { opened := some opened })) :
    Settled { runtime with node, transports := insert opened runtime.transports } [] :=
  ⟨Mirrors.opened settled.mirrors (node_follows ran), settled.known,
    (settled.tidy.performed trivial tidy_invariant runtime.node.sound ran).1⟩

omit [Sha256] [HmacSha256] [X25519] [ChaCha20Poly1305] [Ed25519] [Ed25519Signer] in
theorem Settled.write {due : List Event} (settled : Settled runtime due) (frames : List (List UInt8)) :
    Settled (runtime.ask linkId (.writeFrames linkId frames)) due := by
  refine ⟨settled.mirrors.write linkId frames, ?_, ?_⟩
  · rw [Known, syncScheduler_ask, establishedLinks_ask]
    exact settled.known
  · rw [node_ask]
    exact settled.tidy

theorem Settled.dispatchEvents {events : List Event} {finals : List UInt64} (settled : Settled runtime events)
    (ran : runtime.dispatchEvents events finals = some after) : Settled after [] ∧ Waits after :=
  settled.dispatched.drainLoop ran

theorem Settled.dispatch {io : LinkIo} (settled : Settled runtime io.events)
    (ran : runtime.dispatch linkId io = some after) : Settled after [] ∧ Waits after := by
  rw [NodeRuntime.dispatch] at ran
  split_ifs at ran
  · exact settled.dispatchEvents ran
  · exact (settled.write io.frames).dispatchEvents ran

theorem Settled.onBytes {bytes : List UInt8} {nowUs : UInt64} (settled : Settled runtime [])
    (ran : runtime.onBytes linkId bytes nowUs = some after) : Settled after [] ∧ Waits after := by
  rw [NodeRuntime.onBytes] at ran
  rcases read : CoreNode.onBytes runtime.node linkId bytes nowUs with _ | ⟨node, io⟩ <;> rw [read] at ran
  · cases ran
  have called := @Settled.called _ _ _ _ _ _ runtime node (.onBytes linkId bytes nowUs) io.events settled
    (by rw [Nodes.perform, pmap_sound read]; rfl)
  dsimp only at ran
  split_ifs at ran
  · refine Settled.dispatch ⟨?_, ?_, ?_⟩ ran
    · exact called.mirrors
    · exact @Known.requestAll { runtime with node, entryCount := CoreNode.entryCount node } settled.known _
        fun _ mem => List.mem_of_mem_filter mem
    · exact called.tidy
  · exact called.dispatch ran

omit [Sha256] [HmacSha256] [X25519] [ChaCha20Poly1305] [Ed25519] [Ed25519Signer] in
theorem Full.opens {node after : Node} (full : Full node linkId) (opens : Nodes.Opens node after) :
    Full after linkId := by
  obtain ⟨link, found, full⟩ := full
  refine ⟨link, ?_, full⟩
  change (tablesOf after).link linkId = some link
  cases opens with
  | none links =>
    rw [links]
    exact found
  | one new begun absent links =>
    have old : linkId ≠ node.nextLinkId := by
      rintro rfl
      cases absent.symm.trans found
    rw [links, Nodes.put_other _ old]
    exact found

omit [Sha256] [HmacSha256] [X25519] [ChaCha20Poly1305] [Ed25519] [Ed25519Signer] in
theorem Waits.opens {node : SoundNode} (waits : Waits runtime)
    (opens : Nodes.Opens runtime.node.node node.node) : Waits { runtime with node } :=
  fun linkId pending => (waits linkId pending).imp_right (·.opens opens)

theorem Settled.performed {call : Call} (settled : Settled runtime []) (waits : Waits runtime)
    (ran : perform runtime call = some after) : Settled after [] ∧ Waits after := by
  cases call with
  | connect entropy nowUs =>
    rw [perform] at ran
    obtain ⟨⟨last, result⟩, called, rfl⟩ := Option.map_eq_some_iff.mp ran
    rw [NodeRuntime.connect] at called
    rcases connected : CoreNode.connect runtime.node entropy nowUs with _ | ⟨node, result⟩
    · rw [connected] at called
      cases called
    rw [connected] at called
    have still := waits.opens (Nodes.connect_opens runtime.node.sound (pmap_sound connected)).1
    rcases result with error | link <;> cases called
    · exact ⟨@Settled.called _ _ _ _ _ _ runtime node (.connect entropy nowUs) [] settled
        (by rw [Nodes.perform, pmap_sound connected]; rfl), still⟩
    · refine ⟨Settled.write (@Settled.opened _ _ _ _ _ _ runtime node (.connect entropy nowUs) link.linkId
        settled (by rw [Nodes.perform, pmap_sound connected]; rfl)) _, ?_⟩
      rw [Waits, syncScheduler_ask, node_ask]
      exact still
  | accept entropy remoteAddr nowUs =>
    rw [perform] at ran
    obtain ⟨⟨last, result⟩, called, rfl⟩ := Option.map_eq_some_iff.mp ran
    rw [NodeRuntime.accept] at called
    rcases accepted : CoreNode.accept runtime.node entropy remoteAddr nowUs with _ | ⟨node, result⟩
    · rw [accepted] at called
      cases called
    rw [accepted] at called
    have still := waits.opens (Nodes.accept_opens runtime.node.sound (pmap_sound accepted)).1
    rcases result with error | _ | link <;> cases called
    · exact ⟨@Settled.called _ _ _ _ _ _ runtime node (.accept entropy remoteAddr nowUs) [] settled
        (by rw [Nodes.perform, pmap_sound accepted]; rfl), still⟩
    · exact ⟨@Settled.called _ _ _ _ _ _ runtime node (.accept entropy remoteAddr nowUs) [] settled
        (by rw [Nodes.perform, pmap_sound accepted]; rfl), still⟩
    · exact ⟨@Settled.opened _ _ _ _ _ _ runtime node (.accept entropy remoteAddr nowUs) link.linkId settled
        (by rw [Nodes.perform, pmap_sound accepted]; rfl), still⟩
  | onBytes linkId bytes nowUs => exact settled.onBytes ran
  | onTransportClosed linkId nowUs =>
    exact (@Settled.called _ _ _ _ _ _ runtime (CoreNode.onTransportClosed runtime.node linkId nowUs).1
      (.onTransportClosed linkId nowUs) _ settled rfl).dispatchEvents ran
  | tick nowUs =>
    exact (@Settled.called _ _ _ _ _ _ runtime (CoreNode.tick runtime.node nowUs).1 (.tick nowUs) _ settled
      rfl).dispatchEvents ran
  | createEntry kind payload nowMs =>
    rw [perform] at ran
    obtain ⟨⟨last, result⟩, called, rfl⟩ := Option.map_eq_some_iff.mp ran
    rw [NodeRuntime.createEntry] at called
    rcases created : CoreNode.createEntry runtime.node kind payload nowMs with _ | ⟨node, result⟩
    · rw [created] at called
      cases called
    rw [created] at called
    have stored := @Settled.called _ _ _ _ _ _ runtime node (.createEntry kind payload nowMs) [] settled
      (by rw [Nodes.perform, pmap_sound created]; rfl)
    rcases result with error | view
    · cases called
      refine ⟨stored, waits.opens (.none ?_)⟩
      exact congrArg (fun links id => links.lookup id) (Nodes.createEntry_links (pmap_sound created)).1
    · obtain ⟨drained, returned, same⟩ := Option.map_eq_some_iff.mp called
      cases same
      refine Settled.drainLoop ⟨?_, ?_, ?_⟩ returned
      · exact stored.mirrors
      · exact @Known.requestAll { runtime with node, entryCount := CoreNode.entryCount node } settled.known _
          fun _ mem => mem
      · exact stored.tidy
  | clearReceiveFailure =>
    cases ran
    exact ⟨⟨settled.mirrors, settled.known, settled.tidy⟩, waits⟩

/-! ## Runs -/

theorem Reaches.settled {node : Node} {fresh : Nodes.Fresh node} (reached : Reaches (.new (freshCore fresh)) runtime) :
    Settled runtime [] ∧ Waits runtime := by
  induction reached with
  | start =>
    refine ⟨⟨mirrors_fresh fresh, fun linkId pending => absurd pending List.not_mem_nil, ?_⟩,
      fun linkId pending => absurd pending List.not_mem_nil⟩
    intro id link found
    change node.links.lookup id = some link at found
    rw [(Nodes.sound_fresh fresh).2.1, AList.lookup_empty] at found
    cases found
  | call call reached ran ih => exact ih.1.performed ih.2 ran
  | shuffled links reached order ih =>
    obtain ⟨⟨mirrors, known, tidy⟩, waits⟩ := ih
    refine ⟨⟨fun linkId => ?_, fun linkId pending => order.mem_iff.mpr (known linkId pending), tidy⟩, waits⟩
    obtain ⟨stage, shows_, followed⟩ := mirrors linkId
    exact ⟨stage, shows_.frame Iff.rfl order.mem_iff rfl, followed⟩
  | rehashed node reached order ih =>
    obtain ⟨⟨mirrors, known, tidy⟩, waits⟩ := ih
    have tables := Nodes.tablesOf_shuffled order
    refine ⟨⟨fun linkId => ?_, known, fun id link found => tidy id link (tables ▸ found)⟩,
      waits.opens (.none (congrArg Nodes.Tables.link tables))⟩
    obtain ⟨stage, shows_, followed⟩ := mirrors linkId
    exact ⟨stage, shows_, by rwa [tables]⟩

theorem runtime_mirrors_core {node : Node} (fresh : Nodes.Fresh node) {last : NodeRuntime SoundNode}
    (reached : Reaches (.new (freshCore fresh)) last) (linkId : UInt64) :
    (linkId ∈ last.transports ↔ linkId ∈ last.node.node.links) ∧
      (linkId ∈ last.establishedLinks ↔
        ∃ link, last.node.node.links.lookup linkId = some link ∧ link.driver.isEstablished = true) ∧
      ∃ served, Served.waiting.follow (asksOf linkId last.asked) = some served ∧
        (served = .established ↔ linkId ∈ last.establishedLinks) ∧
        (served = .closed ↔ linkId.toNat < last.node.node.nextLinkId.toNat ∧ linkId ∉ last.node.node.links) := by
  obtain ⟨stage, shows_, followed⟩ := reached.settled.1.mirrors linkId
  have now : stage = (tablesOf last.node.node).stageIn linkId := Option.some.inj followed
  refine ⟨?_, ?_, servedIn stage, shows_.asks, ?_, ?_⟩
  · rw [shows_.served, Nodes.mem_links_iff last.node.sound, ← now]
    cases stage <;> simp
  · rw [shows_.known, now, stageIn_established_iff]
  · rw [shows_.known]
    cases stage <;> simp [servedIn]
  · rw [← stageIn_gone_iff, ← now]
    cases stage <;> simp [servedIn]

theorem waiting_links_blocked {node : Node} (fresh : Nodes.Fresh node) {last : NodeRuntime SoundNode}
    (reached : Reaches (.new (freshCore fresh)) last)
    (pending : linkId ∈ last.syncScheduler.pending) :
    linkId ∈ last.syncScheduler.active ∨
      ∃ link, last.node.node.links.lookup linkId = some link ∧ link.driver.isEstablished = true ∧
        link.driver.syncer.openSessions = 8 ∧ ∀ key ∈ link.driver.syncer.sessions, key.1 = false := by
  obtain ⟨settled, waits⟩ := reached.settled
  obtain ⟨recorded, reached', rfl⟩ := reaches_recorded reached
  by_cases running : linkId ∈ (mapCore Recorded.core recorded).syncScheduler.active
  · exact Or.inl running
  obtain ⟨link, found, full⟩ := (waits linkId pending).resolve_left running
  obtain ⟨orderly, config⟩ := settled.tidy linkId link found
  refine Or.inr ⟨link, found, ?_, ?_, ?_⟩
  · obtain ⟨stage, shows_, followed⟩ := settled.mirrors linkId
    have established := shows_.known.mp (settled.known linkId pending)
    rw [Option.some.inj followed, stageIn_established_iff] at established
    obtain ⟨link', found', established⟩ := established
    cases found.symm.trans found'
    exact established
  · have few := orderly.few
    rw [config] at few full
    exact le_antisymm few full
  · rintro ⟨ours, sid⟩ held
    by_contra own
    obtain rfl : ours = true := by simpa using own
    have active := ((tracks_fresh reached').active_iff linkId sid).mpr ⟨link, found, held⟩
    exact running (AList.lookup_isSome.mp (Option.isSome_iff_exists.mpr ⟨sid, active⟩))

end

/-! ## A run -/

section
open Driver.StandIns

local instance waitingSigner : Ed25519Signer := Nodes.zeroSigner

/-- A link is accepted, and then its connection is gone. -/
theorem runtime_mirrors_core_accepted : ∃ last : NodeRuntime SoundNode,
    Reaches (.new (freshCore Nodes.fresh_zeroNode)) last ∧ last.node.node.nextLinkId = 1 ∧
      0 ∉ last.node.node.links ∧ 0 ∉ last.transports ∧
      Served.waiting.follow (asksOf 0 last.asked) = some .closed := by
  have reached : ∃ last : NodeRuntime SoundNode, Reaches (.new (freshCore Nodes.fresh_zeroNode)) last ∧
      last.node.node.nextLinkId = 1 ∧ 0 ∉ last.node.node.links :=
    ⟨_, .call (.onTransportClosed 0 0) (.call (.accept (some (FixedBytes.zero 32)) [] 0) .start rfl) rfl, rfl,
      by decide⟩
  obtain ⟨last, reached, opened, gone⟩ := reached
  obtain ⟨transports, -, served, asks, -, closed⟩ := runtime_mirrors_core Nodes.fresh_zeroNode reached 0
  refine ⟨last, reached, opened, gone, fun mem => gone (transports.mp mem), ?_⟩
  rw [asks, closed.mpr ⟨by rw [opened]; decide, gone⟩]

theorem waiting_links_blocked_greeting : ∃ last : NodeRuntime SoundNode,
    Reaches idleRuntime last ∧ 0 ∈ last.syncScheduler.pending ∧
      (0 ∈ last.syncScheduler.active ∨ ∃ link, last.node.node.links.lookup 0 = some link ∧
        link.driver.isEstablished = true ∧ link.driver.syncer.openSessions = 8 ∧
        ∀ key ∈ link.driver.syncer.sessions, key.1 = false) := by
  obtain ⟨last, reached, pending, -⟩ := reaches_greeting
  have waits : 0 ∈ last.syncScheduler.pending := by rw [pending]; exact .head _
  exact ⟨last, reached, waits, waiting_links_blocked Nodes.fresh_zeroNode reached waits⟩

end

end Racnet.Proof.Scheduler
