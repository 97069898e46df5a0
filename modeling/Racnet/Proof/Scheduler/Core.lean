import Racnet.Proof.Node.Links
import Racnet.Proof.Scheduler.Relay

/-!
# The node as a core

A node reports in its events what it has stored and which of its sessions have ended, as the runtime expects
of its core.
-/

namespace Racnet.Proof.Scheduler
open Lib Noise Sync Wire Link Api Android
open Store hiding Node
open Proof.Driver (Phase phaseOf Retains Ours closing storedIds Grows)
open Proof.Nodes (Tables Sound tablesOf Begun Opens Move Moves)
open Proof.Storage (insert_step)

/-! ## Sessions on the tables -/

def OpenOn (tables : Tables) (id sid : UInt64) : Prop :=
  ∃ link, tables.link id = some link ∧ Ours link.driver.syncer sid

theorem Follows.none (before : UInt64 → UInt64 → Prop) : Follows [] before before :=
  fun _ _ => by simp

theorem closed_iff {phase last : Phase} {events : List LinkEvent} (open_ : phase ≠ .closed)
    (followed : phase.follow events = some last) :
    last = .closed ↔ ∃ reason, .closed reason ∈ events := by
  induction events generalizing phase with
  | nil =>
    cases followed
    simp [open_]
  | cons event events ih =>
    obtain ⟨next, stepped, rest⟩ := Option.bind_eq_some_iff.mp followed
    by_cases ended : next = .closed
    · subst ended
      obtain rfl := Driver.follow_closed rest
      cases rest
      have closed : ∃ reason, event = .closed reason := by
        cases phase <;> cases event <;> cases stepped <;> exact ⟨_, rfl⟩
      simpa [eq_comm] using closed
    · have other : ∀ reason, .closed reason ≠ event := by
        rintro reason rfl
        cases phase <;> cases stepped <;> exact ended rfl
      simp only [ih ended rest, List.mem_cons, other, false_or]

theorem ends_mapEvent {id sid : UInt64} {event : LinkEvent} :
    Ends id sid (mapEvent id event) ↔ event = closing sid ∨ ∃ reason, event = .closed reason := by
  rcases event with _ | ⟨_ | _ | _ | _⟩ | _ <;> simp [Ends, mapEvent, closing]

theorem not_ends_mapEvent {id other sid : UInt64} {event : LinkEvent} (ne : other ≠ id) :
    ¬ Ends other sid (mapEvent id event) := by
  intro ends
  refine ne ?_
  rw [← ends.linkId_eq]
  rcases event with _ | ⟨_ | _ | _ | _⟩ | _ <;> rfl

theorem openOn_congr {tables next : Tables} {id : UInt64} (same : next.link id = tables.link id)
    (sid : UInt64) : OpenOn next id sid ↔ OpenOn tables id sid := by
  rw [OpenOn, OpenOn, same]

theorem openOn_links {tables next : Tables} (links : next.link = tables.link) : OpenOn next = OpenOn tables :=
  funext fun id => funext fun sid => propext (openOn_congr (congrFun links id) sid)

section
variable {tables : Tables} {id : UInt64} {link : LiveLink} {driver : LinkDriver}

theorem openOn_advance (sid : UInt64) :
    OpenOn (tables.advance id link driver) id sid ↔
      phaseOf driver ≠ .closed ∧ Ours driver.syncer sid := by
  rw [OpenOn, Tables.advance]
  cases phaseOf driver with
  | early | established =>
    dsimp only [Tables.release]
    simp [Nodes.put_self]
  | closed =>
    dsimp only [Tables.release]
    simp [Nodes.put_self]

theorem follows_advance (found : tables.link id = some link) (open_ : phaseOf link.driver ≠ .closed)
    {events : List LinkEvent} (followed : (phaseOf link.driver).follow events = some (phaseOf driver))
    {opened : UInt64 → Prop}
    (keeps : Retains (fun sid => Ours link.driver.syncer sid ∨ opened sid) driver.syncer events) :
    Follows (events.map (mapEvent id)) (fun other sid => OpenOn tables other sid ∨ other = id ∧ opened sid)
      (OpenOn (tables.advance id link driver)) := by
  intro other sid
  by_cases self : other = id
  · subst self
    have before : OpenOn tables other sid ↔ Ours link.driver.syncer sid := by
      simp [OpenOn, found]
    beta_reduce
    rw [openOn_advance, Ours, keeps sid, before, ne_eq, closed_iff open_ followed]
    simp only [List.forall_mem_map, ends_mapEvent, true_and, not_or, not_exists]
    constructor
    · rintro ⟨open_, was, kept⟩
      exact ⟨was, fun event mem => ⟨fun same => kept (same ▸ mem), fun reason same =>
        open_ reason (same ▸ mem)⟩⟩
    · rintro ⟨was, none⟩
      exact ⟨fun reason mem => (none _ mem).2 reason rfl, was, fun mem => (none _ mem).1 rfl⟩
  · beta_reduce
    rw [openOn_congr (Nodes.advance_link_other self)]
    simp only [self, false_and, or_false]
    refine (and_iff_left fun event mem => ?_).symm
    obtain ⟨event, -, rfl⟩ := List.mem_map.mp mem
    exact not_ends_mapEvent self

theorem follows_called (found : tables.link id = some link) (open_ : phaseOf link.driver ≠ .closed)
    {events : List LinkEvent} (followed : (phaseOf link.driver).follow events = some (phaseOf driver))
    (keeps : Retains (Ours link.driver.syncer) driver.syncer events) :
    Follows (events.map (mapEvent id)) (OpenOn tables) (OpenOn (tables.advance id link driver)) := by
  have follows := @follows_advance tables id link driver found open_ events followed (fun _ => False)
    (by simpa only [or_false] using keeps)
  simpa only [and_false, or_false] using follows

theorem follows_removed (cause : CloseCause) :
    Follows [.closed id cause] (OpenOn tables) (OpenOn (tables.put id none)) := by
  intro other sid
  by_cases self : other = id
  · subst self
    simp [OpenOn, Nodes.put_self, Ends]
  · rw [openOn_congr (Nodes.put_other tables self none)]
    simp [Ends, Ne.symm self]

theorem openOn_opened (absent : tables.link id = none) (empty : link.driver.syncer.sessions = ∅) :
    OpenOn (tables.put id (some link)) = OpenOn tables := by
  funext other sid
  by_cases self : other = id
  · subst self
    simp [OpenOn, Nodes.put_self, absent, Ours, empty]
  · exact propext (openOn_congr (Nodes.put_other tables self _) sid)

end

/-! ## Calls of a node -/

theorem begun_empty {driver : LinkDriver} (begun : Begun driver) : driver.syncer.sessions = ∅ := by
  cases begun with
  | connected ran => exact congrArg Syncer.sessions (Driver.start_syncer ran)
  | accepted => rfl

theorem openOn_opens {node after : Node} (opens : Opens node after) : OpenOn (tablesOf after) = OpenOn (tablesOf node) := by
  cases opens with
  | none links => exact openOn_links links
  | one link begun absent links =>
    rw [openOn_links links]
    exact openOn_opened absent (begun_empty begun)

section
variable [Sha256] [HmacSha256] [X25519] [ChaCha20Poly1305] [Ed25519] {node after : Node}

theorem follows_move {events : List Event} (move : Move node events after) :
    Follows events (OpenOn (tablesOf node)) (OpenOn (tablesOf after)) := by
  cases move with
  | opens opens =>
    rw [openOn_opens opens]
    exact Follows.none _
  | read found open_ called links =>
    obtain ⟨effect, step, rfl⟩ := Driver.onBytes_step called
    rw [openOn_links links]
    exact follows_called found open_ step.follows step.retains
  | @ticked _ _ link nowUs found open_ links =>
    rw [openOn_links links]
    exact follows_called found open_ (Driver.onTick_follows link.driver nowUs).2
      (Driver.onTick_retains link.driver nowUs)
  | removed id cause links =>
    rw [openOn_links links]
    exact follows_removed cause

theorem follows_moves {events : List Event} (moves : Moves node events after) :
    Follows events (OpenOn (tablesOf node)) (OpenOn (tablesOf after)) := by
  induction moves with
  | done node => exact Follows.none _
  | step move rest ih => exact (follows_move move).trans ih

/-! ## Entries -/

def heldIds (store : EntryStore) : Finset (List UInt8) :=
  (store.entries.keys.map FixedBytes.bytes).toFinset

omit [Sha256] [HmacSha256] [X25519] [ChaCha20Poly1305] [Ed25519] in
theorem mem_heldIds {store : EntryStore} {bytes : List UInt8} :
    bytes ∈ heldIds store ↔ ∃ id : EntryId, id ∈ store.entries ∧ id.bytes = bytes := by
  simp [heldIds, AList.mem_keys]

omit [HmacSha256] [X25519] [ChaCha20Poly1305] in
theorem heldIds_grows {store store' : EntryStore} {added : List Entry} (grown : Grows store store' added)
    {bytes : List UInt8} (held : bytes ∈ heldIds store') :
    bytes ∈ heldIds store ∨ ∃ id ∈ added.map Entry.id, id.bytes = bytes := by
  obtain ⟨id, mem, rfl⟩ := mem_heldIds.mp held
  have keys : store'.entries.keys = (added.map Entry.id).reverse ++ store.entries.keys := by
    rw [AList.keys, List.keys, grown.entries, List.map_append, List.map_reverse, List.map_map]
    rfl
  rw [AList.mem_keys, keys, List.mem_append, List.mem_reverse] at mem
  rcases mem with new | old
  · exact Or.inr ⟨id, new, rfl⟩
  · exact Or.inl (mem_heldIds.mpr ⟨id, AList.mem_keys.mpr old, rfl⟩)

theorem follows_startSync {linkId : UInt64} {window : SyncWindow} {start : SyncStart}
    (sound : Sound (tablesOf node))
    (started : node.startSync linkId window = some (after, .ok start)) :
    after.store = node.store ∧
      (∀ event ∈ start.io.events, event.linkId = linkId ∧ ¬ Requests event) ∧
      Follows start.io.events
        (fun other sid => OpenOn (tablesOf node) other sid ∨ other = linkId ∧ sid = start.sessionId)
        (OpenOn (tablesOf after)) := by
  obtain ⟨kept, ⟨⟨error, ⟨⟩⟩, -⟩ | ⟨link, driver, sid, out, found, called, followed, same, links⟩⟩ :=
    Nodes.startSync_cases sound started
  obtain rfl := Except.ok.inj same
  obtain ⟨keeps, closings⟩ := Driver.openSync_ok called
  rw [openOn_links links]
  refine ⟨kept, fun event mem => ?_, follows_advance found (sound.open_ linkId link found) followed keeps⟩
  obtain ⟨reported, mem', rfl⟩ := List.mem_map.mp mem
  obtain ⟨reason, rfl⟩ := closings reported mem'
  exact ⟨rfl, id⟩

omit [HmacSha256] [X25519] [ChaCha20Poly1305] in
theorem createEntry_refusal [Ed25519Signer] {kind nowMs : UInt64} {payload : Vec UInt8} {error : ApiError}
    (refused : node.createEntry kind payload nowMs = some (after, .error error)) :
    heldIds after.store = heldIds node.store := by
  rw [Node.createEntry] at refused
  generalize Entry.sign node.signingKey nowMs kind payload = entry at refused
  cases encoded : encodeFrame (.gossipPush ⟨[entry], 0⟩) with
  | error error =>
    rw [encoded] at refused
    cases refused
    rfl
  | ok frame =>
    rw [encoded] at refused
    dsimp only at refused
    have step := insert_step node.store entry
    rcases inserted : node.store.insert entry with ⟨⟨error | _⟩ | isNew, store⟩ <;>
      rw [inserted] at refused step <;> cases refused
    cases step
    rfl

end

/-! ## The core of a runtime -/

structure SoundNode where
  node : Node
  sound : Sound (tablesOf node)

section
variable [Sha256] [HmacSha256] [X25519] [ChaCha20Poly1305] [Ed25519] [Ed25519Signer]

theorem sound_performed (node : SoundNode) (call : Nodes.Call) {α : Type}
    {out : Option (Node × α)} (report : Node × α → Nodes.Report)
    (called : Nodes.perform node.node call = out.map fun result => (result.1, report result))
    (after : Node × α) (ran : out = some after) : Sound (tablesOf after.1) := by
  rw [ran] at called
  exact (Nodes.perform_steps node.sound called).sound node.sound

/-- A node as the core of a runtime. -/
instance : CoreNode SoundNode where
  connect node entropy nowUs := (node.node.connect entropy nowUs).pmap
    (fun out sound => (⟨out.1, sound⟩, out.2)) (sound_performed node (.connect entropy nowUs) _ rfl)
  accept node entropy remoteAddr nowUs := (node.node.accept entropy remoteAddr nowUs).pmap
    (fun out sound => (⟨out.1, sound⟩, out.2))
    (sound_performed node (.accept entropy remoteAddr nowUs) _ rfl)
  onBytes node linkId bytes nowUs := (node.node.onBytes linkId bytes nowUs).pmap
    (fun out sound => (⟨out.1, sound⟩, out.2)) (sound_performed node (.onBytes linkId bytes nowUs) _ rfl)
  onTransportClosed node linkId nowUs :=
    (⟨(node.node.onTransportClosed linkId nowUs).1, sound_performed node (.onTransportClosed linkId nowUs)
      (fun out => { events := out.2 }) rfl (node.node.onTransportClosed linkId nowUs) rfl⟩,
      (node.node.onTransportClosed linkId nowUs).2)
  tick node nowUs :=
    (⟨(node.node.tick nowUs).1, sound_performed node (.tick nowUs) (fun out => { events := out.2 }) rfl
      (node.node.tick nowUs) rfl⟩, (node.node.tick nowUs).2)
  startSync node linkId window := (node.node.startSync linkId window).pmap
    (fun out sound => (⟨out.1, sound⟩, out.2)) (sound_performed node (.startSync linkId window) _ rfl)
  createEntry node kind payload nowMs := (node.node.createEntry kind payload nowMs).pmap
    (fun out sound => (⟨out.1, sound⟩, out.2))
    (sound_performed node (.createEntry kind payload nowMs) (fun _ => {}) rfl)
  entryCount node := node.node.entryCount

omit [Sha256] [HmacSha256] [X25519] [ChaCha20Poly1305] [Ed25519] [Ed25519Signer] in
theorem pmap_sound {α : Type} {out : Option (Node × α)}
    {sound : ∀ result, out = some result → Sound (tablesOf result.1)} {after : SoundNode} {result : α}
    (ran : out.pmap (fun out sound => ((⟨out.1, sound⟩, out.2) : SoundNode × α)) sound =
      some (after, result)) :
    out = some (after.node, result) := by
  obtain ⟨out, _, same, called⟩ := Option.pmap_eq_some_iff.mp ran
  cases called
  exact same

/-- The ids of the entries, and the sessions of each link that the node has opened. -/
instance : Observed SoundNode where
  entries node := heldIds node.node.store
  sessions node linkId := (node.node.links.lookup linkId).elim ∅ fun link =>
    (link.driver.syncer.sessions.keys.filterMap fun key => if key.1 then some key.2 else none).toFinset
  rehashed node after := Nodes.Shuffled node.node after.node

omit [Sha256] [HmacSha256] [X25519] [ChaCha20Poly1305] [Ed25519] [Ed25519Signer] in
theorem running_iff (node : SoundNode) (linkId sid : UInt64) :
    Running node linkId sid ↔ OpenOn (tablesOf node.node) linkId sid := by
  rw [Running, OpenOn]
  change sid ∈ Option.elim (node.node.links.lookup linkId) _ _ ↔
    ∃ link, node.node.links.lookup linkId = some link ∧ _
  cases node.node.links.lookup linkId with
  | none => simp
  | some link => simp [Ours, AList.mem_keys]

omit [Sha256] [HmacSha256] [X25519] [ChaCha20Poly1305] [Ed25519] [Ed25519Signer] in
theorem running_eq (node : SoundNode) : Running node = OpenOn (tablesOf node.node) :=
  funext fun linkId => funext fun sid => propext (running_iff node linkId sid)

omit [Sha256] [HmacSha256] [X25519] [ChaCha20Poly1305] [Ed25519] [Ed25519Signer] in
theorem sessions_eq {node after : SoundNode}
    (same : OpenOn (tablesOf after.node) = OpenOn (tablesOf node.node)) :
    Observed.sessions after = Observed.sessions node := by
  funext linkId
  ext sid
  change Running after linkId sid ↔ Running node linkId sid
  rw [running_eq, running_eq, same]

theorem eventStream_node : EventStream SoundNode where
  connect {node _ _ _ _} ran := by
    obtain ⟨opens, kept⟩ := Nodes.connect_opens node.sound (pmap_sound ran)
    exact ⟨congrArg heldIds kept, sessions_eq (openOn_opens opens)⟩
  accept {node _ _ _ _ _} ran := by
    obtain ⟨opens, kept⟩ := Nodes.accept_opens node.sound (pmap_sound ran)
    exact ⟨congrArg heldIds kept, sessions_eq (openOn_opens opens)⟩
  onBytes {node _ _ _ _ _} ran := by
    obtain ⟨move, added, grown, reported⟩ := Nodes.onBytes_move node.sound (pmap_sound ran)
    rw [running_eq, running_eq]
    refine ⟨fun id held => (heldIds_grows grown held).imp_right ?_, follows_move move⟩
    rintro ⟨stored, mem, rfl⟩
    exact reported stored mem
  onTransportClosed {node _ linkId nowUs _} ran := by
    cases ran
    obtain ⟨move, kept⟩ := Nodes.onTransportClosed_move node.node linkId nowUs
    rw [running_eq, running_eq]
    exact ⟨congrArg heldIds kept, follows_move move⟩
  tick {node _ nowUs _} ran := by
    cases ran
    obtain ⟨moves, kept⟩ := Nodes.tick_moves nowUs node.sound
    rw [running_eq, running_eq]
    exact ⟨congrArg heldIds kept, follows_moves moves⟩
  refused {node _ _ _ _} ran := by
    obtain ⟨kept, ⟨-, links⟩ | ⟨_, _, _, _, -, -, -, ⟨⟩, -⟩⟩ := Nodes.startSync_cases node.sound (pmap_sound ran)
    exact ⟨congrArg heldIds kept, sessions_eq (openOn_links links)⟩
  started {node _ _ _ _} ran := by
    obtain ⟨kept, about, follows⟩ := follows_startSync node.sound (pmap_sound ran)
    rw [running_eq, running_eq]
    exact ⟨congrArg heldIds kept, about, follows⟩
  createEntry {node after _ _ _ _} ran := by
    have links := (Nodes.createEntry_links (pmap_sound ran)).1
    refine ⟨sessions_eq (openOn_links (congrArg (fun links id => links.lookup id) links)), ?_⟩
    rintro ⟨error, rfl⟩
    exact createEntry_refusal (pmap_sound ran)
  rehashed {node after} order := by
    refine ⟨?_, sessions_eq (congrArg OpenOn (Nodes.tablesOf_shuffled order))⟩
    change heldIds after.node.store = heldIds node.node.store
    rw [order.rest]

def freshCore {node : Node} (fresh : Nodes.Fresh node) : SoundNode := ⟨node, (Nodes.sound_fresh fresh).1⟩

theorem tracks_fresh {node : Node} {fresh : Nodes.Fresh node} {recorded : NodeRuntime (Recorded SoundNode)}
    (reached : Reaches (.new (.new (freshCore fresh))) recorded) : Tracks recorded [] := by
  refine reached.tracks eventStream_node (tracks_new fun linkId => ?_)
  refine Finset.eq_empty_of_forall_notMem fun sid mem => ?_
  obtain ⟨link, found, -⟩ := (running_iff (freshCore fresh) linkId sid).mp mem
  rw [show (tablesOf (freshCore fresh).node).link linkId = none by
    change node.links.lookup linkId = none
    rw [(Nodes.sound_fresh fresh).2.1, AList.lookup_empty]] at found
  cases found

omit [Sha256] [HmacSha256] [X25519] [ChaCha20Poly1305] [Ed25519] [Ed25519Signer] in
theorem Tracks.active_iff {recorded : NodeRuntime (Recorded SoundNode)} (tracks : Tracks recorded [])
    (linkId sid : UInt64) :
    recorded.syncScheduler.active.lookup linkId = some sid ↔
      OpenOn (tablesOf recorded.node.core.node) linkId sid :=
  (tracks.sessions_iff linkId sid).symm.trans (running_iff recorded.node.core linkId sid)

theorem core_changes_relayed {node : Node} (fresh : Nodes.Fresh node) {last : NodeRuntime SoundNode}
    (reached : Reaches (.new (freshCore fresh)) last) :
    (∃ recorded : NodeRuntime (Recorded SoundNode),
      Reaches (.new (.new (freshCore fresh))) recorded ∧ mapCore Recorded.core recorded = last) ∧
    ∀ recorded : NodeRuntime (Recorded SoundNode),
      Reaches (.new (.new (freshCore fresh))) recorded → mapCore Recorded.core recorded = last →
      (∀ linkId ∈ last.establishedLinks, ∀ id : EntryId, id ∈ last.node.node.store.entries →
        id.bytes ∈ recorded.node.arrived linkId ∨ id.bytes ∈ recorded.node.atStart linkId ∨
          linkId ∈ last.syncScheduler.pending) ∧
      (∀ linkId sid, last.syncScheduler.active.lookup linkId = some sid ↔
        ∃ link, last.node.node.links.lookup linkId = some link ∧
          (true, sid) ∈ link.driver.syncer.sessions) ∧
      ∀ call, perform last call = none → Panics last.node call := by
  refine ⟨reaches_recorded reached, ?_⟩
  rintro recorded reached' rfl
  have tracks := tracks_fresh reached'
  refine ⟨fun linkId known id held => ?_, tracks.active_iff, fun call stuck => ?_⟩
  · exact tracks.relays known (mem_heldIds.mpr ⟨id, held, rfl⟩)
  · rw [mapCore_perform commutes_core, Option.map_eq_none_iff] at stuck
    exact tracks.returns eventStream_node stuck

end

/-! ## A run -/

section
open Driver.StandIns

local instance coreSigner : Ed25519Signer := Nodes.zeroSigner

def idleRuntime : NodeRuntime SoundNode := .new (freshCore Nodes.fresh_zeroNode)

def lastFrames (runtime : NodeRuntime SoundNode) : List UInt8 :=
  match runtime.asked.getLast? with
  | some (.writeFrames _ frames) => frames.flatten
  | _ => []

/-- Two runtimes complete a handshake, and the caller creates an entry. -/
def greeting : Option (NodeRuntime SoundNode) := do
  let caller ← perform idleRuntime (.connect (some (FixedBytes.zero 32)) 0)
  let called ← perform idleRuntime (.accept (some (FixedBytes.zero 32)) [] 0)
  let called ← perform called (.onBytes 0 (lastFrames caller) 0)
  let caller ← perform caller (.onBytes 0 (lastFrames called) 0)
  let called ← perform called (.onBytes 0 (lastFrames caller) 0)
  let caller ← perform caller (.onBytes 0 (lastFrames called) 0)
  perform caller (.createEntry 0 ⟨[9], by simp⟩ 0)

theorem reaches_greeting : ∃ last, Reaches idleRuntime last ∧ last.syncScheduler.pending = [0] ∧
    last.establishedLinks = [0] ∧ last.node.node.store.entries.keys.length = 1 := by
  have ran : greeting.any (fun last => decide (last.syncScheduler.pending = [0] ∧
      last.establishedLinks = [0] ∧ last.node.node.store.entries.keys.length = 1)) = true := by
    decide +kernel
  obtain ⟨last, greeted, holds⟩ := (Option.any_eq_true _ _).mp ran
  simp only [greeting, Option.bind_eq_bind, Option.bind_eq_some_iff] at greeted
  obtain ⟨caller, connected, _, -, _, -, caller', read, _, -, caller'', read', created⟩ := greeted
  exact ⟨last, .call _ (.call _ (.call _ (.call _ .start connected) read) read') created,
    of_decide_eq_true holds⟩

theorem core_changes_relayed_greeting :
    ∃ (last : NodeRuntime SoundNode) (recorded : NodeRuntime (Recorded SoundNode)) (id : EntryId),
      Reaches idleRuntime last ∧ Reaches (.new (.new (freshCore Nodes.fresh_zeroNode))) recorded ∧
      mapCore Recorded.core recorded = last ∧ 0 ∈ last.establishedLinks ∧ id ∈ last.node.node.store.entries ∧ (id.bytes ∈ recorded.node.arrived 0 ∨
        id.bytes ∈ recorded.node.atStart 0 ∨ 0 ∈ last.syncScheduler.pending) := by
  obtain ⟨last, reached, -, established, one⟩ := reaches_greeting
  obtain ⟨id, only⟩ := List.length_eq_one_iff.mp one
  have held : id ∈ last.node.node.store.entries := AList.mem_keys.mpr (by rw [only]; exact .head _)
  have known : 0 ∈ last.establishedLinks := by rw [established]; exact .head _
  obtain ⟨⟨recorded, reached', same⟩, every⟩ := core_changes_relayed Nodes.fresh_zeroNode reached
  have relayed := (every recorded reached' same).1 0 known id held
  exact ⟨last, recorded, id, reached, reached', same, known, held, relayed⟩

end

end Racnet.Proof.Scheduler
