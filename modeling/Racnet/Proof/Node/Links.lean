import Racnet.Proof.Driver.Sessions
import Racnet.Proof.Node.Lifecycle

/-!
# What a call does to the links

A call opens a link, removes links or makes calls of their drivers. So what holds of every driver is an
invariant of the node.
-/

namespace Racnet.Proof.Nodes
open Lib Noise Sync Wire Link Api
open Store hiding Node
open Proof.Driver (phaseOf storedIds Grows)

/-! ## The store -/

section
variable {node : Node} {id : UInt64} {link : LiveLink}

theorem store_retire : (node.retire id).store = node.store := by
  rw [Node.retire]
  cases node.links.lookup id with
  | none => rfl
  | some link =>
    dsimp only
    cases link.ticket <;> rfl

theorem store_releaseTicket : (node.releaseTicket id).store = node.store := by
  rw [Node.releaseTicket]
  cases node.links.lookup id with
  | none => rfl
  | some link =>
    dsimp only
    cases link.ticket <;> rfl

theorem store_afterCall (driver : LinkDriver) (out : LinkOutput) :
    (node.afterCall id link driver out).1.store = node.store := by
  have settled : ∀ (events : List Event) (node : Node), (node.settle id events).store = node.store := by
    intro events
    induction events with
    | nil => exact fun _ => rfl
    | cons event events ih =>
      intro node
      refine (ih (Node.settleEvent id node event)).trans ?_
      cases event with
      | established => exact store_releaseTicket
      | closed => exact store_retire
      | entryStored | duplicateIgnored | reconciled | syncSessionClosed => rfl
  exact settled _ _

end

theorem advance_link_other {tables : Tables} {id other : UInt64} {link : LiveLink} {driver : LinkDriver}
    (ne : other ≠ id) : (tables.advance id link driver).link other = tables.link other := by
  rw [Tables.advance]
  cases phaseOf driver <;> exact put_other _ ne _

def OnLinks (P : LinkDriver → Prop) (node : Node) : Prop :=
  ∀ id link, (tablesOf node).link id = some link → P link.driver

section
variable {P : LinkDriver → Prop} {node after : Node} (all : OnLinks P node)
include all

theorem OnLinks.advance {id : UInt64} {link : LiveLink} {driver : LinkDriver} (holds : P driver)
    (links : (tablesOf after).link = ((tablesOf node).advance id link driver).link) : OnLinks P after := by
  intro other link' found
  rw [links] at found
  by_cases same : other = id
  · subst same
    rw [Tables.advance] at found
    cases phase : phaseOf driver with
    | early | established =>
      rw [phase] at found
      obtain rfl := Option.some.inj ((put_self ..).symm.trans found)
      exact holds
    | closed =>
      rw [phase] at found
      cases (put_self ..).symm.trans found
  · rw [advance_link_other same] at found
    exact all other link' found

theorem OnLinks.put {id : UInt64} {value : Option LiveLink} (holds : ∀ link, value = some link → P link.driver)
    (links : (tablesOf after).link = ((tablesOf node).put id value).link) : OnLinks P after := by
  intro other link found
  rw [links] at found
  by_cases same : other = id
  · subst same
    rw [put_self] at found
    exact holds link found
  · rw [put_other _ same] at found
    exact all other link found

end

/-! ## Moves -/

section

theorem mem_storedIds {id : EntryId} {events : List LinkEvent} :
    id ∈ storedIds events ↔ .sync (.stored id) ∈ events := by
  rw [storedIds, List.mem_filterMap]
  constructor
  · rintro ⟨_ | ⟨_ | _ | _ | _⟩ | _, mem, same⟩ <;> cases same
    exact mem
  · exact fun mem => ⟨_, mem, rfl⟩

variable [Sha256] [HmacSha256] [X25519] [ChaCha20Poly1305] [Ed25519]

inductive Begun : LinkDriver → Prop where
  | connected {staticKeys ephemeral : Keypair} {nowUs : UInt64} {driver : LinkDriver} {out : LinkOutput}
      (ran : (LinkDriver.new .initiator staticKeys ephemeral .default nowUs).start = some (driver, out)) :
      Begun driver
  | accepted (staticKeys ephemeral : Keypair) (nowUs : UInt64) :
      Begun (LinkDriver.new .responder staticKeys ephemeral .default nowUs)

/-- The links stay as they are, or there is a new one. -/
inductive Opens (node after : Node) : Prop where
  | none (links : (tablesOf after).link = (tablesOf node).link)
  | one (link : LiveLink) (begun : Begun link.driver) (absent : (tablesOf node).link node.nextLinkId = none)
      (links : (tablesOf after).link = ((tablesOf node).put node.nextLinkId (some link)).link)

inductive Move (node : Node) : List Event → Node → Prop where
  | opens {after : Node} (opens : Opens node after) (kept : after.store = node.store) : Move node [] after
  | read {after : Node} {id nowUs : UInt64} {link : LiveLink} {bytes : List UInt8} {driver : LinkDriver}
      {out : LinkOutput} (found : (tablesOf node).link id = some link) (open_ : phaseOf link.driver ≠ .closed)
      (called : link.driver.onBytes node.store bytes nowUs = some (driver, after.store, out))
      (links : (tablesOf after).link = ((tablesOf node).advance id link driver).link) :
      Move node (out.events.map (mapEvent id)) after
  | ticked {after : Node} {id : UInt64} {link : LiveLink} (nowUs : UInt64)
      (found : (tablesOf node).link id = some link) (open_ : phaseOf link.driver ≠ .closed)
      (links : (tablesOf after).link = ((tablesOf node).advance id link (link.driver.onTick nowUs).1).link)
      (kept : after.store = node.store) :
      Move node ((link.driver.onTick nowUs).2.events.map (mapEvent id)) after
  | removed {after : Node} (id : UInt64) (cause : CloseCause)
      (links : (tablesOf after).link = ((tablesOf node).put id none).link) (kept : after.store = node.store) :
      Move node [.closed id cause] after

inductive Moves : Node → List Event → Node → Prop where
  | done (node : Node) : Moves node [] node
  | step {node middle after : Node} {first second : List Event} (move : Move node first middle)
      (rest : Moves middle second after) : Moves node (first ++ second) after

theorem Move.alone {node after : Node} {events : List Event} (move : Move node events after) :
    Moves node events after := by
  have one := Moves.step move (.done after)
  rwa [List.append_nil] at one

variable {node after : Node}

omit [Sha256] [HmacSha256] [ChaCha20Poly1305] [Ed25519] in
theorem connect_opens {entropy : Option (FixedBytes 32)} {nowUs : UInt64}
    {result : Except ApiError LinkOpen} (sound : Sound (tablesOf node))
    (connected : node.connect entropy nowUs = some (after, result)) :
    Opens node after ∧ after.store = node.store := by
  rw [Node.connect] at connected
  cases entropy with
  | none =>
    cases connected
    exact ⟨.none rfl, rfl⟩
  | some bytes =>
    obtain ⟨⟨driver, out⟩, started, connected⟩ := Option.bind_eq_some_iff.mp connected
    obtain ⟨nextLinkId, -, connected⟩ := Option.bind_eq_some_iff.mp connected
    cases connected
    exact ⟨.one ⟨driver, none⟩ (.connected started) (sound.unopened rfl) (lookup_insert_update _ _ _), rfl⟩

omit [Sha256] [HmacSha256] [ChaCha20Poly1305] [Ed25519] in
theorem accept_opens {entropy : Option (FixedBytes 32)} {remoteAddr : Address} {nowUs : UInt64}
    {result : Except ApiError (Option LinkOpen)} (sound : Sound (tablesOf node))
    (accepted : node.accept entropy remoteAddr nowUs = some (after, result)) :
    Opens node after ∧ after.store = node.store := by
  rw [Node.accept] at accepted
  cases entropy with
  | none =>
    cases accepted
    exact ⟨.none rfl, rfl⟩
  | some bytes =>
    obtain ⟨⟨limiter, ticket⟩, -, accepted⟩ := Option.bind_eq_some_iff.mp accepted
    cases ticket with
    | none =>
      cases accepted
      exact ⟨.none rfl, rfl⟩
    | some ticket =>
      obtain ⟨nextLinkId, -, accepted⟩ := Option.bind_eq_some_iff.mp accepted
      cases accepted
      exact ⟨.one _ (.accepted _ _ _) (sound.unopened rfl) (lookup_insert_update _ _ _), rfl⟩

theorem onBytes_move {linkId : UInt64} {bytes : List UInt8} {nowUs : UInt64} {io : LinkIo}
    (sound : Sound (tablesOf node)) (handled : node.onBytes linkId bytes nowUs = some (after, io)) :
    Move node io.events after ∧ ∃ added, Grows node.store after.store added ∧
      ∀ id ∈ added.map Entry.id, .entryStored linkId id.bytes ∈ io.events := by
  rw [Node.onBytes] at handled
  dsimp only [Node.clampNow] at handled
  cases found : node.links.lookup linkId with
  | none =>
    rw [found] at handled
    cases handled
    exact ⟨.opens (.none rfl) rfl, [], .refl node.store, by simp⟩
  | some link =>
    rw [found] at handled
    obtain ⟨⟨driver, store, out⟩, called, handled⟩ := Option.bind_eq_some_iff.mp handled
    obtain ⟨effect, step, rfl⟩ := Driver.onBytes_step called
    obtain ⟨added, grown, reported⟩ := step.grows
    have same : Node.afterCall { node with lastNowUs := max node.lastNowUs nowUs, store } linkId link driver
        (effect.on {}) = (after, io) := Option.some.inj handled
    have tables := @tablesOf_afterCall { node with lastNowUs := max node.lastNowUs nowUs, store } linkId link
      sound found driver (effect.on {}) step.follows
    have kept := @store_afterCall { node with lastNowUs := max node.lastNowUs nowUs, store } linkId link
      driver (effect.on {})
    rw [same] at tables kept
    obtain rfl : _ = io := congrArg Prod.snd same
    obtain rfl : after.store = store := kept
    refine ⟨.read found (sound.open_ linkId link found) called (congrArg Tables.link tables), added, grown,
      fun id mem => ?_⟩
    rw [← reported] at mem
    exact List.mem_map_of_mem (mem_storedIds.mp mem)

theorem onTransportClosed_move (node : Node) (linkId nowUs : UInt64) :
    Move node (node.onTransportClosed linkId nowUs).2 (node.onTransportClosed linkId nowUs).1 ∧
      (node.onTransportClosed linkId nowUs).1.store = node.store := by
  rw [Node.onTransportClosed]
  dsimp only [Node.clampNow]
  by_cases live : linkId ∈ node.links
  · obtain ⟨link, found⟩ := Option.isSome_iff_exists.mp (AList.lookup_isSome.mpr live)
    rw [if_pos live]
    have links := congrArg Tables.link
      (@tablesOf_retire { node with lastNowUs := max node.lastNowUs nowUs } linkId link found)
    exact ⟨.removed linkId _ links store_retire, store_retire⟩
  · rw [if_neg live]
    exact ⟨.opens (.none rfl) rfl, rfl⟩

theorem dropExpired_moves (tickets : List UInt64) (node : Node) :
    Moves node (Node.dropExpired tickets node).2 (Node.dropExpired tickets node).1 ∧
      (Node.dropExpired tickets node).1.store = node.store := by
  induction tickets generalizing node with
  | nil => exact ⟨.done node, rfl⟩
  | cons ticket tickets ih =>
    rw [Node.dropExpired]
    cases node.links.entries.find? fun e => e.2.ticket = some ticket with
    | none => exact ih node
    | some e =>
      obtain ⟨moves, kept⟩ := ih { node with links := node.links.erase e.1 }
      exact ⟨.step (.removed e.1 .handshakeTimeout (congrArg Tables.link (tablesOf_erase node e.1)) rfl)
        moves, kept⟩

theorem tickLinks_moves (now : UInt64) (ids : List UInt64) (sound : Sound (tablesOf node)) :
    Moves node (Node.tickLinks now ids node).2 (Node.tickLinks now ids node).1 ∧
      (Node.tickLinks now ids node).1.store = node.store := by
  induction ids generalizing node with
  | nil => exact ⟨.done node, rfl⟩
  | cons id ids ih =>
    rw [Node.tickLinks]
    cases found : node.links.lookup id with
    | none => exact ih sound
    | some link =>
      obtain ⟨role, followed⟩ := Driver.onTick_follows link.driver now
      obtain ⟨moves, kept⟩ := ih ((steps_afterCall sound found role followed).sound sound)
      refine ⟨.step (.ticked now found (sound.open_ id link found) ?_ (store_afterCall _ _)) moves,
        kept.trans (store_afterCall _ _)⟩
      exact congrArg Tables.link (tablesOf_afterCall sound found followed)

theorem Moves.trans {middle : Node} {first second : List Event} (earlier : Moves node first middle)
    (later : Moves middle second after) : Moves node (first ++ second) after := by
  induction earlier with
  | done node => exact later
  | step move rest ih =>
    rw [List.append_assoc]
    exact .step move (ih later)

theorem Moves.touched {middle : Node} {events : List Event}
    (moves : Moves middle events after) (links : (tablesOf middle).link = (tablesOf node).link)
    (kept : middle.store = node.store) : Moves node events after :=
  .step (.opens (.none links) kept) moves

theorem tick_moves (nowUs : UInt64) (sound : Sound (tablesOf node)) :
    Moves node (node.tick nowUs).2 (node.tick nowUs).1 ∧ (node.tick nowUs).1.store = node.store := by
  obtain ⟨first, kept⟩ := @tickLinks_moves _ _ _ _ _ { node with lastNowUs := max node.lastNowUs nowUs }
    (max node.lastNowUs nowUs) node.links.keys sound
  rw [Node.tick]
  dsimp only [Node.clampNow]
  generalize Node.tickLinks (max node.lastNowUs nowUs) node.links.keys
    { node with lastNowUs := max node.lastNowUs nowUs } = out at first kept ⊢
  obtain ⟨middle, events⟩ := out
  obtain ⟨second, kept'⟩ := dropExpired_moves (middle.limiter.expire (max node.lastNowUs nowUs)).2
    { middle with limiter := (middle.limiter.expire (max node.lastNowUs nowUs)).1 }
  have started : Moves node events middle := first.touched rfl rfl
  have rest : Moves middle _ _ := second.touched rfl rfl
  exact ⟨started.trans rest, kept'.trans kept⟩

theorem startSync_cases {linkId : UInt64} {window : SyncWindow} {result : Except ApiError SyncStart}
    (sound : Sound (tablesOf node)) (ran : node.startSync linkId window = some (after, result)) :
    after.store = node.store ∧
      ((∃ error, result = .error error) ∧ (tablesOf after).link = (tablesOf node).link ∨
        ∃ link driver sid out, (tablesOf node).link linkId = some link ∧
          link.driver.openSync node.store window.into = (.ok (sid, out), driver) ∧
          (phaseOf link.driver).follow out.events = some (phaseOf driver) ∧
          result = .ok ⟨sid, out.frames, out.events.map (mapEvent linkId)⟩ ∧
          (tablesOf after).link = ((tablesOf node).advance linkId link driver).link) := by
  rw [Node.startSync] at ran
  cases found : node.links.lookup linkId with
  | none =>
    rw [found] at ran
    cases ran
    exact ⟨rfl, Or.inl ⟨⟨_, rfl⟩, rfl⟩⟩
  | some link =>
    rw [found] at ran
    dsimp only at ran
    rcases called : link.driver.openSync node.store window.into with ⟨⟨error | _⟩ | ⟨sid, out⟩, driver⟩ <;>
      rw [called] at ran <;> cases ran
    · obtain rfl := Driver.openSync_error called
      refine ⟨rfl, Or.inl ⟨⟨_, rfl⟩, ?_⟩⟩
      rw [tablesOf_insert, Tables.put, show some link = (tablesOf node).link linkId from found.symm,
        Function.update_eq_self]
    · obtain ⟨effect, step, rfl⟩ := @Driver.perform_openSync _ _ _ _ _ link.driver driver node.store
        node.store window.into out (by rw [Driver.perform, called])
      exact ⟨store_afterCall _ _, Or.inr ⟨link, driver, sid, _, found, called, step.follows, rfl,
        congrArg Tables.link (tablesOf_afterCall sound found step.follows)⟩⟩

omit [HmacSha256] [X25519] [ChaCha20Poly1305] in
theorem createEntry_links [Ed25519Signer] {kind nowMs : UInt64} {payload : Vec UInt8}
    {result : Except ApiError EntryView}
    (created : node.createEntry kind payload nowMs = some (after, result)) :
    after.links = node.links ∧ (after.store = node.store ∨ ∃ entry frame,
      encodeFrame (.gossipPush ⟨[entry], 0⟩) = .ok frame ∧ after.store = (node.store.insert entry).2) := by
  rw [Node.createEntry] at created
  split at created
  · cases created
    exact ⟨rfl, Or.inl rfl⟩
  · rename_i frame framed
    split at created <;> rename_i inserted <;> cases created <;>
      exact ⟨rfl, Or.inr ⟨_, frame, framed, by rw [inserted]⟩⟩

/-! ## Invariants -/

/-- What a new driver has and every call of a driver over a store with `S` keeps, as it keeps `S`. -/
structure DriverInvariant (S : EntryStore → Prop) (P : LinkDriver → Prop) : Prop where
  begun : ∀ {driver}, Begun driver → P driver
  onBytes : ∀ {driver after : LinkDriver} {store store' bytes nowUs out},
    driver.onBytes store bytes nowUs = some (after, store', out) → S store → P driver → P after ∧ S store'
  onTick : ∀ {driver : LinkDriver} nowUs, P driver → P (driver.onTick nowUs).1
  openSync : ∀ {driver after : LinkDriver} {store window sid out},
    driver.openSync store window = (.ok (sid, out), after) → S store → P driver → P after
  created : ∀ {store : EntryStore} {entry frame}, encodeFrame (.gossipPush ⟨[entry], 0⟩) = .ok frame →
    S store → S (store.insert entry).2

section
variable {S : EntryStore → Prop} {P : LinkDriver → Prop} (all : OnLinks P node) (stored : S node.store)
  (invariant : DriverInvariant S P)
include all invariant

theorem OnLinks.opens (opens : Opens node after) : OnLinks P after := by
  cases opens with
  | none links => exact fun id link found => all id link (links ▸ found)
  | one link begun absent links => exact all.put (fun _ same => by cases same; exact invariant.begun begun) links

include stored

theorem OnLinks.moves {events : List Event} (moves : Moves node events after) :
    OnLinks P after ∧ S after.store := by
  induction moves with
  | done node => exact ⟨all, stored⟩
  | step move rest ih =>
    cases move with
    | opens opens kept => exact ih (all.opens invariant opens) (kept ▸ stored)
    | read found open_ called links =>
      obtain ⟨holds, stored⟩ := invariant.onBytes called stored (all _ _ found)
      exact ih (all.advance holds links) stored
    | ticked nowUs found open_ links kept =>
      exact ih (all.advance (invariant.onTick nowUs (all _ _ found)) links) (kept ▸ stored)
    | removed id cause links kept =>
      exact ih (all.put (fun _ none => by cases none) links) (kept ▸ stored)

theorem OnLinks.startSync {linkId : UInt64} {window : SyncWindow} {result : Except ApiError SyncStart}
    (sound : Sound (tablesOf node)) (ran : node.startSync linkId window = some (after, result)) :
    OnLinks P after := by
  obtain ⟨-, ⟨-, links⟩ | ⟨link, driver, sid, out, found, called, -, -, links⟩⟩ := startSync_cases sound ran
  · exact fun id link found => all id link (links ▸ found)
  · exact all.advance (invariant.openSync called stored (all linkId link found)) links

theorem OnLinks.performed [Ed25519Signer] {call : Call} {report : Report} (sound : Sound (tablesOf node))
    (ran : perform node call = some (after, report)) : OnLinks P after ∧ S after.store := by
  cases call with
  | connect entropy nowUs =>
    obtain ⟨⟨_, result⟩, connected, ⟨⟩⟩ := Option.map_eq_some_iff.mp ran
    obtain ⟨opens, kept⟩ := connect_opens sound connected
    exact ⟨all.opens invariant opens, kept ▸ stored⟩
  | accept entropy remoteAddr nowUs =>
    obtain ⟨⟨_, result⟩, accepted, ⟨⟩⟩ := Option.map_eq_some_iff.mp ran
    obtain ⟨opens, kept⟩ := accept_opens sound accepted
    exact ⟨all.opens invariant opens, kept ▸ stored⟩
  | onBytes linkId bytes nowUs =>
    obtain ⟨⟨_, io⟩, handled, ⟨⟩⟩ := Option.map_eq_some_iff.mp ran
    exact all.moves stored invariant (onBytes_move sound handled).1.alone
  | onTransportClosed linkId nowUs =>
    cases ran
    exact all.moves stored invariant (onTransportClosed_move node linkId nowUs).1.alone
  | tick nowUs =>
    cases ran
    exact all.moves stored invariant (tick_moves nowUs sound).1
  | startSync linkId window =>
    obtain ⟨⟨_, result⟩, opened, ⟨⟩⟩ := Option.map_eq_some_iff.mp ran
    exact ⟨all.startSync stored invariant sound opened, (startSync_cases sound opened).1 ▸ stored⟩
  | createEntry kind payload sortKeyMs =>
    obtain ⟨⟨_, result⟩, created, ⟨⟩⟩ := Option.map_eq_some_iff.mp ran
    obtain ⟨links, store⟩ := createEntry_links created
    refine ⟨fun id link found => all id link ?_, ?_⟩
    · rw [tablesOf, links] at found
      exact found
    · rcases store with kept | ⟨entry, frame, framed, grown⟩
      · exact kept ▸ stored
      · exact grown ▸ invariant.created framed stored

end

end

end Racnet.Proof.Nodes
