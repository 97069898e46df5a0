import Racnet.Proof.Node.Tables

/-!
# The calls of a node

Every call is a sequence of steps on the abstract tables.
-/

namespace Racnet.Proof.Nodes
open Lib Noise Sync Wire Link Api
open Store hiding Node
open Proof.Driver (Phase phaseOf)

def tablesOf (node : Node) : Tables where
  link id := node.links.lookup id
  tickets := node.limiter.halfOpen.keys.toFinset
  nextLink := node.nextLinkId.toNat
  nextTicket := node.limiter.nextTicket.toNat
  capacity := node.limiter.config.maxHalfOpen

section
variable {node : Node} {id : UInt64} {link : LiveLink}

theorem lookup_insert_update (links : AList fun _ : UInt64 => LiveLink) (id : UInt64) (link : LiveLink) :
    (fun other => (links.insert id link).lookup other) =
      Function.update (fun other => links.lookup other) id (some link) := by
  funext other
  by_cases same : other = id
  · subst same
    rw [AList.lookup_insert, Function.update_self]
  · rw [AList.lookup_insert_ne same, Function.update_of_ne same]

theorem lookup_erase_update (links : AList fun _ : UInt64 => LiveLink) (id : UInt64) :
    (fun other => (links.erase id).lookup other) =
      Function.update (fun other => links.lookup other) id none := by
  funext other
  by_cases same : other = id
  · subst same
    rw [AList.lookup_erase, Function.update_self]
  · rw [AList.lookup_erase_ne same, Function.update_of_ne same]

theorem tickets_erase (halfOpen : AList fun _ : UInt64 => UInt64) (ticket : UInt64) :
    (halfOpen.erase ticket).keys.toFinset = halfOpen.keys.toFinset.erase ticket := by
  ext other
  rw [List.mem_toFinset, AList.keys_erase, halfOpen.keys_nodup.mem_erase_iff, Finset.mem_erase,
    List.mem_toFinset]

theorem tablesOf_insert (node : Node) (id : UInt64) (link : LiveLink) :
    tablesOf { node with links := node.links.insert id link } = (tablesOf node).put id (some link) := by
  rw [tablesOf, lookup_insert_update]
  rfl

theorem tablesOf_erase (node : Node) (id : UInt64) :
    tablesOf { node with links := node.links.erase id } = (tablesOf node).put id none := by
  rw [tablesOf, lookup_erase_update]
  rfl

theorem tablesOf_retire (found : node.links.lookup id = some link) :
    tablesOf (node.retire id) = ((tablesOf node).put id none).release link.ticket := by
  rw [Node.retire, found]
  dsimp only
  cases link.ticket with
  | none => exact tablesOf_erase node id
  | some ticket =>
    rw [← tablesOf_erase, tablesOf]
    dsimp only [HandshakeLimiter.closed]
    rw [tickets_erase]
    rfl

theorem tablesOf_releaseTicket (found : node.links.lookup id = some link) :
    tablesOf (node.releaseTicket id) =
      ((tablesOf node).put id (some { link with ticket := none })).release link.ticket := by
  rw [Node.releaseTicket, found]
  dsimp only
  cases owned : link.ticket with
  | none =>
    have same : ({ link with ticket := none } : LiveLink) = link := by rw [← owned]
    have unchanged : (tablesOf node).put id (some link) = tablesOf node := by
      rw [Tables.put, show some link = (tablesOf node).link id from found.symm,
        Function.update_eq_self]
    rw [same, unchanged]
    rfl
  | some ticket =>
    rw [← tablesOf_insert, tablesOf]
    dsimp only [HandshakeLimiter.established]
    rw [tickets_erase]
    rfl

/-! ## Settling the events of a driver -/

theorem settle_established {events : List LinkEvent} {last : Phase}
    (followed : Phase.established.follow events = some last) (node : Node) (id : UInt64) :
    node.settle id (events.map (mapEvent id)) = if last = .closed then node.retire id else node := by
  induction events with
  | nil =>
    cases followed
    rfl
  | cons event events ih =>
    cases event with
    | established remote => cases followed
    | sync event =>
      have ignored : Node.settleEvent id node (mapEvent id (.sync event)) = node := by
        cases event <;> rfl
      rw [List.map_cons, Node.settle, List.foldl_cons, ignored]
      exact ih followed
    | closed reason =>
      change Phase.closed.follow events = some last at followed
      obtain rfl := Driver.follow_closed followed
      cases followed
      rfl

theorem settle_early {events : List LinkEvent} {last : Phase}
    (followed : Phase.early.follow events = some last) (node : Node) (id : UInt64) :
    last = .early ∧ node.settle id (events.map (mapEvent id)) = node ∨
      last = .established ∧ node.settle id (events.map (mapEvent id)) = node.releaseTicket id ∨
      last = .closed ∧ (node.settle id (events.map (mapEvent id)) = node.retire id ∨
        node.settle id (events.map (mapEvent id)) = (node.releaseTicket id).retire id) := by
  cases events with
  | nil =>
    cases followed
    exact Or.inl ⟨rfl, rfl⟩
  | cons event events =>
    cases event with
    | established remote =>
      have settled := settle_established followed (node.releaseTicket id) id
      rcases Driver.follow_established followed with rfl | rfl
      · exact Or.inr (Or.inl ⟨rfl, settled⟩)
      · exact Or.inr (Or.inr ⟨rfl, Or.inr settled⟩)
    | sync event => cases followed
    | closed reason =>
      change Phase.closed.follow events = some last at followed
      obtain rfl := Driver.follow_closed followed
      cases followed
      exact Or.inr (Or.inr ⟨rfl, Or.inl rfl⟩)

theorem put_put (tables : Tables) (id : UInt64) (first second : Option LiveLink) :
    (tables.put id first).put id second = tables.put id second := by
  rw [Tables.put, Tables.put, Function.update_idem]
  rfl

theorem put_release (tables : Tables) (id : UInt64) (link : Option LiveLink) (ticket : Option UInt64) :
    (tables.release ticket).put id link = (tables.put id link).release ticket := rfl

theorem tablesOf_afterCall (sound : Sound (tablesOf node)) (found : node.links.lookup id = some link)
    {driver : LinkDriver} {out : LinkOutput}
    (followed : (phaseOf link.driver).follow out.events = some (phaseOf driver)) :
    tablesOf (node.afterCall id link driver out).1 = (tablesOf node).advance id link driver := by
  have placed := tablesOf_insert node id { link with driver }
  rw [Node.afterCall, Tables.advance]
  dsimp only
  generalize changed : ({ node with links := node.links.insert id { link with driver } } : Node) = after
  rw [changed] at placed
  have found' : after.links.lookup id = some { link with driver } := by
    rw [← changed]
    exact AList.lookup_insert _
  have retired := tablesOf_retire found'
  have released := tablesOf_releaseTicket found'
  rw [placed, put_put] at retired released
  cases phase : phaseOf link.driver with
  | early =>
    rw [phase] at followed
    rcases settle_early followed after id with ⟨last, settled⟩ | ⟨last, settled⟩ | ⟨last, settled⟩
    · rw [last, settled, placed]
    · rw [last, settled, released]
    · rw [last]
      rcases settled with settled | settled
      · rw [settled, retired]
      · have emptied : (after.releaseTicket id).links.lookup id =
            some { link with driver, ticket := none } := by
          have own := congrArg (fun tables => tables.link id) released
          exact own.trans (put_self ..)
        rw [settled, tablesOf_retire emptied, released, put_release, put_put]
        rfl
  | established =>
    have spent : link.ticket = none := by
      rw [← Option.not_isSome_iff_eq_none, sound.ticketed id link found, phase]
      simp
    rw [phase] at followed
    rw [settle_established followed]
    rcases Driver.follow_established followed with last | last
    · rw [last, if_neg (by decide), placed, spent]
      rfl
    · rw [last, if_pos rfl, retired]
  | closed => exact absurd phase (sound.open_ id link found)

end

/-! ## Calls -/

inductive Call where
  | connect (entropy : Option (FixedBytes 32)) (nowUs : UInt64)
  | accept (entropy : Option (FixedBytes 32)) (remoteAddr : Address) (nowUs : UInt64)
  | onBytes (linkId : UInt64) (bytes : List UInt8) (nowUs : UInt64)
  | onTransportClosed (linkId nowUs : UInt64)
  | tick (nowUs : UInt64)
  | startSync (linkId : UInt64) (window : SyncWindow)
  | createEntry (kind : UInt64) (payload : Vec UInt8) (sortKeyMs : UInt64)

/-- What a call returns about links: the one that it opened, and its events. -/
structure Report where
  opened : Option UInt64 := none
  events : List Event := []

def Report.notes (report : Report) : List Note :=
  report.opened.toList.map .opened ++ report.events.map .event

section

theorem notes_opened (id : UInt64) : Report.notes { opened := some id } = [.opened id] := rfl

theorem checked64_toNat {n m : Nat} (checked : checked64 n = some m) : (UInt64.ofNat m).toNat = n := by
  rw [checked64] at checked
  split_ifs at checked with fits
  cases checked
  exact UInt64.toNat_ofNat_of_lt' fits

theorem admit_cases {limiter limiter' : HandshakeLimiter} {addr : Address} {now : UInt64}
    {ticket : Option UInt64} (ran : limiter.admitRemote addr now = some (limiter', ticket)) :
    limiter'.config = limiter.config ∧
      (ticket = none ∧ limiter'.halfOpen = limiter.halfOpen ∧
          limiter'.nextTicket = limiter.nextTicket ∨
        ticket = some limiter.nextTicket ∧ limiter.halfOpenCount < limiter.config.maxHalfOpen ∧
          limiter'.nextTicket.toNat = limiter.nextTicket.toNat + 1 ∧
          ∃ deadline, limiter'.halfOpen = limiter.halfOpen.insert limiter.nextTicket deadline) := by
  rw [HandshakeLimiter.admitRemote] at ran
  by_cases full : limiter.halfOpenCount ≥ limiter.config.maxHalfOpen
  · rw [if_pos full] at ran
    cases ran
    exact ⟨rfl, Or.inl ⟨rfl, rfl, rfl⟩⟩
  rw [if_neg full] at ran
  obtain ⟨bucket, -, ran⟩ := Option.bind_eq_some_iff.mp ran
  by_cases spent : bucket.tokens = 0
  · rw [if_pos spent] at ran
    cases ran
    exact ⟨rfl, Or.inl ⟨rfl, rfl, rfl⟩⟩
  rw [if_neg spent] at ran
  obtain ⟨buckets, -, ran⟩ := Option.bind_eq_some_iff.mp ran
  obtain ⟨nextTicket, checked, ran⟩ := Option.bind_eq_some_iff.mp ran
  cases ran
  exact ⟨rfl, Or.inr ⟨rfl, Nat.lt_of_not_ge full, checked64_toNat checked, _, rfl⟩⟩

theorem tickets_insert (halfOpen : AList fun _ : UInt64 => UInt64) (ticket deadline : UInt64) :
    (halfOpen.insert ticket deadline).keys.toFinset = insert ticket halfOpen.keys.toFinset := by
  ext other
  rw [List.mem_toFinset, AList.mem_keys.symm, AList.mem_insert, Finset.mem_insert, List.mem_toFinset,
    AList.mem_keys]

variable [Sha256] [HmacSha256] [X25519] [ChaCha20Poly1305] [Ed25519] [Ed25519Signer]

def perform (node : Node) : Call → Option (Node × Report)
  | .connect entropy nowUs => (node.connect entropy nowUs).map fun (node, result) =>
    (node, { opened := result.toOption.map LinkOpen.linkId })
  | .accept entropy remoteAddr nowUs => (node.accept entropy remoteAddr nowUs).map fun (node, result) =>
    (node, { opened := result.toOption.join.map LinkOpen.linkId })
  | .onBytes linkId bytes nowUs => (node.onBytes linkId bytes nowUs).map fun (node, io) =>
    (node, { events := io.events })
  | .onTransportClosed linkId nowUs =>
    let (node, events) := node.onTransportClosed linkId nowUs
    some (node, { events })
  | .tick nowUs =>
    let (node, events) := node.tick nowUs
    some (node, { events })
  | .startSync linkId window => (node.startSync linkId window).map fun (node, result) =>
    (node, { events := (result.toOption.map fun start => start.io.events).getD [] })
  | .createEntry kind payload sortKeyMs =>
    (node.createEntry kind payload sortKeyMs).map fun (node, _) => (node, {})

variable {node after : Node} {report : Report}

omit [Sha256] [HmacSha256] [X25519] [ChaCha20Poly1305] [Ed25519] [Ed25519Signer] in
theorem steps_afterCall {id : UInt64} {link : LiveLink} (sound : Sound (tablesOf node))
    (found : node.links.lookup id = some link) {driver : LinkDriver} {out : LinkOutput}
    (role : driver.role = link.driver.role)
    (followed : (phaseOf link.driver).follow out.events = some (phaseOf driver)) :
    Steps (tablesOf node) ((node.afterCall id link driver out).2.events.map .event)
      (tablesOf (node.afterCall id link driver out).1) := by
  have step : Step (tablesOf node) (mapped id out.events) ((tablesOf node).advance id link driver) :=
    .driven id link driver out.events found role followed
  rw [tablesOf_afterCall sound found followed, Node.afterCall]
  dsimp only
  rw [List.map_map]
  exact .one step

omit [Ed25519Signer] in
theorem start_early {driver after : LinkDriver} {out : LinkOutput}
    (ran : driver.start = some (after, out)) (early : phaseOf driver = .early) :
    phaseOf after = .early ∧ after.role = driver.role := by
  obtain ⟨effect, step, -⟩ := @Driver.perform_start _ _ _ _ _ driver after EntryStore.new EntryStore.new
    out (by rw [Driver.perform, ran]; rfl)
  refine ⟨?_, step.role⟩
  cases step with
  | idle => exact early
  | started body role waiting encoded => exact early
  | sent transport last syncer msg frame established => cases early.symm.trans (by rw [phaseOf, established])
  | exhausted transport last syncer msg error established =>
    cases early.symm.trans (by rw [phaseOf, established])

omit [Sha256] [HmacSha256] [X25519] [ChaCha20Poly1305] [Ed25519] [Ed25519Signer] in
theorem tablesOf_open (node : Node) (link : LiveLink) {next : Nat}
    (checked : checked64 (node.nextLinkId.toNat + 1) = some next) :
    tablesOf { node with
        nextLinkId := UInt64.ofNat next
        links := node.links.insert node.nextLinkId link } =
      { (tablesOf node).put node.nextLinkId (some link) with
        nextLink := (tablesOf node).nextLink + 1 } := by
  rw [tablesOf, lookup_insert_update]
  dsimp only
  rw [checked64_toNat checked]
  rfl

theorem connect_steps {entropy : Option (FixedBytes 32)} {nowUs : UInt64}
    (ran : perform node (.connect entropy nowUs) = some (after, report)) :
    Steps (tablesOf node) report.notes (tablesOf after) := by
  obtain ⟨⟨node', result⟩, connected, same⟩ := Option.map_eq_some_iff.mp ran
  obtain ⟨rfl, rfl⟩ := Prod.mk.inj same
  rw [Node.connect] at connected
  cases entropy with
  | none =>
    cases connected
    exact .done
  | some bytes =>
    obtain ⟨⟨driver, out⟩, started, connected⟩ := Option.bind_eq_some_iff.mp connected
    obtain ⟨nextLinkId, checked, connected⟩ := Option.bind_eq_some_iff.mp connected
    cases connected
    obtain ⟨early, role⟩ := start_early started rfl
    have step := @Step.connected (tablesOf node) node.nextLinkId driver rfl role early
    rw [← tablesOf_open node ⟨driver, none⟩ checked] at step
    exact .one step

theorem accept_steps {entropy : Option (FixedBytes 32)} {remoteAddr : Address} {nowUs : UInt64}
    (ran : perform node (.accept entropy remoteAddr nowUs) = some (after, report)) :
    Steps (tablesOf node) report.notes (tablesOf after) := by
  obtain ⟨⟨node', result⟩, accepted, same⟩ := Option.map_eq_some_iff.mp ran
  obtain ⟨rfl, rfl⟩ := Prod.mk.inj same
  rw [Node.accept] at accepted
  cases entropy with
  | none =>
    cases accepted
    exact .done
  | some bytes =>
    obtain ⟨⟨limiter, ticket⟩, admitted, accepted⟩ := Option.bind_eq_some_iff.mp accepted
    obtain ⟨config, cases⟩ := admit_cases admitted
    rcases cases with ⟨rfl, halfOpen, nextTicket⟩ | ⟨rfl, room, nextTicket, deadline, halfOpen⟩
    · cases accepted
      have unchanged : tablesOf { node with lastNowUs := max node.lastNowUs nowUs, limiter } =
          tablesOf node := by
        simp only [tablesOf, halfOpen, nextTicket, config]
      exact unchanged ▸ Steps.done
    · obtain ⟨nextLinkId, checked, accepted⟩ := Option.bind_eq_some_iff.mp accepted
      cases accepted
      have count : (tablesOf node).tickets.card = node.limiter.halfOpenCount :=
        List.toFinset_card_of_nodup node.limiter.halfOpen.keys_nodup
      have step := @Step.accepted (tablesOf node) node.nextLinkId node.limiter.nextTicket
        (LinkDriver.new .responder (.fromSecretBytes node.noiseSeed) (.fromSecretBytes bytes) .default
          (max node.lastNowUs nowUs)) rfl rfl (by rw [count]; exact room) rfl rfl
      have opened := tablesOf_open { node with lastNowUs := max node.lastNowUs nowUs, limiter }
        ⟨LinkDriver.new .responder (.fromSecretBytes node.noiseSeed) (.fromSecretBytes bytes) .default
          (max node.lastNowUs nowUs), some node.limiter.nextTicket⟩ checked
      have issued : tablesOf { node with lastNowUs := max node.lastNowUs nowUs, limiter } =
          { tablesOf node with
            tickets := insert node.limiter.nextTicket (tablesOf node).tickets
            nextTicket := (tablesOf node).nextTicket + 1 } := by
        simp only [tablesOf, halfOpen, nextTicket, config, tickets_insert]
      rw [issued] at opened
      exact opened ▸ Steps.one step

theorem onBytes_steps {linkId : UInt64} {bytes : List UInt8} {nowUs : UInt64}
    (sound : Sound (tablesOf node))
    (ran : perform node (.onBytes linkId bytes nowUs) = some (after, report)) :
    Steps (tablesOf node) report.notes (tablesOf after) := by
  obtain ⟨⟨node', io⟩, handled, same⟩ := Option.map_eq_some_iff.mp ran
  obtain ⟨rfl, rfl⟩ := Prod.mk.inj same
  rw [Node.onBytes] at handled
  dsimp only [Node.clampNow] at handled
  cases found : node.links.lookup linkId with
  | none =>
    rw [found] at handled
    cases handled
    exact .done
  | some link =>
    rw [found] at handled
    obtain ⟨⟨driver, store, out⟩, called, handled⟩ := Option.bind_eq_some_iff.mp handled
    obtain ⟨effect, step, rfl⟩ := Driver.onBytes_step called
    cases handled
    exact @steps_afterCall { node with lastNowUs := max node.lastNowUs nowUs, store } linkId link sound
      found driver (effect.on {}) step.keeps.1 step.follows

omit [Sha256] [HmacSha256] [X25519] [ChaCha20Poly1305] [Ed25519] [Ed25519Signer] in
theorem steps_retire {id : UInt64} {link : LiveLink} (found : node.links.lookup id = some link)
    (cause : CloseCause) :
    Steps (tablesOf node) [.event (.closed id cause)] (tablesOf (node.retire id)) := by
  rw [tablesOf_retire found]
  exact .one (.retired id link cause found)

theorem onTransportClosed_steps {linkId nowUs : UInt64}
    (ran : perform node (.onTransportClosed linkId nowUs) = some (after, report)) :
    Steps (tablesOf node) report.notes (tablesOf after) := by
  rw [perform, Node.onTransportClosed] at ran
  dsimp only [Node.clampNow] at ran
  by_cases live : linkId ∈ node.links
  · obtain ⟨link, found⟩ := Option.isSome_iff_exists.mp (AList.lookup_isSome.mpr live)
    rw [if_pos live] at ran
    cases ran
    exact @steps_retire { node with lastNowUs := max node.lastNowUs nowUs } linkId link found
      .transportClosed
  · rw [if_neg live] at ran
    cases ran
    exact .done

theorem startSync_steps {linkId : UInt64} {window : SyncWindow} (sound : Sound (tablesOf node))
    (ran : perform node (.startSync linkId window) = some (after, report)) :
    Steps (tablesOf node) report.notes (tablesOf after) := by
  obtain ⟨⟨node', result⟩, opened, same⟩ := Option.map_eq_some_iff.mp ran
  obtain ⟨rfl, rfl⟩ := Prod.mk.inj same
  rw [Node.startSync] at opened
  cases found : node.links.lookup linkId with
  | none =>
    rw [found] at opened
    cases opened
    exact .done
  | some link =>
    rw [found] at opened
    dsimp only at opened
    have performed : ∀ out driver, Driver.perform link.driver node.store (.openSync window.into) =
        some (driver, node.store, out) → driver.role = link.driver.role ∧
          (phaseOf link.driver).follow out.events = some (phaseOf driver) := by
      intro out driver ran
      obtain ⟨effect, step, rfl⟩ := Driver.perform_openSync ran
      exact ⟨step.role, step.follows⟩
    rw [Driver.perform] at performed
    rcases called : link.driver.openSync node.store window.into with ⟨⟨error | _⟩ | ⟨sid, out⟩, driver⟩
    · rw [called] at opened performed
      cases opened
      obtain ⟨role, followed⟩ := performed {} driver rfl
      exact @steps_afterCall node linkId link sound found driver {} role followed
    · rw [called] at opened
      cases opened
    · rw [called] at opened performed
      obtain ⟨role, followed⟩ := performed out driver rfl
      cases opened
      exact steps_afterCall sound found role followed

theorem createEntry_steps {kind sortKeyMs : UInt64} {payload : Vec UInt8}
    (ran : perform node (.createEntry kind payload sortKeyMs) = some (after, report)) :
    Steps (tablesOf node) report.notes (tablesOf after) := by
  obtain ⟨⟨node', result⟩, created, same⟩ := Option.map_eq_some_iff.mp ran
  obtain ⟨rfl, rfl⟩ := Prod.mk.inj same
  rw [Node.createEntry] at created
  split at created
  · cases created
    exact .done
  · split at created
    · cases created
    · cases created
      exact .done
    · cases created
      exact .done

/-! ## Ticks -/

omit [Ed25519Signer] in
theorem tickLinks_steps (now : UInt64) (ids : List UInt64) {node : Node}
    (sound : Sound (tablesOf node)) :
    Steps (tablesOf node) ((Node.tickLinks now ids node).2.map .event)
      (tablesOf (Node.tickLinks now ids node).1) := by
  induction ids generalizing node with
  | nil => exact .done
  | cons id ids ih =>
    rw [Node.tickLinks]
    cases found : node.links.lookup id with
    | none => exact ih sound
    | some link =>
      obtain ⟨role, followed⟩ := Driver.onTick_follows link.driver now
      have first := steps_afterCall sound found role followed
      dsimp only
      rw [List.map_append]
      exact first.trans (ih (first.sound sound))

omit [Sha256] [HmacSha256] [X25519] [ChaCha20Poly1305] [Ed25519] [Ed25519Signer] in
theorem dropExpired_steps (tickets : List UInt64) {node : Node} (sound : Sound (tablesOf node))
    (nodup : tickets.Nodup) (held : ∀ ticket ∈ tickets, ticket ∈ node.limiter.halfOpen) :
    let expired := { node with limiter := { node.limiter with
      halfOpen := tickets.foldl (fun table ticket => table.erase ticket) node.limiter.halfOpen } }
    Steps (tablesOf node) ((Node.dropExpired tickets expired).2.map .event)
      (tablesOf (Node.dropExpired tickets expired).1) := by
  induction tickets generalizing node with
  | nil => exact .done
  | cons ticket tickets ih =>
    intro expired
    obtain ⟨fresh, nodup⟩ := List.nodup_cons.mp nodup
    have mem : ticket ∈ (tablesOf node).tickets :=
      List.mem_toFinset.mpr (AList.mem_keys.mp (held ticket List.mem_cons_self))
    obtain ⟨id, link, found, owned⟩ := (sound.held ticket).mp mem
    rw [Node.dropExpired]
    cases search : expired.links.entries.find? fun e => e.2.ticket = some ticket with
    | none =>
      have missing := List.find?_eq_none.mp search ⟨id, link⟩ (AList.mem_lookup_iff.mp found)
      simp [owned] at missing
    | some e =>
      have owner : e.2.ticket = some ticket := by simpa using List.find?_some search
      have live : node.links.lookup e.1 = some e.2 :=
        AList.mem_lookup_iff.mpr (List.mem_of_find?_eq_some search)
      have retired : node.retire e.1 = { node with
          links := node.links.erase e.1
          limiter := node.limiter.closed ticket } := by
        rw [Node.retire, live]
        dsimp only
        rw [owner]
      have first := steps_retire live .handshakeTimeout
      have later := ih (first.sound sound) nodup fun other mem => by
        rw [retired]
        exact AList.mem_erase.mpr ⟨fun same => fresh (same ▸ mem),
          held other (List.mem_cons_of_mem _ mem)⟩
      rw [retired] at first later
      exact first.trans later

omit [Sha256] [HmacSha256] [X25519] [ChaCha20Poly1305] [Ed25519] [Ed25519Signer] in
theorem expired_held (limiter : HandshakeLimiter) (now : UInt64) :
    (limiter.expire now).2.Nodup ∧ ∀ ticket ∈ (limiter.expire now).2, ticket ∈ limiter.halfOpen := by
  have sub : (limiter.expire now).2.Sublist limiter.halfOpen.keys :=
    List.Sublist.map Sigma.fst List.filter_sublist
  exact ⟨limiter.halfOpen.keys_nodup.sublist sub, fun ticket mem =>
    AList.mem_keys.mpr (sub.subset mem)⟩

theorem tick_steps {nowUs : UInt64} (sound : Sound (tablesOf node))
    (ran : perform node (.tick nowUs) = some (after, report)) :
    Steps (tablesOf node) report.notes (tablesOf after) := by
  cases ran
  have first := @tickLinks_steps _ _ _ _ _ (max node.lastNowUs nowUs) node.links.keys
    { node with lastNowUs := max node.lastNowUs nowUs } sound
  have sound' := first.sound sound
  obtain ⟨nodup, held⟩ := expired_held
    (Node.tickLinks (max node.lastNowUs nowUs) node.links.keys
      { node with lastNowUs := max node.lastNowUs nowUs }).1.limiter (max node.lastNowUs nowUs)
  have second := dropExpired_steps _ sound' nodup held
  have steps := first.trans second
  rw [← List.map_append] at steps
  exact steps

theorem perform_steps {call : Call} (sound : Sound (tablesOf node))
    (ran : perform node call = some (after, report)) :
    Steps (tablesOf node) report.notes (tablesOf after) := by
  cases call with
  | connect entropy nowUs => exact connect_steps ran
  | accept entropy remoteAddr nowUs => exact accept_steps ran
  | onBytes linkId bytes nowUs => exact onBytes_steps sound ran
  | onTransportClosed linkId nowUs => exact onTransportClosed_steps ran
  | tick nowUs => exact tick_steps sound ran
  | startSync linkId window => exact startSync_steps sound ran
  | createEntry kind payload sortKeyMs => exact createEntry_steps ran

end

end Racnet.Proof.Nodes
