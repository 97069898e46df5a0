import Racnet.Proof.Node.Refinement

/-!
# Runs of a node

Half-open slots are neither leaked nor counted twice, and every link is reported closed once.
-/

namespace Racnet.Proof.Nodes
open Lib Noise Sync Wire Link Api
open Store hiding Node
open Proof.Driver (Phase phaseOf)

/-! ## The life of a link, as it is told -/

theorem follow_cons {stage last : Stage} {kind : Kind} {kinds : List Kind}
    (followed : stage.follow (kind :: kinds) = some last) :
    ∃ next, stage.next kind = some next ∧ next.follow kinds = some last :=
  Option.bind_eq_some_iff.mp followed

theorem next_ne_unopened {stage next : Stage} {kind : Kind} (stepped : stage.next kind = some next) :
    next ≠ .unopened := by
  rintro rfl
  cases stage <;> cases kind <;> cases stepped

theorem follow_unopened {stage : Stage} {kinds : List Kind}
    (followed : stage.follow kinds = some .unopened) : stage = .unopened ∧ kinds = [] := by
  induction kinds generalizing stage with
  | nil => exact ⟨Option.some.inj followed, rfl⟩
  | cons kind kinds ih =>
    obtain ⟨next, stepped, rest⟩ := follow_cons followed
    exact absurd (ih rest).1 (next_ne_unopened stepped)

theorem follow_gone {last : Stage} {kinds : List Kind}
    (followed : Stage.gone.follow kinds = some last) : kinds = [] := by
  cases kinds with
  | nil => rfl
  | cons kind kinds =>
    obtain ⟨next, stepped, -⟩ := follow_cons followed
    cases kind <;> cases stepped

theorem opened_once {stage last : Stage} {kinds : List Kind} (was : stage ≠ .unopened)
    (followed : stage.follow kinds = some last) : .opened ∉ kinds := by
  induction kinds generalizing stage with
  | nil => simp
  | cons kind kinds ih =>
    obtain ⟨next, stepped, rest⟩ := follow_cons followed
    intro mem
    rcases List.mem_cons.mp mem with rfl | later
    · cases stage with
      | unopened => exact was rfl
      | early | established | gone => cases stepped
    · exact ih (next_ne_unopened stepped) rest later

theorem gone_iff {stage last : Stage} {kinds : List Kind} (live : stage ≠ .gone)
    (followed : stage.follow kinds = some last) : last = .gone ↔ .closed ∈ kinds := by
  induction kinds generalizing stage with
  | nil =>
    cases followed
    simp [live]
  | cons kind kinds ih =>
    obtain ⟨next, stepped, rest⟩ := follow_cons followed
    by_cases ended : next = .gone
    · subst ended
      have closed : kind = .closed := by
        cases stage <;> cases kind <;> cases stepped <;> rfl
      rw [follow_gone rest] at rest
      cases rest
      simp [closed]
    · have other : kind ≠ .closed := by
        rintro rfl
        cases stage <;> cases stepped <;> exact ended rfl
      rw [ih ended rest, List.mem_cons, or_iff_right other.symm]

def MayClose (events : List Event) : Prop := events = [] ∨ ∃ id cause, events = [.closed id cause]

/-- At most one Established, only after it events of entries and sessions, and at most one Closed at
the end. -/
inductive WellFormed : List Event → Prop where
  | early {ending : List Event} (last : MayClose ending) : WellFormed ending
  | established {session ending : List Event} (id : UInt64) (remote : List UInt8)
      (inner : ∀ event ∈ session, reportKind event = .sync) (last : MayClose ending) :
      WellFormed (.established id remote :: (session ++ ending))

theorem mayClose_cons {event : Event} {events : List Event} {last : Stage}
    (kind : reportKind event = .closed)
    (followed : Stage.gone.follow (events.map reportKind) = some last) :
    MayClose (event :: events) := by
  rw [List.map_eq_nil_iff.mp (follow_gone followed)]
  cases event with
  | closed id cause => exact Or.inr ⟨id, cause, rfl⟩
  | established | entryStored | duplicateIgnored | reconciled | syncSessionClosed => cases kind

theorem session_of_follow {events : List Event} {last : Stage}
    (followed : Stage.established.follow (events.map reportKind) = some last) :
    ∃ session ending, events = session ++ ending ∧ (∀ event ∈ session, reportKind event = .sync) ∧
      MayClose ending := by
  induction events with
  | nil => exact ⟨[], [], rfl, by simp, Or.inl rfl⟩
  | cons event events ih =>
    obtain ⟨next, stepped, rest⟩ := follow_cons followed
    cases kind : reportKind event with
    | sync =>
      rw [kind] at stepped
      cases stepped
      obtain ⟨session, ending, split, inner, last⟩ := ih rest
      refine ⟨event :: session, ending, by rw [split]; rfl, ?_, last⟩
      intro other mem
      rcases List.mem_cons.mp mem with rfl | mem
      · exact kind
      · exact inner other mem
    | closed =>
      rw [kind] at stepped
      cases stepped
      exact ⟨[], event :: events, rfl, by simp, mayClose_cons kind rest⟩
    | opened | established =>
      rw [kind] at stepped
      cases stepped

theorem wellFormed_of_follow {events : List Event} {last : Stage}
    (followed : Stage.early.follow (events.map reportKind) = some last) : WellFormed events := by
  cases events with
  | nil => exact .early (Or.inl rfl)
  | cons event events =>
    obtain ⟨next, stepped, rest⟩ := follow_cons followed
    cases event with
    | established id remote =>
      cases stepped
      obtain ⟨session, ending, rfl, inner, last⟩ := session_of_follow rest
      exact .established id remote inner last
    | closed id cause =>
      cases stepped
      exact .early (mayClose_cons rfl rest)
    | entryStored | duplicateIgnored | reconciled | syncSessionClosed => cases stepped

/-! ## Runs -/

/-- The order in which a hash map is walked is not specified, so at any call it may be another one. -/
structure Shuffled (node after : Node) : Prop where
  links : after.links.entries.Perm node.links.entries
  halfOpen : after.limiter.halfOpen.entries.Perm node.limiter.halfOpen.entries
  rest : after = { node with
    links := after.links
    limiter := { node.limiter with halfOpen := after.limiter.halfOpen } }

theorem Shuffled.refl (node : Node) : Shuffled node node := ⟨.rfl, .rfl, rfl⟩

theorem tablesOf_shuffled {node after : Node} (shuffled : Shuffled node after) :
    tablesOf after = tablesOf node := by
  have links : (fun id => after.links.lookup id) = fun id => node.links.lookup id :=
    funext fun id => AList.perm_lookup shuffled.links
  have tickets : after.limiter.halfOpen.keys.toFinset = node.limiter.halfOpen.keys.toFinset :=
    List.toFinset_eq_of_perm _ _ (shuffled.halfOpen.map Sigma.fst)
  rw [tablesOf, links, tickets, shuffled.rest]
  rfl

structure Moment where
  before : Node
  call : Call
  report : Report
  after : Node

/-- A node as it is made, with the store that it was opened with. -/
def Fresh [Sha256] [X25519] (node : Node) : Prop :=
  ∃ identity made, Node.new identity = .ok made ∧ ∃ store, node = { made with store }

section
variable [Sha256] [HmacSha256] [X25519] [ChaCha20Poly1305] [Ed25519] [Ed25519Signer]

inductive Runs : Node → List Moment → Node → Prop where
  | done {node : Node} : Runs node [] node
  | call {node shuffled after last : Node} {call : Call} {report : Report} {moments : List Moment}
      (order : Shuffled node shuffled) (ran : perform shuffled call = some (after, report))
      (later : Runs after moments last) : Runs node (⟨node, call, report, after⟩ :: moments) last

variable {node last : Node} {moments : List Moment}

omit [HmacSha256] [ChaCha20Poly1305] [Ed25519] [Ed25519Signer] in
theorem sound_fresh (fresh : Fresh node) : Sound (tablesOf node) ∧ node.links = ∅ ∧
    node.nextLinkId = 0 := by
  obtain ⟨identity, made, new, store, rfl⟩ := fresh
  rw [Node.new] at new
  obtain ⟨noiseSeed, -, new⟩ := except_bind_ok new
  obtain ⟨signingSeed, -, new⟩ := except_bind_ok new
  cases new
  have absent : ∀ id, AList.lookup id (∅ : AList fun _ : UInt64 => LiveLink) = none :=
    fun id => AList.lookup_empty id
  refine ⟨⟨?_, ?_, ?_, ?_, Nat.zero_le _, ?_, ?_⟩, rfl, rfl⟩
  · intro id link found
    cases (absent id).symm.trans found
  · intro id link found
    cases (absent id).symm.trans found
  · intro ticket
    refine ⟨fun mem => absurd mem (Finset.notMem_empty ticket), ?_⟩
    rintro ⟨id, link, found, -⟩
    cases (absent id).symm.trans found
  · intro id other link link' ticket found
    cases (absent id).symm.trans found
  · intro ticket mem
    exact absurd mem (Finset.notMem_empty ticket)
  · intro id link found
    cases (absent id).symm.trans found

theorem Runs.sound (runs : Runs node moments last) (sound : Sound (tablesOf node)) :
    Sound (tablesOf last) := by
  induction runs with
  | done => exact sound
  | call order ran later ih =>
    rw [← tablesOf_shuffled order] at sound
    exact ih ((perform_steps sound ran).sound sound)

/-! ## Half-open slots -/

/-- The tickets of the limiter are those of the half-open links of responders. -/
structure Slots (node : Node) : Prop where
  held : ∀ ticket, ticket ∈ node.limiter.halfOpen ↔
    ∃ id link, node.links.lookup id = some link ∧ link.ticket = some ticket
  apart : ∀ id other link link' ticket, node.links.lookup id = some link →
    node.links.lookup other = some link' → link.ticket = some ticket →
    link'.ticket = some ticket → id = other
  ticketed : ∀ id link, node.links.lookup id = some link →
    (link.ticket.isSome ↔ link.driver.role = .responder ∧ link.driver.isEstablished = false)
  capped : node.limiter.halfOpenCount ≤ node.limiter.config.maxHalfOpen
  open_ : ∀ id link, node.links.lookup id = some link → link.driver.isClosed = false

omit [Sha256] [HmacSha256] [X25519] [ChaCha20Poly1305] [Ed25519] [Ed25519Signer] in
theorem Sound.slots (sound : Sound (tablesOf node)) : Slots node where
  held ticket := by
    rw [AList.mem_keys, ← List.mem_toFinset]
    exact sound.held ticket
  apart := sound.apart
  ticketed id link found := by
    rw [sound.ticketed id link found]
    refine and_congr_right fun _ => ?_
    have open_ := sound.open_ id link found
    rw [← Bool.not_eq_true, Driver.isEstablished_iff]
    cases phase : phaseOf link.driver with
    | early | established => simp
    | closed => exact absurd phase open_
  capped := by
    rw [HandshakeLimiter.halfOpenCount,
      ← List.toFinset_card_of_nodup node.limiter.halfOpen.keys_nodup]
    exact sound.capped
  open_ id link found := by
    rw [← Bool.not_eq_true, Driver.isClosed_iff]
    exact sound.open_ id link found

theorem half_open_slots (fresh : Fresh node) (runs : Runs node moments last) : Slots last :=
  (runs.sound (sound_fresh fresh).1).slots

/-! ## Every link is reported closed once -/

omit [Sha256] [HmacSha256] [X25519] [ChaCha20Poly1305] [Ed25519] [Ed25519Signer] in
theorem mem_links_iff (sound : Sound (tablesOf node)) (id : UInt64) :
    id ∈ node.links ↔ (tablesOf node).stageIn id ≠ .unopened ∧ (tablesOf node).stageIn id ≠ .gone := by
  rw [← AList.lookup_isSome]
  cases found : node.links.lookup id with
  | none =>
    rw [Tables.stageIn, show (tablesOf node).link id = none from found]
    dsimp only
    split_ifs <;> simp
  | some link =>
    have open_ := sound.open_ id link found
    rw [stageIn_found (tablesOf node) found]
    cases phase : phaseOf link.driver with
    | early | established => simp [stageOf]
    | closed => exact absurd phase open_

def eventsAbout (id : UInt64) (events : List Event) : List Event :=
  events.filter fun event => event.linkId = id

omit [Sha256] [HmacSha256] [X25519] [ChaCha20Poly1305] [Ed25519] [Ed25519Signer] in
theorem about_events (id : UInt64) (events : List Event) :
    about id (events.map .event) = (eventsAbout id events).map reportKind := by
  rw [about, List.filter_map, List.map_map, eventsAbout]
  rfl

omit [Sha256] [HmacSha256] [X25519] [ChaCha20Poly1305] [Ed25519] [Ed25519Signer] in
theorem about_notes (id : UInt64) (report : Report) :
    about id report.notes =
      (if report.opened = some id then [.opened] else []) ++
        (eventsAbout id report.events).map reportKind := by
  rw [Report.notes, about_append, about_events]
  congr 1
  cases report.opened with
  | none => rfl
  | some opened =>
    by_cases same : opened = id
    · subst same
      rw [if_pos rfl]
      exact about_one_self opened rfl
    · rw [if_neg fun eq => same (Option.some.inj eq)]
      exact about_one_other fun eq => same eq.symm

omit [Sha256] [HmacSha256] [X25519] [ChaCha20Poly1305] [Ed25519] [Ed25519Signer] in
theorem reportKind_ne_opened (event : Event) : reportKind event ≠ .opened := by
  cases event <;> simp [reportKind]

omit [Sha256] [HmacSha256] [X25519] [ChaCha20Poly1305] [Ed25519] [Ed25519Signer] in
theorem closed_mem_iff (id : UInt64) (report : Report) :
    .closed ∈ about id report.notes ↔ ∃ cause, .closed id cause ∈ report.events := by
  rw [about_notes, List.mem_append, List.mem_map]
  constructor
  · rintro (opened | ⟨event, mem, kind⟩)
    · split_ifs at opened <;> simp at opened
    · rw [eventsAbout, List.mem_filter] at mem
      cases event with
      | closed other cause =>
        obtain rfl : other = id := of_decide_eq_true mem.2
        exact ⟨cause, mem.1⟩
      | established | entryStored | duplicateIgnored | reconciled | syncSessionClosed => cases kind
  · rintro ⟨cause, mem⟩
    exact Or.inr ⟨_, List.mem_filter.mpr ⟨mem, by simp [Event.linkId]⟩, rfl⟩

theorem perform_opened {after : Node} {call : Call} {report : Report} {id : UInt64}
    (ran : perform node call = some (after, report)) (opened : report.opened = some id) :
    report.events = [] := by
  cases call with
  | connect | accept | createEntry =>
    obtain ⟨_, -, same⟩ := Option.map_eq_some_iff.mp ran
    cases same
    rfl
  | onBytes | startSync =>
    obtain ⟨_, -, same⟩ := Option.map_eq_some_iff.mp ran
    cases same
    cases opened
  | onTransportClosed | tick =>
    cases ran
    cases opened

/-- A link enters the table in the call that opens it, and leaves it in the call that reports it
closed. -/
structure Lifecycle (moment : Moment) : Prop where
  leaves : ∀ id ∈ moment.before.links,
    id ∉ moment.after.links ↔ ∃ cause, .closed id cause ∈ moment.report.events
  enters : ∀ id ∉ moment.before.links,
    (id ∈ moment.after.links ↔ moment.report.opened = some id) ∧
      eventsAbout id moment.report.events = []

omit [Sha256] [HmacSha256] [X25519] [ChaCha20Poly1305] [Ed25519] [Ed25519Signer] in
theorem lifecycle_of_steps {before after : Node} {call : Call} {report : Report}
    (sound : Sound (tablesOf before))
    (steps : Steps (tablesOf before) report.notes (tablesOf after))
    (quiet : ∀ id, report.opened = some id → report.events = []) :
    Lifecycle ⟨before, call, report, after⟩ := by
  have sound' := steps.sound sound
  constructor
  · intro id live
    obtain ⟨opened, present⟩ := (mem_links_iff sound id).mp live
    have followed := steps.follows sound id
    have later : (tablesOf after).stageIn id ≠ .unopened := fun eq =>
      opened (follow_unopened (eq ▸ followed)).1
    rw [← closed_mem_iff, ← gone_iff present followed, mem_links_iff sound' id, not_and_not_right]
    exact ⟨fun gone => gone later, fun gone _ => gone⟩
  · intro id absent
    have followed := steps.follows sound id
    rw [about_notes] at followed
    by_cases opened : report.opened = some id
    · rw [if_pos opened, quiet id opened] at followed
      have silent : eventsAbout id report.events = [] := by
        rw [quiet id opened]
        rfl
      refine ⟨iff_of_true ((mem_links_iff sound' id).mpr ?_) opened, silent⟩
      obtain ⟨next, stepped, last⟩ := follow_cons followed
      cases stage : (tablesOf before).stageIn id with
      | unopened =>
        rw [stage] at stepped
        cases stepped
        rw [← Option.some.inj last]
        decide
      | early | established | gone =>
        rw [stage] at stepped
        cases stepped
    · rw [if_neg opened, List.nil_append] at followed
      have none : (eventsAbout id report.events).map reportKind = [] := by
        cases stage : (tablesOf before).stageIn id with
        | gone =>
          rw [stage] at followed
          exact follow_gone followed
        | unopened =>
          cases kinds : (eventsAbout id report.events).map reportKind with
          | nil => rfl
          | cons kind rest =>
            have kind_ne : kind ≠ .opened := by
              have mem : kind ∈ (eventsAbout id report.events).map reportKind := by
                rw [kinds]
                exact List.mem_cons_self
              obtain ⟨event, -, rfl⟩ := List.mem_map.mp mem
              exact reportKind_ne_opened event
            rw [stage, kinds] at followed
            obtain ⟨next, stepped, -⟩ := follow_cons followed
            cases kind with
            | opened => exact absurd rfl kind_ne
            | established | sync | closed => cases stepped
        | early | established =>
          exact absurd ((mem_links_iff sound id).mpr (by rw [stage]; decide)) absent
      rw [none] at followed
      have stays := Option.some.inj followed
      refine ⟨iff_of_false ?_ opened, List.map_eq_nil_iff.mp none⟩
      rw [mem_links_iff sound' id, ← stays, ← mem_links_iff sound id]
      exact absent

theorem Runs.follows (runs : Runs node moments last) (sound : Sound (tablesOf node)) (id : UInt64) :
    ((tablesOf node).stageIn id).follow (about id (moments.flatMap fun moment => moment.report.notes)) =
      some ((tablesOf last).stageIn id) := by
  induction runs with
  | done => rfl
  | call order ran later ih =>
    rw [← tablesOf_shuffled order] at sound ⊢
    have steps := perform_steps sound ran
    rw [List.flatMap_cons, about_append, Stage.follow_append, steps.follows sound]
    exact ih (steps.sound sound)

omit [Sha256] [HmacSha256] [X25519] [ChaCha20Poly1305] [Ed25519] [Ed25519Signer] in
theorem about_moments (id : UInt64) (moments : List Moment) :
    (about id (moments.flatMap fun moment => moment.report.notes)).filter (· ≠ .opened) =
      (eventsAbout id (moments.flatMap fun moment => moment.report.events)).map reportKind := by
  induction moments with
  | nil => rfl
  | cons moment moments ih =>
    have kept : ((eventsAbout id moment.report.events).map reportKind).filter (· ≠ .opened) =
        (eventsAbout id moment.report.events).map reportKind := by
      rw [List.filter_eq_self]
      intro kind mem
      obtain ⟨event, -, rfl⟩ := List.mem_map.mp mem
      simp [reportKind_ne_opened event]
    have dropped : (if moment.report.opened = some id then [Kind.opened] else []).filter
        (· ≠ .opened) = [] := by
      split_ifs <;> rfl
    rw [List.flatMap_cons, List.flatMap_cons, about_append, List.filter_append, ih, about_notes,
      List.filter_append, kept, dropped, List.nil_append, eventsAbout, eventsAbout, eventsAbout,
      List.filter_append, List.map_append]

theorem Runs.lifecycle (runs : Runs node moments last) (sound : Sound (tablesOf node)) :
    ∀ moment ∈ moments, Lifecycle moment := by
  induction runs with
  | done => simp
  | @call node shuffled after last call report moments order ran later ih =>
    rw [← tablesOf_shuffled order] at sound
    have steps := perform_steps sound ran
    intro moment mem
    rcases List.mem_cons.mp mem with rfl | mem
    · have begun := steps
      rw [tablesOf_shuffled order] at begun sound
      exact lifecycle_of_steps sound begun fun id => perform_opened ran
    · exact ih (steps.sound sound) moment mem

def openedIds (moments : List Moment) : List UInt64 :=
  moments.filterMap fun moment => moment.report.opened

omit [Sha256] [HmacSha256] [X25519] [ChaCha20Poly1305] [Ed25519] [Ed25519Signer] in
theorem openedIds_cons (moment : Moment) (moments : List Moment) :
    openedIds (moment :: moments) = moment.report.opened.toList ++ openedIds moments := by
  rw [openedIds, List.filterMap_cons]
  cases moment.report.opened <;> rfl

theorem Runs.opened (runs : Runs node moments last) (sound : Sound (tablesOf node)) :
    (openedIds moments).Nodup ∧ ∀ id ∈ openedIds moments, (tablesOf node).stageIn id = .unopened := by
  induction runs with
  | done => simp [openedIds]
  | @call node shuffled after last call report moments order ran later ih =>
    rw [← tablesOf_shuffled order] at sound ⊢
    have steps := perform_steps sound ran
    obtain ⟨nodup, unopened⟩ := ih (steps.sound sound)
    have untold : ∀ id ∈ openedIds moments, (tablesOf shuffled).stageIn id = .unopened ∧
        about id report.notes = [] := fun id mem =>
      follow_unopened (by rw [steps.follows sound id, unopened id mem])
    rw [openedIds_cons]
    cases opened : report.opened with
    | none => exact ⟨nodup, fun id mem => (untold id mem).1⟩
    | some id =>
      have told : .opened ∈ about id report.notes := by
        rw [about_notes, if_pos opened]
        exact List.mem_cons_self
      refine ⟨List.nodup_cons.mpr ⟨fun mem => ?_, nodup⟩, fun other mem => ?_⟩
      · rw [(untold id mem).2] at told
        cases told
      · rcases List.mem_cons.mp mem with rfl | mem
        · by_contra was
          exact opened_once was (steps.follows sound other) told
        · exact (untold other mem).1

/-- Ids are not used again, what is reported of a link is well formed, and it leaves the table when it is
reported closed. -/
theorem links_reported_once (fresh : Fresh node) (runs : Runs node moments last) :
    (openedIds moments).Nodup ∧
      (∀ id, WellFormed (eventsAbout id (moments.flatMap fun moment => moment.report.events))) ∧
      ∀ moment ∈ moments, Lifecycle moment := by
  obtain ⟨sound, empty, zero⟩ := sound_fresh fresh
  refine ⟨(runs.opened sound).1, fun id => ?_, runs.lifecycle sound⟩
  have unopened : (tablesOf node).stageIn id = .unopened := by
    rw [Tables.stageIn, show (tablesOf node).link id = none by rw [tablesOf, empty]; rfl, tablesOf, zero]
    exact if_neg (Nat.not_lt_zero _)
  have followed := runs.follows sound id
  have kinds := about_moments id moments
  rw [unopened] at followed
  cases told : about id (moments.flatMap fun moment => moment.report.notes) with
  | nil =>
    rw [told] at kinds
    rw [List.map_eq_nil_iff.mp kinds.symm]
    exact .early (Or.inl rfl)
  | cons kind rest =>
    rw [told] at followed kinds
    obtain ⟨next, stepped, followed⟩ := follow_cons followed
    cases kind with
    | opened =>
      cases stepped
      have others : rest.filter (· ≠ .opened) = rest := by
        rw [List.filter_eq_self]
        intro kind mem
        have again := opened_once (by decide) followed
        exact decide_eq_true fun same => again (same ▸ mem)
      rw [List.filter_cons_of_neg (by simp), others] at kinds
      rw [kinds] at followed
      exact wellFormed_of_follow followed
    | established | sync | closed => cases stepped

end

/-! ## A run -/

section
open Driver.StandIns

@[reducible] def zeroSigner : Ed25519Signer := ⟨fun key => key, fun _ _ => FixedBytes.zero 64⟩

local instance : Ed25519Signer := zeroSigner

def zeroIdentity : Identity := ⟨List.replicate 32 0, List.replicate 32 0⟩

def zeroNode : Node where
  fingerprint := fingerprintOf (FixedBytes.zero 32)
  noiseSeed := FixedBytes.zero 32
  signingKey := FixedBytes.zero 32
  store := EntryStore.new
  limiter := HandshakeLimiter.new .default
  links := ∅
  nextLinkId := 0
  lastNowUs := 0

theorem fresh_zeroNode : Fresh zeroNode := ⟨zeroIdentity, _, rfl, EntryStore.new, rfl⟩

theorem runs_zeroNode : ∃ half done moments,
    Runs zeroNode [⟨zeroNode, .accept (some (FixedBytes.zero 32)) [] 0, { opened := some 0 }, half⟩] half ∧
      half.limiter.halfOpenCount = 1 ∧
      moments = [⟨zeroNode, .accept (some (FixedBytes.zero 32)) [] 0, { opened := some 0 }, half⟩,
        ⟨half, .onTransportClosed 0 0, { events := [.closed 0 .transportClosed] }, done⟩] ∧
      Runs zeroNode moments done :=
  ⟨_, _, _, .call (.refl _) rfl .done, rfl, rfl, .call (.refl _) rfl (.call (.refl _) rfl .done)⟩

theorem half_open_slots_accepted :
    ∃ last, last.limiter.halfOpenCount = 1 ∧ Slots last := by
  obtain ⟨half, -, -, runs, count, -⟩ := runs_zeroNode
  exact ⟨half, count, half_open_slots fresh_zeroNode runs⟩

theorem links_reported_once_accepted :
    ∃ moments, openedIds moments = [0] ∧ (openedIds moments).Nodup ∧
      WellFormed (eventsAbout 0 (moments.flatMap fun moment => moment.report.events)) ∧
      ∀ moment ∈ moments, Lifecycle moment := by
  obtain ⟨half, done, moments, -, -, rfl, runs⟩ := runs_zeroNode
  obtain ⟨nodup, traces, lifecycle⟩ := links_reported_once fresh_zeroNode runs
  exact ⟨_, rfl, nodup, traces 0, lifecycle⟩

end

end Racnet.Proof.Nodes
