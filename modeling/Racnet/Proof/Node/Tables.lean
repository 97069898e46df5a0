import Mathlib.Data.Finset.Card
import Racnet.Api.Node
import Racnet.Proof.Driver.Calls

/-!
# The links and the tickets of a node

An abstract node: its links by id, and the tickets that its limiter has given out. A call is a sequence of
steps, and what holds along every run is proved of a step.
-/

namespace Racnet.Proof.Nodes
open Lib Noise Store Sync Wire Link Api
open Proof.Driver (Phase phaseOf)

/-! ## The life of a link -/

inductive Kind where
  | opened
  | established
  | sync
  | closed
  deriving DecidableEq

def kindOf : LinkEvent → Kind
  | .established _ => .established
  | .sync _ => .sync
  | .closed _ => .closed

def reportKind : Event → Kind
  | .established _ _ => .established
  | .entryStored _ _ | .duplicateIgnored _ _ | .reconciled _ _ _ _ | .syncSessionClosed _ _ _ => .sync
  | .closed _ _ => .closed

inductive Note where
  | opened (id : UInt64)
  | event (report : Event)

def Note.linkId : Note → UInt64
  | .opened id => id
  | .event report => report.linkId

def Note.kind : Note → Kind
  | .opened _ => .opened
  | .event report => reportKind report

def about (id : UInt64) (notes : List Note) : List Kind :=
  (notes.filter fun note => note.linkId = id).map Note.kind

inductive Stage where
  | unopened
  | early
  | established
  | gone
  deriving DecidableEq

def Stage.next : Stage → Kind → Option Stage
  | .unopened, .opened => some .early
  | .early, .established => some .established
  | .early, .closed => some .gone
  | .established, .sync => some .established
  | .established, .closed => some .gone
  | _, _ => none

def Stage.follow (stage : Stage) (kinds : List Kind) : Option Stage := kinds.foldlM Stage.next stage

def stageOf : Phase → Stage
  | .early => .early
  | .established => .established
  | .closed => .gone

@[simp] theorem about_nil (id : UInt64) : about id [] = [] := rfl

theorem about_append (id : UInt64) (first second : List Note) :
    about id (first ++ second) = about id first ++ about id second := by
  rw [about, List.filter_append, List.map_append, about, about]

theorem Stage.follow_append (stage : Stage) (first second : List Kind) :
    stage.follow (first ++ second) = (stage.follow first).bind (·.follow second) :=
  List.foldlM_append

@[simp] theorem linkId_mapEvent (id : UInt64) (event : LinkEvent) :
    (mapEvent id event).linkId = id := by
  rcases event with _ | ⟨_ | _ | _ | _⟩ | _ <;> rfl

@[simp] theorem kind_mapEvent (id : UInt64) (event : LinkEvent) :
    reportKind (mapEvent id event) = kindOf event := by
  rcases event with _ | ⟨_ | _ | _ | _⟩ | _ <;> rfl

/-- The events that a driver reports, as the node passes them on. -/
def mapped (id : UInt64) (events : List LinkEvent) : List Note :=
  events.map fun event => .event (mapEvent id event)

theorem about_mapped_self (id : UInt64) (events : List LinkEvent) :
    about id (mapped id events) = events.map kindOf := by
  induction events with
  | nil => rfl
  | cons event events ih =>
    rw [about, mapped, List.map_cons, List.filter_cons_of_pos (by simp [Note.linkId]),
      List.map_cons, List.map_cons]
    exact congrArg₂ List.cons (kind_mapEvent id event) ih

theorem about_mapped_other {id other : UInt64} (ne : other ≠ id) (events : List LinkEvent) :
    about other (mapped id events) = [] := by
  rw [about, List.map_eq_nil_iff, List.filter_eq_nil_iff]
  intro note mem
  obtain ⟨event, -, rfl⟩ := List.mem_map.mp mem
  simp [Note.linkId, ne.symm]

theorem follow_kinds {phase last : Phase} {events : List LinkEvent}
    (followed : phase.follow events = some last) :
    (stageOf phase).follow (events.map kindOf) = some (stageOf last) := by
  induction events generalizing phase with
  | nil =>
    cases followed
    rfl
  | cons event events ih =>
    rw [Phase.follow, Option.bind_eq_some_iff] at followed
    obtain ⟨next, stepped, followed⟩ := followed
    have kind : (stageOf phase).next (kindOf event) = some (stageOf next) := by
      cases phase <;> cases event <;> cases stepped <;> rfl
    rw [List.map_cons, Stage.follow, List.foldlM_cons, kind]
    exact ih followed

/-! ## Tables -/

/-- The links by id, the tickets that are held, and the numbers of the next link and ticket. -/
structure Tables where
  link : UInt64 → Option LiveLink
  tickets : Finset UInt64
  nextLink : Nat
  nextTicket : Nat
  capacity : Nat

namespace Tables

def put (tables : Tables) (id : UInt64) (link : Option LiveLink) : Tables :=
  { tables with link := Function.update tables.link id link }

def release (tables : Tables) (ticket : Option UInt64) : Tables :=
  { tables with tickets := ticket.elim tables.tickets tables.tickets.erase }

def stageIn (tables : Tables) (id : UInt64) : Stage :=
  match tables.link id with
  | some link => stageOf (phaseOf link.driver)
  | none => if id.toNat < tables.nextLink then .gone else .unopened

def advance (tables : Tables) (id : UInt64) (link : LiveLink) (driver : LinkDriver) : Tables :=
  match phaseOf driver with
  | .early => tables.put id (some { link with driver })
  | .established => (tables.put id (some ⟨driver, none⟩)).release link.ticket
  | .closed => (tables.put id none).release link.ticket

end Tables

inductive Step (tables : Tables) : List Note → Tables → Prop where
  | connected (id : UInt64) (driver : LinkDriver) (fresh : id.toNat = tables.nextLink)
      (role : driver.role = .initiator) (phase : phaseOf driver = .early) :
      Step tables [.opened id]
        { tables.put id (some ⟨driver, none⟩) with nextLink := tables.nextLink + 1 }
  | accepted (id ticket : UInt64) (driver : LinkDriver) (fresh : id.toNat = tables.nextLink)
      (issued : ticket.toNat = tables.nextTicket) (room : tables.tickets.card < tables.capacity)
      (role : driver.role = .responder) (phase : phaseOf driver = .early) :
      Step tables [.opened id]
        { tables.put id (some ⟨driver, some ticket⟩) with
          tickets := insert ticket tables.tickets
          nextLink := tables.nextLink + 1
          nextTicket := tables.nextTicket + 1 }
  | driven (id : UInt64) (link : LiveLink) (driver : LinkDriver) (events : List LinkEvent)
      (found : tables.link id = some link) (role : driver.role = link.driver.role)
      (followed : (phaseOf link.driver).follow events = some (phaseOf driver)) :
      Step tables (mapped id events) (tables.advance id link driver)
  | retired (id : UInt64) (link : LiveLink) (cause : CloseCause)
      (found : tables.link id = some link) :
      Step tables [.event (.closed id cause)] ((tables.put id none).release link.ticket)

inductive Steps : Tables → List Note → Tables → Prop where
  | done {tables : Tables} : Steps tables [] tables
  | more {tables next last : Tables} {first rest : List Note} (step : Step tables first next)
      (later : Steps next rest last) : Steps tables (first ++ rest) last

theorem Steps.one {tables next : Tables} {notes : List Note} (step : Step tables notes next) :
    Steps tables notes next := by
  have steps := Steps.more step .done
  rwa [List.append_nil] at steps

theorem Steps.trans {tables middle last : Tables} {first second : List Note}
    (earlier : Steps tables first middle) (later : Steps middle second last) :
    Steps tables (first ++ second) last := by
  induction earlier with
  | done => exact later
  | more step rest ih =>
    rw [List.append_assoc]
    exact .more step (ih later)

/-! ## The invariant -/

/-- The tickets are those of the links, and a link has one while it is a half-open one of a responder. -/
structure Sound (tables : Tables) : Prop where
  open_ : ∀ id link, tables.link id = some link → phaseOf link.driver ≠ .closed
  ticketed : ∀ id link, tables.link id = some link →
    (link.ticket.isSome ↔ link.driver.role = .responder ∧ phaseOf link.driver = .early)
  held : ∀ ticket, ticket ∈ tables.tickets ↔
    ∃ id link, tables.link id = some link ∧ link.ticket = some ticket
  apart : ∀ id other link link' ticket, tables.link id = some link → tables.link other = some link' →
    link.ticket = some ticket → link'.ticket = some ticket → id = other
  capped : tables.tickets.card ≤ tables.capacity
  issued : ∀ ticket ∈ tables.tickets, ticket.toNat < tables.nextTicket
  named : ∀ id link, tables.link id = some link → id.toNat < tables.nextLink

theorem put_self (tables : Tables) (id : UInt64) (link : Option LiveLink) :
    (tables.put id link).link id = link := Function.update_self ..

theorem put_other (tables : Tables) {id other : UInt64} (ne : other ≠ id) (link : Option LiveLink) :
    (tables.put id link).link other = tables.link other := Function.update_of_ne ne ..

theorem mem_release {tables : Tables} {ticket : Option UInt64} {other : UInt64} :
    other ∈ (tables.release ticket).tickets ↔ other ∈ tables.tickets ∧ ticket ≠ some other := by
  cases ticket with
  | none => simp [Tables.release]
  | some ticket => simp [Tables.release, and_comm, eq_comm]

theorem card_release_le (tables : Tables) (ticket : Option UInt64) :
    (tables.release ticket).tickets.card ≤ tables.tickets.card :=
  Finset.card_le_card fun _ mem => (mem_release.mp mem).1

section
variable {tables next : Tables} {id : UInt64} {link : LiveLink}

theorem Sound.released (sound : Sound tables) (found : tables.link id = some link)
    {changed : Option LiveLink} (ok : ∀ link ∈ changed, link.ticket = none ∧
      phaseOf link.driver = .established) :
    Sound ((tables.put id changed).release link.ticket) where
  open_ other link' found' := by
    by_cases same : other = id
    · subst same
      rw [Tables.release, put_self] at found'
      rw [(ok link' found').2]
      decide
    · exact sound.open_ other link' (by rwa [Tables.release, put_other _ same] at found')
  ticketed other link' found' := by
    by_cases same : other = id
    · subst same
      rw [Tables.release, put_self] at found'
      simp [ok link' found']
    · exact sound.ticketed other link' (by rwa [Tables.release, put_other _ same] at found')
  held ticket := by
    rw [mem_release]
    constructor
    · rintro ⟨mem, free⟩
      obtain ⟨other, link', found', owned⟩ := (sound.held ticket).mp mem
      have ne : other ≠ id := by
        rintro rfl
        rw [found] at found'
        cases found'
        exact free owned
      exact ⟨other, link', by rwa [Tables.release, put_other _ ne], owned⟩
    · rintro ⟨other, link', found', owned⟩
      have ne : other ≠ id := by
        rintro rfl
        rw [Tables.release, put_self] at found'
        rw [(ok link' found').1] at owned
        cases owned
      rw [Tables.release, put_other _ ne] at found'
      exact ⟨(sound.held ticket).mpr ⟨other, link', found', owned⟩, fun given =>
        ne (sound.apart other id link' link ticket found' found owned given)⟩
  apart first second link' link'' ticket found' found'' owned owned' := by
    have old : ∀ other link', ((tables.put id changed).release link.ticket).link other = some link' →
        link'.ticket = some ticket → tables.link other = some link' := by
      intro other link' found' owned
      by_cases same : other = id
      · subst same
        rw [Tables.release, put_self] at found'
        rw [(ok link' found').1] at owned
        cases owned
      · rwa [Tables.release, put_other _ same] at found'
    exact sound.apart first second link' link'' ticket (old _ _ found' owned)
      (old _ _ found'' owned') owned owned'
  capped := (card_release_le _ _).trans sound.capped
  issued ticket mem := sound.issued ticket (mem_release.mp mem).1
  named other link' found' := by
    by_cases same : other = id
    · subst same
      exact sound.named other link found
    · exact sound.named other link' (by rwa [Tables.release, put_other _ same] at found')

theorem Sound.kept (sound : Sound tables) (found : tables.link id = some link) {driver : LinkDriver}
    (role : driver.role = link.driver.role) (phase : phaseOf driver = phaseOf link.driver) :
    Sound (tables.put id (some { link with driver })) := by
  have old : ∀ other link', (tables.put id (some { link with driver })).link other = some link' →
      ∃ before, tables.link other = some before ∧ link'.ticket = before.ticket ∧
        link'.driver.role = before.driver.role ∧ phaseOf link'.driver = phaseOf before.driver := by
    intro other link' found'
    by_cases same : other = id
    · subst same
      rw [put_self] at found'
      cases found'
      exact ⟨link, found, rfl, role, phase⟩
    · exact ⟨link', by rwa [put_other _ same] at found', rfl, rfl, rfl⟩
  refine ⟨?_, ?_, ?_, ?_, sound.capped, sound.issued, ?_⟩
  · intro other link' found'
    obtain ⟨before, was, -, -, phase⟩ := old other link' found'
    rw [phase]
    exact sound.open_ other before was
  · intro other link' found'
    obtain ⟨before, was, ticket, role, phase⟩ := old other link' found'
    rw [ticket, role, phase]
    exact sound.ticketed other before was
  · intro ticket
    refine (sound.held ticket).trans ⟨?_, ?_⟩
    · rintro ⟨other, before, was, owned⟩
      by_cases same : other = id
      · subst same
        rw [found] at was
        cases was
        exact ⟨other, _, put_self .., owned⟩
      · exact ⟨other, before, by rwa [put_other _ same], owned⟩
    · rintro ⟨other, link', found', owned⟩
      obtain ⟨before, was, ticket, -⟩ := old other link' found'
      exact ⟨other, before, was, ticket ▸ owned⟩
  · intro first second link' link'' ticket found' found'' owned owned'
    obtain ⟨before, was, ticket, -⟩ := old first link' found'
    obtain ⟨before', was', ticket', -⟩ := old second link'' found''
    exact sound.apart first second before before' _ was was' (ticket ▸ owned) (ticket' ▸ owned')
  · intro other link' found'
    obtain ⟨before, was, -⟩ := old other link' found'
    exact sound.named other before was

theorem Sound.unopened (sound : Sound tables) (fresh : id.toNat = tables.nextLink) :
    tables.link id = none := by
  cases found : tables.link id with
  | none => rfl
  | some link => exact absurd (sound.named id link found) (by omega)

theorem Sound.opened (sound : Sound tables) (fresh : id.toNat = tables.nextLink)
    (phase : phaseOf link.driver = .early)
    (ticketed : link.ticket.isSome ↔ link.driver.role = .responder) {tickets : Finset UInt64}
    {nextTicket : Nat} (given : ∀ ticket, ticket ∈ tickets ↔
      ticket ∈ tables.tickets ∨ link.ticket = some ticket)
    (unused : ∀ ticket, link.ticket = some ticket → ticket ∉ tables.tickets)
    (capped : tickets.card ≤ tables.capacity)
    (issued : ∀ ticket ∈ tickets, ticket.toNat < nextTicket) :
    Sound { tables.put id (some link) with
      tickets, nextTicket, nextLink := tables.nextLink + 1 } := by
  have absent := sound.unopened fresh
  have old : ∀ other link', (tables.put id (some link)).link other = some link' →
      other = id ∧ link' = link ∨ other ≠ id ∧ tables.link other = some link' := by
    intro other link' found'
    by_cases same : other = id
    · subst same
      rw [put_self] at found'
      exact Or.inl ⟨rfl, (Option.some.inj found').symm⟩
    · exact Or.inr ⟨same, by rwa [put_other _ same] at found'⟩
  refine ⟨?_, ?_, ?_, ?_, capped, issued, ?_⟩
  · intro other link' found'
    rcases old other link' found' with ⟨rfl, rfl⟩ | ⟨-, was⟩
    · rw [phase]
      decide
    · exact sound.open_ other link' was
  · intro other link' found'
    rcases old other link' found' with ⟨rfl, rfl⟩ | ⟨-, was⟩
    · rw [ticketed]
      exact (and_iff_left phase).symm
    · exact sound.ticketed other link' was
  · intro ticket
    rw [given ticket, sound.held ticket]
    constructor
    · rintro (⟨other, link', was, owned⟩ | owned)
      · have ne : other ≠ id := by
          rintro rfl
          rw [absent] at was
          cases was
        exact ⟨other, link', by rwa [put_other _ ne], owned⟩
      · exact ⟨id, link, put_self .., owned⟩
    · rintro ⟨other, link', found', owned⟩
      rcases old other link' found' with ⟨rfl, rfl⟩ | ⟨-, was⟩
      · exact Or.inr owned
      · exact Or.inl ⟨other, link', was, owned⟩
  · intro first second link' link'' ticket found' found'' owned owned'
    rcases old first link' found' with ⟨rfl, rfl⟩ | ⟨-, was⟩ <;>
      rcases old second link'' found'' with ⟨rfl, rfl⟩ | ⟨-, was'⟩
    · rfl
    · exact absurd ((sound.held ticket).mpr ⟨second, link'', was', owned'⟩) (unused ticket owned)
    · exact absurd ((sound.held ticket).mpr ⟨first, link', was, owned⟩) (unused ticket owned')
    · exact sound.apart first second link' link'' ticket was was' owned owned'
  · intro other link' found'
    rcases old other link' found' with ⟨rfl, rfl⟩ | ⟨-, was⟩
    · exact fresh.trans_lt (Nat.lt_succ_self _)
    · exact (sound.named other link' was).trans (Nat.lt_succ_self _)

omit tables next id link in
theorem early_of_follow {phase : Phase} {events : List LinkEvent}
    (followed : phase.follow events = some .early) : phase = .early := by
  cases phase with
  | early => rfl
  | established => rcases Driver.follow_established followed with other | other <;> cases other
  | closed =>
    rw [Driver.follow_closed followed] at followed
    cases followed

theorem Step.sound {notes : List Note} (step : Step tables notes next) (sound : Sound tables) :
    Sound next := by
  cases step with
  | connected id driver fresh role phase =>
    exact sound.opened fresh phase (by simp [role]) (by simp [Tables.put]) (by simp) sound.capped
      sound.issued
  | accepted id ticket driver fresh issued room role phase =>
    have unused : ticket ∉ tables.tickets := fun mem => by
      have := sound.issued ticket mem
      omega
    refine sound.opened fresh phase (by simp [role]) (fun other => ?_) (fun other given => ?_) ?_ ?_
    · rw [Finset.mem_insert, or_comm, Option.some.injEq, eq_comm]
    · cases given
      exact unused
    · rw [Finset.card_insert_of_notMem unused]
      exact room
    · intro other mem
      rcases Finset.mem_insert.mp mem with rfl | mem
      · omega
      · exact (sound.issued other mem).trans (Nat.lt_succ_self _)
  | driven id link driver events found role followed =>
    rw [Tables.advance]
    cases phase : phaseOf driver with
    | early =>
      rw [phase] at followed
      exact sound.kept found role (by rw [phase, early_of_follow followed])
    | established =>
      refine sound.released found fun link' same => ?_
      cases same
      exact ⟨rfl, phase⟩
    | closed => exact sound.released found fun link' same => by cases same
  | retired id link cause found => exact sound.released found fun link' same => by cases same

theorem stageIn_found (tables : Tables) (found : tables.link id = some link) :
    tables.stageIn id = stageOf (phaseOf link.driver) := by
  rw [Tables.stageIn, found]

theorem stageIn_congr {tables next : Tables} {id : UInt64} (link : next.link id = tables.link id)
    (opened : next.nextLink = tables.nextLink) : next.stageIn id = tables.stageIn id := by
  rw [Tables.stageIn, link, opened, Tables.stageIn]

theorem about_one_other {note : Note} (ne : id ≠ note.linkId) : about id [note] = [] := by
  rw [about, List.filter_cons_of_neg (by simp [ne.symm])]
  rfl

theorem about_one_self (id : UInt64) {note : Note} (same : note.linkId = id) :
    about id [note] = [note.kind] := by
  rw [about, List.filter_cons_of_pos (by simp [same])]
  rfl

theorem follows_opened {opened : UInt64} (sound : Sound tables)
    (fresh : opened.toNat = tables.nextLink) (phase : phaseOf link.driver = .early)
    (own : next.link = (tables.put opened (some link)).link)
    (count : next.nextLink = tables.nextLink + 1) :
    (tables.stageIn id).follow (about id [.opened opened]) = some (next.stageIn id) := by
  by_cases same : id = opened
  · subst same
    rw [about_one_self id rfl, Tables.stageIn, sound.unopened fresh, Tables.stageIn, own, put_self]
    dsimp only
    rw [if_neg (by omega), phase]
    rfl
  · have apart : id.toNat ≠ opened.toNat := fun eq => same (UInt64.toNat_inj.mp eq)
    have before : id.toNat < tables.nextLink + 1 ↔ id.toNat < tables.nextLink := by omega
    have stays : next.stageIn id = tables.stageIn id := by
      rw [Tables.stageIn, own, put_other _ same, count, Tables.stageIn]
      simp only [before]
    rw [about_one_other same, stays]
    rfl

theorem stageIn_released (found : tables.link id = some link) (sound : Sound tables)
    (ticket : Option UInt64) : ((tables.put id none).release ticket).stageIn id = .gone := by
  have opened := sound.named id link found
  rw [Tables.stageIn, Tables.release, put_self]
  exact if_pos opened

theorem stageIn_advance (found : tables.link id = some link) (sound : Sound tables)
    (driver : LinkDriver) :
    (tables.advance id link driver).stageIn id = stageOf (phaseOf driver) := by
  rw [Tables.advance]
  cases phase : phaseOf driver with
  | early =>
    rw [stageIn_found _ (put_self ..)]
    exact congrArg stageOf phase
  | established =>
    have own : ((tables.put id (some ⟨driver, none⟩)).release link.ticket).link id =
        some ⟨driver, none⟩ := put_self ..
    rw [stageIn_found _ own]
    exact congrArg stageOf phase
  | closed => exact stageIn_released found sound _

theorem advance_other {other : UInt64} (ne : other ≠ id) (driver : LinkDriver) :
    (tables.advance id link driver).stageIn other = tables.stageIn other := by
  rw [Tables.advance]
  cases phaseOf driver with
  | early => exact stageIn_congr (put_other _ ne _) rfl
  | established => exact stageIn_congr (put_other _ ne _) rfl
  | closed => exact stageIn_congr (put_other _ ne _) rfl

theorem Step.follows {notes : List Note} (step : Step tables notes next) (sound : Sound tables)
    (id : UInt64) : (tables.stageIn id).follow (about id notes) = some (next.stageIn id) := by
  cases step with
  | connected opened driver fresh role phase => exact follows_opened sound fresh phase rfl rfl
  | accepted opened ticket driver fresh issued room role phase =>
    exact follows_opened sound fresh phase rfl rfl
  | driven driven link driver events found role followed =>
    by_cases same : id = driven
    · subst same
      rw [about_mapped_self, stageIn_found _ found, stageIn_advance found sound]
      exact follow_kinds followed
    · rw [about_mapped_other same, advance_other same]
      rfl
  | retired retired link cause found =>
    by_cases same : id = retired
    · subst same
      rw [about_one_self id rfl, stageIn_found _ found, stageIn_released found sound]
      have open_ := sound.open_ id link found
      cases phase : phaseOf link.driver with
      | early | established => rfl
      | closed => exact absurd phase open_
    · rw [about_one_other same]
      exact congrArg some (stageIn_congr (put_other _ same _) rfl).symm

theorem Steps.sound {notes : List Note} (steps : Steps tables notes next) (sound : Sound tables) :
    Sound next := by
  induction steps with
  | done => exact sound
  | more step later ih => exact ih (step.sound sound)

theorem Steps.follows {notes : List Note} (steps : Steps tables notes next) (sound : Sound tables)
    (id : UInt64) : (tables.stageIn id).follow (about id notes) = some (next.stageIn id) := by
  induction steps with
  | done => rfl
  | more step later ih =>
    rw [about_append, Stage.follow_append, step.follows sound]
    exact ih (step.sound sound)

end

end Racnet.Proof.Nodes
