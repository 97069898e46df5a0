import Mathlib.Data.List.Basic
import Racnet.Sim.Net

/-!
# The links and the pending events

The events of one link are processed in the order in which they were scheduled.
-/

namespace Racnet.Proof.Sim
open Racnet.Sim Lib

variable {links : List Link} {a b x y : NodeId} {idx other : Nat} {link : Link}

def Joins (link : Link) (a b : NodeId) : Prop := link.a = a ∧ link.b = b ∨ link.a = b ∧ link.b = a

theorem Joins.ends (one : Joins link a b) (two : Joins link x y) :
    x = a ∧ y = b ∨ x = b ∧ y = a := by
  rcases one with ⟨rfl, rfl⟩ | ⟨rfl, rfl⟩ <;> rcases two with ⟨rfl, rfl⟩ | ⟨rfl, rfl⟩ <;> simp

theorem position_symm : position links a b = position links b a := by
  simp only [position, or_comm]

theorem position_spec (found : position links a b = some idx) :
    ∃ link, links[idx]? = some link ∧ Joins link a b := by
  rw [position, List.findIdx?_eq_some_iff_getElem] at found
  obtain ⟨inside, joined, -⟩ := found
  rw [decide_eq_true_eq] at joined
  exact ⟨_, List.getElem?_eq_getElem inside, joined⟩

theorem ends_of_position (one : position links a b = some idx) (two : position links x y = some idx) :
    x = a ∧ y = b ∨ x = b ∧ y = a := by
  obtain ⟨link, present, joined⟩ := position_spec one
  obtain ⟨same, again, joined'⟩ := position_spec two
  obtain rfl := Option.some.inj (present.symm.trans again)
  exact joined.ends joined'

theorem position_of_ends (one : position links a b = some idx)
    (two : position links x y = some other) (ends : x = a ∧ y = b ∨ x = b ∧ y = a) : other = idx := by
  rcases ends with ⟨rfl, rfl⟩ | ⟨rfl, rfl⟩
  · exact Option.some.inj (two.symm.trans one)
  · exact Option.some.inj (two.symm.trans (position_symm.trans one))

theorem position_append {more : List Link} (found : position links a b = some idx) :
    position (links ++ more) a b = some idx := by
  rw [position] at found ⊢
  rw [List.findIdx?_append, found]
  rfl

theorem findIdx?_set {α : Type} {test : α → Bool} {xs : List α} {i : Nat} {old new : α}
    (present : xs[i]? = some old) (same : test new = test old) :
    (xs.set i new).findIdx? test = xs.findIdx? test := by
  induction xs generalizing i with
  | nil => rfl
  | cons x xs ih =>
    cases i with
    | zero =>
      obtain rfl := Option.some.inj present
      simp only [List.set_cons_zero, List.findIdx?_cons, same]
    | succ i =>
      rw [List.getElem?_cons_succ] at present
      simp only [List.set_cons_succ, List.findIdx?_cons, ih present]

theorem position_set {link' : Link} (present : links[idx]? = some link) (sameA : link'.a = link.a)
    (sameB : link'.b = link.b) : position (links.set idx link') a b = position links a b :=
  findIdx?_set present (by simp only [sameA, sameB])

theorem position_revive (present : links[idx]? = some link) (config : LinkConfig) :
    position (links.set idx { link with config, up := true }) a b = position links a b :=
  position_set present rfl rfl

theorem modify_eq_set {f : Link → Link} (present : links[idx]? = some link) :
    links.modify idx f = links.set idx (f link) := by
  rw [List.modify_eq_set_getElem?, present]
  rfl

/-! ## Scheduling -/

def peer : EventKind → NodeId
  | .data sender _ => sender
  | .linkDown peer => peer

/-- The events on a link, in the order in which they were scheduled. -/
def pending (net : SimNet) (idx : Nat) : List (NodeId × EventKind) :=
  (net.events.filter (·.link = idx)).map fun event => (event.dest, event.kind)

/-- The events of a link were scheduled with one latency, so they arrive in order. -/
structure Queued (net : SimNet) : Prop where
  numbered : net.events.Pairwise fun early late => early.seq.toNat < late.seq.toNat
  below : ∀ event ∈ net.events, event.seq.toNat ≤ net.seq.toNat
  ordered : net.events.Pairwise fun early late =>
    early.link = late.link → early.atUs.toNat ≤ late.atUs.toNat
  coming : ∀ event ∈ net.events, net.nowUs.toNat ≤ event.atUs.toNat
  within : ∀ event ∈ net.events, ∀ link, net.links[event.link]? = some link →
    event.atUs.toNat ≤ net.nowUs.toNat + link.config.latencyUs.toNat
  placed : ∀ event ∈ net.events, position net.links (peer event.kind) event.dest = some event.link

theorem queued_new (seed : UInt64) : Queued (.new seed) := by
  constructor <;> simp [SimNet.new]

theorem pop_first {net : SimNet} (queued : Queued net) {event : Event} {rest : List Event}
    (popped : popLeast Event.key net.events = some (event, rest)) :
    ∃ front back, net.events = front ++ event :: back ∧ rest = front ++ back ∧
      (∀ early ∈ front, early.link ≠ event.link) ∧
      ∀ left ∈ rest, event.atUs.toNat ≤ left.atUs.toNat := by
  obtain ⟨front, back, split, left, above, notBelow⟩ := popLeast_spec popped
  refine ⟨front, back, split, left, fun early mem same => ?_, fun left' mem => ?_⟩
  · have numbered := queued.numbered
    have ordered := queued.ordered
    rw [split, List.pairwise_append] at numbered ordered
    have sooner := ordered.2.2 early mem event List.mem_cons_self same
    have lower := numbered.2.2 early mem event List.mem_cons_self
    have less := above early mem
    rw [Event.key, Event.key, Prod.Lex.toLex_lt_toLex] at less
    dsimp only at less
    omega
  · have least : event.key ≤ left'.key := by
      rw [left, List.mem_append] at mem
      exact mem.elim (fun early => le_of_lt (above _ early)) (notBelow _)
    rw [Event.key, Event.key, Prod.Lex.toLex_le_toLex] at least
    dsimp only at least
    omega

theorem mem_of_pop {net : SimNet} (queued : Queued net) {event : Event} {rest : List Event}
    (popped : popLeast Event.key net.events = some (event, rest)) : event ∈ net.events := by
  obtain ⟨front, back, split, -⟩ := pop_first queued popped
  simp [split]

/-- The events that a call put behind those already pending. -/
structure Scheduled (net net' : SimNet) (arrival : UInt64) (idx : Nat)
    (posts : List (NodeId × EventKind)) : Prop where
  same : net'.links = net.links ∧ net'.nowUs = net.nowUs ∧ net'.inboxes = net.inboxes
  behind : ∃ new : List Event, net'.events = net.events ++ new ∧
    new.map (fun event => (event.dest, event.kind)) = posts ∧
    (∀ event ∈ new, event.link = idx ∧ event.atUs = arrival ∧
      net.seq.toNat < event.seq.toNat ∧ event.seq.toNat ≤ net'.seq.toNat) ∧
    new.Pairwise fun early late => early.seq.toNat < late.seq.toNat
  grows : net.seq.toNat ≤ net'.seq.toNat

theorem Scheduled.refl (net : SimNet) (arrival : UInt64) (idx : Nat) :
    Scheduled net net arrival idx [] :=
  ⟨⟨rfl, rfl, rfl⟩, ⟨[], by simp, rfl, by simp, .nil⟩, le_rfl⟩

theorem checkedAdd_spec {u v sum : UInt64} (added : checkedAdd u v = some sum) :
    sum.toNat = u.toNat + v.toNat := by
  rw [checkedAdd, Option.ite_none_right_eq_some] at added
  obtain ⟨fits, added⟩ := added
  obtain rfl := Option.some.inj added
  rw [UInt64.toNat_add, Nat.mod_eq_of_lt fits]

theorem scheduled_of_schedule {net net' : SimNet} {arrival : UInt64} {dest : NodeId}
    {kind : EventKind} (made : net.schedule arrival dest idx kind = some net') :
    Scheduled net net' arrival idx [(dest, kind)] := by
  obtain ⟨seq, added, made⟩ := Option.bind_eq_some_iff.mp made
  obtain rfl := Option.some.inj made
  have next : seq.toNat = net.seq.toNat + 1 := checkedAdd_spec added
  refine ⟨⟨rfl, rfl, rfl⟩, ⟨_, rfl, rfl, ?_, List.pairwise_singleton _ _⟩, ?_⟩
  · intro event mem
    obtain rfl := List.mem_singleton.mp mem
    exact ⟨rfl, rfl, by dsimp only; omega, le_rfl⟩
  · dsimp only
    omega

theorem Scheduled.trans {net mid net' : SimNet} {arrival : UInt64}
    {posts posts' : List (NodeId × EventKind)} (one : Scheduled net mid arrival idx posts)
    (two : Scheduled mid net' arrival idx posts') :
    Scheduled net net' arrival idx (posts ++ posts') := by
  obtain ⟨⟨links, now, inboxes⟩, ⟨new, events, listed, each, apart⟩, grows⟩ := one
  obtain ⟨⟨links', now', inboxes'⟩, ⟨new', events', listed', each', apart'⟩, grows'⟩ := two
  refine ⟨⟨links'.trans links, now'.trans now, inboxes'.trans inboxes⟩, ⟨new ++ new', ?_, ?_, ?_, ?_⟩,
    grows.trans grows'⟩
  · rw [events', events, List.append_assoc]
  · rw [List.map_append, listed, listed']
  · intro event mem
    rcases List.mem_append.mp mem with early | late
    · obtain ⟨at_, when_, low, high⟩ := each event early
      exact ⟨at_, when_, low, high.trans grows'⟩
    · obtain ⟨at_, when_, low, high⟩ := each' event late
      exact ⟨at_, when_, by omega, high⟩
  · refine List.pairwise_append.mpr ⟨apart, apart', fun early mem late mem' => ?_⟩
    have high := (each early mem).2.2.2
    have low := (each' late mem').2.2.1
    omega

theorem scheduled_of_foldlM {arrival : UInt64} {post : List UInt8 → NodeId × EventKind}
    {segments : List (List UInt8)} {net net' : SimNet}
    (made : segments.foldlM (fun net segment =>
      net.schedule arrival (post segment).1 idx (post segment).2) net = some net') :
    Scheduled net net' arrival idx (segments.map post) := by
  induction segments generalizing net with
  | nil =>
    obtain rfl := Option.some.inj made
    exact .refl net arrival idx
  | cons segment segments ih =>
    rw [List.foldlM_cons] at made
    obtain ⟨mid, first, made⟩ := Option.bind_eq_some_iff.mp made
    exact (scheduled_of_schedule first).trans (ih made)

theorem Scheduled.pending_eq {net net' : SimNet} {arrival : UInt64}
    {posts : List (NodeId × EventKind)} (scheduled : Scheduled net net' arrival idx posts) :
    pending net' other = pending net other ++ if other = idx then posts else [] := by
  obtain ⟨-, ⟨new, events, listed, each, -⟩, -⟩ := scheduled
  rw [pending, events, List.filter_append, List.map_append]
  congr 1
  by_cases same : other = idx
  · rw [if_pos same, List.filter_eq_self.mpr, listed]
    exact fun event mem => decide_eq_true ((each event mem).1.trans same.symm)
  · rw [if_neg same, List.filter_eq_nil_iff.mpr, List.map_nil]
    intro event mem at_
    exact same ((of_decide_eq_true at_).symm.trans (each event mem).1)

theorem Scheduled.queued {net net' : SimNet} {arrival : UInt64}
    {posts : List (NodeId × EventKind)} (scheduled : Scheduled net net' arrival idx posts)
    (queued : Queued net) (present : net.links[idx]? = some link)
    (latency : arrival.toNat = net.nowUs.toNat + link.config.latencyUs.toNat)
    (found : ∀ post ∈ posts, position net.links (peer post.2) post.1 = some idx) : Queued net' := by
  obtain ⟨⟨links, now, inboxes⟩, ⟨new, events, listed, each, apart⟩, grows⟩ := scheduled
  have after : ∀ {good : Event → Prop}, (∀ event ∈ net.events, good event) →
      (∀ event ∈ new, good event) → ∀ event ∈ net'.events, good event := by
    intro good old fresh event mem
    rw [events] at mem
    exact (List.mem_append.mp mem).elim (old event) (fresh event)
  constructor
  · rw [events]
    refine List.pairwise_append.mpr ⟨queued.numbered, apart, fun early mem late mem' => ?_⟩
    exact lt_of_le_of_lt (queued.below early mem) (each late mem').2.2.1
  · exact after (fun event mem => (queued.below event mem).trans grows)
      fun event mem => (each event mem).2.2.2
  · rw [events]
    refine List.pairwise_append.mpr ⟨queued.ordered, ?_, fun early mem late mem' same => ?_⟩
    · refine List.pairwise_of_forall_mem_list fun early mem late mem' _ => ?_
      rw [(each early mem).2.1, (each late mem').2.1]
    · obtain ⟨at_, when_, -⟩ := each late mem'
      rw [when_, latency]
      exact queued.within early mem link (by rw [same, at_, present])
  · rw [now]
    refine after queued.coming fun event mem => ?_
    rw [(each event mem).2.1]
    omega
  · rw [now, links]
    refine after queued.within fun event mem target there => ?_
    obtain ⟨at_, when_, -⟩ := each event mem
    rw [at_, present] at there
    obtain rfl := Option.some.inj there
    exact (congrArg UInt64.toNat when_).trans latency |>.le
  · rw [links]
    refine after queued.placed fun event mem => ?_
    rw [(each event mem).1]
    exact found (event.dest, event.kind) (listed ▸ List.mem_map_of_mem mem)

def Quiet (net net' : SimNet) : Prop :=
  net'.links = net.links ∧ net'.events = net.events ∧ net'.nowUs = net.nowUs ∧ net'.seq = net.seq

theorem Quiet.pending_eq {net net' : SimNet} (quiet : Quiet net net') :
    pending net' idx = pending net idx := by
  rw [pending, quiet.2.1, pending]

theorem Quiet.queued {net net' : SimNet} (quiet : Quiet net net') (queued : Queued net) :
    Queued net' := by
  obtain ⟨links, events, now, seq⟩ := quiet
  obtain ⟨numbered, below, ordered, coming, within, placed⟩ := queued
  rw [← events] at numbered below ordered coming within placed
  rw [← seq] at below
  rw [← now] at coming within
  rw [← links] at within placed
  exact ⟨numbered, below, ordered, coming, within, placed⟩

theorem Queued.relink {net : SimNet} (queued : Queued net) (present : net.links[idx]? = some link)
    {link' : Link} (ends : link'.a = link.a ∧ link'.b = link.b)
    (config : link'.config = link.config) :
    Queued { net with links := net.links.set idx link' } := by
  obtain ⟨numbered, below, ordered, coming, within, placed⟩ := queued
  refine ⟨numbered, below, ordered, coming, fun event mem target there => ?_, fun event mem => ?_⟩
  · rw [List.getElem?_set] at there
    split_ifs at there with same inside
    · obtain rfl := Option.some.inj there
      rw [config]
      exact within event mem link (same ▸ present)
    · exact within event mem target there
  · exact (position_set present ends.1 ends.2).trans (placed event mem)

theorem queued_connect {net : SimNet} (queued : Queued net) (config : LinkConfig) :
    Queued (net.connect x y config) := by
  rw [SimNet.connect]
  cases found : position net.links x y with
  | none =>
    obtain ⟨numbered, below, ordered, coming, within, placed⟩ := queued
    refine ⟨numbered, below, ordered, coming, fun event mem target there => ?_,
      fun event mem => position_append (placed event mem)⟩
    obtain ⟨link, present, -⟩ := position_spec (placed event mem)
    have inside := (List.getElem?_eq_some_iff.mp present).1
    rw [List.getElem?_append_left inside] at there
    exact within event mem target there
  | some idx =>
    obtain ⟨link, present, -⟩ := position_spec found
    dsimp only
    rw [modify_eq_set present]
    obtain ⟨numbered, below, ordered, coming, within, placed⟩ := queued
    have kept : ∀ {good : Event → Prop}, (∀ event ∈ net.events, good event) →
        ∀ event ∈ net.events.filter (·.link ≠ idx), good event :=
      fun all event mem => all event (List.mem_filter.mp mem).1
    refine ⟨numbered.filter _, kept below, ordered.filter _, kept coming, ?_, ?_⟩
    · intro event mem target there
      have away : event.link ≠ idx := of_decide_eq_true (List.mem_filter.mp mem).2
      rw [List.getElem?_set_ne away.symm] at there
      exact kept within event mem target there
    · exact fun event mem => (position_revive present config).trans (kept placed event mem)

end Racnet.Proof.Sim
