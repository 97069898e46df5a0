import Racnet.Proof.Sim.Queue

/-!
# What sending and stepping do

Each touches one link. It puts events behind those that are pending on the link, or takes the first
of them.
-/

namespace Racnet.Proof.Sim
open Racnet.Sim Lib

variable {net net' : SimNet} {sender dest : NodeId} {bytes : List UInt8} {idx : Nat} {link : Link}

/-- What a call that reached the link does to it, the events it schedules, and whether the message
was accepted. -/
inductive Posted (sender dest : NodeId) (bytes : List UInt8) (link : Link) :
    Link → List (NodeId × EventKind) → Bool → Prop
  | lost (kind : link.config.kind = .datagram) : Posted sender dest bytes link link [] true
  | whole (kind : link.config.kind = .datagram) :
      Posted sender dest bytes link link [(dest, .data sender bytes)] true
  | segmented (kind : link.config.kind = .stream) (up : link.up = true)
      (segments : List (List UInt8)) (joined : segments.flatten = bytes)
      (short : ∀ segment ∈ segments, segment.length ≤ link.config.mtu) :
      Posted sender dest bytes link link (segments.map fun segment => (dest, .data sender segment)) true
  | broken (kind : link.config.kind = .stream) (up : link.up = true) :
      Posted sender dest bytes link { link with up := false }
        [(dest, .linkDown sender), (sender, .linkDown dest)] false

theorem Posted.ends {link' : Link} {posts : List (NodeId × EventKind)} {accepted : Bool}
    (posted : Posted sender dest bytes link link' posts accepted) :
    (link'.a = link.a ∧ link'.b = link.b) ∧ link'.config = link.config := by
  cases posted <;> exact ⟨⟨rfl, rfl⟩, rfl⟩

theorem Posted.between {link' : Link} {posts : List (NodeId × EventKind)} {accepted : Bool}
    (posted : Posted sender dest bytes link link' posts accepted) :
    ∀ post ∈ posts, (peer post.2 = sender ∧ post.1 = dest) ∨ (peer post.2 = dest ∧ post.1 = sender) := by
  cases posted with
  | lost => simp
  | whole => simp [peer]
  | segmented => simp [peer]
  | broken => simp [peer]

theorem Posted.up {link' : Link} {posts : List (NodeId × EventKind)} {accepted : Bool}
    (posted : Posted sender dest bytes link link' posts accepted)
    (stream : link.config.kind = .stream) : link.up = true := by
  cases posted with
  | lost kind => simp [stream] at kind
  | whole kind => simp [stream] at kind
  | segmented _ up => exact up
  | broken _ up => exact up

theorem set_same (present : net.links[idx]? = some link) : net.links.set idx link = net.links := by
  obtain ⟨inside, rfl⟩ := List.getElem?_eq_some_iff.mp present
  exact List.set_getElem_self inside

theorem draw_eq (loss : UInt16) : ∃ rng, (net.draw loss).2 = { net with rng } := by
  rw [SimNet.draw]
  split_ifs
  · rcases net.rng.nextU64 with ⟨value, rng⟩
    exact ⟨rng, rfl⟩
  · exact ⟨net.rng, rfl⟩

theorem draw_quiet (loss : UInt16) :
    Quiet net (net.draw loss).2 ∧ (net.draw loss).2.inboxes = net.inboxes := by
  obtain ⟨rng, drawn⟩ := @draw_eq net loss
  rw [drawn]
  exact ⟨⟨rfl, rfl, rfl, rfl⟩, rfl⟩

theorem sendDatagram_outcome {lost : Bool} {arrival : UInt64} {result : Except SimError Unit}
    (kind : link.config.kind = .datagram)
    (made : net.sendDatagram lost arrival idx link.config.mtu sender dest bytes = some (result, net')) :
    (result.isOk = false ∧ net' = net) ∨
      ∃ posts, Posted sender dest bytes link link posts result.isOk ∧
        Scheduled net net' arrival idx posts := by
  rw [SimNet.sendDatagram] at made
  split_ifs at made
  · cases made
    exact .inl ⟨rfl, rfl⟩
  · cases made
    exact .inr ⟨_, .lost kind, .refl _ _ _⟩
  · obtain ⟨mid, scheduled, made⟩ := Option.bind_eq_some_iff.mp made
    cases made
    exact .inr ⟨_, .whole kind, scheduled_of_schedule scheduled⟩

theorem sendStream_outcome {lost : Bool} {arrival : UInt64} {result : Except SimError Unit}
    (present : net.links[idx]? = some link) (kind : link.config.kind = .stream) (up : link.up = true)
    (made : net.sendStream lost arrival idx link.config.mtu sender dest bytes = some (result, net')) :
    ∃ link' posts, Posted sender dest bytes link link' posts result.isOk ∧
      Scheduled { net with links := net.links.set idx link' } net' arrival idx posts := by
  rw [SimNet.sendStream] at made
  obtain ⟨broken, -, made⟩ := Option.bind_eq_some_iff.mp made
  cases broken with
  | true =>
    obtain ⟨one, first, made⟩ := Option.bind_eq_some_iff.mp made
    obtain ⟨two, second, made⟩ := Option.bind_eq_some_iff.mp made
    cases made
    rw [SimNet.drop, modify_eq_set present] at first
    exact ⟨_, _, .broken kind up, (scheduled_of_schedule first).trans (scheduled_of_schedule second)⟩
  | false =>
    obtain ⟨segments, made', made⟩ := Option.bind_eq_some_iff.mp made
    obtain ⟨mid, scheduled, made⟩ := Option.bind_eq_some_iff.mp made
    cases made
    obtain ⟨joined, short⟩ := chunks_spec made'
    refine ⟨link, _, .segmented kind up segments joined short, ?_⟩
    rw [set_same present]
    exact scheduled_of_foldlM scheduled

theorem send_outcome {result : Except SimError Unit}
    (sent : net.send sender dest bytes = some (result, net')) :
    net'.inboxes = net.inboxes ∧ ((result.isOk = false ∧ Quiet net net') ∨
      ∃ idx link link' posts arrival mid, position net.links sender dest = some idx ∧
        net.links[idx]? = some link ∧ Posted sender dest bytes link link' posts result.isOk ∧
        arrival.toNat = net.nowUs.toNat + link.config.latencyUs.toNat ∧
        Quiet { net with links := net.links.set idx link' } mid ∧
        Scheduled mid net' arrival idx posts) := by
  rw [SimNet.send] at sent
  cases found : position net.links sender dest with
  | none =>
    rw [found] at sent
    cases sent
    exact ⟨rfl, .inl ⟨rfl, rfl, rfl, rfl, rfl⟩⟩
  | some idx =>
    rw [found] at sent
    obtain ⟨link, present, sent⟩ := Option.bind_eq_some_iff.mp sent
    split_ifs at sent with down
    · cases sent
      exact ⟨rfl, .inl ⟨rfl, rfl, rfl, rfl, rfl⟩⟩
    · obtain ⟨arrival, added, sent⟩ := Option.bind_eq_some_iff.mp sent
      obtain ⟨quiet, kept⟩ := @draw_quiet net link.config.lossPerMille
      generalize net.draw link.config.lossPerMille = drawn at sent quiet kept
      obtain ⟨lost, drawn⟩ := drawn
      dsimp only at sent quiet kept
      have there : drawn.links[idx]? = some link := by rw [quiet.1, present]
      cases kind : link.config.kind with
      | datagram =>
        rw [kind] at sent
        rcases sendDatagram_outcome kind sent with ⟨failed, rfl⟩ | ⟨posts, posted, scheduled⟩
        · exact ⟨kept, .inl ⟨failed, quiet⟩⟩
        · refine ⟨scheduled.same.2.2.trans kept, .inr ⟨idx, link, link, posts, arrival, drawn, rfl, present, posted,
            checkedAdd_spec added, ?_, scheduled⟩⟩
          rw [set_same present]
          exact quiet
      | stream =>
        rw [kind] at sent
        have up : link.up = true := by
          rw [kind] at down
          simpa using down
        obtain ⟨link', posts, posted, scheduled⟩ := sendStream_outcome there kind up sent
        exact ⟨scheduled.same.2.2.trans kept, .inr ⟨idx, link, link', posts, arrival,
          { drawn with links := drawn.links.set idx link' }, rfl, present, posted, checkedAdd_spec added,
          ⟨by rw [quiet.1], quiet.2⟩, scheduled⟩⟩

theorem queued_send {result : Except SimError Unit} (queued : Queued net)
    (sent : net.send sender dest bytes = some (result, net')) : Queued net' := by
  rcases (send_outcome sent).2 with ⟨-, quiet⟩ |
    ⟨idx, link, link', posts, arrival, mid, found, present, posted, latency, quiet, scheduled⟩
  · exact quiet.queued queued
  · obtain ⟨ends, config⟩ := posted.ends
    have inside := (List.getElem?_eq_some_iff.mp present).1
    have present' : mid.links[idx]? = some link' := by
      rw [quiet.1]
      exact List.getElem?_set_self inside
    have place : position mid.links sender dest = some idx := by
      rw [quiet.1]
      exact (position_set present ends.1 ends.2).trans found
    refine scheduled.queued (quiet.queued (queued.relink present ends config)) present' ?_ ?_
    · rw [quiet.2.2.1, config]
      exact latency
    · intro post mem
      rcases posted.between post mem with ⟨one, two⟩ | ⟨one, two⟩ <;> rw [one, two]
      · exact place
      · exact position_symm.trans place

/-! ## Stepping -/

/-- What a node has received and not yet taken. -/
def inbox (net : SimNet) (node : NodeId) : List Delivery := net.inboxes[node.index]?.getD []

def newsFor (node : NodeId) (news : List (NodeId × Delivery)) : List Delivery :=
  (news.filter (·.1 = node)).map (·.2)

/-- The deliveries are at the end of the inboxes, and nothing else has changed. -/
structure Delivered (net net' : SimNet) (news : List (NodeId × Delivery)) : Prop where
  quiet : Quiet net net'
  fresh : ∀ node, inbox net' node = inbox net node ++ newsFor node news

theorem Delivered.refl (net : SimNet) : Delivered net net [] :=
  ⟨⟨rfl, rfl, rfl, rfl⟩, fun _ => (List.append_nil _).symm⟩

theorem Delivered.trans {mid : SimNet} {news news' : List (NodeId × Delivery)}
    (one : Delivered net mid news) (two : Delivered mid net' news') :
    Delivered net net' (news ++ news') := by
  obtain ⟨⟨links, events, now, seq⟩, fresh⟩ := one
  obtain ⟨⟨links', events', now', seq'⟩, fresh'⟩ := two
  refine ⟨⟨links'.trans links, events'.trans events, now'.trans now, seq'.trans seq⟩, fun node => ?_⟩
  rw [fresh', fresh, newsFor, newsFor, newsFor, List.filter_append, List.map_append,
    List.append_assoc]

theorem delivered_of_deliver {delivery : Delivery} (made : net.deliver dest delivery = some net') :
    Delivered net net' [(dest, delivery)] := by
  rw [SimNet.deliver, Option.ite_none_right_eq_some] at made
  obtain ⟨inside, made⟩ := made
  obtain rfl := Option.some.inj made
  refine ⟨⟨rfl, rfl, rfl, rfl⟩, fun node => ?_⟩
  rw [inbox, inbox, List.getElem?_modify, newsFor]
  by_cases same : dest = node
  · subst same
    simp [List.getElem?_eq_getElem inside]
  · have apart : dest.index ≠ node.index := fun index => same (by cases dest; cases node; congr)
    simp [apart, same]

/-- What an event does to its link, and what is received. -/
inductive Arrived (event : Event) (link : Link) : Link → List (NodeId × Delivery) → Prop
  | noticed {other : NodeId} (kind : event.kind = .linkDown other) :
      Arrived event link link [(event.dest, .linkDown other)]
  | received {sender : NodeId} {bytes : List UInt8} (kind : event.kind = .data sender bytes)
      (open_ : link.config.kind = .stream → link.up = true) :
      Arrived event link link [(event.dest, .data sender bytes)]
  | discarded {sender : NodeId} {bytes : List UInt8} (kind : event.kind = .data sender bytes)
      (closed : link.config.kind = .stream → link.up = false) : Arrived event link link []
  | broken {sender : NodeId} {bytes : List UInt8} (kind : event.kind = .data sender bytes)
      (stream : link.config.kind = .stream) (up : link.up = true) :
      Arrived event link { link with up := false }
        [(event.dest, .linkDown sender), (sender, .linkDown event.dest)]

theorem Arrived.ends {event : Event} {link' : Link} {news : List (NodeId × Delivery)}
    (arrived : Arrived event link link' news) :
    (link'.a = link.a ∧ link'.b = link.b) ∧ link'.config = link.config := by
  cases arrived <;> exact ⟨⟨rfl, rfl⟩, rfl⟩

theorem Arrived.down {event : Event} {link' : Link} {news : List (NodeId × Delivery)}
    (arrived : Arrived event link link' news) (stream : link.config.kind = .stream)
    (off : link.up = false) :
    link' = link ∧ (news = [] ∨ ∃ node other, news = [(node, .linkDown other)]) := by
  cases arrived with
  | noticed => exact ⟨rfl, .inr ⟨_, _, rfl⟩⟩
  | received _ open_ => simp [open_ stream] at off
  | discarded => exact ⟨rfl, .inl rfl⟩
  | broken _ _ up => simp [up] at off

theorem arriveData_outcome {event : Event} (kind : event.kind = .data sender bytes)
    (made : net.arriveData event sender bytes = some net') :
    ∃ link link' news, net.links[event.link]? = some link ∧ Arrived event link link' news ∧
      Delivered { net with links := net.links.set event.link link' } net' news := by
  rw [SimNet.arriveData] at made
  obtain ⟨link, present, made⟩ := Option.bind_eq_some_iff.mp made
  obtain ⟨reachable, -, made⟩ := Option.bind_eq_some_iff.mp made
  have unchanged : { net with links := net.links.set event.link link } = net := by
    rw [set_same present]
  refine ⟨link, ?_⟩
  cases transport : link.config.kind with
  | datagram =>
    rw [transport] at made
    have other : link.config.kind ≠ .stream := by simp [transport]
    cases reachable with
    | true =>
      refine ⟨link, _, present, .received kind fun stream => absurd stream other, ?_⟩
      rw [unchanged]
      exact delivered_of_deliver made
    | false =>
      obtain rfl := Option.some.inj made
      refine ⟨link, _, present, .discarded kind fun stream => absurd stream other, ?_⟩
      rw [unchanged]
      exact .refl net
  | stream =>
    rw [transport] at made
    dsimp only at made
    split_ifs at made with through up
    · rw [Bool.and_eq_true] at through
      refine ⟨link, _, present, .received kind fun _ => through.2, ?_⟩
      rw [unchanged]
      exact delivered_of_deliver made
    · obtain ⟨mid, first, second⟩ := Option.bind_eq_some_iff.mp made
      rw [SimNet.drop, modify_eq_set present] at first
      exact ⟨_, _, present, .broken kind transport up,
        (delivered_of_deliver first).trans (delivered_of_deliver second)⟩
    · obtain rfl := Option.some.inj made
      refine ⟨link, _, present, .discarded kind fun _ => eq_false_of_ne_true up, ?_⟩
      rw [unchanged]
      exact .refl net

theorem step_outcome (queued : Queued net) {went : Bool} (stepped : net.step = some (went, net')) :
    net' = net ∨
      ∃ event rest link link' news, popLeast Event.key net.events = some (event, rest) ∧
        net.links[event.link]? = some link ∧ Arrived event link link' news ∧
        Delivered
          { net with
            nowUs := event.atUs
            events := rest
            links := net.links.set event.link link' } net' news := by
  rw [SimNet.step] at stepped
  rcases popped : popLeast Event.key net.events with _ | ⟨event, rest⟩
  · rw [popped] at stepped
    cases stepped
    exact .inl rfl
  · rw [popped] at stepped
    obtain ⟨next, made, stepped⟩ := Option.bind_eq_some_iff.mp stepped
    cases stepped
    rw [SimNet.process] at made
    refine .inr ⟨event, rest, ?_⟩
    cases kind : event.kind with
    | data sender bytes =>
      rw [kind] at made
      obtain ⟨link, link', news, present, arrived, delivered⟩ := arriveData_outcome kind made
      exact ⟨link, link', news, rfl, present, arrived, delivered⟩
    | linkDown other =>
      rw [kind] at made
      obtain ⟨link, present, -⟩ := position_spec (queued.placed event (mem_of_pop queued popped))
      refine ⟨link, link, _, rfl, present, .noticed kind, ?_⟩
      rw [set_same present]
      exact delivered_of_deliver made

theorem queued_pop (queued : Queued net) {event : Event} {rest : List Event}
    (popped : popLeast Event.key net.events = some (event, rest)) :
    Queued { net with nowUs := event.atUs, events := rest } := by
  obtain ⟨front, back, split, left, -, later⟩ := pop_first queued popped
  have sub : rest.Sublist net.events := by
    rw [split, left]
    exact (List.sublist_cons_self event back).append_left front
  have now := queued.coming event (mem_of_pop queued popped)
  refine ⟨queued.numbered.sublist sub, fun other mem => queued.below other (sub.subset mem),
    queued.ordered.sublist sub, later, fun other mem link present => ?_,
    fun other mem => queued.placed other (sub.subset mem)⟩
  have within := queued.within other (sub.subset mem) link present
  exact within.trans (Nat.add_le_add_right now _)

theorem queued_step (queued : Queued net) {went : Bool} (stepped : net.step = some (went, net')) :
    Queued net' := by
  rcases step_outcome queued stepped with rfl |
    ⟨event, rest, link, link', news, popped, present, arrived, delivered⟩
  · exact queued
  · obtain ⟨ends, config⟩ := arrived.ends
    exact delivered.quiet.queued ((queued_pop queued popped).relink present ends config)

theorem pending_pop (queued : Queued net) {event : Event} {rest : List Event}
    (popped : popLeast Event.key net.events = some (event, rest)) {next : SimNet}
    (events : next.events = rest) :
    pending net event.link = (event.dest, event.kind) :: pending next event.link ∧
      ∀ other ≠ event.link, pending next other = pending net other := by
  obtain ⟨front, back, split, left, apart, -⟩ := pop_first queued popped
  constructor
  · have none : front.filter (·.link = event.link) = [] :=
      List.filter_eq_nil_iff.mpr fun early mem => by simpa using apart early mem
    simp [pending, events, split, left, none]
  · intro other away
    simp [pending, events, split, left, away.symm]

end Racnet.Proof.Sim
