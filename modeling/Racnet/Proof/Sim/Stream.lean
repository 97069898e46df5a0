import Racnet.Proof.Sim.Outcome

/-!
# A stream link

For one pair of nodes, what the second receives from the first is a beginning of what was sent.
-/

namespace Racnet.Proof.Sim
open Racnet.Sim Lib

inductive Op where
  | addNode
  | connect (a b : NodeId) (config : LinkConfig)
  | partition (groups : List (List NodeId))
  | heal
  | send (sender dest : NodeId) (bytes : List UInt8)
  | step
  | takeInbox (node : NodeId)

def perform (net : SimNet) : Op → Option (SimNet × Bool)
  | .addNode => some (net.addNode.2, false)
  | .connect a b config => some (net.connect a b config, false)
  | .partition groups => (net.partition groups).map (·, false)
  | .heal => some (net.heal, false)
  | .send sender dest bytes => (net.send sender dest bytes).map fun done => (done.2, done.1.isOk)
  | .step => net.step.map fun done => (done.2, false)
  | .takeInbox node => (net.takeInbox node).map fun done => (done.2, false)

/-- The call connects the two nodes, for the first time or again. -/
def Op.connects (a b : NodeId) : Op → Prop
  | .connect x y _ => x = a ∧ y = b ∨ x = b ∧ y = a
  | _ => False

instance (a b : NodeId) : DecidablePred (Op.connects a b) := fun op => by
  cases op <;> unfold Op.connects <;> infer_instance

/-- What is seen of a pair since it was last connected: the bytes that `send` accepted, the segments
that the second node received from the first, and the notices that each got about the other. -/
structure Watch where
  sent : List UInt8
  segments : List (List UInt8)
  downsA : Nat
  downsB : Nat
  deriving DecidableEq

def Watch.start : Watch := ⟨[], [], 0, 0⟩

def dataFrom (a : NodeId) : Delivery → Option (List UInt8)
  | .data sender bytes => if sender = a then some bytes else none
  | .linkDown _ => none

def Watch.see (a b : NodeId) (watch : Watch) (newsA newsB : List Delivery) : Watch :=
  { watch with
    segments := watch.segments ++ newsB.filterMap (dataFrom a)
    downsA := watch.downsA + newsA.count (.linkDown b)
    downsB := watch.downsB + newsB.count (.linkDown a) }

def Watch.send (a b sender dest : NodeId) (bytes : List UInt8) (ok : Bool) (watch : Watch) : Watch :=
  if sender = a ∧ dest = b ∧ ok = true then { watch with sent := watch.sent ++ bytes } else watch

def arrivals (net net' : SimNet) (node : NodeId) : List Delivery :=
  (inbox net' node).drop (inbox net node).length

def Watch.call (a b : NodeId) (watch : Watch) (ok : Bool) : Op → Watch
  | .connect x y config => if (Op.connect x y config).connects a b then .start else watch
  | .send sender dest bytes => watch.send a b sender dest bytes ok
  | _ => watch

def Watch.after (a b : NodeId) (watch : Watch) (net net' : SimNet) (ok : Bool) (op : Op) : Watch :=
  (watch.call a b ok op).see a b (arrivals net net' a) (arrivals net net' b)

def runOps (a b : NodeId) : List Op → SimNet × Watch → Option (SimNet × Watch)
  | [], now => some now
  | op :: ops, (net, watch) => do
    let (net', ok) ← perform net op
    runOps a b ops (net', watch.after a b net net' ok op)

/-! ## One connection -/

variable {a b sender dest : NodeId} {bytes : List UInt8} {link link' : Link} {watch : Watch}
  {queue posts : List (NodeId × EventKind)}

def carried (a b : NodeId) : NodeId × EventKind → Option (List UInt8)
  | (dest, .data sender bytes) => if sender = a ∧ dest = b then some bytes else none
  | (_, .linkDown _) => none

def inFlight (a b : NodeId) (queue : List (NodeId × EventKind)) : List (List UInt8) :=
  queue.filterMap (carried a b)

/-- While the link is up nothing has been lost; afterwards no more than one notice is due. -/
structure Intact (a b : NodeId) (link : Link) (queue : List (NodeId × EventKind)) (watch : Watch) :
    Prop where
  whole : link.up = true → watch.segments.flatten ++ (inFlight a b queue).flatten = watch.sent
  begun : watch.segments.flatten <+: watch.sent
  short : ∀ segment ∈ watch.segments ++ inFlight a b queue, segment.length ≤ link.config.mtu
  unnoticedA : link.up = true → watch.downsA + queue.count (a, .linkDown b) = 0
  unnoticedB : link.up = true → watch.downsB + queue.count (b, .linkDown a) = 0
  onceA : watch.downsA + queue.count (a, .linkDown b) ≤ 1
  onceB : watch.downsB + queue.count (b, .linkDown a) ≤ 1

theorem intact_start (a b : NodeId) (link : Link) : Intact a b link [] .start := by
  constructor <;> simp [Watch.start, inFlight]

theorem Intact.post (distinct : a ≠ b) {ok : Bool} (intact : Intact a b link queue watch)
    (stream : link.config.kind = .stream) (posted : Posted sender dest bytes link link' posts ok)
    (ends : sender = a ∧ dest = b ∨ sender = b ∧ dest = a) :
    Intact a b link' (queue ++ posts) (watch.send a b sender dest bytes ok) := by
  obtain ⟨whole, begun, short, unnoticedA, unnoticedB, onceA, onceB⟩ := intact
  cases posted with
  | lost kind => simp [stream] at kind
  | whole kind => simp [stream] at kind
  | segmented kind up segments joined segmentsShort =>
    have unnoticed : ∀ x y : NodeId, (segments.map fun segment =>
        (dest, EventKind.data sender segment)).count (x, .linkDown y) = 0 := by
      intro x y
      simp [List.count_eq_zero]
    rcases ends with ⟨rfl, rfl⟩ | ⟨rfl, rfl⟩
    · have added : inFlight sender dest (queue ++ segments.map fun segment =>
          (dest, EventKind.data sender segment)) = inFlight sender dest queue ++ segments := by
        simp [inFlight, carried, List.filterMap_map, Function.comp_def]
      rw [Watch.send, if_pos ⟨rfl, rfl, rfl⟩]
      refine ⟨fun _ => ?_, ?_, ?_, ?_, ?_, ?_, ?_⟩
      · rw [added, List.flatten_append, ← List.append_assoc, whole up, joined]
      · exact begun.trans (List.prefix_append _ _)
      · rw [added, ← List.append_assoc]
        exact List.forall_mem_append.mpr ⟨short, segmentsShort⟩
      all_goals
        simp only [List.count_append, unnoticed, Nat.add_zero]
        assumption
    · have added : inFlight dest sender (queue ++ segments.map fun segment =>
          (dest, EventKind.data sender segment)) = inFlight dest sender queue := by
        simp [inFlight, carried, List.filterMap_map, Function.comp_def, distinct]
      rw [Watch.send, if_neg fun same => distinct same.1.symm]
      refine ⟨?_, begun, ?_, ?_, ?_, ?_, ?_⟩
      · rwa [added]
      · rwa [added]
      all_goals
        simp only [List.count_append, unnoticed, Nat.add_zero]
        assumption
  | broken kind up =>
    have added : inFlight a b (queue ++ [(dest, .linkDown sender), (sender, .linkDown dest)]) =
        inFlight a b queue := by
      simp [inFlight, carried]
    have noneA := unnoticedA up
    have noneB := unnoticedB up
    rw [Watch.send, if_neg fun same => Bool.false_ne_true same.2.2]
    refine ⟨fun up' => absurd up' Bool.false_ne_true, begun, by rwa [added],
      fun up' => absurd up' Bool.false_ne_true, fun up' => absurd up' Bool.false_ne_true, ?_, ?_⟩
    all_goals
      rw [List.count_append, ← Nat.add_assoc]
      rcases ends with ⟨rfl, rfl⟩ | ⟨rfl, rfl⟩ <;> simp [distinct.symm, *]

theorem Intact.arrive (distinct : a ≠ b) {event : Event} {news : List (NodeId × Delivery)}
    (intact : Intact a b link ((event.dest, event.kind) :: queue) watch)
    (stream : link.config.kind = .stream) (arrived : Arrived event link link' news)
    (ends : peer event.kind = a ∧ event.dest = b ∨ peer event.kind = b ∧ event.dest = a) :
    Intact a b link' queue (watch.see a b (newsFor a news) (newsFor b news)) := by
  obtain ⟨whole, begun, short, unnoticedA, unnoticedB, onceA, onceB⟩ := intact
  have later : ∀ segment ∈ watch.segments ++ inFlight a b queue, segment.length ≤ link.config.mtu := by
    refine fun segment mem => short segment ?_
    have sub : (inFlight a b queue).Sublist (inFlight a b ((event.dest, event.kind) :: queue)) :=
      (List.sublist_cons_self _ _).filterMap _
    exact (sub.append_left _).subset mem
  have inFlight_down : ∀ x y, inFlight a b ((x, .linkDown y) :: queue) = inFlight a b queue :=
    fun _ _ => rfl
  obtain ⟨atUs, seq, dest, idx, kind⟩ := event
  cases arrived with
  | @noticed other is =>
    obtain rfl : kind = .linkDown other := is
    dsimp only [peer] at ends
    rw [inFlight_down] at whole
    rcases ends with ⟨rfl, rfl⟩ | ⟨rfl, rfl⟩
    · have seen : watch.see other dest (newsFor other [(dest, .linkDown other)])
          (newsFor dest [(dest, .linkDown other)]) = { watch with downsB := watch.downsB + 1 } := by
        simp [Watch.see, newsFor, dataFrom, distinct.symm]
      rw [List.count_cons_self] at unnoticedB onceB
      rw [List.count_cons_of_ne (by simp [distinct.symm])] at unnoticedA onceA
      rw [seen]
      exact ⟨whole, begun, later, unnoticedA, fun up => absurd (unnoticedB up) (by omega), onceA,
        by dsimp only; omega⟩
    · have seen : watch.see dest other (newsFor dest [(dest, .linkDown other)])
          (newsFor other [(dest, .linkDown other)]) = { watch with downsA := watch.downsA + 1 } := by
        simp [Watch.see, newsFor, dataFrom, distinct]
      rw [List.count_cons_self] at unnoticedA onceA
      rw [List.count_cons_of_ne (by simp [distinct])] at unnoticedB onceB
      rw [seen]
      exact ⟨whole, begun, later, fun up => absurd (unnoticedA up) (by omega), unnoticedB,
        by dsimp only; omega, onceB⟩
  | @received sender bytes is open_ =>
    obtain rfl : kind = .data sender bytes := is
    dsimp only [peer] at ends
    rw [List.count_cons_of_ne (by simp)] at unnoticedA unnoticedB onceA onceB
    have up := open_ stream
    rcases ends with ⟨rfl, rfl⟩ | ⟨rfl, rfl⟩
    · have seen : watch.see sender dest (newsFor sender [(dest, .data sender bytes)])
          (newsFor dest [(dest, .data sender bytes)]) =
            { watch with segments := watch.segments ++ [bytes] } := by
        simp [Watch.see, newsFor, dataFrom, distinct.symm]
      have head : inFlight sender dest ((dest, .data sender bytes) :: queue) =
          bytes :: inFlight sender dest queue := by
        simp [inFlight, carried]
      have all : (watch.segments ++ [bytes]).flatten ++ (inFlight sender dest queue).flatten =
          watch.sent := by
        rw [← whole up, head]
        simp
      rw [head, List.append_cons] at short
      rw [seen]
      exact ⟨fun _ => all, ⟨_, all⟩, short, unnoticedA, unnoticedB, onceA, onceB⟩
    · have seen : watch.see dest sender (newsFor dest [(dest, .data sender bytes)])
          (newsFor sender [(dest, .data sender bytes)]) = watch := by
        simp [Watch.see, newsFor, distinct]
      have head : inFlight dest sender ((dest, .data sender bytes) :: queue) =
          inFlight dest sender queue := by
        simp [inFlight, carried, distinct]
      rw [head] at whole
      rw [seen]
      exact ⟨whole, begun, later, unnoticedA, unnoticedB, onceA, onceB⟩
  | @discarded sender bytes is closed =>
    obtain rfl : kind = .data sender bytes := is
    rw [List.count_cons_of_ne (by simp)] at unnoticedA unnoticedB onceA onceB
    have down : link.up ≠ true := by simp [closed stream]
    have seen : watch.see a b (newsFor a []) (newsFor b []) = watch := by
      simp [Watch.see, newsFor]
    rw [seen]
    exact ⟨fun up => absurd up down, begun, later, unnoticedA, unnoticedB, onceA, onceB⟩
  | @broken sender bytes is _ up =>
    obtain rfl : kind = .data sender bytes := is
    dsimp only [peer] at ends
    rw [List.count_cons_of_ne (by simp)] at unnoticedA unnoticedB
    have noneA := unnoticedA up
    have noneB := unnoticedB up
    have seen : watch.see a b (newsFor a [(dest, .linkDown sender), (sender, .linkDown dest)])
        (newsFor b [(dest, .linkDown sender), (sender, .linkDown dest)]) =
          { watch with downsA := watch.downsA + 1, downsB := watch.downsB + 1 } := by
      rcases ends with ⟨rfl, rfl⟩ | ⟨rfl, rfl⟩ <;>
        simp [Watch.see, newsFor, dataFrom, distinct, distinct.symm]
    rw [seen]
    refine ⟨fun up' => absurd up' Bool.false_ne_true, begun, later,
      fun up' => absurd up' Bool.false_ne_true, fun up' => absurd up' Bool.false_ne_true, ?_, ?_⟩
    all_goals
      dsimp only
      omega

def source : Delivery → NodeId
  | .data sender _ => sender
  | .linkDown peer => peer

theorem see_others {newsA newsB : List Delivery} (notB : ∀ delivery ∈ newsA, source delivery ≠ b)
    (notA : ∀ delivery ∈ newsB, source delivery ≠ a) : watch.see a b newsA newsB = watch := by
  have noData : newsB.filterMap (dataFrom a) = [] := by
    refine List.filterMap_eq_nil_iff.mpr fun delivery mem => ?_
    cases delivery with
    | data sender bytes => exact if_neg (notA _ mem)
    | linkDown other => rfl
  have noneA : newsA.count (.linkDown b) = 0 := List.count_eq_zero.mpr fun mem => notB _ mem rfl
  have noneB : newsB.count (.linkDown a) = 0 := List.count_eq_zero.mpr fun mem => notA _ mem rfl
  rw [Watch.see, noData, noneA, noneB, List.append_nil]
  rfl

theorem see_nil (watch : Watch) : watch.see a b [] [] = watch := by
  rw [Watch.see, List.filterMap_nil, List.append_nil]
  rfl

theorem Arrived.between {event : Event} {news : List (NodeId × Delivery)}
    (arrived : Arrived event link link' news) :
    ∀ item ∈ news, (source item.2 = peer event.kind ∧ item.1 = event.dest) ∨
      (source item.2 = event.dest ∧ item.1 = peer event.kind) := by
  cases arrived with
  | noticed kind => simp [kind, peer, source]
  | received kind => simp [kind, peer, source]
  | discarded => simp
  | broken kind => simp [kind, peer, source]

theorem see_elsewhere {event : Event} {news : List (NodeId × Delivery)}
    (arrived : Arrived event link link' news)
    (away : ¬ (peer event.kind = a ∧ event.dest = b ∨ peer event.kind = b ∧ event.dest = a)) :
    watch.see a b (newsFor a news) (newsFor b news) = watch := by
  have mem_newsFor : ∀ {node : NodeId} {delivery : Delivery},
      delivery ∈ newsFor node news → (node, delivery) ∈ news := by
    intro node delivery mem
    obtain ⟨⟨_, _⟩, kept, rfl⟩ := List.mem_map.mp mem
    obtain ⟨listed, same⟩ := List.mem_filter.mp kept
    obtain rfl := of_decide_eq_true same
    exact listed
  refine see_others (fun delivery mem about => away ?_) (fun delivery mem about => away ?_)
  · rcases arrived.between _ (mem_newsFor mem) with ⟨one, two⟩ | ⟨one, two⟩
    · exact .inr ⟨one.symm.trans about, two.symm⟩
    · exact .inl ⟨two.symm, one.symm.trans about⟩
  · rcases arrived.between _ (mem_newsFor mem) with ⟨one, two⟩ | ⟨one, two⟩
    · exact .inl ⟨one.symm.trans about, two.symm⟩
    · exact .inr ⟨two.symm, one.symm.trans about⟩

/-! ## The whole network -/

variable {net net' : SimNet}

theorem arrivals_nil (shorter : ∀ node, (inbox net' node).length ≤ (inbox net node).length) (node : NodeId) :
    arrivals net net' node = [] :=
  List.drop_eq_nil_iff.mpr (shorter node)

theorem arrivals_same (same : net'.inboxes = net.inboxes) : ∀ node, arrivals net net' node = [] :=
  arrivals_nil fun node => by rw [inbox, inbox, same]

theorem after_silent {op : Op} {ok : Bool} (silent : ∀ node, arrivals net net' node = []) :
    watch.after a b net net' ok op = watch.call a b ok op := by
  rw [Watch.after, silent, silent, see_nil]

theorem inboxes_connect (x y : NodeId) (config : LinkConfig) :
    (net.connect x y config).inboxes = net.inboxes := by
  rw [SimNet.connect]
  cases position net.links x y <;> rfl

/-- Whatever link the pair has, if it is a stream then it is intact. -/
def Faithful (a b : NodeId) (net : SimNet) (watch : Watch) : Prop :=
  ∀ idx link, position net.links a b = some idx → net.links[idx]? = some link →
    link.config.kind = .stream → Intact a b link (pending net idx) watch

theorem Faithful.quiet (faithful : Faithful a b net watch) (quiet : Quiet net net') :
    Faithful a b net' watch := by
  intro idx link found present
  rw [quiet.1] at found present
  rw [quiet.pending_eq]
  exact faithful idx link found present

theorem pending_connect (queued : Queued net) {x y : NodeId} {config : LinkConfig} {idx : Nat}
    (found : position (net.connect x y config).links x y = some idx) :
    pending (net.connect x y config) idx = [] := by
  rw [SimNet.connect] at found ⊢
  rw [pending, List.map_eq_nil_iff, List.filter_eq_nil_iff]
  cases old : position net.links x y with
  | none =>
    rw [old] at found
    intro event mem same
    have place := queued.placed event mem
    obtain rfl : event.link = idx := of_decide_eq_true same
    rcases ends_of_position found (position_append place) with ⟨one, two⟩ | ⟨one, two⟩
    · rw [one, two, old] at place
      cases place
    · rw [one, two, position_symm, old] at place
      cases place
  | some at_ =>
    rw [old] at found
    obtain ⟨link, present, -⟩ := position_spec old
    dsimp only at found ⊢
    rw [modify_eq_set present, position_revive present, old] at found
    have same : at_ = idx := Option.some.inj found
    intro event mem
    have away := (List.mem_filter.mp mem).2
    simpa [same] using away

theorem position_connect_other {x y : NodeId} {config : LinkConfig}
    (other : ¬ (Op.connect x y config).connects a b) :
    position (net.connect x y config).links a b = position net.links a b := by
  rw [SimNet.connect]
  cases old : position net.links x y with
  | none =>
    have new : decide (x = a ∧ y = b ∨ x = b ∧ y = a) = false := decide_eq_false other
    rw [position, List.findIdx?_append, position, List.findIdx?_singleton, new]
    simp
  | some at_ =>
    obtain ⟨link, present, -⟩ := position_spec old
    dsimp only
    rw [modify_eq_set present, position_revive present]

theorem connect_other {x y : NodeId} {config : LinkConfig}
    (other : ¬ (Op.connect x y config).connects a b) {idx : Nat}
    (found : position net.links a b = some idx) :
    (net.connect x y config).links[idx]? = net.links[idx]? ∧
      pending (net.connect x y config) idx = pending net idx := by
  rw [SimNet.connect]
  cases old : position net.links x y with
  | none =>
    obtain ⟨link, present, -⟩ := position_spec found
    exact ⟨List.getElem?_append_left (List.getElem?_eq_some_iff.mp present).1, rfl⟩
  | some at_ =>
    obtain ⟨link, present, -⟩ := position_spec old
    have away : idx ≠ at_ := by
      rintro rfl
      exact other (ends_of_position found old)
    dsimp only
    rw [modify_eq_set present]
    refine ⟨List.getElem?_set_ne away.symm, ?_⟩
    rw [pending, pending, List.filter_filter]
    congr 2
    funext event
    by_cases same : event.link = idx <;> simp [same, away]

theorem faithful_connect (queued : Queued net) (faithful : Faithful a b net watch) {x y : NodeId}
    {config : LinkConfig} :
    Faithful a b (net.connect x y config)
      (watch.after a b net (net.connect x y config) false (.connect x y config)) := by
  intro idx link found present stream
  rw [after_silent (arrivals_same (inboxes_connect x y config)), Watch.call]
  by_cases pair : (Op.connect x y config).connects a b
  · have joined : position (net.connect x y config).links x y = some idx := by
      rcases pair with ⟨rfl, rfl⟩ | ⟨rfl, rfl⟩
      · exact found
      · exact position_symm.trans found
    rw [if_pos pair, pending_connect queued joined]
    exact intact_start a b link
  · rw [position_connect_other pair] at found
    obtain ⟨same, unchanged⟩ := connect_other pair found
    rw [if_neg pair, unchanged]
    exact faithful idx link found (same ▸ present) stream

theorem faithful_send (distinct : a ≠ b) (faithful : Faithful a b net watch)
    {result : Except SimError Unit} (sent : net.send sender dest bytes = some (result, net')) :
    Faithful a b net' (watch.send a b sender dest bytes result.isOk) := by
  rcases (send_outcome sent).2 with ⟨failed, quiet⟩ |
    ⟨at_, link, link', posts, arrival, mid, found, present, posted, -, quiet, scheduled⟩
  · rw [failed, Watch.send, if_neg fun same => Bool.false_ne_true same.2.2]
    exact faithful.quiet quiet
  · obtain ⟨ends, config⟩ := posted.ends
    have links : net'.links = net.links.set at_ link' := scheduled.same.1.trans quiet.1
    intro idx target place there stream
    rw [links, position_set present ends.1 ends.2] at place
    rw [links] at there
    rw [scheduled.pending_eq, quiet.pending_eq]
    by_cases same : idx = at_
    · subst same
      rw [List.getElem?_set_self (List.getElem?_eq_some_iff.mp present).1] at there
      obtain rfl := Option.some.inj there
      rw [config] at stream
      rw [if_pos rfl]
      exact (faithful idx link place present stream).post distinct stream posted
        (ends_of_position place found)
    · rw [List.getElem?_set_ne (Ne.symm same)] at there
      have away : ¬ (sender = a ∧ dest = b ∧ result.isOk = true) := by
        rintro ⟨rfl, rfl, -⟩
        exact same (Option.some.inj (place.symm.trans found))
      rw [if_neg same, List.append_nil, Watch.send, if_neg away]
      exact faithful idx target place there stream

theorem arrivals_of_fresh {news : List (NodeId × Delivery)}
    (fresh : ∀ node, inbox net' node = inbox net node ++ newsFor node news) (node : NodeId) :
    arrivals net net' node = newsFor node news := by
  rw [arrivals, fresh]
  exact List.drop_left

theorem faithful_step (distinct : a ≠ b) (queued : Queued net) (faithful : Faithful a b net watch)
    {went : Bool} (stepped : net.step = some (went, net')) :
    Faithful a b net' (watch.see a b (arrivals net net' a) (arrivals net net' b)) := by
  rcases step_outcome queued stepped with rfl |
    ⟨event, rest, link, link', news, popped, present, arrived, delivered⟩
  · have seen : watch.see a b (arrivals net' net' a) (arrivals net' net' b) = watch := by
      rw [arrivals_same rfl, arrivals_same rfl, see_nil]
    rw [seen]
    exact faithful
  · obtain ⟨ends, config⟩ := arrived.ends
    obtain ⟨links, events, -⟩ := delivered.quiet
    dsimp only at links events
    obtain ⟨own, others⟩ := pending_pop queued popped events
    have placed := queued.placed event (mem_of_pop queued popped)
    have got : ∀ node, arrivals net net' node = newsFor node news := arrivals_of_fresh delivered.fresh
    rw [got a, got b]
    intro idx target place there stream
    rw [links, position_set present ends.1 ends.2] at place
    rw [links] at there
    by_cases same : idx = event.link
    · subst same
      rw [List.getElem?_set_self (List.getElem?_eq_some_iff.mp present).1] at there
      obtain rfl := Option.some.inj there
      rw [config] at stream
      have before := faithful _ link place present stream
      rw [own] at before
      exact before.arrive distinct stream arrived (ends_of_position place placed)
    · rw [List.getElem?_set_ne (Ne.symm same)] at there
      have away : ¬ (peer event.kind = a ∧ event.dest = b ∨ peer event.kind = b ∧ event.dest = a) :=
        fun ends => same (position_of_ends place placed ends).symm
      rw [see_elsewhere arrived away, others idx same]
      exact faithful idx target place there stream

theorem perform_cases {op : Op} {ok : Bool} (performed : perform net op = some (net', ok)) :
    (Quiet net net' ∧ ∀ a b watch, Watch.after a b watch net net' ok op = watch) ∨
      (∃ x y config, op = .connect x y config ∧ net' = net.connect x y config ∧ ok = false) ∨
      (∃ sender dest bytes result, op = .send sender dest bytes ∧
        net.send sender dest bytes = some (result, net') ∧ ok = result.isOk) ∨
      ∃ went, op = .step ∧ net.step = some (went, net') := by
  cases op with
  | addNode =>
    cases performed
    refine .inl ⟨⟨rfl, rfl, rfl, rfl⟩, fun _ _ _ => after_silent (arrivals_nil fun node => ?_)⟩
    rw [inbox, inbox, SimNet.addNode, List.getElem?_append]
    split_ifs with old
    · exact le_rfl
    · rcases node.index - net.inboxes.length with _ | _ <;> simp
  | connect x y config =>
    cases performed
    exact .inr (.inl ⟨x, y, config, rfl, rfl, rfl⟩)
  | partition groups =>
    obtain ⟨next, made, done⟩ := Option.map_eq_some_iff.mp performed
    cases done
    obtain ⟨assignment, -, same⟩ := Option.bind_eq_some_iff.mp made
    cases same
    exact .inl ⟨⟨rfl, rfl, rfl, rfl⟩, fun _ _ _ => after_silent (arrivals_same rfl)⟩
  | heal =>
    cases performed
    exact .inl ⟨⟨rfl, rfl, rfl, rfl⟩, fun _ _ _ => after_silent (arrivals_same rfl)⟩
  | send sender dest bytes =>
    obtain ⟨⟨result, next⟩, sent, done⟩ := Option.map_eq_some_iff.mp performed
    cases done
    exact .inr (.inr (.inl ⟨sender, dest, bytes, result, rfl, sent, rfl⟩))
  | step =>
    obtain ⟨⟨went, next⟩, stepped, done⟩ := Option.map_eq_some_iff.mp performed
    cases done
    exact .inr (.inr (.inr ⟨went, rfl, stepped⟩))
  | takeInbox node =>
    obtain ⟨⟨taken, next⟩, made, done⟩ := Option.map_eq_some_iff.mp performed
    cases done
    obtain ⟨held, -, same⟩ := Option.bind_eq_some_iff.mp made
    cases same
    refine .inl ⟨⟨rfl, rfl, rfl, rfl⟩, fun _ _ _ => after_silent (arrivals_nil fun other => ?_)⟩
    rw [inbox, inbox, List.getElem?_set]
    split_ifs <;> simp

theorem perform_queued {op : Op} {ok : Bool} (queued : Queued net)
    (performed : perform net op = some (net', ok)) : Queued net' := by
  rcases perform_cases performed with ⟨quiet, -⟩ | ⟨x, y, config, rfl, rfl, rfl⟩ |
    ⟨sender, dest, bytes, result, rfl, sent, rfl⟩ | ⟨went, rfl, stepped⟩
  · exact quiet.queued queued
  · exact queued_connect queued config
  · exact queued_send queued sent
  · exact queued_step queued stepped

theorem perform_faithful (distinct : a ≠ b) {op : Op} {ok : Bool} (queued : Queued net)
    (faithful : Faithful a b net watch) (performed : perform net op = some (net', ok)) :
    Faithful a b net' (watch.after a b net net' ok op) := by
  rcases perform_cases performed with ⟨quiet, unseen⟩ | ⟨x, y, config, rfl, rfl, rfl⟩ |
    ⟨sender, dest, bytes, result, rfl, sent, rfl⟩ | ⟨went, rfl, stepped⟩
  · rw [unseen]
    exact faithful.quiet quiet
  · exact faithful_connect queued faithful
  · rw [after_silent (arrivals_same (send_outcome sent).1)]
    exact faithful_send distinct faithful sent
  · exact faithful_step distinct queued faithful stepped

theorem runOps_preserves (distinct : a ≠ b) {ops : List Op} {watch' : Watch} (queued : Queued net)
    (faithful : Faithful a b net watch)
    (ran : runOps a b ops (net, watch) = some (net', watch')) :
    Queued net' ∧ Faithful a b net' watch' := by
  induction ops generalizing net watch with
  | nil =>
    cases ran
    exact ⟨queued, faithful⟩
  | cons op ops ih =>
    obtain ⟨⟨next, ok⟩, performed, ran⟩ := Option.bind_eq_some_iff.mp ran
    exact ih (perform_queued queued performed)
      (perform_faithful distinct queued faithful performed) ran

/-! ## After the link has gone down -/

def Down (a b : NodeId) (net : SimNet) : Prop :=
  ∃ idx link, position net.links a b = some idx ∧ net.links[idx]? = some link ∧
    link.config.kind = .stream ∧ link.up = false

theorem down_send (down : Down a b net) {result : Except SimError Unit}
    (sent : net.send sender dest bytes = some (result, net')) : Down a b net' := by
  obtain ⟨idx, link, found, present, stream, off⟩ := down
  rcases (send_outcome sent).2 with ⟨-, quiet⟩ |
    ⟨at_, other, other', posts, arrival, mid, place, there, posted, -, quiet, scheduled⟩
  · exact ⟨idx, link, quiet.1 ▸ found, quiet.1 ▸ present, stream, off⟩
  · obtain ⟨ends, -⟩ := posted.ends
    have links : net'.links = net.links.set at_ other' := scheduled.same.1.trans quiet.1
    refine ⟨idx, link, ?_, ?_, stream, off⟩
    · rw [links, position_set there ends.1 ends.2, found]
    · -- a message on a link that is down is refused
      have away : at_ ≠ idx := by
        rintro rfl
        obtain rfl := Option.some.inj (present.symm.trans there)
        simp [posted.up stream] at off
      rw [links, List.getElem?_set_ne away, present]

theorem down_step (queued : Queued net) (down : Down a b net) {went : Bool}
    (stepped : net.step = some (went, net')) :
    Down a b net' ∧
      (watch.see a b (arrivals net net' a) (arrivals net net' b)).segments = watch.segments := by
  obtain ⟨idx, link, found, present, stream, off⟩ := down
  rcases step_outcome queued stepped with rfl |
    ⟨event, rest, other, other', news, popped, there, arrived, delivered⟩
  · exact ⟨⟨idx, link, found, present, stream, off⟩, by rw [arrivals_same rfl, arrivals_same rfl, see_nil]⟩
  · obtain ⟨ends, -⟩ := arrived.ends
    have links : net'.links = net.links.set event.link other' := delivered.quiet.1
    have got : ∀ node, arrivals net net' node = newsFor node news := arrivals_of_fresh delivered.fresh
    have place := queued.placed event (mem_of_pop queued popped)
    have found' : position net'.links a b = some idx := by
      rw [links, position_set there ends.1 ends.2, found]
    rw [got a, got b]
    by_cases same : event.link = idx
    · subst same
      obtain rfl := Option.some.inj (present.symm.trans there)
      obtain ⟨rfl, silent⟩ := arrived.down stream off
      refine ⟨⟨_, other', found', ?_, stream, off⟩, ?_⟩
      · rw [links, set_same there, there]
      · rcases silent with rfl | ⟨node, other, rfl⟩
        · simp [Watch.see, newsFor]
        · by_cases atB : node = b <;> simp [Watch.see, newsFor, atB, dataFrom]
    · refine ⟨⟨idx, link, found', by rw [links, List.getElem?_set_ne same, present], stream, off⟩, ?_⟩
      have away : ¬ (peer event.kind = a ∧ event.dest = b ∨ peer event.kind = b ∧ event.dest = a) :=
        fun ends => same (position_of_ends found place ends)
      rw [see_elsewhere arrived away]

theorem perform_down {op : Op} {ok : Bool} (queued : Queued net) (down : Down a b net)
    (kept : ¬ op.connects a b) (performed : perform net op = some (net', ok)) :
    Down a b net' ∧ (watch.after a b net net' ok op).segments = watch.segments := by
  rcases perform_cases performed with ⟨quiet, unseen⟩ | ⟨x, y, config, rfl, rfl, rfl⟩ |
    ⟨sender, dest, bytes, result, rfl, sent, rfl⟩ | ⟨went, rfl, stepped⟩
  · rw [unseen, Down, quiet.1]
    exact ⟨down, rfl⟩
  · obtain ⟨idx, link, found, present, stream, off⟩ := down
    obtain ⟨same, -⟩ := @connect_other a b net x y config kept idx found
    rw [after_silent (arrivals_same (inboxes_connect x y config)), Watch.call, if_neg kept]
    exact ⟨⟨idx, link, (position_connect_other kept).trans found, same.trans present, stream, off⟩, rfl⟩
  · refine ⟨down_send down sent, ?_⟩
    rw [after_silent (arrivals_same (send_outcome sent).1), Watch.call, Watch.send]
    split_ifs <;> rfl
  · exact down_step queued down stepped

theorem runOps_down {ops : List Op} {watch' : Watch} (queued : Queued net) (down : Down a b net)
    (kept : ∀ op ∈ ops, ¬ op.connects a b)
    (ran : runOps a b ops (net, watch) = some (net', watch')) :
    Down a b net' ∧ watch'.segments = watch.segments := by
  induction ops generalizing net watch with
  | nil =>
    cases ran
    exact ⟨down, rfl⟩
  | cons op ops ih =>
    obtain ⟨⟨next, ok⟩, performed, ran⟩ := Option.bind_eq_some_iff.mp ran
    obtain ⟨first, rest⟩ := List.forall_mem_cons.mp kept
    obtain ⟨down', same⟩ := @perform_down a b watch net next op ok queued down first performed
    obtain ⟨stays, equal⟩ := ih (perform_queued queued performed) down' rest ran
    exact ⟨stays, equal.trans same⟩

/-- Since the pair was last connected, over every run: the second node has received a beginning of
what the first one sent, in segments of at most the MTU; each of them has been told at most once that
the link is down; and from then on nothing is received until the pair is connected again. -/
theorem stream_faithful (seed : UInt64) {a b : NodeId} (distinct : a ≠ b) {ops : List Op}
    {net : SimNet} {watch : Watch} (ran : runOps a b ops (.new seed, .start) = some (net, watch))
    {idx : Nat} {link : Link} (found : position net.links a b = some idx)
    (present : net.links[idx]? = some link) (stream : link.config.kind = .stream) :
    watch.segments.flatten <+: watch.sent ∧
      (∀ segment ∈ watch.segments, segment.length ≤ link.config.mtu) ∧
      watch.downsA ≤ 1 ∧ watch.downsB ≤ 1 ∧
      (link.up = false → ∀ later net' watch', (∀ op ∈ later, ¬ op.connects a b) →
        runOps a b later (net, watch) = some (net', watch') →
        watch'.segments = watch.segments ∧ Down a b net') := by
  have unlinked : Faithful a b (.new seed) .start := fun idx link found => by
    simp [SimNet.new, position] at found
  obtain ⟨queued, faithful⟩ := runOps_preserves distinct (queued_new seed) unlinked ran
  obtain ⟨-, begun, short, -, -, onceA, onceB⟩ := faithful idx link found present stream
  refine ⟨begun, fun segment mem => short segment (List.mem_append_left _ mem),
    (Nat.le_add_right _ _).trans onceA, (Nat.le_add_right _ _).trans onceB, ?_⟩
  intro off later net' watch' kept ran'
  obtain ⟨stays, same⟩ := runOps_down queued ⟨idx, link, found, present, stream, off⟩ kept ran'
  exact ⟨same, stays⟩

/-- Two nodes with a link that carries two bytes at a time, cut while the last byte is on its way. -/
def cutOps : List Op :=
  [.addNode, .addNode, .connect ⟨0⟩ ⟨1⟩ ⟨5000, 2, .stream, 0⟩, .send ⟨0⟩ ⟨1⟩ [1, 2, 3], .step,
    .partition [[⟨0⟩], [⟨1⟩]], .step]

theorem stream_faithful_cut :
    ∃ net watch, runOps ⟨0⟩ ⟨1⟩ cutOps (.new 1, .start) = some (net, watch) ∧
      watch = ⟨[1, 2, 3], [[1, 2]], 1, 1⟩ ∧
      (∀ later net' watch', (∀ op ∈ later, ¬ op.connects ⟨0⟩ ⟨1⟩) →
        runOps ⟨0⟩ ⟨1⟩ later (net, watch) = some (net', watch') →
        watch'.segments = watch.segments ∧ Down ⟨0⟩ ⟨1⟩ net') := by
  have ran : runOps ⟨0⟩ ⟨1⟩ cutOps (.new 1, .start) =
      some (⟨5000, ⟨1⟩, [[.linkDown ⟨1⟩], [.data ⟨0⟩ [1, 2], .linkDown ⟨0⟩]],
        [⟨⟨0⟩, ⟨1⟩, ⟨5000, 2, .stream, 0⟩, false⟩], [], 2, some [some 0, some 1]⟩,
        ⟨[1, 2, 3], [[1, 2]], 1, 1⟩) := by
    decide +kernel
  have result := @stream_faithful 1 _ _ (by decide) _ _ _ ran 0 _ rfl rfl rfl
  exact ⟨_, _, ran, rfl, result.2.2.2.2 rfl⟩

end Racnet.Proof.Sim
