import Racnet.Proof.Scheduler.Core

/-!
# The runtime and its core

The runtime knows the links of its core by the events only. After every call it has a transport for each link
of the core and for no other, and each transport was asked what fits the life of its link.
-/

namespace Racnet.Proof.Scheduler
open Lib Noise Sync Wire Link Api Android
open Store hiding Node
open Proof.Driver (phaseOf)
open Proof.Nodes (Stage Kind Sound tablesOf about reportKind follow_cons)

/-! ## What a transport is asked -/

inductive Ask where
  | write
  | established
  | close
  deriving DecidableEq

def askOf : TransportCall → Ask
  | .writeFrames _ _ => .write
  | .onEstablished _ _ => .established
  | .closeFromCore _ _ _ => .close

def addressee : TransportCall → UInt64
  | .writeFrames linkId _ | .onEstablished linkId _ | .closeFromCore linkId _ _ => linkId

def asksOf (linkId : UInt64) (asked : List TransportCall) : List Ask :=
  (asked.filter fun call => addressee call = linkId).map askOf

inductive Served where
  | waiting
  | established
  | closed
  deriving DecidableEq

def Served.next : Served → Ask → Option Served
  | .waiting, .write => some .waiting
  | .waiting, .established => some .established
  | .established, .write => some .established
  | .waiting, .close | .established, .close => some .closed
  | _, _ => none

/-- Writes, at most one time that the link is established, and at most one close, which is the last. -/
def Served.follow (served : Served) (asks : List Ask) : Option Served := asks.foldlM Served.next served

def servedIn : Stage → Served
  | .unopened | .early => .waiting
  | .established => .established
  | .gone => .closed

theorem asksOf_append_self {linkId : UInt64} {call : TransportCall} (own : addressee call = linkId)
    (asked : List TransportCall) : asksOf linkId (asked ++ [call]) = asksOf linkId asked ++ [askOf call] := by
  rw [asksOf, List.filter_append, List.map_append, List.filter_cons_of_pos (by simp [own])]
  rfl

theorem asksOf_append_other {linkId : UInt64} {call : TransportCall} (other : addressee call ≠ linkId)
    (asked : List TransportCall) : asksOf linkId (asked ++ [call]) = asksOf linkId asked := by
  rw [asksOf, List.filter_append, List.filter_cons_of_neg (by simp [other]), List.filter_nil,
    List.append_nil, asksOf]

/-! ## A link as the runtime shows it -/

/-- The runtime takes the link to be in a stage. -/
structure Shows (transports : Finset UInt64) (established : List UInt64) (asked : List TransportCall)
    (linkId : UInt64) (stage : Stage) : Prop where
  served : linkId ∈ transports ↔ stage = .early ∨ stage = .established
  known : linkId ∈ established ↔ stage = .established
  asks : Served.waiting.follow (asksOf linkId asked) = some (servedIn stage)

section
variable {transports : Finset UInt64} {established : List UInt64} {asked : List TransportCall}
  {linkId other : UInt64} {stage next : Stage}

theorem Shows.asked_one (shows_ : Shows transports established asked linkId stage) {call : TransportCall}
    {served : Served} (own : addressee call = linkId)
    (stepped : (servedIn stage).next (askOf call) = some served) :
    Served.waiting.follow (asksOf linkId (asked ++ [call])) = some served := by
  rw [asksOf_append_self own, Served.follow, List.foldlM_append,
    show List.foldlM Served.next .waiting (asksOf linkId asked) = _ from shows_.asks]
  change (servedIn stage).next (askOf call) >>= some = some served
  rw [stepped]
  rfl

theorem Shows.frame (shows_ : Shows transports established asked linkId stage)
    {transports' : Finset UInt64} {established' : List UInt64} {asked' : List TransportCall}
    (served : linkId ∈ transports' ↔ linkId ∈ transports)
    (known : linkId ∈ established' ↔ linkId ∈ established)
    (asks : asksOf linkId asked' = asksOf linkId asked) :
    Shows transports' established' asked' linkId stage :=
  ⟨served.trans shows_.served, known.trans shows_.known, asks ▸ shows_.asks⟩

end

section
variable {runtime after : NodeRuntime SoundNode} {due events : List Event} {linkId : UInt64}
  {finals : List UInt64}

/-- The runtime shows each link as it was before the events that are due. -/
def Mirrors (runtime : NodeRuntime SoundNode) (due : List Event) : Prop :=
  ∀ linkId, ∃ stage, Shows runtime.transports runtime.establishedLinks runtime.asked linkId stage ∧
    stage.follow (about linkId (due.map .event)) = some ((tablesOf runtime.node.node).stageIn linkId)

theorem asked_ask (call : TransportCall) : (runtime.ask linkId call).asked =
    if linkId ∈ runtime.transports then runtime.asked ++ [call] else runtime.asked := by
  rw [NodeRuntime.ask]
  split_ifs <;> rfl

@[simp] theorem transports_ask (call : TransportCall) :
    (runtime.ask linkId call).transports = runtime.transports := by
  rw [NodeRuntime.ask]
  split_ifs <;> rfl

theorem asksOf_ask_other {other : UInt64} {call : TransportCall} (own : addressee call ≠ other) :
    asksOf other (runtime.ask linkId call).asked = asksOf other runtime.asked := by
  rw [asked_ask]
  split_ifs
  · exact asksOf_append_other own _
  · rfl

/-! ## Events -/

theorem about_event_self (event : Event) (due : List Event) :
    about event.linkId ((event :: due).map .event) =
      reportKind event :: about event.linkId (due.map .event) := by
  rw [Nodes.about_events, Nodes.about_events, Nodes.eventsAbout, List.filter_cons_of_pos (by simp),
    List.map_cons, Nodes.eventsAbout]

theorem about_event_other {event : Event} {other : UInt64} (ne : event.linkId ≠ other)
    (due : List Event) : about other ((event :: due).map .event) = about other (due.map .event) := by
  rw [Nodes.about_events, Nodes.about_events, Nodes.eventsAbout, List.filter_cons_of_neg (by simp [ne]),
    Nodes.eventsAbout]

section
variable [CoreNode SoundNode]

theorem Shows.dispatchEvent_other {event : Event} {other : UInt64} {stage : Stage}
    (ne : event.linkId ≠ other)
    (shows_ : Shows runtime.transports runtime.establishedLinks runtime.asked other stage) :
    Shows (NodeRuntime.dispatchEvent finals runtime event).transports
      (NodeRuntime.dispatchEvent finals runtime event).establishedLinks
      (NodeRuntime.dispatchEvent finals runtime event).asked other stage := by
  cases event with
  | established linkId remote =>
    refine shows_.frame ?_ ?_ (asksOf_ask_other ne)
    · simp only [NodeRuntime.dispatchEvent, transports_ask]
    · simp only [NodeRuntime.dispatchEvent, establishedLinks_ask, List.mem_insert_iff]
      exact or_iff_right fun same => ne same.symm
  | closed linkId cause =>
    refine shows_.frame ?_ ?_ (asksOf_ask_other ne)
    · simp only [NodeRuntime.dispatchEvent, transports_ask, Finset.mem_erase]
      exact and_iff_right fun same => ne same.symm
    · simp only [NodeRuntime.dispatchEvent, establishedLinks_ask, List.mem_filter, decide_eq_true_eq]
      exact and_iff_left fun same => ne same.symm
  | syncSessionClosed linkId sessionId openedByUs => cases openedByUs <;> exact shows_
  | entryStored | duplicateIgnored | reconciled => exact shows_

theorem Shows.dispatchEvent_self {event : Event} {stage next : Stage}
    (stepped : stage.next (reportKind event) = some next)
    (shows_ : Shows runtime.transports runtime.establishedLinks runtime.asked event.linkId stage) :
    Shows (NodeRuntime.dispatchEvent finals runtime event).transports
      (NodeRuntime.dispatchEvent finals runtime event).establishedLinks
      (NodeRuntime.dispatchEvent finals runtime event).asked event.linkId next := by
  cases event with
  | established linkId remote =>
    have early : stage = .early ∧ next = .established := by
      cases stage <;> cases stepped
      exact ⟨rfl, rfl⟩
    obtain ⟨rfl, rfl⟩ := early
    have served : linkId ∈ runtime.transports := shows_.served.mpr (Or.inl rfl)
    refine ⟨?_, ?_, ?_⟩
    · simpa only [NodeRuntime.dispatchEvent, transports_ask, Event.linkId, or_true, iff_true] using served
    · simp [NodeRuntime.dispatchEvent, Event.linkId]
    · simp only [NodeRuntime.dispatchEvent, asked_ask, if_pos served, Event.linkId]
      exact shows_.asked_one rfl rfl
  | closed linkId cause =>
    have live : (stage = .early ∨ stage = .established) ∧ next = .gone := by
      cases stage <;> cases stepped <;> simp
    obtain ⟨live, rfl⟩ := live
    have served : linkId ∈ runtime.transports := shows_.served.mpr live
    refine ⟨?_, ?_, ?_⟩
    · simp [NodeRuntime.dispatchEvent, Event.linkId]
    · simp [NodeRuntime.dispatchEvent, Event.linkId]
    · simp only [NodeRuntime.dispatchEvent, asked_ask, if_pos served, Event.linkId]
      refine shows_.asked_one rfl ?_
      rcases live with rfl | rfl <;> rfl
  | syncSessionClosed linkId sessionId openedByUs =>
    have same : stage = next := by cases stage <;> cases stepped; rfl
    subst same
    cases openedByUs <;> exact shows_
  | entryStored | duplicateIgnored | reconciled =>
    have same : stage = next := by cases stage <;> cases stepped; rfl
    subst same
    exact shows_

theorem Mirrors.dispatchEvent {event : Event} (mirrors : Mirrors runtime (event :: due)) :
    Mirrors (NodeRuntime.dispatchEvent finals runtime event) due := by
  intro linkId
  obtain ⟨stage, shows_, follows⟩ := mirrors linkId
  rw [node_dispatchEvent]
  by_cases own : event.linkId = linkId
  · subst own
    rw [about_event_self] at follows
    obtain ⟨next, stepped, rest⟩ := follow_cons follows
    exact ⟨next, shows_.dispatchEvent_self stepped, rest⟩
  · rw [about_event_other own] at follows
    exact ⟨stage, shows_.dispatchEvent_other own, follows⟩

end

/-! ## Calls of the core -/

theorem Mirrors.called {node : SoundNode} (mirrors : Mirrors runtime due)
    (follows : ∀ linkId, ((tablesOf runtime.node.node).stageIn linkId).follow
      (about linkId (events.map .event)) = some ((tablesOf node.node).stageIn linkId)) :
    Mirrors { runtime with node } (due ++ events) := by
  intro linkId
  obtain ⟨stage, shows_, followed⟩ := mirrors linkId
  refine ⟨stage, shows_, ?_⟩
  rw [List.map_append, Nodes.about_append, Nodes.Stage.follow_append, followed]
  exact follows linkId

theorem Mirrors.write (mirrors : Mirrors runtime due) (linkId : UInt64) (frames : List (List UInt8)) :
    Mirrors (runtime.ask linkId (.writeFrames linkId frames)) due := by
  intro other
  obtain ⟨stage, shows_, followed⟩ := mirrors other
  refine ⟨stage, ?_, by rwa [node_ask]⟩
  rw [transports_ask, establishedLinks_ask]
  by_cases own : linkId = other
  · subst own
    refine ⟨shows_.served, shows_.known, ?_⟩
    rw [asked_ask]
    split_ifs with served
    · refine shows_.asked_one rfl ?_
      rcases shows_.served.mp served with rfl | rfl <;> rfl
    · exact shows_.asks
  · exact shows_.frame Iff.rfl Iff.rfl (asksOf_ask_other own)

theorem Mirrors.opened {node : SoundNode} (mirrors : Mirrors runtime []) {opened : UInt64}
    (follows : ∀ linkId, ((tablesOf runtime.node.node).stageIn linkId).follow
      (about linkId [.opened opened]) = some ((tablesOf node.node).stageIn linkId)) :
    Mirrors { runtime with node, transports := insert opened runtime.transports } [] := by
  intro linkId
  obtain ⟨stage, shows_, followed⟩ := mirrors linkId
  have now : stage = (tablesOf runtime.node.node).stageIn linkId := Option.some.inj followed
  have next := follows linkId
  rw [← now] at next
  by_cases own : linkId = opened
  · subst own
    rw [Nodes.about_one_self linkId rfl] at next
    obtain ⟨last, stepped, rest⟩ := follow_cons next
    have early : stage = .unopened ∧ last = .early := by
      cases stage <;> cases stepped
      exact ⟨rfl, rfl⟩
    obtain ⟨rfl, rfl⟩ := early
    refine ⟨.early, ⟨?_, ?_, shows_.asks⟩, rest⟩
    · simp
    · rw [shows_.known]
      simp
  · rw [Nodes.about_one_other own] at next
    refine ⟨stage, shows_.frame ?_ Iff.rfl rfl, next⟩
    rw [Finset.mem_insert]
    exact or_iff_right own

end

section
variable {runtime after : NodeRuntime SoundNode} {due events : List Event} {linkId : UInt64}
  {finals : List UInt64}

theorem stageIn_established_iff (node : SoundNode) (linkId : UInt64) :
    (tablesOf node.node).stageIn linkId = .established ↔
      ∃ link, node.node.links.lookup linkId = some link ∧ link.driver.isEstablished = true := by
  cases found : node.node.links.lookup linkId with
  | none =>
    rw [Nodes.Tables.stageIn, show (tablesOf node.node).link linkId = none from found]
    dsimp only
    split_ifs <;> simp
  | some link =>
    rw [Nodes.stageIn_found (tablesOf node.node) found]
    simp only [Option.some.injEq, exists_eq_left', Driver.isEstablished_iff]
    cases phaseOf link.driver <;> simp [Nodes.stageOf]

theorem stageIn_gone_iff (node : SoundNode) (linkId : UInt64) :
    (tablesOf node.node).stageIn linkId = .gone ↔
      linkId.toNat < node.node.nextLinkId.toNat ∧ linkId ∉ node.node.links := by
  rw [← AList.lookup_eq_none]
  cases found : node.node.links.lookup linkId with
  | none =>
    rw [Nodes.Tables.stageIn, show (tablesOf node.node).link linkId = none from found]
    change (if linkId.toNat < node.node.nextLinkId.toNat then Stage.gone else .unopened) = _ ↔ _
    split_ifs with opened <;> simp [opened]
  | some link =>
    rw [Nodes.stageIn_found (tablesOf node.node) found]
    have open_ := node.sound.open_ linkId link found
    cases phase : phaseOf link.driver with
    | early | established => simp [Nodes.stageOf]
    | closed => exact absurd phase open_

variable [Sha256] [HmacSha256] [X25519] [ChaCha20Poly1305] [Ed25519] [Ed25519Signer]

theorem node_follows {node after : SoundNode} {call : Nodes.Call} {report : Nodes.Report}
    (ran : Nodes.perform node.node call = some (after.node, report)) (linkId : UInt64) :
    ((tablesOf node.node).stageIn linkId).follow (about linkId report.notes) =
      some ((tablesOf after.node).stageIn linkId) :=
  (Nodes.perform_steps node.sound ran).follows node.sound linkId

theorem Mirrors.startSync {state state' : NodeRuntime.Draining SoundNode} {session : Option UInt64}
    (mirrors : Mirrors state.runtime state.events)
    (ran : NodeRuntime.startSync linkId state = some (session, state')) :
    Mirrors state'.runtime state'.events := by
  rw [NodeRuntime.startSync] at ran
  rcases begun : CoreNode.startSync state.runtime.node linkId NodeRuntime.wholeWindow with
    _ | ⟨node, error | start⟩ <;> rw [begun] at ran <;> cases ran
  · have follows := @node_follows _ _ _ _ _ _ state.runtime.node node
      (.startSync linkId NodeRuntime.wholeWindow) {} (by rw [Nodes.perform, pmap_sound begun]; rfl)
    have called := @Mirrors.called _ _ [] node mirrors follows
    rwa [List.append_nil] at called
  · have follows := @node_follows _ _ _ _ _ _ state.runtime.node node
      (.startSync linkId NodeRuntime.wholeWindow) { events := start.io.events }
      (by rw [Nodes.perform, pmap_sound begun]; rfl)
    exact (@Mirrors.called _ _ _ node mirrors follows).write linkId start.io.frames

theorem mirrors_fresh {node : Node} (fresh : Nodes.Fresh node) : Mirrors (.new (freshCore fresh)) [] := by
  obtain ⟨-, links, next⟩ := Nodes.sound_fresh fresh
  intro linkId
  have unopened : (tablesOf node).stageIn linkId = .unopened := by
    rw [Nodes.Tables.stageIn, show (tablesOf node).link linkId = none by
      change node.links.lookup linkId = none
      rw [links, AList.lookup_empty]]
    dsimp only
    rw [if_neg (by change ¬ linkId.toNat < node.nextLinkId.toNat; rw [next]; exact Nat.not_lt_zero _)]
  refine ⟨.unopened, ⟨?_, ?_, rfl⟩, congrArg some unopened.symm⟩
  · simp [NodeRuntime.new]
  · simp [NodeRuntime.new]

end

end Racnet.Proof.Scheduler
