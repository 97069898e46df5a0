import Mathlib.Data.Finset.Basic
import Racnet.Api.Node
import Racnet.Android.SyncScheduler

namespace Racnet.Android
open Lib Api Link

/-- The core as the application sees it. A call that panics has no result. -/
class CoreNode (ν : Type) where
  connect : ν → Option (FixedBytes 32) → UInt64 → Option (ν × Except ApiError LinkOpen)
  accept : ν → Option (FixedBytes 32) → Address → UInt64 → Option (ν × Except ApiError (Option LinkOpen))
  onBytes : ν → UInt64 → List UInt8 → UInt64 → Option (ν × LinkIo)
  onTransportClosed : ν → UInt64 → UInt64 → ν × List Event
  tick : ν → UInt64 → ν × List Event
  startSync : ν → UInt64 → SyncWindow → Option (ν × Except ApiError SyncStart)
  createEntry : ν → UInt64 → Vec UInt8 → UInt64 → Option (ν × Except ApiError EntryView)
  entryCount : ν → Nat

/-- A call of the transport of a link. -/
inductive TransportCall where
  | writeFrames (linkId : UInt64) (frames : List (List UInt8))
  | onEstablished (linkId : UInt64) (remoteFingerprint : List UInt8)
  | closeFromCore (linkId : UInt64) (cause : CloseCause) (drainWrites : Bool)

/-- The owner of the core. Every call holds the lock from its start to its end. Of the transports it is kept
which links have one and what the transports were asked. -/
structure NodeRuntime (ν : Type) where
  node : ν
  transports : Finset UInt64
  establishedLinks : List UInt64
  syncScheduler : SyncScheduler
  entryCount : Nat
  receiveFailure : Option UInt64
  asked : List TransportCall

namespace NodeRuntime

variable {ν : Type} [CoreNode ν]

def new (node : ν) : NodeRuntime ν where
  node
  transports := ∅
  establishedLinks := []
  syncScheduler := .new
  entryCount := CoreNode.entryCount node
  receiveFailure := none
  asked := []

/-! ## Transports and events -/

omit [CoreNode ν] in
def ask (runtime : NodeRuntime ν) (linkId : UInt64) (call : TransportCall) : NodeRuntime ν :=
  if linkId ∈ runtime.transports then { runtime with asked := runtime.asked ++ [call] } else runtime

omit [CoreNode ν] in
def requestAll (runtime : NodeRuntime ν) (linkIds : List UInt64) : NodeRuntime ν :=
  { runtime with syncScheduler := runtime.syncScheduler.requestAll linkIds }

/-- The failures of the storage that are shown until the next attempt. -/
def storageFailure : CloseCause → Option UInt64
  | .protocolViolation code => if code = 4 ∨ code = 5 then some code else none
  | _ => none

/-- The loop body of `dispatchEvents`. -/
def dispatchEvent (finalFrameLinks : List UInt64) (runtime : NodeRuntime ν) : Event → NodeRuntime ν
  | .established linkId remoteFingerprint =>
    let runtime := { runtime with establishedLinks := runtime.establishedLinks.insert linkId }
    let runtime := runtime.ask linkId (.onEstablished linkId remoteFingerprint)
    { runtime with syncScheduler := runtime.syncScheduler.request linkId }
  | .closed linkId cause =>
    let runtime := { runtime with
      receiveFailure := (storageFailure cause).or runtime.receiveFailure
      establishedLinks := runtime.establishedLinks.filter (· ≠ linkId)
      syncScheduler := runtime.syncScheduler.closed linkId }
    let runtime := runtime.ask linkId (.closeFromCore linkId cause (decide (linkId ∈ finalFrameLinks)))
    { runtime with transports := runtime.transports.erase linkId }
  | .entryStored linkId _ =>
    { runtime with entryCount := CoreNode.entryCount runtime.node }.requestAll
      (runtime.establishedLinks.filter (· ≠ linkId))
  | .syncSessionClosed linkId sessionId openedByUs =>
    if openedByUs then
      { runtime with syncScheduler := runtime.syncScheduler.completed linkId sessionId }
    else runtime
  | .duplicateIgnored _ _ | .reconciled _ _ _ _ => runtime

/-! ## Starting sessions -/

/-- What the calls of `startSync` in one drain add up to. -/
structure Draining (ν : Type) where
  runtime : NodeRuntime ν
  events : List Event
  finalFrameLinks : List UInt64

/-- All entries. -/
def wholeWindow : SyncWindow := ⟨0, UInt64.ofNat (2 ^ 64 - 1)⟩

/-- Opens a session. One that is refused changes nothing but the core. -/
def startSync (linkId : UInt64) (state : Draining ν) : Option (Option UInt64 × Draining ν) :=
  match CoreNode.startSync state.runtime.node linkId wholeWindow with
  | none => none
  | some (node, .error _) => some (none, { state with runtime := { state.runtime with node } })
  | some (node, .ok start) =>
    let runtime := { state.runtime with node }.ask linkId (.writeFrames linkId start.io.frames)
    some (some start.sessionId,
      { runtime
        events := state.events ++ start.io.events
        finalFrameLinks :=
          if start.io.frames ≠ [] then state.finalFrameLinks ++ [linkId] else state.finalFrameLinks })

/-- The drain, and the dispatch of its events, which ends in a drain again. The result is `none` also where
the fuel does not suffice. -/
def drainLoop : Nat → NodeRuntime ν → Option (NodeRuntime ν)
  | 0, _ => none
  | fuel + 1, runtime =>
    match runtime.syncScheduler.drain startSync ⟨runtime, [], []⟩ with
    | none => none
    | some (syncScheduler, state) =>
      let runtime := { state.runtime with syncScheduler }
      if state.events = [] then some runtime
      else drainLoop fuel (state.events.foldl (dispatchEvent state.finalFrameLinks) runtime)

/-- A link that was started is not pending any more, so the number of the pending links is fuel enough. -/
def drainSyncsLocked (runtime : NodeRuntime ν) : Option (NodeRuntime ν) :=
  drainLoop (runtime.syncScheduler.pending.length + 1) runtime

def dispatchEvents (runtime : NodeRuntime ν) (events : List Event) (finalFrameLinks : List UInt64) :
    Option (NodeRuntime ν) :=
  (events.foldl (dispatchEvent finalFrameLinks) runtime).drainSyncsLocked

def dispatch (runtime : NodeRuntime ν) (linkId : UInt64) (io : LinkIo) : Option (NodeRuntime ν) :=
  if io.frames = [] then runtime.dispatchEvents io.events []
  else (runtime.ask linkId (.writeFrames linkId io.frames)).dispatchEvents io.events [linkId]

/-! ## Calls -/

def connect (runtime : NodeRuntime ν) (entropy : Option (FixedBytes 32)) (nowUs : UInt64) :
    Option (NodeRuntime ν × Except ApiError LinkOpen) :=
  match CoreNode.connect runtime.node entropy nowUs with
  | none => none
  | some (node, .error error) => some ({ runtime with node }, .error error)
  | some (node, .ok link) =>
    let runtime := { runtime with node, transports := insert link.linkId runtime.transports }
    some (runtime.ask link.linkId (.writeFrames link.linkId link.initialFrames), .ok link)

def accept (runtime : NodeRuntime ν) (entropy : Option (FixedBytes 32)) (remoteAddr : Address)
    (nowUs : UInt64) : Option (NodeRuntime ν × Except ApiError (Option LinkOpen)) :=
  match CoreNode.accept runtime.node entropy remoteAddr nowUs with
  | none => none
  | some (node, .error error) => some ({ runtime with node }, .error error)
  | some (node, .ok none) => some ({ runtime with node }, .ok none)
  | some (node, .ok (some link)) =>
    some ({ runtime with node, transports := insert link.linkId runtime.transports }, .ok (some link))

/-- The entries are counted again because a push that fails may have stored some of its entries. -/
def onBytes (runtime : NodeRuntime ν) (linkId : UInt64) (bytes : List UInt8) (nowUs : UInt64) :
    Option (NodeRuntime ν) :=
  match CoreNode.onBytes runtime.node linkId bytes nowUs with
  | none => none
  | some (node, io) =>
    let runtime := { runtime with node }
    let count := CoreNode.entryCount node
    let runtime :=
      if count ≠ runtime.entryCount then
        { runtime with entryCount := count }.requestAll (runtime.establishedLinks.filter (· ≠ linkId))
      else runtime
    runtime.dispatch linkId io

def onTransportClosed (runtime : NodeRuntime ν) (linkId nowUs : UInt64) : Option (NodeRuntime ν) :=
  let (node, events) := CoreNode.onTransportClosed runtime.node linkId nowUs
  { runtime with node }.dispatchEvents events []

/-- One round of `startTicking`. -/
def tick (runtime : NodeRuntime ν) (nowUs : UInt64) : Option (NodeRuntime ν) :=
  let (node, events) := CoreNode.tick runtime.node nowUs
  { runtime with node }.dispatchEvents events []

def createEntry (runtime : NodeRuntime ν) (kind : UInt64) (payload : Vec UInt8) (nowMs : UInt64) :
    Option (NodeRuntime ν × Except ApiError EntryView) :=
  match CoreNode.createEntry runtime.node kind payload nowMs with
  | none => none
  | some (node, .error error) => some ({ runtime with node }, .error error)
  | some (node, .ok view) =>
    let runtime := { runtime with node, entryCount := CoreNode.entryCount node }
    (runtime.requestAll runtime.establishedLinks).drainSyncsLocked.map fun runtime => (runtime, .ok view)

omit [CoreNode ν] in
def clearReceiveFailure (runtime : NodeRuntime ν) : NodeRuntime ν := { runtime with receiveFailure := none }

end NodeRuntime

end Racnet.Android
