import Mathlib.Data.Finset.Insert
import Racnet.Store.EntryStore
import Racnet.Sync.Negentropy.Engine

namespace Racnet.Sync
open Lib Store Wire

/-- The bytes of entries that one GOSSIP_PUSH may hold. -/
def pushBatchBudget : Nat := 32 * 1024

inductive LinkRole where
  | initiator
  | responder
  deriving DecidableEq, Repr

structure SyncConfig where
  frameLimit : Option Nat
  pushTtl : UInt64
  maxSessions : Nat
  deriving DecidableEq

def SyncConfig.default : SyncConfig where
  frameLimit := some frameLimitFloor
  pushTtl := 0
  maxSessions := 8

inductive SyncEvent where
  | stored (id : EntryId)
  | duplicateIgnored (id : EntryId)
  | reconciled (sid : UInt64) (haveIds needIds : List EntryId)
  | sessionClosed (sid : UInt64) (openedByUs : Bool)
  deriving DecidableEq

structure SyncOutput where
  replies : List Message := []
  events : List SyncEvent := []
  deriving DecidableEq

/-- An open session. `pushed` are the ids already pushed to the peer. -/
structure Session where
  engine : Negentropy SealedVec
  pushed : Finset EntryId

/-- The sessions of a link, by who opened them and their id. -/
structure Syncer where
  role : LinkRole
  config : SyncConfig
  sessions : AList fun _ : Bool × UInt64 => Session
  nextSid : UInt64

/-- The ids that were not in the set, each put into it as it is met. -/
def insertNew (seen : Finset EntryId) : List EntryId → List EntryId × Finset EntryId
  | [] => ([], seen)
  | id :: ids =>
    if id ∈ seen then insertNew seen ids
    else
      let (kept, after) := insertNew (insert id seen) ids
      (id :: kept, after)

/-- The body of the loop of `push_batches`: the messages, the batch and its size. -/
def pushStep (store : EntryStore) (ttl : UInt64) (state : List Message × List Entry × Nat)
    (id : EntryId) : List Message × List Entry × Nat :=
  let (messages, batch, batchBytes) := state
  match store.get id with
  | none => state
  | some entry =>
    let size := entry.toBytes.length
    if batch ≠ [] ∧ batchBytes + size > pushBatchBudget then
      (messages ++ [.gossipPush ⟨batch, ttl⟩], [entry], size)
    else (messages, batch ++ [entry], batchBytes + size)

def pushBatches (store : EntryStore) (ids : List EntryId) (ttl : UInt64) : List Message :=
  let (messages, batch, _) := ids.foldl (pushStep store ttl) ([], [], 0)
  if batch = [] then messages else messages ++ [.gossipPush ⟨batch, ttl⟩]

namespace Syncer

def ourParity (syncer : Syncer) : Nat :=
  match syncer.role with
  | .initiator => 0
  | .responder => 1

def peerParity (syncer : Syncer) : Nat := 1 - syncer.ourParity

def new (role : LinkRole) (config : SyncConfig) : Syncer where
  role
  config
  sessions := ∅
  nextSid := match role with
    | .initiator => 0
    | .responder => 1

def openSessions (syncer : Syncer) : Nat := syncer.sessions.keys.length

def sessionKey (syncer : Syncer) (sid : UInt64) : Bool × UInt64 :=
  (decide (sid.toNat % 2 = syncer.ourParity), sid)

variable [Sha256]

/-- An engine over the items of a window. -/
def sealedEngine (syncer : Syncer) (store : EntryStore) (window : SortKeyWindow) :
    Exec SyncError (Negentropy SealedVec) := do
  let items ← .orPanic (store.snapshot window)
  if fits : items.length < 2 ^ 64 then
    .lift (Negentropy.new (SealedVec.new ⟨items, fits⟩) syncer.config.frameLimit)
  else .error .panic

def openSession (syncer : Syncer) (store : EntryStore) (window : SortKeyWindow) :
    Exec SyncError (UInt64 × Message) × Syncer :=
  if syncer.openSessions ≥ syncer.config.maxSessions then (.fail .resourceLimit, syncer)
  else
    match syncer.sealedEngine store window >>= Negentropy.initiate with
    | .error trap => (.error trap, syncer)
    | .ok (engine, msg) =>
      let sid := syncer.nextSid
      -- `next_sid += 2` panics when it overflows
      if sid.toNat + 2 < 2 ^ 64 then
        (.ok (sid, .reconInit ⟨sid, window, msg⟩), { syncer with
          nextSid := sid + 2
          sessions := syncer.sessions.insert (true, sid) ⟨engine, ∅⟩ })
      else (.error .panic, syncer)

omit [Sha256] in
def abortSession (syncer : Syncer) (sid : UInt64) : Option Message × Syncer :=
  if (true, sid) ∈ syncer.sessions then
    (some (.reconDone ⟨sid⟩), { syncer with sessions := syncer.sessions.erase (true, sid) })
  else (none, syncer)

def handleInit (syncer : Syncer) (store : EntryStore) (init : ReconInit) :
    Exec SyncError SyncOutput × Syncer :=
  if init.sid.toNat % 2 ≠ syncer.peerParity then
    (.fail (.violation "session id has the sender's parity"), syncer)
  else if (false, init.sid) ∈ syncer.sessions then
    (.fail (.violation "session id already open"), syncer)
  else if syncer.openSessions ≥ syncer.config.maxSessions then (.fail .resourceLimit, syncer)
  else
    match syncer.sealedEngine store init.window with
    | .error trap => (.error trap, syncer)
    | .ok engine =>
      match engine.reconcile init.msg with
      | .error trap => (.error trap, syncer)
      | .ok round =>
        match round.reply with
        -- the `expect` on the reply
        | none => (.error .panic, syncer)
        | some reply =>
          (.ok { replies := [.reconMsg ⟨init.sid, reply⟩] }, { syncer with
            sessions := syncer.sessions.insert (false, init.sid) ⟨engine, ∅⟩ })

/-- The differences of a round that are reported, and the pushes of what the peer lacks. -/
def reportRound (syncer : Syncer) (store : EntryStore) (sid : UInt64)
    (haveIds needIds : List EntryId) : SyncOutput :=
  if haveIds ≠ [] ∨ needIds ≠ [] then
    { replies := pushBatches store haveIds syncer.config.pushTtl
      events := [.reconciled sid haveIds needIds] }
  else {}

def handleReconMsg (syncer : Syncer) (store : EntryStore) (rm : ReconMsg) :
    Exec SyncError SyncOutput × Syncer :=
  let key := syncer.sessionKey rm.sid
  match syncer.sessions.lookup key with
  | none => (.fail (.violation "no open session with this id"), syncer)
  | some session =>
    match session.engine.reconcile rm.msg with
    | .error trap => (.error trap, syncer)
    | .ok round =>
      let (haveIds, pushed) := insertNew session.pushed round.haveIds
      let (needIds, _) := insertNew ∅ round.needIds
      let output := syncer.reportRound store rm.sid haveIds needIds
      match round.reply with
      | some reply =>
        (.ok { output with replies := output.replies ++ [.reconMsg ⟨rm.sid, reply⟩] }, { syncer with
          sessions := syncer.sessions.insert key { session with pushed } })
      | none =>
        (.ok { replies := output.replies ++ [.reconDone ⟨rm.sid⟩]
               events := output.events ++ [.sessionClosed rm.sid key.1] }, { syncer with
          sessions := syncer.sessions.erase key })

omit [Sha256] in
def handleDone (syncer : Syncer) (done : ReconDone) : Exec SyncError SyncOutput × Syncer :=
  let key := syncer.sessionKey done.sid
  if key ∈ syncer.sessions then
    (.ok { events := [.sessionClosed done.sid key.1] },
      { syncer with sessions := syncer.sessions.erase key })
  else (.fail (.violation "no open session with this id"), syncer)

variable [Ed25519]

/-- Inserts the entries of a push one by one. The events of those that were handled are kept when a
later one fails. -/
def handlePush : EntryStore → List Entry → List SyncEvent →
    Exec SyncError Unit × EntryStore × List SyncEvent
  | store, [], events => (.ok (), store, events)
  | store, entry :: entries, events =>
    match store.insert entry with
    | (.ok true, store) => handlePush store entries (events ++ [.stored entry.id])
    | (.ok false, store) => handlePush store entries (events ++ [.duplicateIgnored entry.id])
    | (.error (.err (.storage _)), store) => (.fail .storage, store, events)
    | (.error (.err .capacity), store) => (.fail .resourceLimit, store, events)
    | (.error (.err .badSignature), store) =>
      (.fail (.violation "pushed entry signature invalid"), store, events)
    | (.error (.err .sortKeyReserved), store) =>
      (.fail (.violation "pushed entry uses the reserved sort key"), store, events)
    | (.error .panic, store) => (.error .panic, store, events)

/-- What a call leaves behind, also when it fails. -/
structure Handled where
  result : Exec SyncError Unit
  syncer : Syncer
  store : EntryStore
  output : SyncOutput

/-- The output of a handler is appended if it succeeds. -/
def finish (store : EntryStore) (output : SyncOutput) :
    Exec SyncError SyncOutput × Syncer → Handled
  | (.error trap, syncer) => ⟨.error trap, syncer, store, output⟩
  | (.ok next, syncer) =>
    ⟨.ok (), syncer, store, ⟨output.replies ++ next.replies, output.events ++ next.events⟩⟩

def handleMessageInto (syncer : Syncer) (store : EntryStore) (msg : Message)
    (output : SyncOutput) : Handled :=
  match msg with
  | .gossipPush push =>
    let (result, store, events) := handlePush store push.entries output.events
    ⟨result, syncer, store, { output with events }⟩
  | .reconInit init => finish store output (syncer.handleInit store init)
  | .reconMsg rm => finish store output (syncer.handleReconMsg store rm)
  | .reconDone done => finish store output (syncer.handleDone done)
  | .hello _ | .handshake _ | .error _ =>
    ⟨.fail (.violation "message type not for the sync layer"), syncer, store, output⟩

/-- `handle_message`: the output is lost when the call fails. -/
def handleMessage (syncer : Syncer) (store : EntryStore) (msg : Message) :
    Exec SyncError SyncOutput × Syncer × EntryStore :=
  let handled := syncer.handleMessageInto store msg {}
  (do handled.result; return handled.output, handled.syncer, handled.store)

end Syncer

end Racnet.Sync
