import Racnet.Proof.Driver.Framing
import Racnet.Proof.Node.Links

/-!
# No entry can poison a link

In every run of nodes all messages of the sync layer are encoded, whatever the stores hold.
-/

namespace Racnet.Proof.Nodes
open Lib Noise Sync Wire Link Api
open Store hiding Node
open Proof.Driver (SyncerRun Sane Working Stops BytesStep)
open Proof.Sessions (Encodes openSession_encodes)
open Proof.Storage (Grown Admissible)

variable {node : Node}

section
variable [Sha256] [Ed25519]

def Healthy (driver : LinkDriver) : Prop := Working driver ∧ SyncerRun driver.syncer

theorem healthy_new (role : LinkRole) (s e : Keypair) (nowUs : UInt64) :
    Healthy (.new role s e .default nowUs) :=
  ⟨Driver.working_of_ne (by simp [LinkDriver.new]), .new role⟩

theorem Healthy.start {driver driver' : LinkDriver} {out : LinkOutput} (healthy : Healthy driver)
    (ran : driver.start = some (driver', out)) : Healthy driver' := by
  rcases Driver.start_eq driver with idle | ⟨-, -, started⟩
  · cases idle.symm.trans ran
    exact healthy
  · rw [started, LinkDriver.queueHello] at ran
    cases encoded : encodeMessage driver.ourHello with
    | error error =>
      rw [encoded] at ran
      cases ran
    | ok body =>
      rw [encoded] at ran
      cases ran
      exact healthy

theorem Healthy.onTick {driver : LinkDriver} (healthy : Healthy driver) (now : UInt64) :
    Healthy (driver.onTick now).1 := by
  rw [LinkDriver.onTick, LinkDriver.checkTimeouts]
  split_ifs
  · exact healthy
  · exact ⟨Driver.working_of_ne (by simp [LinkDriver.closeSilently]), healthy.2⟩
  · exact ⟨Driver.working_of_ne (by simp [LinkDriver.closeSilently]), healthy.2⟩
  · exact healthy

variable [HmacSha256] [X25519] [ChaCha20Poly1305]

theorem Healthy.openSync {driver : LinkDriver} {store : EntryStore} (healthy : Healthy driver)
    (grown : Grown (.running store)) {window : SortKeyWindow}
    (returns : (driver.openSync store window).1 ≠ .error .panic) :
    Healthy (driver.openSync store window).2 := by
  constructor
  · have performed : ∃ out, Driver.perform driver store (.openSync window) =
        some ((driver.openSync store window).2, store, out) := by
      rw [Driver.perform]
      generalize driver.openSync store window = called at returns
      rcases called with ⟨⟨error | _⟩ | ⟨sid, out⟩, driver'⟩
      · exact ⟨_, rfl⟩
      · exact absurd rfl returns
      · exact ⟨_, rfl⟩
    obtain ⟨out, performed⟩ := performed
    obtain ⟨effect, step, -⟩ := Driver.perform_step performed
    exact step.working healthy.1
  · rcases Driver.openSync_syncer driver store window with same | opened
    · rw [same]
      exact healthy.2
    · rw [opened]
      exact healthy.2.opened window grown

theorem healthy_invariant : DriverInvariant (fun store => Grown (.running store)) Healthy where
  begun begun := by
    cases begun with
    | connected ran => exact (healthy_new _ _ _ _).start ran
    | accepted => exact healthy_new _ _ _ _
  onBytes ran grown healthy := by
    obtain ⟨effect, step, -⟩ := Driver.onBytes_step ran
    have sane := step.kept Driver.kept_sane ⟨healthy.2, grown⟩
    exact ⟨⟨(Driver.CallStep.bytes step).working healthy.1, sane.run⟩, sane.grown⟩
  onTick nowUs healthy := healthy.onTick nowUs
  openSync {driver after store window _ _} opened grown healthy := by
    have returns : (driver.openSync store window).1 ≠ .error .panic := by
      rw [opened]
      simp
    have kept := healthy.openSync grown returns
    rwa [opened] at kept
  created framed grown := grown.inserted (.created framed)

/-! ## Runs -/

variable [Ed25519Signer]

/-- The nodes that begin with an empty store, or with the file of a store that has grown in the ways
of a node. -/
inductive NodeRun : Node → Prop where
  | new {identity : Identity} {node : Node} (made : Node.new identity = .ok node) : NodeRun node
  | opened {identity : Identity} {hasParent : Bool} {bytes : List UInt8} {faults : List Fault}
      {node : Node} (grown : Grown (.stopped bytes))
      (made : Node.openAt identity hasParent ⟨bytes, 0, faults⟩ = some (.ok node)) : NodeRun node
  | called {node shuffled after : Node} {call : Call} {report : Report} (run : NodeRun node)
      (order : Shuffled node shuffled) (ran : perform shuffled call = some (after, report)) :
      NodeRun after

structure Unpoisoned (node : Node) : Prop where
  sound : Sound (tablesOf node)
  healthy : OnLinks Healthy node
  grown : Grown (.running node.store)

omit [HmacSha256] [ChaCha20Poly1305] [Ed25519Signer] in
theorem unpoisoned_made {identity : Identity} {made : Node} (new : Node.new identity = .ok made)
    {store : EntryStore} (grown : Grown (.running store)) : Unpoisoned { made with store } := by
  obtain ⟨sound, none, -⟩ := sound_fresh ⟨identity, made, new, store, rfl⟩
  refine ⟨sound, fun id link found => ?_, grown⟩
  rw [tablesOf, none] at found
  cases found

theorem NodeRun.unpoisoned (run : NodeRun node) : Unpoisoned node := by
  induction run with
  | @new identity node made =>
    have store : node.store = EntryStore.new := by
      rw [Node.new] at made
      obtain ⟨noiseSeed, -, made⟩ := except_bind_ok made
      obtain ⟨signingSeed, -, made⟩ := except_bind_ok made
      cases made
      rfl
    exact unpoisoned_made made (store ▸ Grown.memory)
  | @opened identity hasParent bytes faults node grown made =>
    rw [Node.openAt] at made
    cases new : Node.new identity with
    | error error =>
      rw [new] at made
      cases made
    | ok fresh =>
      rw [new] at made
      cases opened : Journal.openFile hasParent ⟨bytes, 0, faults⟩ with
      | error trap left =>
        rw [opened] at made
        cases trap <;> cases made
      | ok store left =>
        rw [opened] at made
        cases made
        exact unpoisoned_made new (grown.opened opened)
  | @called node shuffled after call report run order ran ih =>
    have same := tablesOf_shuffled order
    have sound : Sound (tablesOf shuffled) := same ▸ ih.sound
    have healthy : OnLinks Healthy shuffled := fun id link found => ih.healthy id link (same ▸ found)
    have grown : Grown (.running shuffled.store) := by
      rw [order.rest]
      exact ih.grown
    obtain ⟨kept, stored⟩ := healthy.performed grown healthy_invariant sound ran
    exact ⟨(perform_steps sound ran).sound sound, kept, stored⟩

/-- Over every store that has grown in the ways of a node, a syncer with the default configuration
returns messages that are encoded only. So no link of a node is closed over a message: where one is
closed for an exhausted nonce, a nonce is at its end. -/
theorem store_cannot_poison :
    (∀ syncer store, SyncerRun syncer → Grown (.running store) →
      (∀ window sid msg after, syncer.openSession store window = (.ok (sid, msg), after) →
        Encodes msg) ∧
      ∀ msg, ∀ reply ∈ (syncer.handleMessageInto store msg {}).output.replies, Encodes reply) ∧
    ∀ node, NodeRun node → Grown (.running node.store) ∧
      ∀ id link, node.links.lookup id = some link → SyncerRun link.driver.syncer ∧
        ∀ call after store' out, (∀ msg, call ≠ .send msg) →
          Driver.perform link.driver node.store call = some (after, store', out) →
          .closed .nonceExhausted ∈ out.events →
          ∃ msg transport, Stops link.driver node.store call msg transport ∧
            (transport.send.n.toNat = 2 ^ 64 - 1 ∨ transport.recv.n.toNat = 2 ^ 64 - 1) := by
  refine ⟨fun syncer store run grown => ⟨fun window sid msg after opened => ?_, ?_⟩,
    fun node run => ⟨run.unpoisoned.grown, fun id link found => ?_⟩⟩
  · exact openSession_encodes opened
  · exact fun msg => run.replies grown msg
  · obtain ⟨works, syncerRun⟩ := run.unpoisoned.healthy id link found
    refine ⟨syncerRun, fun call after store' out internal ran closes => ?_⟩
    have sane : Sane link.driver.syncer node.store := ⟨syncerRun, run.unpoisoned.grown⟩
    exact sane.deliverable.exhausted works (fun msg sends => absurd sends (internal msg)) ran closes

end

/-! ## A push -/

section
open Driver.StandIns
open Proof.Storage (plainEntry)

local instance signer : Ed25519Signer := zeroSigner

def fullWindow : SortKeyWindow := ⟨0, UInt64.ofNat (2 ^ 64 - 1)⟩

def oneEntry : EntryStore := (EntryStore.new.insert (plainEntry 5)).2

/-- A syncer that has opened a session, and the answer of a peer that holds nothing. -/
def opener : Syncer := ((Syncer.new .initiator .default).openSession oneEntry fullWindow).2

def emptyAnswer : Message :=
  match ((Syncer.new .initiator .default).openSession oneEntry fullWindow).1 with
  | .ok (_, init) =>
    let peer := Syncer.new .responder .default
    (peer.handleMessageInto EntryStore.new init {}).output.replies.headD (.reconDone ⟨0⟩)
  | .error _ => .reconDone ⟨0⟩

theorem store_cannot_poison_pushed :
    (opener.handleMessageInto oneEntry emptyAnswer {}).output.replies =
        [.gossipPush ⟨[plainEntry 5], 0⟩, .reconDone ⟨0⟩] ∧
      ∀ reply ∈ (opener.handleMessageInto oneEntry emptyAnswer {}).output.replies, Encodes reply := by
  have grown : Grown (.running oneEntry) :=
    Grown.memory.inserted (.created rfl)
  have run : SyncerRun opener := (SyncerRun.new .initiator).opened fullWindow grown
  exact ⟨by decide +kernel, (store_cannot_poison.1 opener oneEntry run grown).2 emptyAnswer⟩

end

end Racnet.Proof.Nodes
