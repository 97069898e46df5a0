import Racnet.Proof.Format.Framing
import Racnet.Proof.Sessions.Batches
import Racnet.Proof.Sessions.Hostile

/-!
# Messages of a syncer that fit in a frame
-/

namespace Racnet.Proof.Sessions
open Lib Lib.Cbor Store Wire Sync
open Proof.Format (Framable length_push encodes_of_length_le)
open Proof.Negentropy (LimitOk reconcile_safe initiate_short)

/-! ## Messages -/

def Encodes (msg : Message) : Prop := ∃ body, encodeMessage msg = .ok body

theorem encodes_reconDone (sid : UInt64) : Encodes (.reconDone ⟨sid⟩) := by
  refine encodes_of_length_le rfl ?_
  have digits := length_head_le 0 sid.toNat
  simp only [Message.payloadBytes, ReconDone.encode, record, encodeU64, unsigned, Cbor.map,
    List.length_append, List.length_cons, List.length_nil, List.zipIdx_cons, List.zipIdx_nil,
    List.flatMap_cons, List.flatMap_nil, show (head 5 1).length = 1 from rfl,
    show (head 0 0).length = 1 from rfl, headerLen, maxPaddedLen, Nat.zero_add]
  omega

theorem encodes_reconMsg (sid : UInt64) {msg : List UInt8} (short : msg.length + 24 ≤ maxPaddedLen) :
    Encodes (.reconMsg ⟨sid, msg⟩) := by
  refine encodes_of_length_le rfl ?_
  have digits := length_head_le 0 sid.toNat
  have size := length_head_le 2 msg.length
  rw [maxPaddedLen] at short
  simp only [Message.payloadBytes, ReconMsg.encode, record, encodeU64, unsigned, Cbor.map, byteString,
    List.length_append, List.length_cons, List.length_nil, List.zipIdx_cons, List.zipIdx_nil,
    List.flatMap_cons, List.flatMap_nil, show (head 5 2).length = 1 from rfl,
    show (head 0 0).length = 1 from rfl, show (head 0 1).length = 1 from rfl, headerLen, maxPaddedLen,
    Nat.zero_add]
  omega

theorem encodes_reconInit (sid : UInt64) (window : SortKeyWindow) {msg : List UInt8}
    (short : msg.length ≤ frameLimitFloor) : Encodes (.reconInit ⟨sid, window, msg⟩) := by
  refine encodes_of_length_le rfl ?_
  have digits := length_head_le 0 sid.toNat
  have since := length_head_le 0 window.since.toNat
  have until_ := length_head_le 0 window.until_.toNat
  have size := length_head_le 2 msg.length
  rw [frameLimitFloor] at short
  simp only [Message.payloadBytes, ReconInit.encode, SortKeyWindow.encode, record, encodeU64, unsigned,
    Cbor.map, byteString, array, List.length_append, List.length_cons, List.length_nil,
    List.zipIdx_cons, List.zipIdx_nil, List.flatMap_cons, List.flatMap_nil,
    show (head 5 3).length = 1 from rfl, show (head 4 2).length = 1 from rfl,
    show (head 0 0).length = 1 from rfl, show (head 0 1).length = 1 from rfl,
    show (head 0 2).length = 1 from rfl, headerLen, maxPaddedLen, Nat.zero_add]
  omega

theorem encodes_push {batch : List Entry} {ttl : UInt64} (filled : batch ≠ [])
    (bounded : batchBytes batch ≤ pushBatchBudget ∨ batch.length = 1) (low : ttl.toNat < 24)
    (framable : ∀ entry ∈ batch, Framable entry) : Encodes (.gossipPush ⟨batch, ttl⟩) := by
  refine encodes_of_length_le (by rw [validate, if_neg filled]) ?_
  have last : (unsigned ttl.toNat).length = 1 := by rw [unsigned, head, if_pos low, List.length_singleton]
  rw [length_push, last]
  rcases bounded with small | single
  · have count := length_head_le 4 batch.length
    rw [batchBytes, pushBatchBudget] at small
    simp only [headerLen, maxPaddedLen]
    omega
  · obtain ⟨entry, rfl⟩ := List.length_eq_one_iff.mp single
    have fits := framable entry List.mem_cons_self
    have count : (head 4 [entry].length).length = 1 := rfl
    rw [Framable] at fits
    rw [count, List.map_singleton, List.sum_singleton]
    omega

/-! ## Syncers -/

/-- The answers of a syncer with this configuration fit in a frame. -/
structure Fitting (config : SyncConfig) : Prop where
  limit : ∃ limit, config.frameLimit = some limit ∧ limit + 24 ≤ maxPaddedLen
  ttl : config.pushTtl.toNat < 24

theorem fitting_default : Fitting .default := ⟨⟨frameLimitFloor, rfl, by decide⟩, by decide⟩

/-- The engines keep to the limit of the configuration. -/
structure Limited (syncer : Syncer) : Prop where
  config : Fitting syncer.config
  engines : ∀ key session, syncer.sessions.lookup key = some session →
    session.engine.frameLimit = syncer.config.frameLimit ∧ LimitOk session.engine.frameLimit

theorem limited_new (role : LinkRole) {config : SyncConfig} (fitting : Fitting config) :
    Limited (Syncer.new role config) :=
  ⟨fitting, fun key _ found => absurd (found.symm.trans (AList.lookup_empty key)) (by simp)⟩

theorem Limited.step {syncer after : Syncer} (limited : Limited syncer)
    (step : TableStep syncer after) : Limited after := by
  have inserted {key : Bool × UInt64} {session : Session}
      (limit : session.engine.frameLimit = syncer.config.frameLimit ∧ LimitOk session.engine.frameLimit) :
      ∀ other found, (syncer.sessions.insert key session).lookup other = some found →
        found.engine.frameLimit = syncer.config.frameLimit ∧ LimitOk found.engine.frameLimit := by
    intro other found held
    by_cases same : other = key
    · subst same
      rw [AList.lookup_insert] at held
      rw [← Option.some.inj held]
      exact limit
    · rw [AList.lookup_insert_ne same] at held
      exact limited.engines other found held
  cases step with
  | same => exact limited
  | opened engine room ours limit configured fits => exact ⟨limited.config, inserted ⟨configured, limit⟩⟩
  | accepted sid engine room parity absent theirs limit configured =>
    exact ⟨limited.config, inserted ⟨configured, limit⟩⟩
  | continued key session found pushed grown =>
    exact ⟨limited.config, inserted (limited.engines key session found)⟩
  | closed key found =>
    exact ⟨limited.config, fun other session held =>
      limited.engines other session (lookup_erase_some held)⟩

theorem Limited.steps {syncer syncer' : Syncer} (limited : Limited syncer)
    (steps : Relation.ReflTransGen TableStep syncer syncer') : Limited syncer' := by
  induction steps with
  | refl => exact limited
  | tail _ step still => exact still.step step

section
variable {syncer : Syncer} {store : EntryStore}

theorem reportRound_encodes (limited : Limited syncer)
    (framable : ∀ id entry, store.get id = some entry → Framable entry) (sid : UInt64)
    (haveIds needIds : List EntryId) :
    ∀ reply ∈ (syncer.reportRound store sid haveIds needIds).replies, Encodes reply := by
  intro reply mem
  rw [Syncer.reportRound] at mem
  split_ifs at mem
  · obtain ⟨batch, rfl, filled, bounded, stored⟩ := (pushBatches_spec store haveIds _).2 reply mem
    refine encodes_push filled bounded limited.config.ttl fun entry listed => ?_
    obtain ⟨id, held⟩ := stored entry listed
    exact framable id entry held
  · exact absurd mem (by simp)

variable [Sha256]

theorem encodes_round (limited : Limited syncer) {engine : Negentropy SealedVec}
    (limit : engine.frameLimit = syncer.config.frameLimit ∧ LimitOk engine.frameLimit)
    {msg reply : List UInt8} {round : Round} (answered : engine.reconcile msg = .ok round)
    (replied : round.reply = some reply) (sid : UInt64) : Encodes (.reconMsg ⟨sid, reply⟩) := by
  obtain ⟨most, configured, fits⟩ := limited.config.limit
  have small := ((reconcile_safe limit.2 msg).of_ok answered).small most (limit.1.trans configured) reply
    replied
  exact encodes_reconMsg sid (by omega)

theorem openSession_encodes {window : SortKeyWindow} {sid : UInt64} {msg : Message} {after : Syncer}
    (opened : syncer.openSession store window = (.ok (sid, msg), after)) : Encodes msg := by
  have step := openSession_step syncer store window
  rw [opened] at step
  cases step with
  | opened engine first room made started fits =>
    obtain ⟨msg', started', short⟩ := initiate_short (sealedEngine_fresh made).theirs
    obtain ⟨-, rfl⟩ := Prod.mk.inj (Except.ok.inj (started'.symm.trans started))
    exact encodes_reconInit _ window (short.trans (by decide))

variable [Ed25519]

theorem replies_encode (limited : Limited syncer)
    (framable : ∀ id entry, store.get id = some entry → Framable entry) (msg : Message) :
    ∀ reply ∈ (syncer.handleMessageInto store msg {}).output.replies, Encodes reply := by
  cases msg with
  | gossipPush push => exact fun reply mem => absurd mem List.not_mem_nil
  | reconInit init =>
    have step := handleInit_step syncer store init
    rw [Syncer.handleMessageInto]
    generalize syncer.handleInit store init = out at step
    cases step with
    | refused trap => exact fun reply mem => absurd mem List.not_mem_nil
    | accepted engine round reply parity absent room made answered replied =>
      intro sent mem
      rw [List.mem_singleton.mp mem]
      have fresh := sealedEngine_fresh made
      exact encodes_round limited ⟨fresh.configured, fresh.limit⟩ answered replied _
  | reconMsg rm =>
    have step := handleReconMsg_step syncer store rm
    rw [Syncer.handleMessageInto]
    generalize syncer.handleReconMsg store rm = out at step
    cases step with
    | refused trap => exact fun reply mem => absurd mem List.not_mem_nil
    | continued session round reply found answered replied =>
      intro sent mem
      rw [Syncer.finish, List.nil_append] at mem
      rcases List.mem_append.mp mem with push | last
      · exact reportRound_encodes limited framable _ _ _ sent push
      · rw [List.mem_singleton.mp last]
        exact encodes_round limited (limited.engines _ session found) answered replied _
    | finished session round found answered replied =>
      intro sent mem
      rw [Syncer.finish, List.nil_append] at mem
      rcases List.mem_append.mp mem with push | last
      · exact reportRound_encodes limited framable _ _ _ sent push
      · rw [List.mem_singleton.mp last]
        exact encodes_reconDone rm.sid
  | reconDone done =>
    have step := handleDone_step syncer done
    rw [Syncer.handleMessageInto]
    generalize syncer.handleDone done = out at step
    cases step with
    | refused absent => exact fun reply mem => absurd mem List.not_mem_nil
    | closed found => exact fun reply mem => absurd mem List.not_mem_nil
  | hello _ | handshake _ | error _ => exact fun reply mem => absurd mem List.not_mem_nil

end

end Racnet.Proof.Sessions
