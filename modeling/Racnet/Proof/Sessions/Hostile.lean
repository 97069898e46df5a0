import Racnet.Proof.Sessions.Batches
import Racnet.Proof.Sessions.Table
import Racnet.Proof.Storage.Full

/-!
# A syncer and a peer that sends anything
-/

namespace Racnet.Proof.Sessions
open Lib Store Wire Sync
open Proof.Negentropy (LimitOk reconcile_safe initiate_short)
open Proof.Storage (Ready)

/-! ## Runs -/

inductive Call where
  | openSession (window : SortKeyWindow)
  | abortSession (sid : UInt64)
  | handleMessage (msg : Message)

structure Request where
  store : EntryStore
  call : Call

/-- The entries that the call may add to the store. -/
def Request.growth (request : Request) : Nat :=
  match request.call with
  | .handleMessage (.gossipPush push) => push.entries.length
  | _ => 0

def Request.opens (request : Request) : Bool :=
  match request.call with
  | .openSession _ => true
  | _ => false

abbrev Outcome := Exec SyncError SyncOutput

section
variable [Sha256] [Ed25519]

def perform (syncer : Syncer) (request : Request) : Outcome × Syncer :=
  match request.call with
  | .openSession window =>
    let (result, syncer) := syncer.openSession request.store window
    (do let (_, msg) ← result; return { replies := [msg] }, syncer)
  | .abortSession sid =>
    let (msg, syncer) := syncer.abortSession sid
    (.ok { replies := msg.toList }, syncer)
  | .handleMessage msg =>
    let (result, syncer, _) := syncer.handleMessage request.store msg
    (result, syncer)

def run : Syncer → List Request → List Outcome × Syncer
  | syncer, [] => ([], syncer)
  | syncer, request :: requests =>
    let (outcome, syncer) := perform syncer request
    let (outcomes, syncer) := run syncer requests
    (outcome :: outcomes, syncer)

/-! ## Nothing panics -/

variable {syncer : Syncer} {store : EntryStore}

omit [Sha256] [Ed25519] in
theorem finish_eq (store : EntryStore) (out : Outcome × Syncer) :
    ((Syncer.finish store {} out).result >>= fun _ =>
      pure (Syncer.finish store {} out).output, (Syncer.finish store {} out).syncer) = out := by
  rcases out with ⟨_ | next, syncer⟩
  · rfl
  · rfl

theorem sealedEngine_safe {count : Nat} (ready : Ready store count) (window : SortKeyWindow) :
    Exec.Safe (Fresh syncer) (syncer.sealedEngine store window) := by
  obtain ⟨items, taken, fits⟩ := ready.snapshot window
  rw [Syncer.sealedEngine, taken, Exec.orPanic_some, Exec.ok_bind, dif_pos fits]
  cases made : Negentropy.new (SealedVec.new ⟨items, fits⟩) syncer.config.frameLimit with
  | error error => exact Exec.safe_fail error
  | ok engine => exact new_fresh made

theorem openSession_safe {count : Nat} (ready : Ready store count) (window : SortKeyWindow)
    (fits : syncer.nextSid.toNat + 2 < 2 ^ 64) :
    (syncer.openSession store window).1 ≠ .error .panic := by
  rw [Syncer.openSession]
  split_ifs
  · simp [Exec.fail]
  · have safe := @sealedEngine_safe _ _ syncer _ _ ready window
    cases made : syncer.sealedEngine store window with
    | error trap =>
      rw [made] at safe
      exact fun same => safe.trap_ne (Except.error.inj same)
    | ok engine =>
      obtain ⟨msg, started, -⟩ := initiate_short (sealedEngine_fresh made).theirs
      rw [Exec.ok_bind, started]
      simp only [if_pos fits]
      simp

theorem handleInit_safe {count : Nat} (ready : Ready store count) (init : ReconInit) :
    (syncer.handleInit store init).1 ≠ .error .panic := by
  rw [Syncer.handleInit]
  split_ifs
  · simp [Exec.fail]
  · simp [Exec.fail]
  · simp [Exec.fail]
  · have safe := @sealedEngine_safe _ _ syncer _ _ ready init.window
    cases made : syncer.sealedEngine store init.window with
    | error trap =>
      rw [made] at safe
      exact fun same => safe.trap_ne (Except.error.inj same)
    | ok engine =>
      have fresh := sealedEngine_fresh made
      have answer := reconcile_safe fresh.limit init.msg
      dsimp only
      cases answered : engine.reconcile init.msg with
      | error trap =>
        rw [answered] at answer
        exact fun same => answer.trap_ne (Except.error.inj same)
      | ok round =>
        -- the `expect`: a responder always replies
        have replies := ((answer.of_ok answered).silent fresh.theirs).2.2
        dsimp only
        cases replied : round.reply with
        | none =>
          rw [replied] at replies
          exact absurd replies (by simp)
        | some reply => simp

omit [Ed25519] in
theorem handleReconMsg_safe (orderly : Orderly syncer) (store : EntryStore) (rm : ReconMsg) :
    (syncer.handleReconMsg store rm).1 ≠ .error .panic := by
  rw [Syncer.handleReconMsg]
  dsimp only
  cases found : syncer.sessions.lookup (syncer.sessionKey rm.sid) with
  | none => simp [Exec.fail]
  | some session =>
    have answer := reconcile_safe (orderly.engines _ session found).2 rm.msg
    dsimp only
    cases answered : session.engine.reconcile rm.msg with
    | error trap =>
      rw [answered] at answer
      exact fun same => answer.trap_ne (Except.error.inj same)
    | ok round =>
      dsimp only
      cases round.reply with
      | none => simp
      | some reply => simp

omit [Sha256] [Ed25519] in
theorem handleDone_safe (done : ReconDone) : (syncer.handleDone done).1 ≠ .error .panic := by
  rw [Syncer.handleDone]
  split_ifs
  · simp
  · simp [Exec.fail]

theorem handlePush_safe {entries : List Entry} (ready : Ready store entries.length)
    (events : List SyncEvent) : (Syncer.handlePush store entries events).1 ≠ .error .panic := by
  induction entries generalizing store events with
  | nil => simp [Syncer.handlePush]
  | cons entry entries ih =>
    obtain ⟨safe, after⟩ := ready.insert entry
    rw [Syncer.handlePush]
    rcases inserted : store.insert entry with ⟨outcome, store'⟩
    rw [inserted] at safe after
    rcases outcome with (error | _) | (_ | _)
    · cases error <;> simp [Exec.fail]
    · exact absurd rfl safe
    · exact ih after _
    · exact ih after _

omit [Sha256] [Ed25519] in
theorem finish_result (store : EntryStore) (output : SyncOutput) {out : Outcome × Syncer}
    (safe : out.1 ≠ .error .panic) : (Syncer.finish store output out).result ≠ .error .panic := by
  rcases out with ⟨trap | next, syncer⟩
  · exact fun same => safe (by rw [Except.error.inj same])
  · simp [Syncer.finish]

theorem handleMessageInto_safe (orderly : Orderly syncer) {msg : Message}
    (ready : Ready store (Request.growth ⟨store, .handleMessage msg⟩)) (output : SyncOutput) :
    (syncer.handleMessageInto store msg output).result ≠ .error .panic := by
  cases msg with
  | gossipPush push => exact handlePush_safe ready output.events
  | reconInit init => exact finish_result store output (handleInit_safe ready init)
  | reconMsg rm => exact finish_result store output (handleReconMsg_safe orderly store rm)
  | reconDone done => exact finish_result store output (handleDone_safe done)
  | _ => simp [Syncer.handleMessageInto, Exec.fail]

theorem perform_safe (orderly : Orderly syncer) {request : Request}
    (ready : Ready request.store request.growth)
    (fits : request.opens = true → syncer.nextSid.toNat + 2 < 2 ^ 64) :
    (perform syncer request).1 ≠ .error .panic := by
  obtain ⟨store, call⟩ := request
  cases call with
  | openSession window =>
    have safe := openSession_safe ready window (fits rfl)
    rw [perform]
    dsimp only
    rcases opened : syncer.openSession store window with ⟨trap | result, syncer'⟩
    · rw [opened] at safe
      exact fun same => safe (by rw [Except.error.inj same])
    · simp [pure, Except.pure]
  | abortSession sid => simp [perform]
  | handleMessage msg =>
    have safe := handleMessageInto_safe orderly ready {}
    rw [perform]
    dsimp only [Syncer.handleMessage]
    cases handled : (syncer.handleMessageInto store msg {}).result with
    | error trap =>
      rw [handled] at safe
      exact fun same => safe (by rw [Except.error.inj same])
    | ok _ => simp [pure, Except.pure]

/-! ## The table after a call -/

omit [Sha256] [Ed25519] in
theorem finish_syncer (store : EntryStore) (output : SyncOutput) (out : Outcome × Syncer) :
    (Syncer.finish store output out).syncer = out.2 := by
  rcases out with ⟨_ | _, _⟩ <;> rfl

theorem handleMessageInto_table (syncer : Syncer) (store : EntryStore) (msg : Message)
    (output : SyncOutput) :
    TableStep syncer (syncer.handleMessageInto store msg output).syncer := by
  cases msg with
  | gossipPush push => exact .same
  | reconInit init =>
    rw [Syncer.handleMessageInto, finish_syncer]
    exact (handleInit_step syncer store init).table
  | reconMsg rm =>
    rw [Syncer.handleMessageInto, finish_syncer]
    exact (handleReconMsg_step syncer store rm).table
  | reconDone done =>
    rw [Syncer.handleMessageInto, finish_syncer]
    exact (handleDone_step syncer done).table
  | _ => exact .same

theorem perform_table (syncer : Syncer) (request : Request) :
    TableStep syncer (perform syncer request).2 := by
  obtain ⟨store, call⟩ := request
  cases call with
  | openSession window => exact (openSession_step syncer store window).table
  | abortSession sid => exact abortSession_table syncer sid
  | handleMessage msg => exact handleMessageInto_table syncer store msg {}

theorem perform_nextSid (syncer : Syncer) (request : Request) :
    (perform syncer request).2.nextSid.toNat ≤
      syncer.nextSid.toNat + (if request.opens then 2 else 0) := by
  obtain ⟨store, call⟩ := request
  cases call with
  | openSession window =>
    change (syncer.openSession store window).2.nextSid.toNat ≤ syncer.nextSid.toNat + 2
    have step := openSession_step syncer store window
    generalize syncer.openSession store window = out at step
    cases step with
    | refused trap => exact Nat.le_add_right _ _
    | opened engine msg room made started fits =>
      dsimp only
      rw [UInt64.toNat_add]
      exact Nat.mod_le _ _
  | abortSession sid =>
    change (syncer.abortSession sid).2.nextSid.toNat ≤ _
    rw [Syncer.abortSession]
    split_ifs <;> exact Nat.le_add_right _ _
  | handleMessage msg =>
    change (syncer.handleMessageInto store msg {}).syncer.nextSid.toNat ≤ _
    refine le_trans (le_of_eq ?_) (Nat.le_add_right _ _)
    cases msg with
    | reconInit init =>
      rw [Syncer.handleMessageInto, finish_syncer]
      have step := handleInit_step syncer store init
      generalize syncer.handleInit store init = out at step
      cases step <;> rfl
    | reconMsg rm =>
      rw [Syncer.handleMessageInto, finish_syncer]
      have step := handleReconMsg_step syncer store rm
      generalize syncer.handleReconMsg store rm = out at step
      cases step <;> rfl
    | reconDone done =>
      rw [Syncer.handleMessageInto, finish_syncer]
      have step := handleDone_step syncer done
      generalize syncer.handleDone done = out at step
      cases step <;> rfl
    | _ => rfl

/-! ## What is queued -/

/-- The ids that the events of session `sid` report as queued for a push. -/
def queuedIn (sid : UInt64) (events : List SyncEvent) : List EntryId :=
  events.flatMap fun
    | .reconciled sid' haveIds _ => if sid' = sid then haveIds else []
    | _ => []

def queuedBy (sid : UInt64) : Outcome → List EntryId
  | .ok output => queuedIn sid output.events
  | .error _ => []

omit [Sha256] [Ed25519] in
theorem queuedIn_append (sid : UInt64) (events more : List SyncEvent) :
    queuedIn sid (events ++ more) = queuedIn sid events ++ queuedIn sid more := List.flatMap_append

omit [Sha256] [Ed25519] in
theorem queuedIn_reportRound (syncer : Syncer) (store : EntryStore) (sid sid' : UInt64)
    (haveIds needIds : List EntryId) :
    queuedIn sid (syncer.reportRound store sid' haveIds needIds).events =
      if sid' = sid then haveIds else [] := by
  rw [Syncer.reportRound]
  split_ifs with some same same
  · simp [queuedIn, same]
  · simp [queuedIn, same]
  · rw [not_or, not_not] at some
    simp [queuedIn, some.1]
  · simp [queuedIn]

theorem queuedIn_handlePush (sid : UInt64) (store : EntryStore) (entries : List Entry)
    (events : List SyncEvent) :
    queuedIn sid (Syncer.handlePush store entries events).2.2 = queuedIn sid events := by
  induction entries generalizing store events with
  | nil => rfl
  | cons entry entries ih =>
    rw [Syncer.handlePush]
    rcases store.insert entry with ⟨(error | _) | (_ | _), store'⟩
    · cases error <;> rfl
    · rfl
    · rw [ih, queuedIn_append]
      exact List.append_nil _
    · rw [ih, queuedIn_append]
      exact List.append_nil _

/-- Every id that was queued for a session is in its set, and was queued once. -/
structure Queued (syncer : Syncer) (queued : UInt64 → List EntryId) : Prop where
  nodup : ∀ sid, (queued sid).Nodup
  known : ∀ sid session, syncer.sessions.lookup (true, sid) = some session →
    ∀ id ∈ queued sid, id ∈ session.pushed
  future : ∀ sid, syncer.nextSid.toNat ≤ sid.toNat → queued sid = []

omit [Sha256] [Ed25519] in
theorem Queued.quiet {queued : UInt64 → List EntryId} {after : Syncer}
    (held : Queued syncer queued) (step : TableStep syncer after) : Queued after queued := by
  cases step with
  | same => exact held
  | opened engine room ours limit configured fits =>
    refine ⟨held.nodup, fun sid session found id mem => ?_, fun sid later => held.future sid ?_⟩
    · by_cases same : sid = syncer.nextSid
      · rw [held.future sid (by rw [same])] at mem
        exact absurd mem (by simp)
      · rw [AList.lookup_insert_ne (by simp [same])] at found
        exact held.known sid session found id mem
    · have grown : (syncer.nextSid + 2).toNat = syncer.nextSid.toNat + 2 := by
        rw [UInt64.toNat_add]
        exact Nat.mod_eq_of_lt fits
      dsimp only at later
      omega
  | accepted other engine room parity absent theirs limit configured =>
    refine ⟨held.nodup, fun sid session found => ?_, held.future⟩
    rw [AList.lookup_insert_ne (by simp)] at found
    exact held.known sid session found
  | continued key session found pushed grown =>
    refine ⟨held.nodup, fun sid session' found' id mem => ?_, held.future⟩
    by_cases same : (true, sid) = key
    · subst same
      rw [AList.lookup_insert] at found'
      rw [← Option.some.inj found']
      exact grown (held.known sid session found id mem)
    · rw [AList.lookup_insert_ne same] at found'
      exact held.known sid session' found' id mem
  | closed key found =>
    exact ⟨held.nodup, fun sid session found' => held.known sid session (lookup_erase_some found'),
      held.future⟩

omit [Ed25519] in
theorem Queued.round {queued : UInt64 → List EntryId} (held : Queued syncer queued)
    (orderly : Orderly syncer) {rm : ReconMsg} {session : Session} {round : Round}
    (found : syncer.sessions.lookup (syncer.sessionKey rm.sid) = some session)
    (answered : session.engine.reconcile rm.msg = .ok round) (sid : UInt64) :
    let queued' := queued sid ++
      if rm.sid = sid then (insertNew session.pushed round.haveIds).1 else []
    queued'.Nodup ∧ (syncer.nextSid.toNat ≤ sid.toNat → queued' = []) ∧
      (syncer.sessionKey rm.sid = (true, sid) →
        ∀ id ∈ queued', id ∈ (insertNew session.pushed round.haveIds).2) ∧
      (syncer.sessionKey rm.sid ≠ (true, sid) → queued' = queued sid) := by
  obtain ⟨nodup, fresh, grown⟩ := insertNew_spec session.pushed round.haveIds
  obtain ⟨role, limit⟩ := orderly.engines _ session found
  dsimp only
  by_cases same : rm.sid = sid
  · subst same
    rw [if_pos rfl]
    by_cases ours : rm.sid.toNat % 2 = syncer.ourParity
    · have key : syncer.sessionKey rm.sid = (true, rm.sid) := by
        rw [Syncer.sessionKey, decide_eq_true ours]
      rw [key] at found
      have before := held.known rm.sid session found
      have opened := orderly.ours rm.sid (AList.lookup_isSome.mp (by rw [found]; rfl))
      refine ⟨?_, fun later => absurd later (by omega), fun _ id mem => ?_, fun ne => absurd key ne⟩
      · exact List.nodup_append.mpr ⟨held.nodup rm.sid, nodup, fun id old other new same =>
          fresh other new (same ▸ before id old)⟩
      · rw [grown]
        rcases List.mem_append.mp mem with old | new
        · exact Or.inl (before id old)
        · exact Or.inr new
    · have key : syncer.sessionKey rm.sid = (false, rm.sid) := by
        rw [Syncer.sessionKey, decide_eq_false ours]
      rw [key] at role
      have none : round.haveIds = [] :=
        (((reconcile_safe limit rm.msg).of_ok answered).silent role).1
      rw [none]
      simp only [insertNew, List.append_nil]
      exact ⟨held.nodup rm.sid, held.future rm.sid, fun ours => by simp [key] at ours,
        fun _ => trivial⟩
  · rw [if_neg same, List.append_nil]
    refine ⟨held.nodup sid, held.future sid, fun key => ?_, fun _ => rfl⟩
    exact absurd (Prod.mk.inj key).2 same

omit [Ed25519] in
theorem Queued.reconMsg {queued : UInt64 → List EntryId} (held : Queued syncer queued)
    (orderly : Orderly syncer) {rm : ReconMsg} {out : Outcome × Syncer}
    (step : ReconStep syncer store rm out) :
    Queued out.2 fun sid => queued sid ++ queuedBy sid out.1 := by
  have table := held.quiet step.table
  cases step with
  | refused trap =>
    simp only [queuedBy, List.append_nil]
    exact held
  | continued session round reply found answered replied =>
    have queue := held.round orderly found answered
    simp only [queuedBy, queuedIn_reportRound]
    refine ⟨fun sid => (queue sid).1, fun sid session' found' => ?_, fun sid => (queue sid).2.1⟩
    by_cases same : syncer.sessionKey rm.sid = (true, sid)
    · dsimp only at found'
      rw [same, AList.lookup_insert] at found'
      rw [← Option.some.inj found']
      exact (queue sid).2.2.1 same
    · rw [(queue sid).2.2.2 same]
      exact table.known sid session' found'
  | finished session round found answered replied =>
    have queue := held.round orderly found answered
    have closed : ∀ sid sid' byUs, queuedIn sid [.sessionClosed sid' byUs] = [] := fun _ _ _ => rfl
    simp only [queuedBy, queuedIn_append, queuedIn_reportRound, closed, List.append_nil]
    refine ⟨fun sid => (queue sid).1, fun sid session' found' => ?_, fun sid => (queue sid).2.1⟩
    have same : syncer.sessionKey rm.sid ≠ (true, sid) := by
      intro same
      dsimp only at found'
      rw [same, AList.lookup_erase] at found'
      cases found'
    rw [(queue sid).2.2.2 same]
    exact table.known sid session' found'

theorem perform_reconInit (syncer : Syncer) (store : EntryStore) (init : ReconInit) :
    perform syncer ⟨store, .handleMessage (.reconInit init)⟩ = syncer.handleInit store init :=
  finish_eq store _

theorem perform_reconMsg (syncer : Syncer) (store : EntryStore) (rm : ReconMsg) :
    perform syncer ⟨store, .handleMessage (.reconMsg rm)⟩ = syncer.handleReconMsg store rm :=
  finish_eq store _

theorem perform_reconDone (syncer : Syncer) (store : EntryStore) (done : ReconDone) :
    perform syncer ⟨store, .handleMessage (.reconDone done)⟩ = syncer.handleDone done :=
  finish_eq store _

theorem perform_quiet (syncer : Syncer) {request : Request}
    (other : ∀ rm, request.call ≠ .handleMessage (.reconMsg rm)) (sid : UInt64) :
    queuedBy sid (perform syncer request).1 = [] := by
  obtain ⟨store, call⟩ := request
  cases call with
  | openSession window =>
    rw [perform]
    dsimp only
    rcases syncer.openSession store window with ⟨_ | _, _⟩ <;> rfl
  | abortSession sid => rfl
  | handleMessage msg =>
    cases msg with
    | reconMsg rm => exact absurd rfl (other rm)
    | reconInit init =>
      rw [perform_reconInit]
      have step := handleInit_step syncer store init
      generalize syncer.handleInit store init = out at step
      cases step <;> rfl
    | reconDone done =>
      rw [perform_reconDone]
      have step := handleDone_step syncer done
      generalize syncer.handleDone done = out at step
      cases step <;> rfl
    | gossipPush push =>
      have stored := queuedIn_handlePush sid store push.entries []
      rw [perform]
      simp only [Syncer.handleMessage, Syncer.handleMessageInto]
      rcases pushed : Syncer.handlePush store push.entries [] with ⟨_ | _, store', events⟩
      · rfl
      · rw [pushed] at stored
        exact stored
    | _ => rfl

theorem Queued.perform {queued : UInt64 → List EntryId} (held : Queued syncer queued)
    (orderly : Orderly syncer) (request : Request) :
    Queued (perform syncer request).2
      fun sid => queued sid ++ queuedBy sid (Sessions.perform syncer request).1 := by
  by_cases recon : ∃ rm, request.call = .handleMessage (.reconMsg rm)
  · obtain ⟨store, call⟩ := request
    obtain ⟨rm, same⟩ := recon
    dsimp only at same
    subst same
    rw [perform_reconMsg]
    exact held.reconMsg orderly (handleReconMsg_step syncer store rm)
  · rw [not_exists] at recon
    simp only [perform_quiet syncer recon, List.append_nil]
    exact held.quiet (perform_table syncer request)

/-! ## Whole runs -/

theorem run_orderly (orderly : Orderly syncer) (requests : List Request) :
    Orderly (run syncer requests).2 := by
  induction requests generalizing syncer with
  | nil => exact orderly
  | cons request requests ih => exact ih (orderly.step (perform_table syncer request))

theorem run_safe (orderly : Orderly syncer) {requests : List Request}
    (ready : ∀ request ∈ requests, Ready request.store request.growth)
    (few : syncer.nextSid.toNat + 2 * requests.countP Request.opens < 2 ^ 64) :
    ∀ outcome ∈ (run syncer requests).1, outcome ≠ .error .panic := by
  induction requests generalizing syncer with
  | nil => exact fun outcome mem => absurd mem (by simp [run])
  | cons request requests ih =>
    have next := perform_nextSid syncer request
    rw [List.countP_cons] at few
    have fits : request.opens = true → syncer.nextSid.toNat + 2 < 2 ^ 64 := by
      intro opens
      rw [if_pos opens] at few
      omega
    intro outcome mem
    rcases List.mem_cons.mp mem with rfl | later
    · exact perform_safe orderly (ready request List.mem_cons_self) fits
    · refine ih (orderly.step (perform_table syncer request))
        (fun r mem => ready r (List.mem_cons_of_mem request mem)) ?_ outcome later
      split_ifs at next few <;> omega

theorem run_queued {queued : UInt64 → List EntryId} (held : Queued syncer queued)
    (orderly : Orderly syncer) (requests : List Request) :
    Queued (run syncer requests).2
      fun sid => queued sid ++ (run syncer requests).1.flatMap (queuedBy sid) := by
  induction requests generalizing syncer queued with
  | nil =>
    simp only [run, List.flatMap_nil, List.append_nil]
    exact held
  | cons request requests ih =>
    have after := ih (held.perform orderly request) (orderly.step (perform_table syncer request))
    simp only [List.append_assoc] at after
    exact after

/-! ## What a round of a session says -/

omit [Sha256] [Ed25519] in
theorem entriesOf_reportRound (syncer : Syncer) (store : EntryStore) (sid : UInt64)
    (haveIds needIds : List EntryId) :
    (syncer.reportRound store sid haveIds needIds).replies.flatMap entriesOf =
      haveIds.filterMap store.get := by
  rw [Syncer.reportRound]
  split_ifs with differ
  · exact (pushBatches_spec store haveIds syncer.config.pushTtl).1
  · rw [not_or, not_not] at differ
    rw [differ.1]
    rfl

omit [Ed25519] in
theorem reconMsg_spec (orderly : Orderly syncer) {rm : ReconMsg} {output : SyncOutput}
    (ran : (syncer.handleReconMsg store rm).1 = .ok output) :
    output.replies.flatMap entriesOf = (queuedIn rm.sid output.events).filterMap store.get ∧
    (((∃ sid haveIds needIds, .reconciled sid haveIds needIds ∈ output.events) ∨
      ∃ sid, .reconDone ⟨sid⟩ ∈ output.replies) → (true, rm.sid) ∈ syncer.sessions) := by
  have step := handleReconMsg_step syncer store rm
  generalize syncer.handleReconMsg store rm = out at step ran
  have theirs : ∀ session round, syncer.sessions.lookup (syncer.sessionKey rm.sid) = some session →
      session.engine.reconcile rm.msg = .ok round → (true, rm.sid) ∉ syncer.sessions →
      round.haveIds = [] ∧ round.needIds = [] ∧ round.reply.isSome := by
    intro session round found answered absent
    obtain ⟨role, limit⟩ := orderly.engines _ session found
    have foreign : (syncer.sessionKey rm.sid).1 = false := by
      rw [← Bool.not_eq_true]
      intro ours
      refine absent ?_
      have key : syncer.sessionKey rm.sid = (true, rm.sid) := Prod.ext ours rfl
      rw [key] at found
      exact AList.lookup_isSome.mp (by rw [found]; rfl)
    exact ((reconcile_safe limit rm.msg).of_ok answered).silent (role.trans foreign)
  cases step with
  | refused trap => cases ran
  | continued session round reply found answered replied =>
    obtain rfl := Except.ok.inj ran
    refine ⟨?_, fun reported => ?_⟩
    · rw [List.flatMap_append, entriesOf_reportRound, queuedIn_reportRound, if_pos rfl]
      exact List.append_nil _
    · by_contra absent
      obtain ⟨noHave, noNeed, -⟩ := theirs session round found answered absent
      simp [noHave, noNeed, insertNew, Syncer.reportRound] at reported
  | finished session round found answered replied =>
    obtain rfl := Except.ok.inj ran
    refine ⟨?_, fun _ => ?_⟩
    · rw [List.flatMap_append, entriesOf_reportRound, queuedIn_append, queuedIn_reportRound,
        if_pos rfl]
      simp [entriesOf, queuedIn]
    · by_contra absent
      obtain ⟨-, -, replies⟩ := theirs session round found answered absent
      rw [replied] at replies
      exact absurd replies (by simp)

/-- The session table of a syncer whose peer sends anything. -/
theorem session_table (role : LinkRole) (config : SyncConfig) {requests : List Request}
    (ready : ∀ request ∈ requests, Ready request.store request.growth)
    (few : requests.countP Request.opens < 2 ^ 63) :
    let outcomes := (run (Syncer.new role config) requests).1
    let syncer := (run (Syncer.new role config) requests).2
    syncer.openSessions ≤ syncer.config.maxSessions ∧
    (∀ sid, (true, sid) ∈ syncer.sessions →
      sid.toNat % 2 = syncer.ourParity ∧ sid.toNat < syncer.nextSid.toNat) ∧
    (∀ sid, (false, sid) ∈ syncer.sessions → sid.toNat % 2 = syncer.peerParity) ∧
    (∀ sid, ¬ ((true, sid) ∈ syncer.sessions ∧ (false, sid) ∈ syncer.sessions)) ∧
    (∀ key session, syncer.sessions.lookup key = some session →
      session.engine.isInitiator = key.1) ∧
    (∀ store rm output, (syncer.handleReconMsg store rm).1 = .ok output →
      output.replies.flatMap entriesOf = (queuedIn rm.sid output.events).filterMap store.get ∧
      (((∃ sid haveIds needIds, .reconciled sid haveIds needIds ∈ output.events) ∨
        ∃ sid, .reconDone ⟨sid⟩ ∈ output.replies) → (true, rm.sid) ∈ syncer.sessions)) ∧
    (∀ outcome ∈ outcomes, outcome ≠ .error .panic) ∧
    (∀ store window trap, (syncer.openSession store window).1 = .error trap →
      (syncer.openSession store window).2 = syncer) ∧
    (∀ store init trap, (syncer.handleInit store init).1 = .error trap →
      (syncer.handleInit store init).2 = syncer) ∧
    ∀ sid, (outcomes.flatMap (queuedBy sid)).Nodup := by
  have start := orderly_new role config
  have first : (Syncer.new role config).nextSid.toNat ≤ 1 := by
    cases role <;> simp [Syncer.new]
  have empty : Queued (Syncer.new role config) fun _ => [] :=
    ⟨fun _ => List.nodup_nil, fun _ _ _ _ mem => absurd mem (by simp), fun _ _ => rfl⟩
  have orderly := run_orderly start requests
  refine ⟨orderly.few, orderly.ours, orderly.theirs, fun sid both => ?_,
    fun key session found => (orderly.engines key session found).1,
    fun store rm output ran => reconMsg_spec orderly ran,
    run_safe start ready (by omega), fun store window trap failed => ?_,
    fun store init trap failed => ?_, fun sid => ?_⟩
  · have ours := (orderly.ours sid both.1).1
    have theirs := orderly.theirs sid both.2
    rw [ours, Syncer.peerParity, Syncer.ourParity] at theirs
    split at theirs <;> cases theirs
  · have step := openSession_step (run (Syncer.new role config) requests).2 store window
    generalize Syncer.openSession _ store window = out at step failed
    cases step with
    | refused trap => rfl
    | opened engine msg room made started fits => cases failed
  · have step := handleInit_step (run (Syncer.new role config) requests).2 store init
    generalize Syncer.handleInit _ store init = out at step failed
    cases step with
    | refused trap => rfl
    | accepted engine round reply parity absent room made answered replied => cases failed
  · have queued := (run_queued empty start requests).nodup sid
    rwa [List.nil_append] at queued

end

/-! ## An open session, and a store that is too large -/

open Proof.Storage (keyDigest trusting insert_past_limit Built Running plainEntry storeOf built_storeOf)

local instance : Sha256 := keyDigest

local instance : Ed25519 := trusting

/-- A message that lists nothing before one sort key and disagrees about the rest. -/
def disagreeing : List UInt8 := [0x61, 3, 0, 2, 0, 0, 0, 1] ++ List.replicate 16 7

/-- A peer that sends the same message twice, opens a session of the wrong parity, talks about an
unknown session, and pushes an entry with the reserved sort key. -/
def hostileRequests : List Request :=
  [.openSession ⟨0, 10⟩, .handleMessage (.reconMsg ⟨0, disagreeing⟩),
    .handleMessage (.reconMsg ⟨0, disagreeing⟩), .handleMessage (.reconInit ⟨2, ⟨0, 10⟩, disagreeing⟩),
    .handleMessage (.reconMsg ⟨5, disagreeing⟩),
    .handleMessage (.gossipPush ⟨[plainEntry (UInt64.ofNat (2 ^ 64 - 1))], 0⟩)].map (⟨storeOf 3, ·⟩)

theorem session_table_hostile :
    let outcomes := (run (Syncer.new .initiator .default) hostileRequests).1
    let syncer := (run (Syncer.new .initiator .default) hostileRequests).2
    syncer.openSessions = 1 ∧ syncer.openSessions ≤ syncer.config.maxSessions ∧
      outcomes.flatMap (queuedBy 0) = [(plainEntry 0).id, (plainEntry 1).id] ∧
      (outcomes.flatMap (queuedBy 0)).Nodup ∧ ∀ outcome ∈ outcomes, outcome ≠ .error .panic := by
  have volatile : (storeOf 3).journal.isNone = true := by decide +kernel
  have room : ∀ request ∈ hostileRequests, request.store.len + request.growth ≤ Store.nilIndex := by
    decide +kernel
  have ready : ∀ request ∈ hostileRequests, Ready request.store request.growth := by
    intro request mem
    refine ⟨?_, ?_, room request mem⟩ <;> obtain ⟨call, -, rfl⟩ := List.mem_map.mp mem
    · exact built_storeOf 3
    · exact fun _ journaled => absurd (Option.isNone_iff_eq_none.mp volatile ▸ journaled) (by simp)
  obtain ⟨few, -, -, -, -, -, calm, -, -, queued⟩ := session_table .initiator .default ready (by decide)
  exact ⟨by decide +kernel, few, by decide +kernel, queued 0, calm⟩

/-- A pushed entry for which the index of the store has no number left. -/
theorem overfull_store_panics : ∃ (_ : Sha256) (_ : Ed25519) (store : EntryStore) (entry : Entry),
    Built store ∧ Running store ∧ ∀ role config, (perform (Syncer.new role config)
      ⟨store, .handleMessage (.gossipPush ⟨[entry], 0⟩)⟩).1 = .error .panic := by
  obtain ⟨store, entry, built, running, panics⟩ := insert_past_limit
  refine ⟨keyDigest, trusting, store, entry, built, running, fun role config => ?_⟩
  have pushed : Syncer.handlePush store [entry] [] =
      (.error .panic, (store.insert entry).2, []) := by
    rw [Syncer.handlePush]
    rcases inserted : store.insert entry with ⟨outcome, after⟩
    rw [inserted] at panics
    dsimp only at panics
    subst panics
    rfl
  simp only [perform, Syncer.handleMessage, Syncer.handleMessageInto, pushed]
  rfl

end Racnet.Proof.Sessions
