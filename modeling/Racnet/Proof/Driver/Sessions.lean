import Racnet.Proof.Driver.Calls
import Racnet.Proof.Driver.Stored
import Racnet.Proof.Sessions.Hostile

/-!
# The sessions that a link has opened

A session of ours that is open is either open after a call or was reported closed by it.
-/

namespace Racnet.Proof.Driver
open Lib Noise Store Sync Wire Link
open Proof.Sessions (TableStep handleInit_step handleReconMsg_step handleDone_step openSession_step
  handleMessageInto_table)
open Relation (ReflTransGen)

def closing (sid : UInt64) : LinkEvent := .sync (.sessionClosed sid true)

/-- Our sessions after events are those before that the events do not close. -/
def Retains (before : UInt64 → Prop) (syncer : Syncer) (events : List LinkEvent) : Prop :=
  ∀ sid, (true, sid) ∈ syncer.sessions ↔ before sid ∧ closing sid ∉ events

def Ours (syncer : Syncer) (sid : UInt64) : Prop := (true, sid) ∈ syncer.sessions

theorem Retains.same {syncer : Syncer} {events : List LinkEvent} (quiet : ∀ sid, closing sid ∉ events) :
    Retains (Ours syncer) syncer events :=
  fun sid => (and_iff_left (quiet sid)).symm

theorem Retains.trans {before : UInt64 → Prop} {middle after : Syncer} {first second : List LinkEvent}
    (earlier : Retains before middle first) (later : Retains (Ours middle) after second) :
    Retains before after (first ++ second) := by
  intro sid
  rw [later sid, Ours, earlier sid, List.mem_append, not_or, and_assoc]

theorem Retains.closed {before : UInt64 → Prop} {syncer : Syncer} {events : List LinkEvent}
    (keeps : Retains before syncer events) (reason : CloseReason) :
    Retains before syncer (events ++ [.closed reason]) := by
  refine keeps.trans (Retains.same fun sid mem => ?_)
  cases List.mem_singleton.mp mem

section

theorem closing_sync {sid : UInt64} {events : List SyncEvent} :
    closing sid ∈ events.map .sync ↔ .sessionClosed sid true ∈ events := by
  simp [closing]

theorem reportRound_closes_none (syncer : Syncer) (store : EntryStore) (sid other : UInt64)
    (haveIds needIds : List EntryId) :
    .sessionClosed other true ∉ (syncer.reportRound store sid haveIds needIds).events := by
  rw [Syncer.reportRound]
  split_ifs <;> simp

theorem retains_erase (syncer : Syncer) (key : Bool × UInt64) {events : List SyncEvent}
    (quiet : ∀ sid, .sessionClosed sid true ∉ events) :
    Retains (Ours syncer) { syncer with sessions := syncer.sessions.erase key }
      ((events ++ [SyncEvent.sessionClosed key.2 key.1]).map .sync) := by
  intro sid
  rw [closing_sync, AList.mem_erase, List.mem_append, List.mem_singleton, Ours]
  obtain ⟨ours, own⟩ := key
  simp only [ne_eq, Prod.mk.injEq, SyncEvent.sessionClosed.injEq, quiet sid, false_or]
  tauto

theorem retains_insert (syncer : Syncer) (key : Bool × UInt64) (session : Session)
    (held : key.1 = true → key ∈ syncer.sessions) {events : List SyncEvent}
    (quiet : ∀ sid, .sessionClosed sid true ∉ events) :
    Retains (Ours syncer) { syncer with sessions := syncer.sessions.insert key session }
      (events.map .sync) := by
  intro sid
  rw [closing_sync, AList.mem_insert, Ours, and_iff_left (quiet sid)]
  refine or_iff_right_of_imp fun same => ?_
  rw [same]
  exact held (same ▸ rfl)

variable [Sha256] [Ed25519]

theorem handlePush_closes_none (store : EntryStore) (entries : List Entry) {events : List SyncEvent}
    {sid : UInt64} (none : .sessionClosed sid true ∉ events) :
    .sessionClosed sid true ∉ (Syncer.handlePush store entries events).2.2 := by
  induction entries generalizing store events with
  | nil => exact none
  | cons entry entries ih =>
    rw [Syncer.handlePush]
    rcases store.insert entry with ⟨⟨error | _⟩ | _ | _, after⟩
    · cases error <;> exact none
    · exact none
    · exact ih after (by simpa using none)
    · exact ih after (by simpa using none)

theorem handleMessageInto_retains (syncer : Syncer) (store : EntryStore) (msg : Message) :
    Retains (Ours syncer) (syncer.handleMessageInto store msg {}).syncer
      ((syncer.handleMessageInto store msg {}).output.events.map .sync) := by
  have refused : Retains (Ours syncer) syncer (([] : List SyncEvent).map .sync) :=
    Retains.same fun sid => by simp
  cases msg with
  | gossipPush push =>
    refine Retains.same fun sid mem => ?_
    exact handlePush_closes_none store push.entries (by simp) (closing_sync.mp mem)
  | reconInit init =>
    have step := handleInit_step syncer store init
    rw [Syncer.handleMessageInto]
    generalize syncer.handleInit store init = out at step ⊢
    cases step with
    | refused trap => exact refused
    | accepted engine round reply =>
      exact retains_insert syncer (false, init.sid) ⟨engine, ∅⟩ (by simp) (by simp [Syncer.finish])
  | reconMsg rm =>
    have step := handleReconMsg_step syncer store rm
    rw [Syncer.handleMessageInto]
    generalize syncer.handleReconMsg store rm = out at step ⊢
    cases step with
    | refused trap => exact refused
    | continued session round reply found =>
      refine retains_insert syncer _ _ (fun _ => ?_) fun sid => reportRound_closes_none _ _ _ sid _ _
      exact AList.lookup_isSome.mp (Option.isSome_iff_exists.mpr ⟨session, found⟩)
    | finished session round found =>
      exact retains_erase syncer (syncer.sessionKey rm.sid) fun sid =>
        reportRound_closes_none _ _ _ sid _ _
  | reconDone done =>
    have step := handleDone_step syncer done
    rw [Syncer.handleMessageInto]
    generalize syncer.handleDone done = out at step ⊢
    cases step with
    | refused absent => exact refused
    | closed found =>
      exact @retains_erase syncer (syncer.sessionKey done.sid) [] fun sid => by simp
  | hello _ | handshake _ | error _ => exact refused

end

/-! ## Calls -/

section
variable {driver after : LinkDriver} {store store' : EntryStore} {effect : Effect}

theorem onTick_retains (driver : LinkDriver) (nowUs : UInt64) :
    Retains (Ours driver.syncer) (driver.onTick nowUs).1.syncer (driver.onTick nowUs).2.events := by
  cases ended : driver.isClosed with
  | true =>
    rw [LinkDriver.onTick, LinkDriver.checkTimeouts, if_pos ended]
    exact Retains.same fun sid => List.not_mem_nil
  | false =>
    rw [LinkDriver.onTick, checkTimeouts_eq ended]
    cases timeout driver nowUs with
    | none => exact Retains.same fun sid => List.not_mem_nil
    | some reason => exact Retains.same fun sid => by simp [closing, Effect.silence, Effect.on]

theorem start_syncer {out : LinkOutput} (ran : driver.start = some (after, out)) :
    after.syncer = driver.syncer := by
  rcases start_eq driver with idle | ⟨-, -, started⟩
  · rw [idle] at ran
    cases ran
    rfl
  · rw [started, LinkDriver.queueHello] at ran
    cases encoded : encodeMessage driver.ourHello with
    | error error =>
      rw [encoded] at ran
      cases ran
    | ok body =>
      rw [encoded] at ran
      cases ran
      rfl

variable [Sha256] [HmacSha256] [X25519] [ChaCha20Poly1305] [Ed25519]

theorem BodyStep.retains {body : List UInt8}
    (step : BodyStep driver store body after store' effect) :
    Retains (Ours driver.syncer) after.syncer effect.events := by
  cases step with
  | hello waiting step =>
    cases step <;> exact Retains.same fun sid => by simp [closing, Effect.silence, Effect.refusal]
  | handshake hs waiting step =>
    cases step <;> exact Retains.same fun sid => by simp [closing, Effect.silence]
  | transport transport established step =>
    cases step with
    | dropped | peerError | violated =>
      exact Retains.same fun sid => by simp [closing, Effect.silence, Effect.refusal]
    | handled plaintext after last msg handled frames decrypted decoded sync ran =>
      rw [← ran]
      exact handleMessageInto_retains _ _ _
    | exhausted plaintext after msg handled decrypted decoded sync ran =>
      rw [← ran]
      exact (handleMessageInto_retains _ _ _).closed _
    | refused plaintext after msg handled err decrypted decoded sync ran =>
      rw [← ran]
      exact (handleMessageInto_retains _ _ _).closed _

theorem Bodies.retains (bodies : Bodies driver store after store' effect) :
    Retains (Ours driver.syncer) after.syncer effect.events := by
  induction bodies with
  | waiting incomplete => exact Retains.same fun sid => List.not_mem_nil
  | closed next step ended => exact step.retains
  | more next step open_ rest ih => exact step.retains.trans ih

theorem BytesStep.retains {bytes : List UInt8} {nowUs : UInt64}
    (step : BytesStep driver store bytes nowUs after store' effect) :
    Retains (Ours driver.syncer) after.syncer effect.events := by
  cases step with
  | inert ended => exact Retains.same fun sid => List.not_mem_nil
  | expired reason open_ late => exact Retains.same fun sid => by simp [closing, Effect.silence]
  | read open_ inTime bodies => exact bodies.retains

omit [HmacSha256] [X25519] [Ed25519] in
theorem openSync_error {window : SortKeyWindow} {trap : Trap LinkError}
    (ran : driver.openSync store window = (.error trap, after)) : after = driver := by
  have opens := openSync_opens driver store window
  rw [ran] at opens
  cases opens <;> rfl

omit [HmacSha256] [X25519] [ChaCha20Poly1305] [Ed25519] in
theorem openSession_retains {syncer last : Syncer} {window : SortKeyWindow} {sid : UInt64} {msg : Message}
    (opened : syncer.openSession store window = (.ok (sid, msg), last)) :
    Retains (fun other => Ours syncer other ∨ other = sid) last [] := by
  have step := openSession_step syncer store window
  rw [opened] at step
  cases step with
  | opened engine msg room made started fits =>
    intro other
    rw [AList.mem_insert, Prod.mk.injEq, and_iff_right rfl, or_comm]
    exact (and_iff_left List.not_mem_nil).symm

omit [HmacSha256] [X25519] [Ed25519] in
theorem openSync_ok {window : SortKeyWindow} {sid : UInt64} {out : LinkOutput}
    (ran : driver.openSync store window = (.ok (sid, out), after)) :
    Retains (fun other => Ours driver.syncer other ∨ other = sid) after.syncer out.events ∧
      ∀ event ∈ out.events, ∃ reason, event = .closed reason := by
  have opens := openSync_opens driver store window
  rw [ran] at opens
  cases opens with
  | opened transport _ msg syncer state opened =>
    have keeps := openSession_retains opened
    rcases encrypted : LinkDriver.encryptFrame transport msg with ⟨error | frame, last⟩
    · rw [@queueEncrypted_error _ { driver with syncer } _ _ _ _ state encrypted]
      exact ⟨keeps.closed _, fun event mem => ⟨_, List.mem_singleton.mp mem⟩⟩
    · rw [@queueEncrypted_ok _ { driver with syncer } _ _ _ _ state encrypted]
      exact ⟨keeps, by simp⟩

/-! ## The table of a link -/

theorem BodyStep.table {body : List UInt8} (step : BodyStep driver store body after store' effect) :
    TableStep driver.syncer after.syncer := by
  cases step with
  | hello waiting step => cases step <;> exact .same
  | handshake hs waiting step => cases step <;> exact .same
  | transport transport established step =>
    cases step with
    | dropped | peerError | violated => exact .same
    | handled plaintext after last msg handled frames decrypted decoded sync ran =>
      exact ran ▸ handleMessageInto_table _ _ _ _
    | exhausted plaintext after msg handled decrypted decoded sync ran =>
      exact ran ▸ handleMessageInto_table _ _ _ _
    | refused plaintext after msg handled err decrypted decoded sync ran =>
      exact ran ▸ handleMessageInto_table _ _ _ _

theorem Bodies.table (bodies : Bodies driver store after store' effect) :
    ReflTransGen TableStep driver.syncer after.syncer := by
  induction bodies with
  | waiting incomplete => exact .refl
  | closed next step ended => exact .single step.table
  | more next step open_ rest ih => exact .head step.table ih

theorem BytesStep.table {bytes : List UInt8} {nowUs : UInt64}
    (step : BytesStep driver store bytes nowUs after store' effect) :
    ReflTransGen TableStep driver.syncer after.syncer := by
  cases step with
  | inert ended => exact .refl
  | expired reason open_ late => exact .refl
  | read open_ inTime bodies => exact bodies.table

omit [Sha256] [HmacSha256] [X25519] [ChaCha20Poly1305] [Ed25519] in
theorem onTick_syncer (driver : LinkDriver) (nowUs : UInt64) :
    (driver.onTick nowUs).1.syncer = driver.syncer := by
  rw [LinkDriver.onTick, LinkDriver.checkTimeouts]
  split_ifs <;> rfl

omit [Sha256] [HmacSha256] [X25519] [Ed25519] in
theorem queueEncrypted_syncer (driver : LinkDriver) (msg : Message) (out : LinkOutput) :
    (driver.queueEncrypted msg out).1.syncer = driver.syncer := by
  rw [LinkDriver.queueEncrypted]
  rcases driver.state with _ | _ | transport | _
  · rfl
  · rfl
  · dsimp only
    rcases LinkDriver.encryptFrame transport msg with ⟨_ | frame, last⟩ <;> rfl
  · rfl

omit [HmacSha256] [X25519] [Ed25519] in
theorem openSync_syncer (driver : LinkDriver) (store : EntryStore) (window : SortKeyWindow) :
    (driver.openSync store window).2.syncer = driver.syncer ∨
      (driver.openSync store window).2.syncer = (driver.syncer.openSession store window).2 := by
  have opens := openSync_opens driver store window
  generalize driver.openSync store window = result at opens
  cases opens with
  | early | refused | panicked => exact Or.inl rfl
  | opened transport sid msg syncer state opened =>
    rw [opened, queueEncrypted_syncer]
    exact Or.inr rfl

omit [HmacSha256] [X25519] [Ed25519] in
theorem openSync_table (driver : LinkDriver) (store : EntryStore) (window : SortKeyWindow) :
    TableStep driver.syncer (driver.openSync store window).2.syncer := by
  rcases openSync_syncer driver store window with same | opened
  · rw [same]
    exact .same
  · rw [opened]
    exact (openSession_step driver.syncer store window).table

theorem CallStep.table {call : Call} (step : CallStep driver store call after store' effect) :
    ReflTransGen TableStep driver.syncer after.syncer := by
  cases step with
  | idle | started | expired | ended => exact .refl
  | bytes step => exact step.table
  | sent _ _ _ _ _ _ _ outgoing | exhausted _ _ _ _ _ _ _ outgoing =>
    cases outgoing with
    | send => exact .refl
    | @openSync window _ _ _ opened =>
      have step := (openSession_step driver.syncer store window).table
      rw [opened] at step
      exact .single step

end

end Racnet.Proof.Driver
