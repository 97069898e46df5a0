import Racnet.Lib.Table
import Racnet.Proof.Negentropy.Robust
import Racnet.Proof.Storage.Running
import Racnet.Sync.Session

/-!
# The session table

Every call leaves the table alone, or opens, accepts, continues or closes one session.
-/

namespace Racnet.Proof.Sessions
open Lib Store Wire Sync
open Proof.Negentropy (LimitOk reconcile_safe initiate_short)
open Proof.Storage (Ready)

/-! ## What a call can do -/

/-- All that a call can do to the table. -/
inductive TableStep (syncer : Syncer) : Syncer → Prop where
  | same : TableStep syncer syncer
  | opened (engine : Negentropy SealedVec) (room : syncer.openSessions < syncer.config.maxSessions)
      (ours : engine.isInitiator = true) (limit : LimitOk engine.frameLimit)
      (configured : engine.frameLimit = syncer.config.frameLimit)
      (fits : syncer.nextSid.toNat + 2 < 2 ^ 64) :
      TableStep syncer { syncer with
        nextSid := syncer.nextSid + 2
        sessions := syncer.sessions.insert (true, syncer.nextSid) ⟨engine, ∅⟩ }
  | accepted (sid : UInt64) (engine : Negentropy SealedVec)
      (room : syncer.openSessions < syncer.config.maxSessions)
      (parity : sid.toNat % 2 = syncer.peerParity) (absent : (false, sid) ∉ syncer.sessions)
      (theirs : engine.isInitiator = false) (limit : LimitOk engine.frameLimit)
      (configured : engine.frameLimit = syncer.config.frameLimit) :
      TableStep syncer { syncer with
        sessions := syncer.sessions.insert (false, sid) ⟨engine, ∅⟩ }
  | continued (key : Bool × UInt64) (session : Session)
      (found : syncer.sessions.lookup key = some session) (pushed : Finset EntryId)
      (grown : session.pushed ⊆ pushed) :
      TableStep syncer { syncer with
        sessions := syncer.sessions.insert key { session with pushed } }
  | closed (key : Bool × UInt64) (found : key ∈ syncer.sessions) :
      TableStep syncer { syncer with sessions := syncer.sessions.erase key }

/-! ## Ids that are pushed once -/

theorem insertNew_spec (seen : Finset EntryId) (ids : List EntryId) :
    (insertNew seen ids).1.Nodup ∧ (∀ id ∈ (insertNew seen ids).1, id ∉ seen) ∧
      ∀ id, id ∈ (insertNew seen ids).2 ↔ id ∈ seen ∨ id ∈ (insertNew seen ids).1 := by
  induction ids generalizing seen with
  | nil => simp [insertNew]
  | cons id ids ih =>
    rw [insertNew]
    split_ifs with held
    · exact ih seen
    · obtain ⟨nodup, fresh, after⟩ := ih (insert id seen)
      refine ⟨?_, fun other mem => ?_, fun other => ?_⟩
      · refine List.nodup_cons.mpr ⟨fun again => ?_, nodup⟩
        exact fresh id again (Finset.mem_insert_self id seen)
      · rcases List.mem_cons.mp mem with rfl | later
        · exact held
        · exact fun old => fresh other later (Finset.mem_insert_of_mem old)
      · rw [after, Finset.mem_insert, List.mem_cons]
        tauto

theorem mem_insertNew (seen : Finset EntryId) (ids : List EntryId) (id : EntryId) :
    id ∈ (insertNew seen ids).2 ↔ id ∈ seen ∨ id ∈ ids := by
  induction ids generalizing seen with
  | nil => simp [insertNew]
  | cons first ids ih =>
    rw [insertNew]
    split_ifs with held
    · rw [ih, List.mem_cons]
      refine or_congr_right' fun unseen => (or_iff_right ?_).symm
      rintro rfl
      exact unseen held
    · rw [ih, Finset.mem_insert, List.mem_cons]
      tauto

variable {syncer : Syncer} {store : EntryStore}

/-! ## Engines -/

variable [Sha256]

/-- An engine as `handle_init` and `open_session` make it. -/
structure Fresh (syncer : Syncer) (engine : Negentropy SealedVec) : Prop where
  theirs : engine.isInitiator = false
  limit : LimitOk engine.frameLimit
  configured : engine.frameLimit = syncer.config.frameLimit

omit [Sha256] in
theorem new_fresh {sealedItems : SealedVec} {engine : Negentropy SealedVec}
    (made : Negentropy.new sealedItems syncer.config.frameLimit = .ok engine) :
    Fresh syncer engine := by
  rw [Negentropy.new] at made
  split_ifs at made with low
  obtain rfl := Except.ok.inj made
  refine ⟨rfl, fun limit mem => ?_, rfl⟩
  simp only [Option.any_eq_true, decide_eq_true_eq, not_exists, not_and, not_lt] at low
  exact low limit mem

omit [Sha256] in
theorem sealedEngine_fresh {window : SortKeyWindow} {engine : Negentropy SealedVec}
    (made : syncer.sealedEngine store window = .ok engine) : Fresh syncer engine := by
  rw [Syncer.sealedEngine, Exec.bind_eq_ok] at made
  obtain ⟨items, -, made⟩ := made
  split_ifs at made with fits
  cases created : Negentropy.new (SealedVec.new ⟨items, fits⟩) syncer.config.frameLimit with
  | error e =>
    rw [created] at made
    cases made
  | ok engine' =>
    rw [created] at made
    obtain rfl := Except.ok.inj made
    exact new_fresh created

/-! ## The calls, one by one -/

inductive OpenStep (syncer : Syncer) (store : EntryStore) (window : SortKeyWindow) :
    Exec SyncError (UInt64 × Message) × Syncer → Prop where
  | refused (trap : Trap SyncError) : OpenStep syncer store window (.error trap, syncer)
  | opened (engine : Negentropy SealedVec) (msg : List UInt8)
      (room : syncer.openSessions < syncer.config.maxSessions)
      (made : syncer.sealedEngine store window = .ok engine)
      (started : engine.initiate = .ok ({ engine with isInitiator := true }, msg))
      (fits : syncer.nextSid.toNat + 2 < 2 ^ 64) :
      OpenStep syncer store window (.ok (syncer.nextSid, .reconInit ⟨syncer.nextSid, window, msg⟩),
        { syncer with
          nextSid := syncer.nextSid + 2
          sessions := syncer.sessions.insert (true, syncer.nextSid)
            ⟨{ engine with isInitiator := true }, ∅⟩ })

theorem openSession_step (syncer : Syncer) (store : EntryStore) (window : SortKeyWindow) :
    OpenStep syncer store window (syncer.openSession store window) := by
  rw [Syncer.openSession]
  by_cases full : syncer.openSessions ≥ syncer.config.maxSessions
  · rw [if_pos full]
    exact .refused _
  rw [if_neg full]
  cases made : syncer.sealedEngine store window with
  | error trap => exact .refused trap
  | ok engine =>
    obtain ⟨msg, started, -⟩ := initiate_short (sealedEngine_fresh made).theirs
    rw [Exec.ok_bind, started]
    dsimp only
    split_ifs with fits
    · exact .opened engine msg (Nat.not_le.mp full) made started fits
    · exact .refused _

inductive InitStep (syncer : Syncer) (store : EntryStore) (init : ReconInit) :
    Exec SyncError SyncOutput × Syncer → Prop where
  | refused (trap : Trap SyncError) : InitStep syncer store init (.error trap, syncer)
  | accepted (engine : Negentropy SealedVec) (round : Round) (reply : List UInt8)
      (parity : init.sid.toNat % 2 = syncer.peerParity)
      (absent : (false, init.sid) ∉ syncer.sessions)
      (room : syncer.openSessions < syncer.config.maxSessions)
      (made : syncer.sealedEngine store init.window = .ok engine)
      (answered : engine.reconcile init.msg = .ok round) (replied : round.reply = some reply) :
      InitStep syncer store init (.ok { replies := [.reconMsg ⟨init.sid, reply⟩] },
        { syncer with sessions := syncer.sessions.insert (false, init.sid) ⟨engine, ∅⟩ })

theorem handleInit_step (syncer : Syncer) (store : EntryStore) (init : ReconInit) :
    InitStep syncer store init (syncer.handleInit store init) := by
  rw [Syncer.handleInit]
  by_cases parity : init.sid.toNat % 2 = syncer.peerParity
  swap
  · rw [if_pos parity]
    exact .refused _
  by_cases held : (false, init.sid) ∈ syncer.sessions
  · rw [if_neg (not_not.mpr parity), if_pos held]
    exact .refused _
  by_cases full : syncer.openSessions ≥ syncer.config.maxSessions
  · rw [if_neg (not_not.mpr parity), if_neg held, if_pos full]
    exact .refused _
  rw [if_neg (not_not.mpr parity), if_neg held, if_neg full]
  cases made : syncer.sealedEngine store init.window with
  | error trap => exact .refused trap
  | ok engine =>
    dsimp only
    cases answered : engine.reconcile init.msg with
    | error trap => exact .refused trap
    | ok round =>
      dsimp only
      cases replied : round.reply with
      | none => exact .refused _
      | some reply =>
        exact .accepted engine round reply parity held (Nat.not_le.mp full) made answered
          replied

inductive ReconStep (syncer : Syncer) (store : EntryStore) (rm : ReconMsg) :
    Exec SyncError SyncOutput × Syncer → Prop where
  | refused (trap : Trap SyncError) : ReconStep syncer store rm (.error trap, syncer)
  | continued (session : Session) (round : Round) (reply : List UInt8)
      (found : syncer.sessions.lookup (syncer.sessionKey rm.sid) = some session)
      (answered : session.engine.reconcile rm.msg = .ok round) (replied : round.reply = some reply) :
      ReconStep syncer store rm
        (.ok ⟨(syncer.reportRound store rm.sid (insertNew session.pushed round.haveIds).1
            (insertNew ∅ round.needIds).1).replies ++ [.reconMsg ⟨rm.sid, reply⟩],
          (syncer.reportRound store rm.sid (insertNew session.pushed round.haveIds).1
            (insertNew ∅ round.needIds).1).events⟩,
        { syncer with
          sessions := syncer.sessions.insert (syncer.sessionKey rm.sid)
            { session with pushed := (insertNew session.pushed round.haveIds).2 } })
  | finished (session : Session) (round : Round)
      (found : syncer.sessions.lookup (syncer.sessionKey rm.sid) = some session)
      (answered : session.engine.reconcile rm.msg = .ok round) (replied : round.reply = none) :
      ReconStep syncer store rm
        (.ok ⟨(syncer.reportRound store rm.sid (insertNew session.pushed round.haveIds).1
            (insertNew ∅ round.needIds).1).replies ++ [.reconDone ⟨rm.sid⟩],
          (syncer.reportRound store rm.sid (insertNew session.pushed round.haveIds).1
            (insertNew ∅ round.needIds).1).events ++
              [.sessionClosed rm.sid (syncer.sessionKey rm.sid).1]⟩,
        { syncer with sessions := syncer.sessions.erase (syncer.sessionKey rm.sid) })

theorem handleReconMsg_step (syncer : Syncer) (store : EntryStore) (rm : ReconMsg) :
    ReconStep syncer store rm (syncer.handleReconMsg store rm) := by
  rw [Syncer.handleReconMsg]
  dsimp only
  cases found : syncer.sessions.lookup (syncer.sessionKey rm.sid) with
  | none => exact .refused _
  | some session =>
    dsimp only
    cases answered : session.engine.reconcile rm.msg with
    | error trap => exact .refused trap
    | ok round =>
      dsimp only
      cases replied : round.reply with
      | none => exact .finished session round found answered replied
      | some reply => exact .continued session round reply found answered replied

inductive DoneStep (syncer : Syncer) (done : ReconDone) :
    Exec SyncError SyncOutput × Syncer → Prop where
  | refused (absent : syncer.sessionKey done.sid ∉ syncer.sessions) :
      DoneStep syncer done (.fail (.violation "no open session with this id"), syncer)
  | closed (found : syncer.sessionKey done.sid ∈ syncer.sessions) :
      DoneStep syncer done
        (.ok { events := [.sessionClosed done.sid (syncer.sessionKey done.sid).1] },
        { syncer with sessions := syncer.sessions.erase (syncer.sessionKey done.sid) })

omit [Sha256] in
theorem handleDone_step (syncer : Syncer) (done : ReconDone) :
    DoneStep syncer done (syncer.handleDone done) := by
  rw [Syncer.handleDone]
  split_ifs with found
  · exact .closed found
  · exact .refused found

theorem OpenStep.table {window : SortKeyWindow} {out : Exec SyncError (UInt64 × Message) × Syncer}
    (step : OpenStep syncer store window out) : TableStep syncer out.2 := by
  cases step with
  | refused trap => exact .same
  | opened engine msg room made started fits =>
    have fresh := sealedEngine_fresh made
    exact .opened _ room rfl fresh.limit fresh.configured fits

theorem InitStep.table {init : ReconInit} {out : Exec SyncError SyncOutput × Syncer}
    (step : InitStep syncer store init out) : TableStep syncer out.2 := by
  cases step with
  | refused trap => exact .same
  | accepted engine round reply parity absent room made answered replied =>
    have fresh := sealedEngine_fresh made
    exact .accepted init.sid engine room parity absent fresh.theirs fresh.limit fresh.configured

theorem ReconStep.table {rm : ReconMsg} {out : Exec SyncError SyncOutput × Syncer}
    (step : ReconStep syncer store rm out) : TableStep syncer out.2 := by
  cases step with
  | refused trap => exact .same
  | continued session round reply found answered replied =>
    refine .continued _ session found _ fun id mem => ?_
    exact ((insertNew_spec session.pushed round.haveIds).2.2 id).mpr (Or.inl mem)
  | finished session round found answered replied =>
    exact .closed _ (AList.lookup_isSome.mp (by rw [found]; rfl))

omit [Sha256] in
theorem DoneStep.table {done : ReconDone} {out : Exec SyncError SyncOutput × Syncer}
    (step : DoneStep syncer done out) : TableStep syncer out.2 := by
  cases step with
  | refused absent => exact .same
  | closed found => exact .closed _ found

omit [Sha256] in
theorem abortSession_table (syncer : Syncer) (sid : UInt64) :
    TableStep syncer (syncer.abortSession sid).2 := by
  rw [Syncer.abortSession]
  split_ifs with found
  · exact .closed _ found
  · exact .same

/-! ## The invariant of the table -/

/-- The sessions are few, their keys have the right parity, and the engines of the sessions we opened
are the initiators. -/
structure Orderly (syncer : Syncer) : Prop where
  few : syncer.openSessions ≤ syncer.config.maxSessions
  next : syncer.nextSid.toNat % 2 = syncer.ourParity
  ours : ∀ sid, (true, sid) ∈ syncer.sessions →
    sid.toNat % 2 = syncer.ourParity ∧ sid.toNat < syncer.nextSid.toNat
  theirs : ∀ sid, (false, sid) ∈ syncer.sessions → sid.toNat % 2 = syncer.peerParity
  engines : ∀ key session, syncer.sessions.lookup key = some session →
    session.engine.isInitiator = key.1 ∧ LimitOk session.engine.frameLimit

omit [Sha256] in
theorem orderly_new (role : LinkRole) (config : SyncConfig) : Orderly (Syncer.new role config) := by
  have none : ∀ key, key ∉ (Syncer.new role config).sessions := AList.notMem_empty
  refine ⟨Nat.zero_le _, ?_, fun sid mem => absurd mem (none _), fun sid mem => absurd mem (none _),
    fun key session found => absurd (found.symm.trans (AList.lookup_empty key)) (by simp)⟩
  cases role <;> rfl

omit [Sha256] in
theorem Orderly.step {after : Syncer} (orderly : Orderly syncer) (step : TableStep syncer after) :
    Orderly after := by
  cases step with
  | same => exact orderly
  | opened engine room ours limit configured fits =>
    have next := orderly.next
    have grown : (syncer.nextSid + 2).toNat = syncer.nextSid.toNat + 2 := by
      rw [UInt64.toNat_add]
      exact Nat.mod_eq_of_lt fits
    refine ⟨?_, ?_, fun sid mem => ?_, fun sid mem => ?_, fun key session found => ?_⟩
    · rw [Syncer.openSessions, length_keys_insert]
      change _ ≤ syncer.config.maxSessions
      rw [Syncer.openSessions] at room
      split_ifs <;> omega
    · dsimp only
      rw [grown]
      change _ = syncer.ourParity
      omega
    · rw [AList.mem_insert] at mem
      dsimp only
      rw [grown]
      change _ = syncer.ourParity ∧ _
      rcases mem with same | old
      · obtain rfl := (Prod.mk.inj same).2
        exact ⟨next, by omega⟩
      · have := orderly.ours sid old
        exact ⟨this.1, by omega⟩
    · rw [AList.mem_insert] at mem
      rcases mem with same | old
      · exact absurd (Prod.mk.inj same).1 (by simp)
      · exact orderly.theirs sid old
    · by_cases same : key = (true, syncer.nextSid)
      · subst same
        rw [AList.lookup_insert] at found
        rw [← Option.some.inj found]
        exact ⟨ours, limit⟩
      · rw [AList.lookup_insert_ne same] at found
        exact orderly.engines key session found
  | accepted sid engine room parity absent theirs limit configured =>
    refine ⟨?_, orderly.next, fun other mem => ?_, fun other mem => ?_, fun key session found => ?_⟩
    · rw [Syncer.openSessions, length_keys_insert, if_neg absent]
      exact room
    · rw [AList.mem_insert] at mem
      rcases mem with same | old
      · exact absurd (Prod.mk.inj same).1 (by simp)
      · exact orderly.ours other old
    · rw [AList.mem_insert] at mem
      rcases mem with same | old
      · rw [(Prod.mk.inj same).2]
        exact parity
      · exact orderly.theirs other old
    · by_cases same : key = (false, sid)
      · subst same
        rw [AList.lookup_insert] at found
        rw [← Option.some.inj found]
        exact ⟨theirs, limit⟩
      · rw [AList.lookup_insert_ne same] at found
        exact orderly.engines key session found
  | continued key session found pushed grown =>
    have held : key ∈ syncer.sessions := AList.lookup_isSome.mp (by rw [found]; rfl)
    have mem_iff : ∀ other, other ∈ syncer.sessions.insert key { session with pushed } ↔
        other ∈ syncer.sessions := by
      intro other
      rw [AList.mem_insert]
      exact ⟨fun mem => mem.elim (fun same => same ▸ held) id, Or.inr⟩
    refine ⟨?_, orderly.next, fun sid mem => orderly.ours sid ((mem_iff _).mp mem),
      fun sid mem => orderly.theirs sid ((mem_iff _).mp mem), fun other session' found' => ?_⟩
    · rw [Syncer.openSessions, length_keys_insert, if_pos held]
      exact orderly.few
    · by_cases same : other = key
      · subst same
        rw [AList.lookup_insert] at found'
        rw [← Option.some.inj found']
        exact orderly.engines other session found
      · rw [AList.lookup_insert_ne same] at found'
        exact orderly.engines other session' found'
  | closed key found =>
    have mem_old : ∀ other, other ∈ syncer.sessions.erase key → other ∈ syncer.sessions :=
      fun other mem => (AList.mem_erase.mp mem).2
    refine ⟨le_trans (length_keys_erase_le _ _) orderly.few, orderly.next,
      fun sid mem => orderly.ours sid (mem_old _ mem),
      fun sid mem => orderly.theirs sid (mem_old _ mem), fun other session found => ?_⟩
    exact orderly.engines other session (lookup_erase_some found)

/-! ## Stores -/

section
variable [Ed25519]

theorem handlePush_rule {P : EntryStore → Prop} {store : EntryStore} {entries : List Entry}
    (events : List SyncEvent) (kept : ∀ store, ∀ entry ∈ entries, P store → P (store.insert entry).2)
    (start : P store) : P (Syncer.handlePush store entries events).2.1 := by
  induction entries generalizing store events with
  | nil => exact start
  | cons entry entries ih =>
    have first := kept store entry List.mem_cons_self start
    have later := fun store other mem => kept store other (List.mem_cons_of_mem entry mem)
    rw [Syncer.handlePush]
    rcases outcome : store.insert entry with ⟨trap | isNew, after⟩ <;> rw [outcome] at first
    · rcases trap with ⟨⟨⟩⟩ | _ <;> exact first
    · cases isNew <;> exact ih _ later first

theorem handleMessageInto_rule {P : EntryStore → Prop} {store : EntryStore} (syncer : Syncer) {msg : Message}
    (kept : ∀ push, msg = .gossipPush push → ∀ store, ∀ entry ∈ push.entries, P store →
      P (store.insert entry).2) (start : P store) : P (syncer.handleMessageInto store msg {}).store := by
  have same (out : Exec SyncError SyncOutput × Syncer) : (Syncer.finish store {} out).store = store := by
    rcases out with ⟨_ | _, _⟩ <;> rfl
  cases msg with
  | gossipPush push => exact handlePush_rule [] (kept push rfl) start
  | reconInit _ | reconMsg _ | reconDone _ =>
    rw [Syncer.handleMessageInto, same]
    exact start
  | hello _ | handshake _ | error _ => exact start

end

end Racnet.Proof.Sessions
