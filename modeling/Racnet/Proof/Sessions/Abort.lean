import Racnet.Proof.Negentropy.Replies
import Racnet.Proof.Sessions.Hostile

/-!
# Two syncers over FIFO channels

An abort crosses the peer's answer, which then meets no session: a violation. There is no other.
-/

namespace Racnet.Proof.Sessions
open Lib Store Wire Sync
open Proof.Negentropy (LimitOk Sendable new_of_limitOk initiate_sendable reconcile_safe reconcile_reports initiate_short)
open Proof.Storage (Filled Sound reservedKey OfStorage insert_reports)

/-! ## Two syncers and the messages between them -/

def otherRole : LinkRole → LinkRole
  | .initiator => .responder
  | .responder => .initiator

def parityOf : LinkRole → Nat
  | .initiator => 0
  | .responder => 1

/-- A syncer with its store, the messages on their way to it, and the sessions it has aborted. -/
structure Peer where
  syncer : Syncer
  store : EntryStore
  inbox : List Message
  aborted : Finset UInt64

abbrev Peers := LinkRole → Peer

inductive Action where
  | openSession (role : LinkRole) (window : SortKeyWindow)
  | abortSession (role : LinkRole) (sid : UInt64)
  | deliver (role : LinkRole)

def settle (peers : Peers) (role : LinkRole) (peer : Peer) (sent : List Message) : Peers := fun side =>
  if side = role then peer else { peers side with inbox := (peers side).inbox ++ sent }

def sentBy : Outcome → List Message
  | .ok output => output.replies
  | .error _ => []

@[simp] theorem sentBy_ok (output : SyncOutput) : sentBy (.ok output) = output.replies := rfl

@[simp] theorem sentBy_pure (output : SyncOutput) : sentBy (pure output) = output.replies := rfl

def introduced (config : LinkRole → SyncConfig) (store : LinkRole → EntryStore) : Peers := fun role =>
  ⟨Syncer.new role (config role), store role, [], ∅⟩

section

/-- The action delivers a RECON_MSG of a session that the receiving side has opened and aborted. -/
def Crosses (peers : Peers) (action : Action) : Prop :=
  ∃ role rm inbox, action = .deliver role ∧ (peers role).inbox = .reconMsg rm :: inbox ∧
    rm.sid.toNat % 2 = parityOf role ∧ rm.sid ∈ (peers role).aborted

/-- A RECON_INIT is delivered to a side below its cap, with a permitted frame limit and a store that its
index can hold. -/
def HasRoom (peers : Peers) (action : Action) : Prop :=
  ∀ role init inbox, action = .deliver role → (peers role).inbox = .reconInit init :: inbox →
    (peers role).syncer.openSessions < (peers role).syncer.config.maxSessions ∧
      LimitOk (peers role).syncer.config.frameLimit ∧ (peers role).store.len ≤ nilIndex

variable [Sha256] [Ed25519]

def act (peers : Peers) : Action → Outcome × Peers
  | .openSession role window =>
    let (outcome, syncer) := perform (peers role).syncer ⟨(peers role).store, .openSession window⟩
    (outcome, settle peers role { peers role with syncer } (sentBy outcome))
  | .abortSession role sid =>
    let (outcome, syncer) := perform (peers role).syncer ⟨(peers role).store, .abortSession sid⟩
    let aborted :=
      if (true, sid) ∈ (peers role).syncer.sessions then insert sid (peers role).aborted
      else (peers role).aborted
    (outcome, settle peers role { peers role with syncer, aborted } (sentBy outcome))
  | .deliver role =>
    match (peers role).inbox with
    | [] => (.ok {}, peers)
    | msg :: inbox =>
      let (outcome, syncer, store) := (peers role).syncer.handleMessage (peers role).store msg
      (outcome, settle peers role { peers role with syncer, store, inbox } (sentBy outcome))

inductive Runs (start : Peers) : Peers → Prop where
  | start : Runs start start
  | act {peers : Peers} (action : Action) (ran : Runs start peers)
      (uncrossed : ¬ Crosses peers action) (room : HasRoom peers action) :
      Runs start (act peers action).2

end

/-! ## One session, seen from both sides -/

inductive Kind where
  | init
  | msg
  | done
  deriving DecidableEq

def kindOf (sid : UInt64) : Message → Option Kind
  | .reconInit init => if init.sid = sid then some .init else none
  | .reconMsg rm => if rm.sid = sid then some .msg else none
  | .reconDone done => if done.sid = sid then some .done else none
  | _ => none

def about (sid : UInt64) (messages : List Message) : List Kind := messages.filterMap (kindOf sid)

/-- Who holds the session, what is on its way to the accepting side and to the opener, and whether the
opener has aborted it. -/
structure Thread where
  opened : Bool
  accepted : Bool
  forth : List Kind
  back : List Kind
  aborted : Bool

def Thread.unopened : Thread := ⟨false, false, [], [], false⟩

def threadOf (peers : Peers) (opener : LinkRole) (sid : UInt64) : Thread where
  opened := decide ((true, sid) ∈ (peers opener).syncer.sessions)
  accepted := decide ((false, sid) ∈ (peers (otherRole opener)).syncer.sessions)
  forth := about sid (peers (otherRole opener)).inbox
  back := about sid (peers opener).inbox
  aborted := decide (sid ∈ (peers opener).aborted)

inductive Stage : Thread → Prop where
  | closed (aborted : Bool) : Stage ⟨false, false, [], [], aborted⟩
  | offered : Stage ⟨true, false, [.init], [], false⟩
  | idle : Stage ⟨true, true, [], [], false⟩
  | asked : Stage ⟨true, true, [.msg], [], false⟩
  | answered : Stage ⟨true, true, [], [.msg], false⟩
  | finished (aborted : Bool) : Stage ⟨false, true, [.done], [], aborted⟩
  -- the opener has aborted, and its own earlier message is still on its way
  | withdrawn : Stage ⟨false, false, [.init, .done], [], true⟩
  | abandoned : Stage ⟨false, true, [.msg, .done], [], true⟩
  -- the opener has aborted, and the answer is on its way
  | crossed : Stage ⟨false, true, [.done], [.msg], true⟩
  | stale : Stage ⟨false, false, [], [.msg], true⟩

namespace Stage
variable {thread : Thread} {rest : List Kind}

theorem abort (stage : Stage thread) (held : thread.opened = true) :
    Stage { thread with opened := false, forth := thread.forth ++ [.done], aborted := true } := by
  cases stage with
  | offered => exact .withdrawn
  | idle => exact .finished true
  | asked => exact .abandoned
  | answered => exact .crossed
  | closed | finished | withdrawn | abandoned | crossed | stale => cases held

theorem accept (stage : Stage thread) (next : thread.forth = .init :: rest) :
    thread.accepted = false ∧
      Stage { thread with accepted := true, forth := rest, back := thread.back ++ [.msg] } := by
  cases stage with
  | offered =>
    cases next
    exact ⟨rfl, .answered⟩
  | withdrawn =>
    cases next
    exact ⟨rfl, .crossed⟩
  | closed | idle | asked | answered | finished | abandoned | crossed | stale => cases next

theorem reply (stage : Stage thread) (next : thread.forth = .msg :: rest) :
    thread.accepted = true ∧ Stage { thread with forth := rest } ∧
      Stage { thread with forth := rest, back := thread.back ++ [.msg] } := by
  cases stage with
  | asked =>
    cases next
    exact ⟨rfl, .idle, .answered⟩
  | abandoned =>
    cases next
    exact ⟨rfl, .finished true, .crossed⟩
  | closed | offered | idle | answered | finished | withdrawn | crossed | stale => cases next

theorem close (stage : Stage thread) (next : thread.forth = .done :: rest) :
    thread.accepted = true ∧ Stage { thread with accepted := false, forth := rest } := by
  cases stage with
  | finished aborted =>
    cases next
    exact ⟨rfl, .closed aborted⟩
  | crossed =>
    cases next
    exact ⟨rfl, .stale⟩
  | closed | offered | idle | asked | answered | withdrawn | abandoned | stale => cases next

theorem back_msg {kind : Kind} (stage : Stage thread) (next : thread.back = kind :: rest) :
    kind = .msg ∧ (thread.opened = true ↔ thread.aborted = false) := by
  cases stage with
  | answered =>
    cases next
    exact ⟨rfl, by simp⟩
  | crossed | stale =>
    cases next
    exact ⟨rfl, by simp⟩
  | closed | offered | idle | asked | finished | withdrawn | abandoned => cases next

theorem answer {kind : Kind} (stage : Stage thread) (next : thread.back = kind :: rest)
    (held : thread.opened = true) :
    Stage { thread with back := rest } ∧
      Stage { thread with forth := thread.forth ++ [.msg], back := rest } ∧
      Stage { thread with opened := false, forth := thread.forth ++ [.done], back := rest } := by
  cases stage with
  | answered =>
    cases next
    exact ⟨.idle, .asked, .finished false⟩
  | crossed | stale => cases held
  | closed | offered | idle | asked | finished | withdrawn | abandoned => cases next

end Stage

/-! ## What a turn changes -/

theorem otherRole_ne (role : LinkRole) : otherRole role ≠ role := by
  cases role <;> exact fun same => LinkRole.noConfusion same

@[simp] theorem otherRole_otherRole (role : LinkRole) : otherRole (otherRole role) = role := by
  cases role <;> rfl

theorem eq_or_eq_otherRole (role side : LinkRole) : side = role ∨ side = otherRole role := by
  cases role <;> cases side <;> simp [otherRole]

theorem parityOf_otherRole (role : LinkRole) : parityOf (otherRole role) = 1 - parityOf role := by
  cases role <;> rfl

theorem parityOf_lt (role : LinkRole) : parityOf role < 2 := by
  cases role <;> decide

@[simp] theorem about_nil (sid : UInt64) : about sid [] = [] := rfl

@[simp] theorem about_append (sid : UInt64) (first second : List Message) :
    about sid (first ++ second) = about sid first ++ about sid second := List.filterMap_append

theorem about_cons (sid : UInt64) (msg : Message) (messages : List Message) :
    about sid (msg :: messages) = (kindOf sid msg).toList ++ about sid messages := by
  rw [about, List.filterMap_cons]
  cases kindOf sid msg <;> rfl

section Turn
variable (peers : Peers) (role : LinkRole) (peer : Peer) (sent : List Message)

@[simp] theorem settle_self : settle peers role peer sent role = peer := if_pos rfl

@[simp] theorem settle_other : settle peers role peer sent (otherRole role) =
    { peers (otherRole role) with inbox := (peers (otherRole role)).inbox ++ sent } :=
  if_neg (otherRole_ne role)

theorem threadOf_settle_self (sid : UInt64) :
    threadOf (settle peers role peer sent) role sid =
      { opened := decide ((true, sid) ∈ peer.syncer.sessions)
        accepted := (threadOf peers role sid).accepted
        forth := (threadOf peers role sid).forth ++ about sid sent
        back := about sid peer.inbox
        aborted := decide (sid ∈ peer.aborted) } := by
  simp only [threadOf, settle_self, settle_other, about_append]

theorem threadOf_settle_other (sid : UInt64) :
    threadOf (settle peers role peer sent) (otherRole role) sid =
      { opened := (threadOf peers (otherRole role) sid).opened
        accepted := decide ((false, sid) ∈ peer.syncer.sessions)
        forth := about sid peer.inbox
        back := (threadOf peers (otherRole role) sid).back ++ about sid sent
        aborted := (threadOf peers (otherRole role) sid).aborted } := by
  simp only [threadOf, settle_self, settle_other, otherRole_otherRole, about_append]

variable {peers role peer sent}

theorem threadOf_settle_same {sid : UInt64}
    (table : ∀ ours, (ours, sid) ∈ peer.syncer.sessions ↔
      (ours, sid) ∈ (peers role).syncer.sessions)
    (inbox : about sid peer.inbox = about sid (peers role).inbox) (quiet : about sid sent = [])
    (aborted : sid ∈ peer.aborted ↔ sid ∈ (peers role).aborted) (opener : LinkRole) :
    threadOf (settle peers role peer sent) opener sid = threadOf peers opener sid := by
  rcases eq_or_eq_otherRole role opener with rfl | rfl
  · rw [threadOf_settle_self, quiet, inbox, List.append_nil]
    simp only [threadOf, table, aborted]
  · rw [threadOf_settle_other, quiet, inbox, List.append_nil]
    simp only [threadOf, table, otherRole_otherRole]

end Turn

/-! ## The invariant -/

theorem TableStep.keeps {before after : Syncer} (step : TableStep before after) :
    after.role = before.role ∧ before.nextSid.toNat ≤ after.nextSid.toNat := by
  cases step with
  | opened engine room ours limit configured fits =>
    refine ⟨rfl, ?_⟩
    dsimp only
    rw [UInt64.toNat_add, show (2 : UInt64).toNat = 2 from rfl, Nat.mod_eq_of_lt fits]
    exact Nat.le_add_right _ _
  | same | accepted | continued | closed => exact ⟨rfl, le_rfl⟩

section
variable [Sha256] [Ed25519]

def Proper : Message → Prop
  | .gossipPush push =>
    ∀ entry ∈ push.entries, entry.sortKey ≠ reservedKey ∧ entry.verify = .ok ()
  | .reconInit _ | .reconMsg _ | .reconDone _ => True
  | .hello _ | .handshake _ | .error _ => False

/-- A proper message that, if it opens a session, can be read. -/
def Genuine (msg : Message) : Prop := Proper msg ∧ ∀ init, msg = .reconInit init → Sendable init.msg

omit [Sha256] in
theorem genuine_of_quiet {msg : Message} (proper : Proper msg) (quiet : ∀ sid, kindOf sid msg = none) :
    Genuine msg := by
  refine ⟨proper, ?_⟩
  rintro init rfl
  exact absurd (quiet init.sid) (by simp [kindOf])

/-- Every session is at a stage, and those with a sid not yet given are unopened. -/
structure Honest (peers : Peers) : Prop where
  roles : ∀ role, (peers role).syncer.role = role
  orderly : ∀ role, Orderly (peers role).syncer
  filled : ∀ role, Filled (peers role).store
  genuine : ∀ role, ∀ msg ∈ (peers role).inbox, Genuine msg
  stages : ∀ opener sid, sid.toNat % 2 = parityOf opener → Stage (threadOf peers opener sid)
  fresh : ∀ opener sid, sid.toNat % 2 = parityOf opener →
    (peers opener).syncer.nextSid.toNat ≤ sid.toNat → threadOf peers opener sid = .unopened

theorem introduced_honest {store : LinkRole → EntryStore} (config : LinkRole → SyncConfig)
    (filled : ∀ role, Filled (store role)) : Honest (introduced config store) := by
  have empty : ∀ opener sid, threadOf (introduced config store) opener sid = .unopened := by
    intro opener sid
    have none : ∀ role key, key ∉ (Syncer.new role (config role)).sessions :=
      fun _ key => AList.notMem_empty key
    simp [threadOf, introduced, Thread.unopened, none]
  refine ⟨fun _ => rfl, fun role => orderly_new role (config role), filled,
    fun role msg mem => absurd mem (by simp [introduced]), fun opener sid _ => ?_,
    fun opener sid _ _ => empty opener sid⟩
  rw [empty]
  exact .closed false

theorem Honest.settled {peers : Peers} (honest : Honest peers) {role : LinkRole} {peer : Peer}
    {sent : List Message} (table : TableStep (peers role).syncer peer.syncer)
    (filled : Filled peer.store) (inbox : ∀ msg ∈ peer.inbox, msg ∈ (peers role).inbox)
    (genuine : ∀ msg ∈ sent, Genuine msg)
    (threads : ∀ opener sid, sid.toNat % 2 = parityOf opener →
      threadOf (settle peers role peer sent) opener sid = threadOf peers opener sid ∨
      Stage (threadOf (settle peers role peer sent) opener sid) ∧
        sid.toNat < (settle peers role peer sent opener).syncer.nextSid.toNat) :
    Honest (settle peers role peer sent) := by
  obtain ⟨sameRole, grown⟩ := table.keeps
  have next : ∀ opener, (peers opener).syncer.nextSid.toNat ≤
      (settle peers role peer sent opener).syncer.nextSid.toNat := by
    intro opener
    rcases eq_or_eq_otherRole role opener with rfl | rfl
    · rwa [settle_self]
    · rw [settle_other]
  refine ⟨fun side => ?_, fun side => ?_, fun side => ?_, fun side msg mem => ?_,
    fun opener sid owned => ?_, fun opener sid owned unused => ?_⟩
  · rcases eq_or_eq_otherRole role side with rfl | rfl
    · rw [settle_self, sameRole]
      exact honest.roles side
    · rw [settle_other]
      exact honest.roles _
  · rcases eq_or_eq_otherRole role side with rfl | rfl
    · rw [settle_self]
      exact (honest.orderly side).step table
    · rw [settle_other]
      exact honest.orderly _
  · rcases eq_or_eq_otherRole role side with rfl | rfl
    · rwa [settle_self]
    · rw [settle_other]
      exact honest.filled _
  · rcases eq_or_eq_otherRole role side with rfl | rfl
    · rw [settle_self] at mem
      exact honest.genuine side msg (inbox msg mem)
    · rw [settle_other] at mem
      rcases List.mem_append.mp mem with old | new
      · exact honest.genuine _ msg old
      · exact genuine msg new
  · rcases threads opener sid owned with same | ⟨stage, -⟩
    · rw [same]
      exact honest.stages opener sid owned
    · exact stage
  · rcases threads opener sid owned with same | ⟨-, used⟩
    · rw [same]
      exact honest.fresh opener sid owned (le_trans (next opener) unused)
    · omega

end

/-! ## Messages that arrive -/

section
variable {peers : Peers} {role : LinkRole}

theorem head_side {msg : Message} {inbox : List Message} {kind : Kind} {sid : UInt64}
    (next : (peers role).inbox = msg :: inbox) (kindly : kindOf sid msg = some kind) :
    sid.toNat % 2 = parityOf role ∧ (threadOf peers role sid).back = kind :: about sid inbox ∨
    sid.toNat % 2 = parityOf (otherRole role) ∧
      (threadOf peers (otherRole role) sid).forth = kind :: about sid inbox := by
  have read : about sid (peers role).inbox = kind :: about sid inbox := by
    rw [next, about_cons, kindly]
    rfl
  have few := parityOf_lt role
  by_cases ours : sid.toNat % 2 = parityOf role
  · exact Or.inl ⟨ours, read⟩
  · refine Or.inr ⟨by rw [parityOf_otherRole]; omega, ?_⟩
    rw [threadOf, otherRole_otherRole]
    exact read

variable [Sha256] [Ed25519]

theorem Honest.sound (honest : Honest peers) (role : LinkRole) : Sound (peers role).store :=
  (honest.filled role).sound

theorem Honest.ourParity (honest : Honest peers) (role : LinkRole) :
    (peers role).syncer.ourParity = parityOf role := by
  rw [Syncer.ourParity, honest.roles]
  cases role <;> rfl

theorem Honest.peerParity (honest : Honest peers) (role : LinkRole) :
    (peers role).syncer.peerParity = parityOf (otherRole role) := by
  rw [Syncer.peerParity, honest.ourParity, parityOf_otherRole]

theorem Honest.sessionKey_self (honest : Honest peers) {sid : UInt64}
    (owned : sid.toNat % 2 = parityOf role) : (peers role).syncer.sessionKey sid = (true, sid) := by
  rw [Syncer.sessionKey, honest.ourParity, owned, decide_eq_true rfl]

theorem Honest.sessionKey_other (honest : Honest peers) {sid : UInt64}
    (owned : sid.toNat % 2 = parityOf (otherRole role)) :
    (peers role).syncer.sessionKey sid = (false, sid) := by
  have few := parityOf_lt role
  rw [parityOf_otherRole] at owned
  rw [Syncer.sessionKey, honest.ourParity, decide_eq_false (by omega)]

theorem Honest.init_arrives (honest : Honest peers) {init : ReconInit} {inbox : List Message}
    (next : (peers role).inbox = .reconInit init :: inbox) :
    init.sid.toNat % 2 = parityOf (otherRole role) ∧
      (threadOf peers (otherRole role) init.sid).forth = .init :: about init.sid inbox := by
  rcases head_side next (if_pos rfl) with ⟨owned, read⟩ | theirs
  · exact absurd ((honest.stages role init.sid owned).back_msg read).1 (by decide)
  · exact theirs

theorem Honest.done_arrives (honest : Honest peers) {done : ReconDone} {inbox : List Message}
    (next : (peers role).inbox = .reconDone done :: inbox) :
    done.sid.toNat % 2 = parityOf (otherRole role) ∧
      (threadOf peers (otherRole role) done.sid).forth = .done :: about done.sid inbox := by
  rcases head_side next (if_pos rfl) with ⟨owned, read⟩ | theirs
  · exact absurd ((honest.stages role done.sid owned).back_msg read).1 (by decide)
  · exact theirs

theorem Honest.msg_arrives (honest : Honest peers) {rm : ReconMsg} {inbox : List Message}
    (next : (peers role).inbox = .reconMsg rm :: inbox) :
    (peers role).syncer.sessionKey rm.sid ∈ (peers role).syncer.sessions ↔
      ¬ (rm.sid.toNat % 2 = parityOf role ∧ rm.sid ∈ (peers role).aborted) := by
  rcases head_side next (if_pos rfl) with ⟨owned, read⟩ | ⟨owned, read⟩
  · have held := ((honest.stages role rm.sid owned).back_msg read).2
    rw [threadOf, decide_eq_true_eq, decide_eq_false_iff_not] at held
    rw [honest.sessionKey_self owned, held, not_and]
    exact ⟨fun kept _ => kept, fun kept => kept owned⟩
  · have held := ((honest.stages _ rm.sid owned).reply read).1
    rw [threadOf, otherRole_otherRole] at held
    rw [honest.sessionKey_other owned]
    refine ⟨fun _ => ?_, fun _ => of_decide_eq_true held⟩
    rintro ⟨ours, -⟩
    have few := parityOf_lt role
    rw [parityOf_otherRole] at owned
    omega

theorem Honest.used (honest : Honest peers) {opener : LinkRole} {sid : UInt64}
    (owned : sid.toNat % 2 = parityOf opener) (active : threadOf peers opener sid ≠ .unopened) :
    sid.toNat < (peers opener).syncer.nextSid.toNat := by
  by_contra late
  exact active (honest.fresh opener sid owned (Nat.not_lt.mp late))

/-! ## Violations -/

def NoViolation (error : SyncError) : Prop := ∀ reason, error ≠ .violation reason

omit [Sha256] [Ed25519] in
theorem sealedEngine_reports (syncer : Syncer) (store : EntryStore) (window : SortKeyWindow) :
    Exec.Reports NoViolation (syncer.sealedEngine store window) := by
  refine (Exec.reports_orPanic _).bind fun items => ?_
  split_ifs with fits
  · rw [Negentropy.new]
    split_ifs
    · exact Exec.reports_fail.mpr fun reason => by simp
    · exact Exec.reports_ok _
  · rintro error ⟨⟩

omit [Ed25519] in
theorem reconcile_noViolation (engine : Negentropy SealedVec) (msg : List UInt8) :
    Exec.Reports NoViolation (engine.reconcile msg) :=
  reconcile_reports (fun _ _ => by simp) (fun _ _ => by simp) engine msg

omit [Ed25519] in
theorem openSession_reports (syncer : Syncer) (store : EntryStore) (window : SortKeyWindow) :
    Exec.Reports NoViolation (syncer.openSession store window).1 := by
  rw [Syncer.openSession]
  by_cases full : syncer.openSessions ≥ syncer.config.maxSessions
  · rw [if_pos full]
    exact Exec.reports_fail.mpr fun reason => by simp
  rw [if_neg full]
  have engines := sealedEngine_reports syncer store window
  cases made : syncer.sealedEngine store window with
  | error trap =>
    rw [made] at engines
    exact fun error same => engines error (by rw [Except.error.inj same])
  | ok engine =>
    obtain ⟨msg, started, -⟩ := initiate_short (sealedEngine_fresh made).theirs
    rw [Exec.ok_bind, started]
    dsimp only
    split_ifs
    · exact Exec.reports_ok _
    · rintro error ⟨⟩

omit [Ed25519] in
theorem handleInit_reports {syncer : Syncer} (store : EntryStore) {init : ReconInit}
    (parity : init.sid.toNat % 2 = syncer.peerParity) (absent : (false, init.sid) ∉ syncer.sessions) :
    Exec.Reports NoViolation (syncer.handleInit store init).1 := by
  rw [Syncer.handleInit, if_neg (not_not.mpr parity), if_neg absent]
  by_cases full : syncer.openSessions ≥ syncer.config.maxSessions
  · rw [if_pos full]
    exact Exec.reports_fail.mpr fun reason => by simp
  rw [if_neg full]
  have engines := sealedEngine_reports syncer store init.window
  cases made : syncer.sealedEngine store init.window with
  | error trap =>
    rw [made] at engines
    exact fun error same => engines error (by rw [Except.error.inj same])
  | ok engine =>
    have rounds := reconcile_noViolation engine init.msg
    dsimp only
    cases answered : engine.reconcile init.msg with
    | error trap =>
      rw [answered] at rounds
      exact fun error same => rounds error (by rw [Except.error.inj same])
    | ok round =>
      dsimp only
      cases round.reply with
      | none => rintro error ⟨⟩
      | some reply => exact Exec.reports_ok _

omit [Ed25519] in
theorem handleReconMsg_reports {syncer : Syncer} (store : EntryStore) {rm : ReconMsg}
    (held : syncer.sessionKey rm.sid ∈ syncer.sessions) :
    Exec.Reports NoViolation (syncer.handleReconMsg store rm).1 := by
  obtain ⟨session, found⟩ := Option.isSome_iff_exists.mp (AList.lookup_isSome.mpr held)
  have rounds := reconcile_noViolation session.engine rm.msg
  rw [Syncer.handleReconMsg]
  dsimp only
  rw [found]
  dsimp only
  cases answered : session.engine.reconcile rm.msg with
  | error trap =>
    rw [answered] at rounds
    exact fun error same => rounds error (by rw [Except.error.inj same])
  | ok round =>
    dsimp only
    cases round.reply with
    | none => exact Exec.reports_ok _
    | some reply => exact Exec.reports_ok _

theorem handlePush_reports (store : EntryStore) {entries : List Entry} (events : List SyncEvent)
    (valid : ∀ entry ∈ entries, entry.sortKey ≠ reservedKey ∧ entry.verify = .ok ()) :
    Exec.Reports NoViolation (Syncer.handlePush store entries events).1 := by
  induction entries generalizing store events with
  | nil => exact Exec.reports_ok _
  | cons entry entries ih =>
    have later := fun other mem => valid other (List.mem_cons_of_mem entry mem)
    obtain ⟨finite, verified⟩ := valid entry List.mem_cons_self
    have storage := insert_reports store finite verified
    rw [Syncer.handlePush]
    rcases inserted : store.insert entry with ⟨trap | isNew, after⟩
    · rw [inserted] at storage
      cases trap with
      | panic => rintro error ⟨⟩
      | err error =>
        have ofStorage := storage error rfl
        cases error with
        | storage reason => exact Exec.reports_fail.mpr fun reason => by simp
        | capacity => exact Exec.reports_fail.mpr fun reason => by simp
        | badSignature => exact ofStorage.elim
        | sortKeyReserved => exact ofStorage.elim
    · cases isNew with
      | true => exact ih after _ later
      | false => exact ih after _ later

end

/-! ## Turns keep the invariant -/

section
variable {table : AList fun _ : Bool × UInt64 => Session} {ours theirs : Bool} {sid other : UInt64}

theorem mem_insert_of_ne (ne : other ≠ sid) (session : Session) :
    (theirs, other) ∈ table.insert (ours, sid) session ↔ (theirs, other) ∈ table := by
  rw [AList.mem_insert]
  exact or_iff_right fun same => ne (Prod.mk.inj same).2

theorem mem_erase_of_ne (ne : other ≠ sid) :
    (theirs, other) ∈ table.erase (ours, sid) ↔ (theirs, other) ∈ table := by
  rw [AList.mem_erase]
  exact and_iff_right fun same => ne (Prod.mk.inj same).2

end

section
variable {peers : Peers} {role : LinkRole}

theorem about_head_ne {msg : Message} {inbox : List Message} {sid : UInt64}
    (next : (peers role).inbox = msg :: inbox) (quiet : kindOf sid msg = none) :
    about sid inbox = about sid (peers role).inbox := by
  rw [next, about_cons, quiet]
  rfl

theorem opener_unique {opener side : LinkRole} {sid : UInt64}
    (owned : sid.toNat % 2 = parityOf opener) (owned' : sid.toNat % 2 = parityOf side) :
    opener = side := by
  cases opener <;> cases side <;> simp_all [parityOf]

variable [Sha256] [Ed25519]

theorem reportRound_pushes {store : EntryStore} (sound : Sound store) (syncer : Syncer)
    (sid : UInt64) (haveIds needIds : List EntryId) :
    ∀ msg ∈ (syncer.reportRound store sid haveIds needIds).replies,
      Proper msg ∧ ∀ sid', kindOf sid' msg = none := by
  intro msg mem
  rw [Syncer.reportRound] at mem
  split_ifs at mem
  · obtain ⟨batch, rfl, pushed⟩ :=
      (pushBatches_spec store haveIds syncer.config.pushTtl).2 msg mem
    refine ⟨fun entry held => ?_, fun _ => rfl⟩
    obtain ⟨id, found⟩ := pushed.stored entry held
    exact ⟨sound.finite id entry found, sound.verified id entry found⟩
  · exact absurd mem (by simp)

section
variable {store : EntryStore} (sound : Sound store) {syncer : Syncer} {sid : UInt64}
  {haveIds needIds : List EntryId} {last : Message}
include sound

theorem about_reported (sid' : UInt64) :
    about sid' ((syncer.reportRound store sid haveIds needIds).replies ++ [last]) = about sid' [last] := by
  have silent : about sid' (syncer.reportRound store sid haveIds needIds).replies = [] :=
    List.filterMap_eq_nil_iff.mpr fun msg mem =>
      (reportRound_pushes sound syncer sid haveIds needIds msg mem).2 sid'
  rw [about_append, silent, List.nil_append]

theorem genuine_reported (genuine : Genuine last) :
    ∀ msg ∈ (syncer.reportRound store sid haveIds needIds).replies ++ [last], Genuine msg := by
  intro msg mem
  rcases List.mem_append.mp mem with pushed | ended
  · have quiet := reportRound_pushes sound syncer sid haveIds needIds msg pushed
    exact genuine_of_quiet quiet.1 quiet.2
  · rwa [List.mem_singleton.mp ended]

end

theorem Honest.quiet (honest : Honest peers) {inbox : List Message} {store : EntryStore}
    (filled : Filled store) (fewer : ∀ msg ∈ inbox, msg ∈ (peers role).inbox)
    (same : ∀ sid, about sid inbox = about sid (peers role).inbox) :
    Honest (settle peers role { peers role with store, inbox } []) := by
  refine honest.settled .same filled fewer (fun _ mem => absurd mem (by simp)) fun opener sid _ => ?_
  left
  refine threadOf_settle_same ?_ (same sid) rfl ?_ opener
  · exact fun _ => Iff.rfl
  · exact Iff.rfl

theorem Honest.turn (honest : Honest peers) {peer : Peer} {sent : List Message} {sid : UInt64}
    (table : TableStep (peers role).syncer peer.syncer) (filled : Filled peer.store)
    (inbox : ∀ msg ∈ peer.inbox, msg ∈ (peers role).inbox) (genuine : ∀ msg ∈ sent, Genuine msg)
    (touched : ∀ ours other, other ≠ sid →
      ((ours, other) ∈ peer.syncer.sessions ↔ (ours, other) ∈ (peers role).syncer.sessions))
    (unread : ∀ other, other ≠ sid → about other peer.inbox = about other (peers role).inbox)
    (quiet : ∀ other, other ≠ sid → about other sent = [])
    (aborted : ∀ other, other ≠ sid → (other ∈ peer.aborted ↔ other ∈ (peers role).aborted))
    (used : ∀ opener, sid.toNat % 2 = parityOf opener →
      sid.toNat < (settle peers role peer sent opener).syncer.nextSid.toNat)
    (stage : ∀ opener, sid.toNat % 2 = parityOf opener →
      Stage (threadOf (settle peers role peer sent) opener sid)) :
    Honest (settle peers role peer sent) := by
  refine honest.settled table filled inbox genuine fun opener other owned => ?_
  by_cases same : other = sid
  · subst same
    exact Or.inr ⟨stage opener owned, used opener owned⟩
  · exact Or.inl (threadOf_settle_same (fun ours => touched ours other same) (unread other same)
      (quiet other same) (aborted other same) opener)

theorem Honest.openSession (honest : Honest peers) (role : LinkRole) (window : SortKeyWindow) :
    Honest (act peers (.openSession role window)).2 := by
  have step := openSession_step (peers role).syncer (peers role).store window
  simp only [act, perform]
  generalize (peers role).syncer.openSession (peers role).store window = out at step ⊢
  cases step with
  | refused trap => exact honest.quiet (honest.filled role) (fun _ mem => mem) fun _ => rfl
  | opened engine msg room made started fits =>
    have table := (OpenStep.opened engine msg room made started fits).table
    have parity := (honest.orderly role).next
    rw [honest.ourParity] at parity
    have unopened := honest.fresh role _ parity le_rfl
    simp only [Exec.ok_bind, sentBy_pure]
    refine honest.turn table (honest.filled role) (fun _ mem => mem) (fun msg mem => ?_)
      (fun ours other ne => mem_insert_of_ne ne _) (fun _ _ => rfl) (fun other ne => ?_)
      (fun _ _ => Iff.rfl) (fun opener owned => ?_) (fun opener owned => ?_)
    · rw [List.mem_singleton.mp mem]
      refine ⟨trivial, ?_⟩
      rintro init ⟨⟩
      exact initiate_sendable started
    · simp [about_cons, kindOf, ne.symm]
    · rw [opener_unique owned parity, settle_self]
      dsimp only
      rw [UInt64.toNat_add, show (2 : UInt64).toNat = 2 from rfl, Nat.mod_eq_of_lt fits]
      omega
    · obtain rfl := opener_unique owned parity
      have back := congrArg Thread.back unopened
      have kept := congrArg Thread.aborted unopened
      rw [threadOf_settle_self, unopened]
      simp only [threadOf, Thread.unopened] at back kept
      simp only [Thread.unopened, back, kept, AList.mem_insert, true_or, decide_true, about_cons, kindOf,
        if_true]
      exact .offered

theorem Honest.abortSession (honest : Honest peers) (role : LinkRole) (sid : UInt64) :
    Honest (act peers (.abortSession role sid)).2 := by
  simp only [act, perform, Syncer.abortSession]
  by_cases held : (true, sid) ∈ (peers role).syncer.sessions
  swap
  · simp only [if_neg held]
    exact honest.quiet (honest.filled role) (fun _ mem => mem) fun _ => rfl
  simp only [if_pos held, sentBy_ok, Option.toList_some]
  obtain ⟨parity, given⟩ := (honest.orderly role).ours sid held
  rw [honest.ourParity] at parity
  refine honest.turn (.closed _ held) (honest.filled role) (fun _ mem => mem) (fun msg mem => ?_)
    (fun ours other ne => mem_erase_of_ne ne) (fun _ _ => rfl) (fun other ne => ?_)
    (fun other ne => ?_) (fun opener owned => ?_) (fun opener owned => ?_)
  · rw [List.mem_singleton.mp mem]
    exact ⟨trivial, fun init same => by cases same⟩
  · simp [about_cons, kindOf, ne.symm]
  · simp [ne]
  · rw [opener_unique owned parity, settle_self]
    exact given
  · obtain rfl := opener_unique owned parity
    have next := (honest.stages opener sid parity).abort (decide_eq_true held)
    rw [threadOf_settle_self]
    simp only [AList.mem_erase, ne_eq, not_true, false_and, decide_false, Finset.mem_insert, true_or,
      decide_true, about_cons, kindOf, if_true]
    exact next

/-! ## Deliveries -/

omit [Sha256] [Ed25519] in
theorem finish_message (store : EntryStore) (out : Outcome × Syncer) :
    ((Syncer.finish store {} out).result >>= fun _ => pure (Syncer.finish store {} out).output,
      (Syncer.finish store {} out).syncer, (Syncer.finish store {} out).store) =
        (out.1, out.2, store) := by
  rcases out with ⟨_ | next, syncer⟩
  · rfl
  · rfl

theorem act_deliver {msg : Message} {inbox : List Message} {outcome : Outcome} {syncer : Syncer}
    {store : EntryStore} (next : (peers role).inbox = msg :: inbox)
    (handled : (peers role).syncer.handleMessage (peers role).store msg = (outcome, syncer, store)) :
    act peers (.deliver role) = (outcome,
      settle peers role { peers role with syncer, store, inbox } (sentBy outcome)) := by
  rw [act, next]
  dsimp only
  rw [handled]

theorem act_session {msg : Message} {inbox : List Message} {out : Outcome × Syncer}
    (next : (peers role).inbox = msg :: inbox)
    (handled : (peers role).syncer.handleMessageInto (peers role).store msg {} =
      Syncer.finish (peers role).store {} out) :
    act peers (.deliver role) = (out.1,
      settle peers role { peers role with syncer := out.2, inbox } (sentBy out.1)) := by
  refine act_deliver next ?_
  rw [Syncer.handleMessage, handled]
  exact finish_message _ _

theorem Honest.push (honest : Honest peers) {push : GossipPush} {inbox : List Message}
    (next : (peers role).inbox = .gossipPush push :: inbox) :
    Honest (act peers (.deliver role)).2 := by
  have filled := handlePush_rule [] (fun _ entry (_ : entry ∈ push.entries) filled => filled.insert entry)
    (honest.filled role)
  rcases pushed : Syncer.handlePush (peers role).store push.entries [] with ⟨result, store, events⟩
  rw [pushed] at filled
  have handled : (peers role).syncer.handleMessage (peers role).store (.gossipPush push) =
      (do result; return { events }, (peers role).syncer, store) := by
    rw [Syncer.handleMessage, Syncer.handleMessageInto, pushed]
  have silent : sentBy (do result; return { events }) = [] := by
    cases result with
    | error trap => rfl
    | ok _ => rfl
  rw [act_deliver next handled, silent]
  exact honest.quiet filled (fun msg mem => next ▸ List.mem_cons_of_mem _ mem)
    fun sid => about_head_ne next rfl

omit [Ed25519] in
theorem handleInit_taken {syncer : Syncer} {store : EntryStore} {init : ReconInit}
    (parity : init.sid.toNat % 2 = syncer.peerParity) (absent : (false, init.sid) ∉ syncer.sessions)
    (room : syncer.openSessions < syncer.config.maxSessions) (limit : LimitOk syncer.config.frameLimit)
    {items : List Item} (taken : store.snapshot init.window = some items) (fits : items.length < 2 ^ 64)
    (sendable : Sendable init.msg) (trap : Trap SyncError) :
    (syncer.handleInit store init).1 ≠ .error trap := by
  have made : syncer.sealedEngine store init.window =
      .ok ⟨SealedVec.new ⟨items, fits⟩, syncer.config.frameLimit, false⟩ := by
    rw [Syncer.sealedEngine, taken, Exec.orPanic_some, Exec.ok_bind, dif_pos fits, new_of_limitOk _ limit]
    rfl
  obtain ⟨round, answered, answering⟩ := (@reconcile_safe _
    ⟨SealedVec.new ⟨items, fits⟩, syncer.config.frameLimit, false⟩ limit init.msg).returns
      (sendable.errorless _)
  obtain ⟨reply, replied⟩ := Option.isSome_iff_exists.mp (answering.1.silent rfl).2.2
  rw [Syncer.handleInit, if_neg (not_not.mpr parity), if_neg absent, if_neg (Nat.not_le.mpr room), made]
  dsimp only
  rw [answered]
  dsimp only
  rw [replied]
  rintro ⟨⟩

theorem Honest.reconInit (honest : Honest peers) {init : ReconInit} {inbox : List Message}
    (next : (peers role).inbox = .reconInit init :: inbox) (room : HasRoom peers (.deliver role)) :
    Honest (act peers (.deliver role)).2 := by
  obtain ⟨owned, read⟩ := honest.init_arrives next
  obtain ⟨spare, limit, small⟩ := room role init inbox rfl next
  obtain ⟨items, snapshot, fits⟩ := (honest.filled role).snapshot small init.window
  have unheld := ((honest.stages _ init.sid owned).accept read).1
  rw [threadOf, otherRole_otherRole] at unheld
  have taken := handleInit_taken (by rw [owned, honest.peerParity]) (of_decide_eq_false unheld) spare limit
    snapshot fits ((honest.genuine role (.reconInit init) (by rw [next]; exact List.mem_cons_self)).2 init rfl)
  have step := handleInit_step (peers role).syncer (peers role).store init
  rw [act_session next rfl]
  generalize (peers role).syncer.handleInit (peers role).store init = out at step taken ⊢
  have table := step.table
  cases step with
  | refused trap => exact absurd rfl (taken trap)
  | accepted engine round reply parity absent room made answered replied =>
    refine honest.turn table (honest.filled role)
      (fun msg mem => next ▸ List.mem_cons_of_mem _ mem) (fun msg mem => ?_)
      (fun ours other ne => mem_insert_of_ne ne _)
      (fun other ne => about_head_ne next (if_neg ne.symm)) (fun other ne => ?_)
      (fun _ _ => Iff.rfl) (fun opener opens => ?_) (fun opener opens => ?_)
    · rw [List.mem_singleton.mp mem]
      exact ⟨trivial, nofun⟩
    · simp [about_cons, kindOf, ne.symm]
    · rw [opener_unique opens owned, settle_other]
      exact honest.used owned fun unopened => by rw [unopened] at read; cases read
    · obtain rfl := opener_unique opens owned
      have stage := ((honest.stages _ init.sid owned).accept read).2
      rw [threadOf_settle_other]
      simp only [AList.mem_insert, true_or, decide_true, sentBy_ok, about_cons, kindOf, if_true]
      exact stage

theorem Honest.reconDone (honest : Honest peers) {done : ReconDone} {inbox : List Message}
    (next : (peers role).inbox = .reconDone done :: inbox) :
    Honest (act peers (.deliver role)).2 := by
  obtain ⟨owned, read⟩ := honest.done_arrives next
  obtain ⟨held, stage⟩ := (honest.stages _ done.sid owned).close read
  have key := honest.sessionKey_other owned
  have step := handleDone_step (peers role).syncer done
  rw [act_session next rfl]
  generalize (peers role).syncer.handleDone done = out at step ⊢
  have table := step.table
  rw [threadOf, otherRole_otherRole] at held
  cases step with
  | refused absent => exact absurd (key ▸ of_decide_eq_true held) absent
  | closed found =>
    rw [key] at table ⊢
    refine honest.turn table (honest.filled role)
      (fun msg mem => next ▸ List.mem_cons_of_mem _ mem) (fun msg mem => absurd mem (by simp))
      (fun ours other ne => mem_erase_of_ne ne)
      (fun other ne => about_head_ne next (if_neg ne.symm)) (fun other ne => rfl)
      (fun _ _ => Iff.rfl) (fun opener opens => ?_) (fun opener opens => ?_)
    · rw [opener_unique opens owned, settle_other]
      exact honest.used owned fun unopened => by rw [unopened] at read; cases read
    · obtain rfl := opener_unique opens owned
      rw [threadOf_settle_other]
      simp only [AList.mem_erase, ne_eq, not_true, false_and, decide_false, sentBy_ok, about_nil,
        List.append_nil]
      exact stage

theorem Honest.accepted_replies (honest : Honest peers) {rm : ReconMsg} {session : Session}
    {round : Round} (owned : rm.sid.toNat % 2 = parityOf (otherRole role))
    (found : (peers role).syncer.sessions.lookup ((peers role).syncer.sessionKey rm.sid) =
      some session) (answered : session.engine.reconcile rm.msg = .ok round) :
    round.reply.isSome := by
  obtain ⟨engine, limit⟩ := (honest.orderly role).engines _ session found
  rw [honest.sessionKey_other owned] at engine
  exact (((reconcile_safe limit rm.msg).of_ok answered).silent engine).2.2

theorem Honest.reconMsg (honest : Honest peers) {rm : ReconMsg} {inbox : List Message}
    (next : (peers role).inbox = .reconMsg rm :: inbox)
    (uncrossed : ¬ Crosses peers (.deliver role)) : Honest (act peers (.deliver role)).2 := by
  have held := (honest.msg_arrives next).mpr fun crossed => uncrossed ⟨role, rm, inbox, rfl, next, crossed⟩
  have side := head_side next (if_pos rfl : kindOf rm.sid (.reconMsg rm) = some .msg)
  have fewer : ∀ msg ∈ inbox, msg ∈ (peers role).inbox :=
    fun msg mem => next ▸ List.mem_cons_of_mem _ mem
  have unread : ∀ other, other ≠ rm.sid → about other inbox = about other (peers role).inbox :=
    fun other ne => about_head_ne next (if_neg ne.symm)
  have step := handleReconMsg_step (peers role).syncer (peers role).store rm
  rw [act_session next rfl]
  generalize (peers role).syncer.handleReconMsg (peers role).store rm = out at step ⊢
  have table := step.table
  have sound := honest.sound role
  have used : ∀ opener, rm.sid.toNat % 2 = parityOf opener → rm.sid.toNat <
      (settle peers role { peers role with syncer := out.2, inbox } (sentBy out.1)
        opener).syncer.nextSid.toNat := by
    intro opener opens
    rcases side with ⟨owned, read⟩ | ⟨owned, read⟩
    · rw [opener_unique opens owned, settle_self]
      refine lt_of_lt_of_le (honest.used owned fun unopened => ?_) table.keeps.2
      rw [unopened] at read
      cases read
    · rw [opener_unique opens owned, settle_other]
      refine honest.used owned fun unopened => ?_
      rw [unopened] at read
      cases read
  cases step with
  | refused trap =>
    refine honest.turn table (honest.filled role) fewer (fun msg mem => absurd mem (by simp [sentBy]))
      (fun _ _ _ => Iff.rfl) unread (fun _ _ => rfl) (fun _ _ => Iff.rfl) used fun opener opens => ?_
    rcases side with ⟨owned, read⟩ | ⟨owned, read⟩
    · obtain rfl := opener_unique opens owned
      rw [honest.sessionKey_self owned] at held
      rw [threadOf_settle_self]
      simp only [sentBy, about_nil, List.append_nil]
      exact ((honest.stages opener rm.sid owned).answer read (decide_eq_true held)).1
    · obtain rfl := opener_unique opens owned
      rw [honest.sessionKey_other owned] at held
      rw [threadOf_settle_other]
      simp only [sentBy, about_nil, List.append_nil, held, decide_true]
      obtain ⟨accepted, stage, -⟩ := (honest.stages _ rm.sid owned).reply read
      rw [← accepted]
      exact stage
  | continued session round reply found answered replied =>
    refine honest.turn table (honest.filled role) fewer (genuine_reported sound ⟨trivial, nofun⟩)
      (fun ours other ne => mem_insert_of_ne ne _) unread (fun other ne => ?_) (fun _ _ => Iff.rfl)
      used fun opener opens => ?_
    · rw [sentBy_ok, about_reported sound]
      simp [about_cons, kindOf, ne.symm]
    · rcases side with ⟨owned, read⟩ | ⟨owned, read⟩
      · obtain rfl := opener_unique opens owned
        rw [honest.sessionKey_self owned] at held ⊢
        rw [threadOf_settle_self]
        simp only [AList.mem_insert, true_or, decide_true, sentBy_ok,
          about_reported sound, about_cons, kindOf, if_true]
        have stage :=
          ((honest.stages opener rm.sid owned).answer read (decide_eq_true held)).2.1
        rw [show (threadOf peers opener rm.sid).opened = true from decide_eq_true held] at stage
        exact stage
      · obtain rfl := opener_unique opens owned
        rw [honest.sessionKey_other owned] at held ⊢
        rw [threadOf_settle_other]
        simp only [AList.mem_insert, true_or, decide_true, sentBy_ok,
          about_reported sound, about_cons, kindOf, if_true]
        obtain ⟨accepted, -, stage⟩ := (honest.stages _ rm.sid owned).reply read
        rw [accepted] at stage
        exact stage
  | finished session round found answered replied =>
    refine honest.turn table (honest.filled role) fewer (genuine_reported sound ⟨trivial, nofun⟩)
      (fun ours other ne => mem_erase_of_ne ne) unread (fun other ne => ?_) (fun _ _ => Iff.rfl)
      used fun opener opens => ?_
    · rw [sentBy_ok, about_reported sound]
      simp [about_cons, kindOf, ne.symm]
    · rcases side with ⟨owned, read⟩ | ⟨owned, read⟩
      · obtain rfl := opener_unique opens owned
        rw [honest.sessionKey_self owned] at held ⊢
        rw [threadOf_settle_self]
        simp only [AList.mem_erase, ne_eq, not_true, false_and, decide_false, sentBy_ok,
          about_reported sound, about_cons, kindOf, if_true]
        exact ((honest.stages opener rm.sid owned).answer read (decide_eq_true held)).2.2
      · have replies := honest.accepted_replies owned found answered
        rw [replied] at replies
        cases replies

/-! ## Runs -/

theorem Honest.acted (honest : Honest peers) {action : Action} (uncrossed : ¬ Crosses peers action)
    (room : HasRoom peers action) : Honest (act peers action).2 := by
  cases action with
  | openSession role window => exact honest.openSession role window
  | abortSession role sid => exact honest.abortSession role sid
  | deliver role =>
    cases next : (peers role).inbox with
    | nil =>
      rw [act, next]
      exact honest
    | cons msg inbox =>
      have proper := (honest.genuine role msg (by rw [next]; exact List.mem_cons_self)).1
      cases msg with
      | gossipPush push => exact honest.push next
      | reconInit init => exact honest.reconInit next room
      | reconMsg rm => exact honest.reconMsg next uncrossed
      | reconDone done => exact honest.reconDone next
      | hello _ | handshake _ | error _ => exact proper.elim

theorem Runs.honest {start : Peers} (honest : Honest start) (ran : Runs start peers) :
    Honest peers := by
  induction ran with
  | start => exact honest
  | act action ran uncrossed room ih => exact ih.acted uncrossed room

theorem Honest.no_violation (honest : Honest peers) {action : Action}
    (uncrossed : ¬ Crosses peers action) :
    Exec.Reports NoViolation (act peers action).1 := by
  cases action with
  | openSession role window =>
    have step := openSession_reports (peers role).syncer (peers role).store window
    exact step.bind fun _ => Exec.reports_pure _
  | abortSession role sid => exact Exec.reports_ok _
  | deliver role =>
    cases next : (peers role).inbox with
    | nil =>
      rw [act, next]
      exact Exec.reports_ok _
    | cons msg inbox =>
      have proper := (honest.genuine role msg (by rw [next]; exact List.mem_cons_self)).1
      cases msg with
      | gossipPush push =>
        have reports := handlePush_reports (peers role).store [] proper
        rw [act_deliver next rfl]
        exact reports.bind fun _ => Exec.reports_pure _
      | reconInit init =>
        obtain ⟨owned, read⟩ := honest.init_arrives next
        have absent := ((honest.stages _ init.sid owned).accept read).1
        rw [threadOf, otherRole_otherRole] at absent
        rw [act_session next rfl]
        exact handleInit_reports (peers role).store (by rw [owned, honest.peerParity])
          (of_decide_eq_false absent)
      | reconMsg rm =>
        rw [act_session next rfl]
        exact handleReconMsg_reports (peers role).store ((honest.msg_arrives next).mpr
          fun crossed => uncrossed ⟨role, rm, inbox, rfl, next, crossed⟩)
      | reconDone done =>
        obtain ⟨owned, read⟩ := honest.done_arrives next
        have held := ((honest.stages _ done.sid owned).close read).1
        rw [threadOf, otherRole_otherRole] at held
        rw [act_session next rfl, Syncer.handleDone, honest.sessionKey_other owned]
        dsimp only
        rw [if_pos (of_decide_eq_true held)]
        exact Exec.reports_ok _
      | hello _ | handshake _ | error _ => exact proper.elim

theorem Honest.crossed_violates (honest : Honest peers) {action : Action} (crossed : Crosses peers action) :
    (act peers action).1 = .fail (.violation "no open session with this id") := by
  obtain ⟨role, rm, inbox, rfl, next, ours, aborted⟩ := crossed
  have unheld : (peers role).syncer.sessionKey rm.sid ∉ (peers role).syncer.sessions := fun held =>
    (honest.msg_arrives next).mp held ⟨ours, aborted⟩
  rw [act_session next rfl, Syncer.handleReconMsg]
  dsimp only
  rw [AList.lookup_eq_none.mpr unheld]

end

/-! ## An abort that crosses the answer -/

section
open Proof.Storage (keyDigest trusting)

local instance : Sha256 := keyDigest

local instance : Ed25519 := trusting

theorem limitOk_default : LimitOk SyncConfig.default.frameLimit := by
  intro limit mem
  exact (Option.some.inj mem).le

def answeredPeers : Peers :=
  let new := introduced (fun _ => .default) fun _ => EntryStore.new
  let offered := (act new (.openSession .initiator ⟨0, 10⟩)).2
  (act offered (.deliver .responder)).2

theorem answeredPeers_runs : Runs (introduced (fun _ => .default) fun _ => EntryStore.new)
    answeredPeers := by
  refine .act (.deliver .responder) (.act (.openSession .initiator ⟨0, 10⟩) .start ?_ ?_) ?_ ?_
  · rintro ⟨role, rm, inbox, delivers, -⟩
    cases delivers
  · intro role init inbox delivers
    cases delivers
  · rintro ⟨role, rm, inbox, delivers, next, -⟩
    cases delivers
    cases next
  · intro role init inbox delivers next
    cases delivers
    exact ⟨by decide, limitOk_default, by decide⟩

theorem abortedPeers_runs : Runs (introduced (fun _ => .default) fun _ => EntryStore.new)
    (act answeredPeers (.abortSession .initiator 0)).2 := by
  refine .act _ answeredPeers_runs ?_ ?_
  · rintro ⟨role, rm, inbox, delivers, -⟩
    cases delivers
  · intro role init inbox delivers
    cases delivers

end

end Racnet.Proof.Sessions
