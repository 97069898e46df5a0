import Racnet.Proof.Driver.Trace

/-!
# How the stream is cut

A link that is given a stream in pieces does what it does when it is given the whole stream, apart from
the bytes that a closed driver has left unread.
-/

namespace Racnet.Proof.Driver
open Lib Noise Store Sync Wire Link
open Proof.Format (nextBody_push nextBody_shorter)

/-! ## Handlers do not look at the decoder -/

def withDecoder (decoder : FrameDecoder) (driver : LinkDriver) : LinkDriver := { driver with decoder }

section
variable (decoder : FrameDecoder) (driver : LinkDriver) (out : LinkOutput)

def redecoded (result : Option (LinkDriver × LinkOutput)) : Option (LinkDriver × LinkOutput) :=
  result.map fun (driver, out) => (withDecoder decoder driver, out)

def restored (result : Option (LinkDriver × EntryStore × LinkOutput)) :
    Option (LinkDriver × EntryStore × LinkOutput) :=
  result.map fun (driver, store, out) => (withDecoder decoder driver, store, out)

theorem queueHello_decoder : (withDecoder decoder driver).queueHello out =
    redecoded decoder (driver.queueHello out) := by
  simp only [LinkDriver.queueHello, LinkDriver.ourHello, withDecoder]
  split <;> rfl

theorem answerHello_decoder : (withDecoder decoder driver).answerHello out =
    redecoded decoder (driver.answerHello out) := by
  simp only [LinkDriver.answerHello, queueHello_decoder]
  simp only [withDecoder]
  split <;> rfl

variable [Sha256] [HmacSha256] [X25519] [ChaCha20Poly1305]

theorem beginHandshake_decoder (body : List UInt8) :
    (withDecoder decoder driver).beginHandshake body out =
      redecoded decoder (driver.beginHandshake body out) := by
  simp only [LinkDriver.beginHandshake, LinkDriver.queueHandshakeFrame, withDecoder]
  repeat' split
  all_goals rfl

theorem handleHelloBody_decoder (body : List UInt8) :
    (withDecoder decoder driver).handleHelloBody body out =
      redecoded decoder (driver.handleHelloBody body out) := by
  rw [LinkDriver.handleHelloBody, LinkDriver.handleHelloBody]
  split
  · rfl
  · rename_i hello _
    rw [show (withDecoder decoder driver).commonVersion hello = driver.commonVersion hello from rfl]
    split
    · rfl
    · rename_i version _
      rw [show { withDecoder decoder driver with negotiatedVersion := some version } =
        withDecoder decoder { driver with negotiatedVersion := some version } from rfl,
        answerHello_decoder]
      rcases LinkDriver.answerHello { driver with negotiatedVersion := some version } out with
        _ | ⟨driver', out'⟩
      · rfl
      · exact beginHandshake_decoder decoder driver' out' body
  · split_ifs <;> rfl

omit [X25519] [ChaCha20Poly1305] in
theorem advanceHandshake_decoder (hs : HandshakeState) :
    (withDecoder decoder driver).advanceHandshake hs out =
      (withDecoder decoder (driver.advanceHandshake hs out).1,
        (driver.advanceHandshake hs out).2) := by
  rw [LinkDriver.advanceHandshake, LinkDriver.advanceHandshake]
  split_ifs
  · rcases hs.intoTransport with _ | ⟨transport, remote⟩ <;> rfl
  · rfl

omit [Sha256] [HmacSha256] [X25519] [ChaCha20Poly1305] in
theorem queueHandshakeFrame_decoder (noiseMsg : List UInt8) :
    (withDecoder decoder driver).queueHandshakeFrame noiseMsg out =
      (withDecoder decoder (driver.queueHandshakeFrame noiseMsg out).1,
        (driver.queueHandshakeFrame noiseMsg out).2) := by
  rw [LinkDriver.queueHandshakeFrame, LinkDriver.queueHandshakeFrame]
  split <;> rfl

theorem handleHandshakeBody_decoder (hs : HandshakeState) (body : List UInt8) :
    (withDecoder decoder driver).handleHandshakeBody hs body out =
      redecoded decoder (driver.handleHandshakeBody hs body out) := by
  simp only [LinkDriver.handleHandshakeBody, queueHandshakeFrame_decoder, advanceHandshake_decoder]
  split
  · rfl
  · split
    · rfl
    · split_ifs
      · rfl
      · split <;> rfl
    · rfl
    · rfl
  · split_ifs <;> rfl

omit [Sha256] [HmacSha256] [X25519] in
theorem queueEncrypted_decoder (msg : Message) :
    (withDecoder decoder driver).queueEncrypted msg out =
      (withDecoder decoder (driver.queueEncrypted msg out).1, (driver.queueEncrypted msg out).2) := by
  simp only [LinkDriver.queueEncrypted, withDecoder]
  split
  · split <;> rfl
  · rfl

omit [Sha256] [HmacSha256] [X25519] in
theorem queueReplies_decoder (replies : List Message) :
    (withDecoder decoder driver).queueReplies replies out =
      (withDecoder decoder (driver.queueReplies replies out).1,
        (driver.queueReplies replies out).2) := by
  induction replies generalizing driver out with
  | nil => rfl
  | cons reply replies ih =>
    rw [LinkDriver.queueReplies, LinkDriver.queueReplies, queueEncrypted_decoder]
    dsimp only
    rw [show (withDecoder decoder (driver.queueEncrypted reply out).1).isClosed =
      (driver.queueEncrypted reply out).1.isClosed from rfl]
    split_ifs
    · rfl
    · exact ih _ _

variable [Ed25519] (store : EntryStore)

omit [HmacSha256] [X25519] in
theorem handleSyncMessage_decoder (msg : Message) :
    (withDecoder decoder driver).handleSyncMessage store msg out =
      restored decoder (driver.handleSyncMessage store msg out) := by
  rw [LinkDriver.handleSyncMessage, LinkDriver.handleSyncMessage,
    show (withDecoder decoder driver).syncer = driver.syncer from rfl]
  generalize driver.syncer.handleMessageInto store msg {} = handled
  dsimp only
  split
  · rfl
  · rw [show { withDecoder decoder driver with syncer := handled.syncer } =
      withDecoder decoder { driver with syncer := handled.syncer } from rfl, queueReplies_decoder]
    rfl
  · rfl

omit [HmacSha256] [X25519] in
theorem handleTransportBody_decoder (transport : TransportState) (body : List UInt8) :
    (withDecoder decoder driver).handleTransportBody transport store body out =
      restored decoder (driver.handleTransportBody transport store body out) := by
  rw [LinkDriver.handleTransportBody, LinkDriver.handleTransportBody]
  split_ifs
  · rfl
  · split
    · rfl
    · rfl
    · split
      · rfl
      · rfl
      · rfl
      · rfl
      · exact handleSyncMessage_decoder decoder { driver with state := .transport _ } out store _

theorem handleBody_decoder (body : List UInt8) :
    (withDecoder decoder driver).handleBody store body out =
      restored decoder (driver.handleBody store body out) := by
  rw [LinkDriver.handleBody, LinkDriver.handleBody,
    show (withDecoder decoder driver).state = driver.state from rfl,
    show { withDecoder decoder driver with state := .closed .handshakeFailed } =
      withDecoder decoder (parked driver) from rfl,
    show { driver with state := .closed .handshakeFailed } = parked driver from rfl]
  split
  · rw [handleHelloBody_decoder]
    rcases (parked driver).handleHelloBody body out with _ | ⟨driver', out'⟩ <;> rfl
  · rw [handleHandshakeBody_decoder]
    rcases (parked driver).handleHandshakeBody _ body out with _ | ⟨driver', out'⟩ <;> rfl
  · exact handleTransportBody_decoder decoder (parked driver) out store _ body
  · rfl

end

/-! ## The loop with more bytes in the buffer -/

section
variable {driver after : LinkDriver} {store store' : EntryStore} {out out' : LinkOutput}

theorem nextBody_empty {decoder : FrameDecoder} (empty : decoder.buf.length ≤ 0) :
    decoder.nextBody = (none, decoder) := by
  rw [FrameDecoder.nextBody, List.length_eq_zero_iff.mp (Nat.le_zero.mp empty)]

variable [Sha256] [HmacSha256] [X25519] [ChaCha20Poly1305] [Ed25519]

theorem handleBody_keeps_decoder {body : List UInt8}
    (ran : driver.handleBody store body out = some (after, store', out')) :
    after.decoder = driver.decoder := by
  have same := handleBody_decoder driver.decoder driver out store body
  rw [show withDecoder driver.decoder driver = driver from rfl, ran] at same
  rw [(Prod.mk.inj (Option.some.inj same)).1]
  rfl

theorem handleBodies_succ (fuel : Nat) (driver : LinkDriver) (store : EntryStore)
    (out : LinkOutput) :
    LinkDriver.handleBodies (fuel + 1) driver store out =
      match driver.decoder.nextBody with
      | (none, _) => some (driver, store, out)
      | (some body, decoder) =>
        ((withDecoder decoder driver).handleBody store body out).bind fun (driver, store, out) =>
          if driver.isClosed then some (driver, store, out)
          else LinkDriver.handleBodies fuel driver store out := by
  rw [LinkDriver.handleBodies]
  rcases driver.decoder.nextBody with ⟨_ | body, decoder⟩ <;> rfl

theorem handleBodies_fuel {fuel total : Nat} (enough : driver.decoder.buf.length ≤ fuel)
    (enough' : driver.decoder.buf.length ≤ total) (store : EntryStore) (out : LinkOutput) :
    LinkDriver.handleBodies fuel driver store out =
      LinkDriver.handleBodies total driver store out := by
  induction fuel generalizing driver total store out with
  | zero =>
    cases total with
    | zero => rfl
    | succ total =>
      rw [handleBodies_succ, nextBody_empty enough]
      rfl
  | succ fuel ih =>
    cases total with
    | zero =>
      rw [handleBodies_succ, nextBody_empty enough']
      rfl
    | succ total =>
      rw [handleBodies_succ, handleBodies_succ]
      rcases next : driver.decoder.nextBody with ⟨_ | body, decoder⟩
      · rfl
      have shorter := nextBody_shorter next
      dsimp only
      rcases ran : (withDecoder decoder driver).handleBody store body out with
        _ | ⟨after, store', out'⟩
      · rfl
      have kept : after.decoder = decoder := handleBody_keeps_decoder ran
      simp only [Option.bind_some]
      split_ifs
      · rfl
      · exact ih (by rw [kept]; omega) (by rw [kept]; omega) store' out'

/-- More bytes at the end of the buffer are read once the earlier ones are, unless the link is closed by
then. -/
theorem handleBodies_push {fuel total : Nat} (open_ : driver.isClosed = false) (more : List UInt8)
    (enough : driver.decoder.buf.length ≤ fuel)
    (enough' : (driver.decoder.push more).buf.length ≤ total) (store : EntryStore)
    (out : LinkOutput) :
    LinkDriver.handleBodies total (withDecoder (driver.decoder.push more) driver) store out =
      (LinkDriver.handleBodies fuel driver store out).bind fun (after, store', out') =>
        if after.isClosed then some (withDecoder (after.decoder.push more) after, store', out')
        else LinkDriver.handleBodies total (withDecoder (after.decoder.push more) after) store' out' := by
  induction fuel generalizing driver store out with
  | zero =>
    rw [LinkDriver.handleBodies, Option.bind_some]
    exact (if_neg (by simp [open_])).symm
  | succ fuel ih =>
    rw [handleBodies_succ]
    rcases next : driver.decoder.nextBody with ⟨_ | body, rest⟩
    · rw [Option.bind_some]
      exact (if_neg (by simp [open_])).symm
    have shorter := nextBody_shorter next
    have longer : (driver.decoder.push more).buf.length =
        driver.decoder.buf.length + more.length := List.length_append
    obtain ⟨total, rfl⟩ : ∃ n, total = n + 1 := ⟨total - 1, by omega⟩
    have pushed := handleBody_decoder (rest.push more) (withDecoder rest driver) out store body
    rw [handleBodies_succ, show (withDecoder (driver.decoder.push more) driver).decoder.nextBody =
      (some body, rest.push more) from nextBody_push next more]
    dsimp only
    rw [show withDecoder (rest.push more) (withDecoder (driver.decoder.push more) driver) =
      withDecoder (rest.push more) (withDecoder rest driver) from rfl, pushed]
    rcases ran : (withDecoder rest driver).handleBody store body out with
      _ | ⟨after, store', out'⟩
    · rfl
    have kept : after.decoder = rest := handleBody_keeps_decoder ran
    have short : (after.decoder.push more).buf.length = rest.buf.length + more.length := by
      rw [kept]
      exact List.length_append
    cases ended : after.isClosed with
    | true =>
      simp only [restored, Option.map_some, Option.bind_some, ended, if_true,
        show (withDecoder (rest.push more) after).isClosed = after.isClosed from rfl, kept]
    | false =>
      simp only [restored, Option.map_some, Option.bind_some, ended, Bool.false_eq_true, if_false,
        show (withDecoder (rest.push more) after).isClosed = after.isClosed from rfl]
      rw [← ih ended (by rw [kept]; omega) (by rw [short]; omega) store' out', ← kept]
      exact handleBodies_fuel (le_trans short.le (by omega)) (le_trans short.le (by omega)) _ _

end

/-! ## Silent closes -/

/-- The output reports a close that told the peer nothing. A version that is not ours is refused with an
ERROR, and the peer's own refusal is taken silently. -/
def ClosesSilently (out : LinkOutput) : Prop :=
  ∃ reason, .closed reason ∈ out.events ∧ (∀ code, reason ≠ .protocolViolation code) ∧
    (reason = .versionIncompatible → out.frames = [])

/-- Frames are dropped by a silent close and by nothing else. -/
structure Plain (effect : Effect) : Prop where
  silent : effect.dropped = true → effect.frames = [] ∧
    ∃ reason, .closed reason ∈ effect.events ∧ ∀ code, reason ≠ .protocolViolation code
  spoken : effect.dropped = false → ∀ reason, .closed reason ∈ effect.events →
    (∃ code, reason = .protocolViolation code) ∨
      reason = .versionIncompatible ∧ effect.frames ≠ []

theorem plain_quiet {effect : Effect} (kept : effect.dropped = false)
    (quiet : ∀ reason, .closed reason ∉ effect.events) : Plain effect :=
  ⟨fun dropped => absurd (kept.symm.trans dropped) (by decide),
    fun _ reason mem => absurd mem (quiet reason)⟩

theorem plain_silence {reason : CloseReason} (told : ∀ code, reason ≠ .protocolViolation code) :
    Plain (.silence reason) :=
  ⟨fun _ => ⟨rfl, reason, List.mem_singleton_self _, told⟩, fun kept => by cases kept⟩

theorem Plain.closesSilently_iff {effect : Effect} (plain : Plain effect) {out : LinkOutput}
    (quiet : ∀ reason, .closed reason ∉ out.events) :
    ClosesSilently (effect.on out) ↔ effect.dropped = true := by
  constructor
  · rintro ⟨reason, mem, told, incompatible⟩
    rcases List.mem_append.mp mem with old | new
    · exact absurd old (quiet reason)
    cases dropped : effect.dropped with
    | true => rfl
    | false =>
      rcases plain.spoken dropped reason new with ⟨code, violation⟩ | ⟨version, framed⟩
      · exact absurd violation (told code)
      · have none := incompatible version
        rw [Effect.on, List.append_eq_nil_iff] at none
        exact absurd none.2 framed
  · intro dropped
    obtain ⟨frameless, reason, mem, told⟩ := plain.silent dropped
    refine ⟨reason, List.mem_append_right _ mem, told, fun _ => ?_⟩
    rw [Effect.on, frameless, if_pos dropped]
    rfl

theorem not_closed_of_open {phase last : Phase} {events : List LinkEvent}
    (followed : phase.follow events = some last) (open_ : last ≠ .closed) (reason : CloseReason) :
    .closed reason ∉ events := by
  induction events generalizing phase with
  | nil => simp
  | cons event events ih =>
    rw [Phase.follow, Option.bind_eq_some_iff] at followed
    obtain ⟨next, stepped, followed⟩ := followed
    intro mem
    rcases List.mem_cons.mp mem with rfl | later
    · have ended : next = .closed := by
        cases phase <;> cases stepped <;> rfl
      rw [ended] at followed
      rw [follow_closed followed] at followed
      exact open_ (Option.some.inj followed).symm
    · exact ih followed later

theorem plain_sync {events : List SyncEvent} {reason : CloseReason}
    (told : ∀ code, reason ≠ .protocolViolation code) :
    Plain ⟨true, [], events.map .sync ++ [.closed reason]⟩ :=
  ⟨fun _ => ⟨rfl, reason, List.mem_append_right _ (List.mem_singleton_self _), told⟩,
    fun kept => by cases kept⟩

theorem plain_violation {frames : List (List UInt8)} {events : List SyncEvent} {code : UInt64} :
    Plain ⟨false, frames, events.map .sync ++ [.closed (.protocolViolation code)]⟩ := by
  refine ⟨(fun dropped => by cases dropped), fun _ reason mem => Or.inl ⟨code, ?_⟩⟩
  rcases List.mem_append.mp mem with old | new
  · obtain ⟨event, -, other⟩ := List.mem_map.mp old
    cases other
  · cases List.mem_singleton.mp new
    rfl

theorem early_told {reason : CloseReason} (early : EarlyReason reason) (code : UInt64) :
    reason ≠ .protocolViolation code := by
  rcases early with rfl | rfl <;> simp

section
variable [Sha256] [HmacSha256] [X25519] [ChaCha20Poly1305] [Ed25519]
  {driver after : LinkDriver} {store store' : EntryStore} {effect : Effect}

theorem BodyStep.plain {body : List UInt8}
    (step : BodyStep driver store body after store' effect) : Plain effect := by
  cases step with
  | hello waiting step =>
    cases step with
    | failed reason early => exact plain_silence (early_told early)
    | incompatible hello frame decoded disjoint encoded =>
      refine ⟨(fun dropped => by cases dropped), fun _ reason mem => Or.inr
        ⟨?_, by simp [Effect.refusal]⟩⟩
      cases List.mem_singleton.mp mem
      rfl
    | welcomed | answered => exact plain_quiet rfl fun _ => by simp
  | handshake hs waiting step =>
    cases step with
    | failed reason early => exact plain_silence (early_told early)
    | continued | concluded | finished => exact plain_quiet rfl fun _ => by simp
  | transport transport established step =>
    cases step with
    | dropped reason early =>
      exact plain_silence fun code => by rcases early with rfl | ⟨rfl, -⟩ | rfl <;> simp
    | peerError => exact plain_silence fun code => by simp
    | violated plaintext after code decrypted => exact @plain_violation _ [] code
    | handled => exact plain_quiet rfl fun _ => by simp
    | exhausted => exact plain_sync fun code => by simp
    | refused => exact plain_violation

theorem Bodies.plain (bodies : Bodies driver store after store' effect) : Plain effect := by
  induction bodies with
  | waiting incomplete => exact plain_quiet rfl fun _ => by simp
  | closed next step ended => exact step.plain
  | @more driver middle after store store₁ store₂ body decoder first second next step open_ rest ih =>
    have phase : phaseOf middle ≠ .closed := fun ended => by
      rw [isClosed_iff.mpr ended] at open_
      cases open_
    have quiet := not_closed_of_open step.follows phase
    have kept : first.dropped = false := by
      rw [← Bool.not_eq_true]
      intro dropped
      obtain ⟨-, reason, mem, -⟩ := step.plain.silent dropped
      exact quiet reason mem
    refine ⟨fun dropped => ?_, fun keeps reason mem => ?_⟩
    · rw [Effect.andThen, kept, Bool.false_or] at dropped
      obtain ⟨frameless, reason, mem, told⟩ := ih.silent dropped
      refine ⟨?_, reason, List.mem_append_right _ mem, told⟩
      rw [Effect.andThen, if_pos dropped, frameless]
      rfl
    · rw [Effect.andThen, kept, Bool.false_or] at keeps
      rcases List.mem_append.mp mem with old | new
      · exact absurd old (quiet reason)
      · refine (ih.spoken keeps reason new).imp_right fun told => ⟨told.1, ?_⟩
        rw [Effect.andThen, ne_eq, List.append_eq_nil_iff]
        exact fun none => told.2 none.2

theorem BytesStep.plain {bytes : List UInt8} {nowUs : UInt64}
    (step : BytesStep driver store bytes nowUs after store' effect) : Plain effect := by
  cases step with
  | inert ended => exact plain_quiet rfl fun _ => by simp
  | expired reason open_ late =>
    refine plain_silence fun code => ?_
    rintro rfl
    rw [timeout] at late
    split_ifs at late <;> cases late
  | read open_ inTime bodies => exact bodies.plain

end

/-! ## Chunks -/

/-- The drivers are the same, except that closed ones may have left different bytes unread. -/
def SameUnread (driver other : LinkDriver) : Prop :=
  withDecoder other.decoder driver = other ∧
    (driver.isClosed = false → driver.decoder = other.decoder)

/-- What the outputs of the chunks have to do with the output of one call. -/
structure Recut (whole : LinkOutput) (parts : List LinkOutput) : Prop where
  events : whole.events = parts.flatMap LinkOutput.events
  frames : ¬ ClosesSilently whole → whole.frames = parts.flatMap LinkOutput.frames
  dropped : ClosesSilently whole → whole.frames = [] ∧ ∃ earlier closing later,
    parts = earlier ++ closing :: later ∧ (∃ reason, .closed reason ∈ closing.events) ∧
      closing.frames = [] ∧ ∀ part ∈ later, part.frames = []

section

theorem inert_outputs (chunks : List (List UInt8)) :
    (chunks.map fun _ => ({} : LinkOutput)).flatMap LinkOutput.events = [] ∧
      (chunks.map fun _ => ({} : LinkOutput)).flatMap LinkOutput.frames = [] ∧
      ∀ part ∈ chunks.map fun _ => ({} : LinkOutput), part.frames = [] := by
  induction chunks with
  | nil => simp
  | cons chunk chunks ih => simp

theorem recut_closing {effect : Effect} (plain : Plain effect) (chunks : List (List UInt8)) :
    Recut (effect.on {}) (effect.on {} :: chunks.map fun _ => {}) := by
  obtain ⟨noEvents, noFrames, frameless⟩ := inert_outputs chunks
  have silently := @Plain.closesSilently_iff effect plain {} fun _ => List.not_mem_nil
  refine ⟨?_, fun _ => ?_, fun silent => ?_⟩
  · rw [List.flatMap_cons, noEvents, List.append_nil]
  · rw [List.flatMap_cons, noFrames, List.append_nil]
  · have dropped := silently.mp silent
    obtain ⟨none, reason, mem, -⟩ := plain.silent dropped
    have empty : (effect.on {}).frames = [] := by
      rw [Effect.on, none]
      simp
    exact ⟨empty, [], _, _, rfl, ⟨reason, List.mem_append_right _ mem⟩, empty, frameless⟩

theorem Recut.cons {first : LinkOutput} {effect : Effect} {parts : List LinkOutput}
    (plain : Plain effect) (quiet : ∀ reason, .closed reason ∉ first.events)
    (recut : Recut (effect.on {}) parts) : Recut (effect.on first) (first :: parts) := by
  have silently := plain.closesSilently_iff quiet
  have silently' := @Plain.closesSilently_iff effect plain {} fun _ => List.not_mem_nil
  have events := recut.events
  rw [Effect.on, List.nil_append] at events
  refine ⟨?_, fun spoken => ?_, fun silent => ?_⟩
  · rw [List.flatMap_cons, ← events]
    rfl
  · have kept : ¬ effect.dropped = true := fun dropped => spoken (silently.mpr dropped)
    have frames := recut.frames fun silent => kept (silently'.mp silent)
    rw [Effect.on, if_neg kept, List.nil_append] at frames
    rw [List.flatMap_cons, ← frames, Effect.on, if_neg kept]
  · have dropped := silently.mp silent
    obtain ⟨-, earlier, closing, later, split, ended, frameless, rest⟩ :=
      recut.dropped (silently'.mpr dropped)
    refine ⟨?_, first :: earlier, closing, later, by rw [split]; rfl, ended, frameless, rest⟩
    rw [Effect.on, if_pos dropped, (plain.silent dropped).1]
    rfl

variable [Sha256] [HmacSha256] [X25519] [ChaCha20Poly1305] [Ed25519]

def feed : LinkDriver → EntryStore → List (List UInt8) → UInt64 →
    Option (LinkDriver × EntryStore × List LinkOutput)
  | driver, store, [], _ => some (driver, store, [])
  | driver, store, chunk :: chunks, nowUs => do
    let (driver, store, out) ← driver.onBytes store chunk nowUs
    let (driver, store, outs) ← feed driver store chunks nowUs
    some (driver, store, out :: outs)

/-- One call and the calls with the chunks panic both, or neither does and they agree. -/
inductive Agrees : Option (LinkDriver × EntryStore × LinkOutput) →
    Option (LinkDriver × EntryStore × List LinkOutput) → Prop where
  | panics : Agrees none none
  | returns {driver other : LinkDriver} {store : EntryStore} {out : LinkOutput}
      {outs : List LinkOutput} (same : SameUnread driver other) (recut : Recut out outs) :
      Agrees (some (driver, store, out)) (some (other, store, outs))

variable {driver after : LinkDriver} {store store' : EntryStore} {nowUs : UInt64}

theorem onBytes_closed (ended : driver.isClosed = true) (store : EntryStore) (bytes : List UInt8)
    (nowUs : UInt64) : driver.onBytes store bytes nowUs = some (driver, store, {}) := by
  rw [LinkDriver.onBytes, LinkDriver.checkTimeouts, if_pos ended]

theorem onBytes_late {reason : CloseReason} (open_ : driver.isClosed = false)
    (late : timeout driver nowUs = some reason) (store : EntryStore) (bytes : List UInt8) :
    driver.onBytes store bytes nowUs =
      some (closedWith driver reason, store, (Effect.silence reason).on {}) := by
  rw [LinkDriver.onBytes, checkTimeouts_eq open_, late]

theorem onBytes_inTime (open_ : driver.isClosed = false) (inTime : timeout driver nowUs = none)
    (store : EntryStore) (bytes : List UInt8) :
    driver.onBytes store bytes nowUs =
      LinkDriver.handleBodies (driver.decoder.push bytes).buf.length
        (withDecoder (driver.decoder.push bytes) driver) store {} := by
  rw [LinkDriver.onBytes, checkTimeouts_eq open_, inTime]
  rfl

theorem feed_closed (ended : driver.isClosed = true) (store : EntryStore)
    (chunks : List (List UInt8)) (nowUs : UInt64) :
    feed driver store chunks nowUs = some (driver, store, chunks.map fun _ => {}) := by
  induction chunks with
  | nil => rfl
  | cons chunk chunks ih =>
    rw [feed, onBytes_closed ended]
    change (feed driver store chunks nowUs).bind _ = _
    rw [ih]
    rfl

theorem timeout_after {bytes : List UInt8} {effect : Effect}
    (step : BytesStep driver store bytes nowUs after store' effect)
    (inTime : timeout driver nowUs = none) (open_ : after.isClosed = false) :
    timeout after nowUs = none := by
  obtain ⟨-, config, openedAt⟩ := step.keeps
  have phase : driver.isEstablished = true → after.isEstablished = true := by
    intro established
    have followed := step.follows
    rw [isEstablished_iff.mp established] at followed
    have stays := follow_established followed
    rcases stays with stays | ended
    · exact isEstablished_iff.mpr stays
    · rw [isClosed_iff.mpr ended] at open_
      cases open_
  have soon : ¬ (¬ driver.isEstablished = true ∧
      nowUs.toNat - driver.openedAtUs.toNat ≥ driver.config.handshakeTimeoutUs.toNat) ∧
      ¬ nowUs.toNat - driver.openedAtUs.toNat ≥ driver.config.maxLifetimeUs.toNat := by
    rw [timeout] at inTime
    split_ifs at inTime with first second
    exact ⟨first, second⟩
  rw [timeout, config, openedAt, if_neg fun late => soon.1 ⟨fun early => late.1 (phase early), late.2⟩,
    if_neg soon.2]

theorem onBytes_append (open_ : driver.isClosed = false) (inTime : timeout driver nowUs = none)
    (store : EntryStore) (chunk more : List UInt8) :
    driver.onBytes store (chunk ++ more) nowUs =
      (driver.onBytes store chunk nowUs).bind fun (after, store', out) =>
        if after.isClosed then some (withDecoder (after.decoder.push more) after, store', out)
        else LinkDriver.handleBodies (driver.decoder.push (chunk ++ more)).buf.length
          (withDecoder (after.decoder.push more) after) store' out := by
  have pushed : driver.decoder.push (chunk ++ more) = (driver.decoder.push chunk).push more := by
    rw [FrameDecoder.push, FrameDecoder.push, FrameDecoder.push, List.append_assoc]
  rw [onBytes_inTime open_ inTime, onBytes_inTime open_ inTime, pushed]
  exact @handleBodies_push (withDecoder (driver.decoder.push chunk) driver) _ _ _ _ _ _ _ open_ more
    le_rfl le_rfl store {}

theorem feed_cons {chunk : List UInt8} {out : LinkOutput}
    (ran : driver.onBytes store chunk nowUs = some (after, store', out))
    (chunks : List (List UInt8)) :
    feed driver store (chunk :: chunks) nowUs =
      (feed after store' chunks nowUs).map fun (driver, store, outs) =>
        (driver, store, out :: outs) := by
  rw [feed, ran]
  change (feed after store' chunks nowUs).bind _ = _
  rcases feed after store' chunks nowUs with _ | ⟨last, store₂, outs⟩ <;> rfl

theorem Bodies.shorter {effect : Effect} (bodies : Bodies driver store after store' effect) :
    after.decoder.buf.length ≤ driver.decoder.buf.length := by
  induction bodies with
  | waiting incomplete => exact le_rfl
  | closed next step ended =>
    rw [step.keeps.1]
    exact (nextBody_shorter next).le
  | more next step open_ rest ih =>
    rw [step.keeps.1] at ih
    exact ih.trans (nextBody_shorter next).le

theorem onBytes_append_open {chunk : List UInt8} {first : Effect}
    (ran : driver.onBytes store chunk nowUs = some (after, store', first.on {}))
    (step : BytesStep driver store chunk nowUs after store' first)
    (inTime : timeout driver nowUs = none) (open_ : after.isClosed = false) (more : List UInt8) :
    driver.onBytes store (chunk ++ more) nowUs = none ∧ after.onBytes store' more nowUs = none ∨
      ∃ last store₂ effect, Plain effect ∧
        driver.onBytes store (chunk ++ more) nowUs = some (last, store₂, effect.on (first.on {})) ∧
        after.onBytes store' more nowUs = some (last, store₂, effect.on {}) := by
  obtain ⟨openBefore, bodies⟩ : driver.isClosed = false ∧
      Bodies (withDecoder (driver.decoder.push chunk) driver) store after store' first := by
    cases step with
    | inert ended =>
      rw [ended] at open_
      cases open_
    | expired reason openBefore late =>
      rw [inTime] at late
      cases late
    | read openBefore inTime bodies => exact ⟨openBefore, bodies⟩
  have enough : (after.decoder.push more).buf.length ≤
      (driver.decoder.push (chunk ++ more)).buf.length := by
    have shorter := bodies.shorter
    simp only [withDecoder, FrameDecoder.push, List.length_append] at shorter ⊢
    omega
  have whole : driver.onBytes store (chunk ++ more) nowUs =
      LinkDriver.handleBodies (driver.decoder.push (chunk ++ more)).buf.length
        (withDecoder (after.decoder.push more) after) store' (first.on {}) := by
    rw [onBytes_append openBefore inTime, ran, Option.bind_some]
    exact if_neg (by simp [open_])
  have parts : after.onBytes store' more nowUs =
      LinkDriver.handleBodies (driver.decoder.push (chunk ++ more)).buf.length
        (withDecoder (after.decoder.push more) after) store' {} := by
    rw [onBytes_inTime open_ (timeout_after step inTime open_)]
    exact @handleBodies_fuel (withDecoder (after.decoder.push more) after) _ _ _ _ _ _ _ le_rfl enough
      store' {}
  rcases @handleBodies_acts _ _ _ _ _ _ (withDecoder (after.decoder.push more) after) open_ enough
    store' with panics | ⟨last, store₂, effect, rest, acted⟩
  · left
    rw [whole, parts, panics, panics]
    exact ⟨rfl, rfl⟩
  · right
    refine ⟨last, store₂, effect, rest.plain, ?_, ?_⟩
    · rw [whole, acted]
    · rw [parts, acted]

theorem feed_agrees (driver : LinkDriver) (store : EntryStore) {chunks : List (List UInt8)}
    (some_ : chunks ≠ []) (nowUs : UInt64) :
    Agrees (driver.onBytes store chunks.flatten nowUs) (feed driver store chunks nowUs) := by
  induction chunks generalizing driver store with
  | nil => exact absurd rfl some_
  | cons chunk chunks ih =>
    cases ended : driver.isClosed with
    | true =>
      rw [onBytes_closed ended, feed_closed ended]
      have recut := @recut_closing {} (plain_quiet rfl fun _ => List.not_mem_nil) chunks
      exact .returns ⟨rfl, fun _ => rfl⟩ recut
    | false =>
      cases late : timeout driver nowUs with
      | some reason =>
        have step := @BytesStep.expired _ _ _ _ _ driver store chunk nowUs reason ended late
        rw [onBytes_late ended late, feed_cons (onBytes_late ended late store chunk),
          feed_closed rfl]
        exact .returns ⟨rfl, fun _ => rfl⟩ (recut_closing step.plain chunks)
      | none =>
        rw [List.flatten_cons]
        rcases onBytes_acts driver store chunk nowUs with
          panics | ⟨after, store₁, first, step, ran⟩
        · rw [onBytes_append ended late, panics, feed, panics]
          exact .panics
        rw [feed_cons ran]
        cases open_ : after.isClosed with
        | true =>
          rw [onBytes_append ended late, ran, feed_closed open_, Option.bind_some]
          dsimp only
          rw [if_pos open_]
          refine .returns ⟨rfl, fun opened => ?_⟩ (recut_closing step.plain chunks)
          cases opened.symm.trans open_
        | false =>
          by_cases last : chunks = []
          · subst last
            rw [List.flatten_nil, List.append_nil, ran]
            exact .returns ⟨rfl, fun _ => rfl⟩ (recut_closing step.plain [])
          have later := ih after store₁ last
          rcases onBytes_append_open ran step late open_ chunks.flatten with
            ⟨whole, parts⟩ | ⟨final, store₂, effect, plain, whole, parts⟩
          · rw [parts] at later
            generalize feed after store₁ chunks nowUs = fed at later
            cases later
            rw [whole]
            exact .panics
          · rw [parts] at later
            generalize feed after store₁ chunks nowUs = fed at later
            cases later with
            | returns same recut =>
              have quiet := not_closed_of_open step.follows fun closed => by
                rw [isClosed_iff.mpr closed] at open_
                cases open_
              rw [whole]
              exact .returns same (recut.cons plain quiet)

end

/-! ## A stream -/

section
open StandIns

theorem feed_agrees_empty_body :
    Agrees ((idleDriver .responder).onBytes EntryStore.new [0, 0, 7] 0)
      (feed (idleDriver .responder) EntryStore.new [[0], [], [0, 7]] 0) :=
  feed_agrees (idleDriver .responder) EntryStore.new (List.cons_ne_nil [0] [[], [0, 7]]) 0

/-- A body that closes the link leaves the rest of its own chunk in the buffer, and a later chunk
is not pushed. -/
theorem closed_unread_differs :
    ∃ whole parts store out outs,
      (idleDriver .responder).onBytes EntryStore.new [0, 0, 7] 0 = some (whole, store, out) ∧
      feed (idleDriver .responder) EntryStore.new [[0, 0], [7]] 0 = some (parts, store, outs) ∧
      whole ≠ parts := by
  refine ⟨_, _, _, _, _, rfl, rfl, fun same => ?_⟩
  exact absurd (congrArg (fun driver => driver.decoder.buf) same) (by decide)

end

end Racnet.Proof.Driver
