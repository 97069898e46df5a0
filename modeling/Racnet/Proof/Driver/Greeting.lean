import Racnet.Proof.Channel.Transcript
import Racnet.Proof.Driver.Discipline

/-!
# The greeting of a link

The HELLOs are exchanged in the clear. What one side sent and what the other side read are both in the
prologue of the handshake, so that HELLOs which were changed on the way end it at the second message.
-/

namespace Racnet.Proof.Driver
open Lib Noise Store Sync Wire Link
open Proof.Format (nextBody_some nextBody_frameBytes decodeMessage_append_inj decodeMessage_of_encodeMessage)
open Proof.Channel (NoCollisions mixAll hashed OpensOnly sealedStatic readMessage_first second_refused)

/-! ## Streams -/

def Call.bytes : Call → List UInt8
  | .onBytes bytes _ => bytes
  | .start | .onTick _ | .openSync _ | .send _ => []

def received (calls : List (EntryStore × Call)) : List UInt8 := calls.flatMap fun call => call.2.bytes

def sent (moments : List Moment) : List (List UInt8) := moments.flatMap (·.out.frames)

/-- The first two bodies of a stream. -/
def BeginsWith (stream first second : List UInt8) : Prop :=
  first.length ≤ 65535 ∧ second.length ≤ 65535 ∧
    ∃ rest, stream = frameBytes first ++ (frameBytes second ++ rest)

theorem frameBytes_append_inj {first second more more' : List UInt8} (small : first.length ≤ 65535)
    (small' : second.length ≤ 65535) (same : frameBytes first ++ more = frameBytes second ++ more') :
    first = second ∧ more = more' := by
  have next := nextBody_frameBytes (Nat.lt_succ_of_le small) more
  rw [same, nextBody_frameBytes (Nat.lt_succ_of_le small') more'] at next
  obtain ⟨body, rest⟩ := Prod.mk.inj next
  exact ⟨(Option.some.inj body).symm, (FrameDecoder.mk.inj rest).symm⟩

theorem BeginsWith.unique {stream first second first' second' : List UInt8}
    (begins : BeginsWith stream first second) (begins' : BeginsWith stream first' second') :
    first = first' ∧ second = second' := by
  obtain ⟨small, small₂, rest, eq⟩ := begins
  obtain ⟨small', small₂', rest', eq'⟩ := begins'
  obtain ⟨rfl, same⟩ := frameBytes_append_inj small small' (eq.symm.trans eq')
  exact ⟨rfl, (frameBytes_append_inj small₂ small₂' same).1⟩

theorem BeginsWith.append {stream first second : List UInt8} (begins : BeginsWith stream first second)
    (more : List UInt8) : BeginsWith (stream ++ more) first second := by
  obtain ⟨small, small', rest, rfl⟩ := begins
  exact ⟨small, small', rest ++ more, by simp only [List.append_assoc]⟩

theorem decodeMessage_of_encodeFrame {msg : Message} {body : List UInt8}
    (encoded : encodeFrame msg = .ok (frameBytes body)) : decodeMessage body = .ok msg := by
  obtain ⟨body', written, framed⟩ := except_bind_ok encoded
  have same := List.append_inj (Except.ok.inj framed) (by rw [length_beBytes, length_beBytes])
  rw [← same.2]
  exact decodeMessage_of_encodeMessage written

/-- The HELLOs of two sides as each of them has them are in one order in the two prologues, and no HELLO
begins another. -/
theorem prologues_differ {own own' helloI helloR : List UInt8} {msg msg' : Message}
    (decoded : decodeMessage own = .ok msg)
    (decoded' : decodeMessage helloI = .ok msg') (tampered : (own, helloR) ≠ (helloI, own')) :
    own ++ helloR ≠ helloI ++ own' := fun same => by
  obtain ⟨rfl, rfl⟩ := decodeMessage_append_inj decoded decoded' same
  exact tampered rfl

section
variable [Sha256] [HmacSha256] [X25519] [ChaCha20Poly1305]
variable {driver after : LinkDriver} {store store' : EntryStore} {effect : Effect}
  {stream : List UInt8} {frames : List (List UInt8)}

/-! ## The responder -/

/-- The second message of a handshake, as the answer to the two bodies that a stream begins with. -/
structure Reply (s e : Keypair) (own stream theirs first noiseMsg : List UInt8) : Prop where
  begins : BeginsWith stream theirs first
  greeted : ∃ hello, decodeMessage theirs = .ok (.hello hello)
  answers : ∃ handshake read written, decodeMessage first = .ok (.handshake handshake) ∧
    (HandshakeState.newXx .responder s e (theirs ++ own)).readMessage handshake.msg = .ok ([], read) ∧
    read.writeMessage [] = .ok (noiseMsg, written)

/-- What a responder has said and read so far. -/
inductive Greeted (s e : Keypair) (own : List UInt8) :
    LinkDriver → List UInt8 → List (List UInt8) → Prop where
  | awaiting {driver : LinkDriver} (role : driver.role = .responder)
      (waiting : driver.state = .awaitPeerHello) (keys : driver.keys = some (s, e))
      (encoded : encodeMessage driver.ourHello = .ok own) : Greeted s e own driver driver.decoder.buf []
  | welcomed {driver : LinkDriver} (theirs : List UInt8) (small : theirs.length ≤ 65535)
      (greeted : ∃ hello, decodeMessage theirs = .ok (.hello hello))
      (waiting : driver.state = .handshaking (.newXx .responder s e (theirs ++ own))) :
      Greeted s e own driver (frameBytes theirs ++ driver.decoder.buf) [frameBytes own]
  | replied {driver : LinkDriver} {stream : List UInt8} {later : List (List UInt8)}
      (theirs first noiseMsg frame : List UInt8) (past : driver.state ≠ .awaitPeerHello)
      (reply : Reply s e own stream theirs first noiseMsg)
      (encoded : encodeFrame (.handshake ⟨noiseMsg⟩) = .ok frame) :
      Greeted s e own driver stream (frameBytes own :: frame :: later)
  | silent {driver : LinkDriver} {stream : List UInt8} {frames : List (List UInt8)}
      (ended : driver.isClosed = true) (few : frames.length ≤ 1) : Greeted s e own driver stream frames

theorem Reply.append {s e : Keypair} {own theirs first noiseMsg : List UInt8}
    (reply : Reply s e own stream theirs first noiseMsg) (more : List UInt8) :
    Reply s e own (stream ++ more) theirs first noiseMsg :=
  { reply with begins := reply.begins.append more }

variable {s e : Keypair} {own : List UInt8}

theorem Greeted.close (greeted : Greeted s e own driver stream frames) (more : List UInt8)
    (ended : after.isClosed = true) : Greeted s e own after (stream ++ more) frames := by
  cases greeted with
  | awaiting => exact .silent ended (Nat.zero_le 1)
  | welcomed => exact .silent ended le_rfl
  | silent _ few => exact .silent ended few
  | replied theirs first noiseMsg frame past reply encoded =>
    refine .replied theirs first noiseMsg frame (fun waiting => ?_) (reply.append more) encoded
    simp [LinkDriver.isClosed, LinkDriver.closeReason, waiting] at ended

theorem Greeted.push (greeted : Greeted s e own driver stream frames) (bytes : List UInt8) :
    Greeted s e own { driver with decoder := driver.decoder.push bytes } (stream ++ bytes) frames := by
  cases greeted with
  | awaiting role waiting keys encoded =>
    exact @Greeted.awaiting _ _ _ _ s e own { driver with decoder := driver.decoder.push bytes } role
      waiting keys encoded
  | welcomed theirs small greeted waiting =>
    rw [List.append_assoc]
    exact @Greeted.welcomed _ _ _ _ s e own { driver with decoder := driver.decoder.push bytes } theirs
      small greeted waiting
  | silent ended few => exact .silent ended few
  | replied theirs first noiseMsg frame past reply encoded =>
    exact .replied theirs first noiseMsg frame past (reply.append bytes) encoded

theorem Greeted.more {transport : TransportState} (greeted : Greeted s e own driver stream frames)
    (established : driver.state = .transport transport) (moved : after.state ≠ .awaitPeerHello)
    (more : List (List UInt8)) : Greeted s e own after stream (frames ++ more) := by
  cases greeted with
  | awaiting role waiting | welcomed theirs small greeted waiting => cases waiting.symm.trans established
  | silent ended few => simp [LinkDriver.isClosed, LinkDriver.closeReason, established] at ended
  | replied theirs first noiseMsg frame past reply encoded =>
    exact .replied theirs first noiseMsg frame moved reply encoded

variable [Ed25519]

theorem BodyStep.moves {body : List UInt8} (step : BodyStep driver store body after store' effect) :
    after.state ≠ .awaitPeerHello := by
  cases step with
  | hello waiting step => cases step <;> rintro ⟨⟩
  | handshake hs waiting step => cases step <;> rintro ⟨⟩
  | transport transport established step => cases step <;> rintro ⟨⟩

theorem Greeted.body {body : List UInt8} {decoder : FrameDecoder}
    (greeted : Greeted s e own driver stream frames)
    (next : driver.decoder.nextBody = (some body, decoder))
    (step : BodyStep { driver with decoder } store body after store' effect)
    (kept : effect.dropped = false) : Greeted s e own after stream (frames ++ effect.frames) := by
  have moved := step.moves
  obtain ⟨small, buffer⟩ := nextBody_some next
  cases greeted with
  | awaiting role waiting keys encoded =>
    cases step with
    | handshake hs other | transport hs other => cases waiting.symm.trans other
    | hello _ step =>
      cases step with
      | failed => cases kept
      | incompatible => exact .silent rfl le_rfl
      | answered _ _ _ _ _ _ _ other => cases role.symm.trans other
      | welcomed hello version ownBody s' e' _ decoded common keys' encoded' =>
        obtain ⟨rfl, rfl⟩ := Prod.mk.inj (Option.some.inj (keys.symm.trans keys'))
        obtain rfl := Except.ok.inj (encoded.symm.trans encoded')
        rw [buffer]
        exact .welcomed body small ⟨hello, decoded⟩ rfl
  | welcomed theirs small' greeted waiting =>
    cases step with
    | hello other | transport hs other => cases waiting.symm.trans other
    | handshake hs other step =>
      obtain rfl := LinkState.handshaking.inj (waiting.symm.trans other)
      have begins : BeginsWith (frameBytes theirs ++ driver.decoder.buf) theirs body :=
        ⟨small', small, decoder.buf, by rw [buffer]⟩
      cases step with
      | failed => cases kept
      | continued handshake read written noiseMsg frame decoded reads open_ writes more encoded =>
        exact .replied theirs body noiseMsg frame moved
          ⟨begins, greeted, handshake, read, written, decoded, reads, writes⟩ encoded
      | concluded handshake read written noiseMsg frame transport remote decoded reads open_ writes done
          encoded split =>
          exact .replied theirs body noiseMsg frame moved
            ⟨begins, greeted, handshake, read, written, decoded, reads, writes⟩ encoded
      | finished handshake read transport remote decoded reads done split =>
        -- the responder has a message of its own to write
        obtain ⟨first, -, rfl⟩ := readMessage_first rfl reads
        cases done
  | silent ended few =>
    cases step with
    | hello waiting | handshake hs waiting | transport hs waiting =>
      simp [LinkDriver.isClosed, LinkDriver.closeReason, show driver.state = _ from waiting] at ended
  | replied theirs first noiseMsg frame past reply encoded =>
    exact .replied theirs first noiseMsg frame moved reply encoded

theorem Greeted.bodies (bodies : Bodies driver store after store' effect)
    (greeted : Greeted s e own driver stream frames) (kept : effect.dropped = false) :
    Greeted s e own after stream (frames ++ effect.frames) := by
  induction bodies generalizing frames with
  | waiting incomplete =>
    rw [List.append_nil]
    exact greeted
  | closed next step ended => exact greeted.body next step kept
  | more next step open_ rest ih =>
    obtain ⟨kept₁, kept₂⟩ := Bool.or_eq_false_iff.mp kept
    rw [Effect.andThen, kept₂, if_neg Bool.false_ne_true, ← List.append_assoc]
    exact ih (greeted.body next step kept₁) kept₂

theorem Greeted.read {bytes : List UInt8} {nowUs : UInt64}
    (greeted : Greeted s e own driver stream frames)
    (step : BytesStep driver store bytes nowUs after store' effect) :
    Greeted s e own after (stream ++ bytes) (frames ++ effect.frames) := by
  cases step with
  | inert ended =>
    rw [List.append_nil]
    exact greeted.close bytes ended
  | expired reason open_ late =>
    rw [Effect.silence, List.append_nil]
    exact greeted.close bytes rfl
  | read open_ inTime bodies =>
    cases dropped : effect.dropped with
    | false => exact (greeted.push bytes).bodies bodies dropped
    | true =>
      rw [(bodies.plain.silent dropped).1, List.append_nil]
      exact greeted.close bytes (closed_of_dropped bodies.plain dropped bodies.follows)

theorem Greeted.quiet {call : Call} (greeted : Greeted s e own driver stream frames)
    (step : CallStep driver store call after store' effect) (quiet : call.bytes = []) :
    Greeted s e own after stream (frames ++ effect.frames) := by
  cases step with
  | idle =>
    rw [List.append_nil]
    exact greeted
  | started body role waiting encoded =>
    cases greeted with
    | awaiting responder => cases role.symm.trans responder
    | welcomed theirs small greeted other => cases waiting.symm.trans other
    | silent ended few => simp [LinkDriver.isClosed, LinkDriver.closeReason, waiting] at ended
    | replied theirs first noiseMsg frame past => exact absurd waiting past
  | @bytes bytes nowUs after store' effect step =>
    obtain rfl : bytes = [] := quiet
    have read := greeted.read step
    rwa [List.append_nil] at read
  | expired reason open_ late =>
    have closed := greeted.close [] (show (closedWith driver reason).isClosed = true from rfl)
    rw [List.append_nil] at closed
    rw [Effect.silence, List.append_nil]
    exact closed
  | sent transport after syncer msg frame established encrypted =>
    exact greeted.more established (by rintro ⟨⟩) _
  | exhausted transport after syncer msg error established refused =>
    exact greeted.more established (by rintro ⟨⟩) _
  | ended transport code established => exact greeted.more established (by rintro ⟨⟩) _

theorem Greeted.call {call : Call} {out : LinkOutput} (greeted : Greeted s e own driver stream frames)
    (ran : perform driver store call = some (after, store', out)) :
    Greeted s e own after (stream ++ call.bytes) (frames ++ out.frames) := by
  cases call with
  | onBytes bytes nowUs =>
    obtain ⟨effect, step, rfl⟩ := onBytes_step ran
    rw [Effect.frames_on_new]
    exact greeted.read step
  | start | onTick | openSync | send =>
    obtain ⟨effect, step, rfl⟩ := perform_step ran
    rw [Effect.frames_on_new, Call.bytes, List.append_nil]
    exact greeted.quiet step rfl

theorem Greeted.run {calls : List (EntryStore × Call)} {moments : List Moment}
    (greeted : Greeted s e own driver stream frames) (ran : record driver calls = some moments) :
    ∃ last, Greeted s e own last (stream ++ received calls) (frames ++ sent moments) := by
  induction calls generalizing driver stream frames moments with
  | nil =>
    cases ran
    refine ⟨driver, ?_⟩
    rw [received, sent, List.flatMap_nil, List.flatMap_nil, List.append_nil, List.append_nil]
    exact greeted
  | cons head calls ih =>
    obtain ⟨after, store', out, later, performed, recorded, rfl⟩ := record_performed ran
    rw [received, sent, List.flatMap_cons, List.flatMap_cons, ← List.append_assoc, ← List.append_assoc]
    exact ih (greeted.call performed) recorded

theorem reply_of_second_frame {config : LinkDriverConfig} {openedAtUs : UInt64}
    {calls : List (EntryStore × Call)} {moments : List Moment} {frame : List UInt8}
    (ran : record (.new .responder s e config openedAtUs) calls = some moments)
    (encoded : encodeMessage (LinkDriver.new .responder s e config openedAtUs).ourHello = .ok own)
    (second : (sent moments)[1]? = some frame) :
    ∃ theirs first noiseMsg, Reply s e own (received calls) theirs first noiseMsg ∧
      encodeFrame (.handshake ⟨noiseMsg⟩) = .ok frame := by
  have new : Greeted s e own (.new .responder s e config openedAtUs) [] [] :=
    .awaiting rfl rfl rfl encoded
  obtain ⟨last, greeted⟩ := new.run ran
  rw [List.nil_append, List.nil_append] at greeted
  generalize sent moments = frames, received calls = stream at greeted second ⊢
  cases greeted with
  | awaiting | welcomed => cases second
  | silent ended few =>
    rw [List.getElem?_eq_none few] at second
    cases second
  | replied theirs first noiseMsg frame' past reply encoded' =>
    obtain rfl := Option.some.inj second
    exact ⟨theirs, first, noiseMsg, reply, encoded'⟩

end

/-! ## The initiator -/

section
variable [Sha256] {driver after : LinkDriver} {store store' : EntryStore}

def opened (s e : Keypair) (prologue : List UInt8) : HandshakeState :=
  ⟨mixAll .newForProtocol [prologue, e.publicKey.bytes, []], s, e, none, none, .initiator, 2⟩

/-- An initiator that waits for the HELLO of its peer or, once it was accepted, for the second message. -/
inductive Waits (s e : Keypair) (own theirs : List UInt8) (hello : Hello) : LinkDriver → List UInt8 → Prop where
  | awaiting {driver : LinkDriver} (version : UInt64) (role : driver.role = .initiator)
      (waiting : driver.state = .awaitPeerHello) (keys : driver.keys = some (s, e))
      (encoded : encodeMessage driver.ourHello = .ok own) (said : driver.ourHelloBody = own)
      (common : driver.commonVersion hello = some version) :
      Waits s e own theirs hello driver driver.decoder.buf
  | initiated {driver : LinkDriver}
      (waiting : driver.state = .handshaking (opened s e (own ++ theirs))) :
      Waits s e own theirs hello driver (frameBytes theirs ++ driver.decoder.buf)

variable {s e : Keypair} {own theirs : List UInt8} {hello : Hello} {stream : List UInt8}

theorem Waits.open (waits : Waits s e own theirs hello driver stream) :
    driver.isClosed = false ∧ ∀ transport, driver.state ≠ .transport transport := by
  cases waits with
  | awaiting _ _ waiting | initiated waiting =>
    refine ⟨by simp [LinkDriver.isClosed, LinkDriver.closeReason, waiting], fun transport other => ?_⟩
    cases waiting.symm.trans other

theorem Waits.push (waits : Waits s e own theirs hello driver stream) (bytes : List UInt8) :
    Waits s e own theirs hello (withDecoder (driver.decoder.push bytes) driver) (stream ++ bytes) := by
  cases waits with
  | awaiting version role waiting keys encoded said common =>
    exact @Waits.awaiting _ s e own theirs hello (withDecoder (driver.decoder.push bytes) driver) version
      role waiting keys encoded said common
  | initiated waiting =>
    rw [List.append_assoc]
    exact @Waits.initiated _ s e own theirs hello (withDecoder (driver.decoder.push bytes) driver) waiting

variable [HmacSha256] [X25519] [ChaCha20Poly1305]

theorem writeMessage_opened (s e : Keypair) (prologue : List UInt8) :
    (HandshakeState.newXx .initiator s e prologue).writeMessage [] =
      .ok (e.publicKey.bytes, opened s e prologue) := by
  have written : (HandshakeState.newXx .initiator s e prologue).writeMessage [] =
      .ok (e.publicKey.bytes ++ [], opened s e prologue) := rfl
  rwa [List.append_nil] at written

/-- What an initiator reads: a HELLO and, to its own first message, an answer that does not open. -/
structure Spoiled (s e : Keypair) (own theirs : List UInt8) (hello : Hello) (stream : List UInt8) : Prop where
  decoded : decodeMessage theirs = .ok (.hello hello)
  refused : ∃ second handshake, BeginsWith stream theirs second ∧
    decodeMessage second = .ok (.handshake handshake) ∧
    (opened s e (own ++ theirs)).readMessage handshake.msg = .fail .decryptFailed

/-- The HELLO and the first message. -/
def Spoken (e : Keypair) (own frame : List UInt8) : Prop :=
  frame = frameBytes own ∨ encodeFrame (.handshake ⟨e.publicKey.bytes⟩) = .ok frame

/-- An initiator goes on waiting, with nothing left to read, or it fails without a word. -/
def Proceeds (s e : Keypair) (own theirs : List UInt8) (hello : Hello) (after : LinkDriver)
    (stream : List UInt8) (out : LinkOutput) : Prop :=
  (Waits s e own theirs hello after stream ∧ after.decoder.nextBody.1 = none ∧ out.events = [] ∧
    ∀ frame ∈ out.frames, Spoken e own frame) ∨
  (after.closeReason = some .handshakeFailed ∧ out = ⟨[], [.closed .handshakeFailed]⟩)

theorem Spoiled.answered {body more rest : List UInt8} {buf : FrameDecoder}
    (spoiled : Spoiled s e own theirs hello (frameBytes theirs ++ more ++ rest))
    (front : more = frameBytes body ++ buf.buf) (small : body.length ≤ 65535) :
    ∃ handshake, decodeMessage body = .ok (.handshake handshake) ∧
      (opened s e (own ++ theirs)).readMessage handshake.msg = .fail .decryptFailed := by
  obtain ⟨second, handshake, begins, decoded, refused⟩ := spoiled.refused
  have begins' : BeginsWith (frameBytes theirs ++ more ++ rest) theirs body :=
    ⟨begins.1, small, buf.buf ++ rest, by rw [front]; simp only [List.append_assoc]⟩
  obtain ⟨-, rfl⟩ := begins.unique begins'
  exact ⟨handshake, decoded, refused⟩

theorem Waits.complete (waits : Waits s e own theirs hello driver stream)
    (spoiled : Spoiled s e own theirs hello stream) : driver.decoder.nextBody.1 ≠ none := by
  rw [Ne, Format.nextBody_eq_none_iff, not_not]
  obtain ⟨second, -, ⟨small, small', rest, eq⟩, -⟩ := spoiled.refused
  cases waits with
  | awaiting => exact ⟨theirs, _, small, eq⟩
  | initiated => exact ⟨second, rest, small', List.append_cancel_left eq⟩

variable [Ed25519] {fuel : Nat} {out : LinkOutput}

theorem handleBody_hello (driver : LinkDriver) (store : EntryStore) {version : UInt64} {frame : List UInt8}
    (decoded : decodeMessage theirs = .ok (.hello hello))
    (encoded : encodeFrame (.handshake ⟨e.publicKey.bytes⟩) = .ok frame)
    (role : driver.role = .initiator) (waiting : driver.state = .awaitPeerHello)
    (keys : driver.keys = some (s, e)) (said : driver.ourHelloBody = own)
    (common : driver.commonVersion hello = some version) (out : LinkOutput) :
    driver.handleBody store theirs out = some
      ({ driver with
          negotiatedVersion := some version
          keys := none
          state := .handshaking (opened s e (own ++ theirs)) },
        store, { out with frames := out.frames ++ [frame] }) := by
  have common' : (parked driver).commonVersion hello = some version := common
  rw [LinkDriver.handleBody, waiting]
  change ((parked driver).handleHelloBody theirs out).bind _ = _
  rw [LinkDriver.handleHelloBody, decoded]
  dsimp only
  rw [common']
  simp only [LinkDriver.answerHello, LinkDriver.beginHandshake, parked, role, keys, said, bind,
    Option.bind_some, writeMessage_opened, queueHandshakeFrame_ok encoded]

theorem handleBody_refused (driver : LinkDriver) (store : EntryStore) {hs : HandshakeState}
    {body : List UInt8} {handshake : Handshake} {error : NoiseError} (waiting : driver.state = .handshaking hs)
    (decoded : decodeMessage body = .ok (.handshake handshake))
    (refused : hs.readMessage handshake.msg = .fail error) (out : LinkOutput) :
    driver.handleBody store body out = some
      (closedWith driver .handshakeFailed, store, (Effect.silence .handshakeFailed).on out) := by
  rw [LinkDriver.handleBody, waiting]
  change ((parked driver).handleHandshakeBody hs body out).bind _ = _
  rw [LinkDriver.handleHandshakeBody, decoded]
  dsimp only
  rw [refused]
  rfl

theorem handleBodies_none (incomplete : driver.decoder.nextBody.1 = none) :
    LinkDriver.handleBodies fuel driver store out = some (driver, store, out) := by
  cases fuel with
  | zero => rfl
  | succ fuel =>
    rw [handleBodies_succ]
    rcases next : driver.decoder.nextBody with ⟨_ | body, decoder⟩
    · rfl
    · rw [next] at incomplete
      cases incomplete

theorem Spoiled.second {rest : List UInt8}
    (spoiled : Spoiled s e own theirs hello (frameBytes theirs ++ driver.decoder.buf ++ rest))
    (waiting : driver.state = .handshaking (opened s e (own ++ theirs)))
    (enough : driver.decoder.buf.length ≤ fuel) (quiet : out.events = [])
    (spoken : ∀ frame ∈ out.frames, Spoken e own frame) (store : EntryStore) :
    ∃ after out', LinkDriver.handleBodies fuel driver store out = some (after, store, out') ∧
      Proceeds s e own theirs hello after (frameBytes theirs ++ driver.decoder.buf) out' := by
  rcases next : driver.decoder.nextBody with ⟨_ | body, decoder⟩
  · exact ⟨_, _, handleBodies_none (by rw [next]), Or.inl ⟨.initiated waiting, by rw [next], quiet, spoken⟩⟩
  · obtain ⟨small, front⟩ := nextBody_some next
    obtain ⟨handshake, decoded, refused⟩ := spoiled.answered front small
    have ran := handleBody_refused (withDecoder decoder driver) store waiting decoded refused out
    obtain ⟨fuel, rfl⟩ : ∃ n, fuel = n + 1 := by
      have shorter := Format.nextBody_shorter next
      exact ⟨fuel - 1, by omega⟩
    refine ⟨closedWith (withDecoder decoder driver) .handshakeFailed,
      (Effect.silence .handshakeFailed).on out, ?_, Or.inr ⟨rfl, ?_⟩⟩
    · rw [handleBodies_succ, next]
      dsimp only
      rw [ran, Option.bind_some]
      exact if_pos rfl
    · rw [Effect.on, quiet]
      rfl

theorem Waits.bodies {rest : List UInt8} (waits : Waits s e own theirs hello driver stream)
    (spoiled : Spoiled s e own theirs hello (stream ++ rest)) (enough : driver.decoder.buf.length ≤ fuel)
    (store : EntryStore) :
    ∃ after out, LinkDriver.handleBodies fuel driver store {} = some (after, store, out) ∧
      Proceeds s e own theirs hello after stream out := by
  cases waits with
  | initiated waiting => exact spoiled.second waiting enough rfl (by simp) store
  | awaiting version role waiting keys encoded said common =>
    rcases next : driver.decoder.nextBody with ⟨_ | body, decoder⟩
    · exact ⟨_, _, handleBodies_none (by rw [next]), Or.inl
        ⟨.awaiting version role waiting keys encoded said common, by rw [next], rfl, by simp⟩⟩
    obtain ⟨small, front⟩ := nextBody_some next
    obtain rfl : body = theirs := by
      obtain ⟨second, -, ⟨small', -, rest', eq⟩, -⟩ := spoiled.refused
      rw [front, List.append_assoc] at eq
      exact (frameBytes_append_inj small small' eq).1
    obtain ⟨frame, framed⟩ := @encodeFrame_handshake e.publicKey.bytes (by
      rw [e.publicKey.length_eq]; omega)
    have shorter := Format.nextBody_shorter next
    obtain ⟨fuel, rfl⟩ : ∃ n, fuel = n + 1 := ⟨fuel - 1, by omega⟩
    have ran := handleBody_hello (withDecoder decoder driver) store spoiled.decoded framed role waiting keys
      said common {}
    rw [front] at spoiled
    set answering : LinkDriver :=
      { withDecoder decoder driver with
        negotiatedVersion := some version
        keys := none
        state := .handshaking (opened s e (own ++ body)) }
    have left : answering.decoder.buf.length ≤ fuel := Nat.le_of_lt_succ (lt_of_lt_of_le shorter enough)
    set queued : LinkOutput := ⟨[frame], []⟩
    have spoken : ∀ frame' ∈ queued.frames, Spoken e own frame' := by
      rw [List.forall_mem_singleton]
      exact Or.inr framed
    have begun : answering.state = .handshaking (opened s e (own ++ body)) := rfl
    obtain ⟨after, out, continued, proceeds⟩ := Spoiled.second spoiled begun left rfl spoken store
    refine ⟨after, out, ?_, by rwa [front]⟩
    rw [handleBodies_succ, next]
    dsimp only
    rw [ran, Option.bind_some]
    exact (if_neg (by simp [LinkDriver.isClosed, LinkDriver.closeReason])).trans continued

def InTime (driver : LinkDriver) : Call → Prop
  | .onBytes _ nowUs | .onTick nowUs => driver.isClosed = true ∨ timeout driver nowUs = none
  | .start | .openSync _ | .send _ => True

instance (driver : LinkDriver) (call : Call) : Decidable (InTime driver call) :=
  match call with
  | .onBytes _ _ | .onTick _ => inferInstanceAs (Decidable (_ ∨ _))
  | .start | .openSync _ | .send _ => isTrue trivial

theorem Waits.quiet {call : Call} {effect : Effect} (waits : Waits s e own theirs hello driver stream)
    (incomplete : driver.decoder.nextBody.1 = none) (inTime : InTime driver call)
    (step : CallStep driver store call after store' effect)
    (quiet : ∀ bytes nowUs, call ≠ .onBytes bytes nowUs) :
    Proceeds s e own theirs hello after stream (effect.on {}) := by
  obtain ⟨open_, early⟩ := waits.open
  cases step with
  | idle => exact Or.inl ⟨waits, incomplete, rfl, by simp⟩
  | bytes => exact absurd rfl (quiet _ _)
  | expired reason _ late =>
    rw [inTime.resolve_left (by simp [open_])] at late
    cases late
  | sent transport _ _ _ _ established | exhausted transport _ _ _ _ established
  | ended transport _ established => exact absurd established (early transport)
  | started body role waiting encoded =>
    cases waits with
    | initiated other => cases waiting.symm.trans other
    | awaiting version _ _ keys encoded' _ common =>
      obtain rfl := Except.ok.inj (encoded'.symm.trans encoded)
      refine Or.inl ⟨.awaiting version role waiting keys encoded rfl common, incomplete, rfl, ?_⟩
      rw [Effect.frames_on_new, List.forall_mem_singleton]
      exact Or.inl rfl

theorem Waits.call {call : Call} {rest : List UInt8} (waits : Waits s e own theirs hello driver stream)
    (incomplete : driver.decoder.nextBody.1 = none) (inTime : InTime driver call)
    (spoiled : Spoiled s e own theirs hello (stream ++ call.bytes ++ rest))
    (ran : perform driver store call = some (after, store', out)) :
    Proceeds s e own theirs hello after (stream ++ call.bytes) out := by
  cases call with
  | onBytes bytes nowUs =>
    have open_ := waits.open.1
    obtain ⟨after', out', read, proceeds⟩ := (waits.push bytes).bodies spoiled le_rfl store
    rw [perform, onBytes_inTime open_ (inTime.resolve_left (by simp [open_]))] at ran
    obtain ⟨rfl, same⟩ := Prod.mk.inj (Option.some.inj (read.symm.trans ran))
    rwa [← (Prod.mk.inj same).2]
  | start | onTick | openSync | send =>
    obtain ⟨effect, step, rfl⟩ := perform_step ran
    rw [Call.bytes, List.append_nil]
    exact waits.quiet incomplete inTime step (by rintro bytes nowUs ⟨⟩)

theorem Waits.run {calls : List (EntryStore × Call)} {moments : List Moment}
    (waits : Waits s e own theirs hello driver stream) (incomplete : driver.decoder.nextBody.1 = none)
    (spoiled : Spoiled s e own theirs hello (stream ++ received calls))
    (ran : record driver calls = some moments)
    (inTime : ∀ moment ∈ moments, InTime moment.before moment.call) :
    ∃ earlier moment later, moments = earlier ++ moment :: later ∧
      (∀ m ∈ earlier, m.out.events = [] ∧ ∀ frame ∈ m.out.frames, Spoken e own frame) ∧
      moment.out = ⟨[], [.closed .handshakeFailed]⟩ ∧
      moment.after.closeReason = some .handshakeFailed ∧ ∀ m ∈ later, m.out = ⟨[], []⟩ := by
  induction calls generalizing driver stream moments with
  | nil =>
    rw [received, List.flatMap_nil, List.append_nil] at spoiled
    exact absurd incomplete (waits.complete spoiled)
  | cons head calls ih =>
    obtain ⟨after, store', out, later, performed, recorded, rfl⟩ := record_performed ran
    obtain ⟨now, after_⟩ := List.forall_mem_cons.mp inTime
    rw [received, List.flatMap_cons, ← List.append_assoc] at spoiled
    rcases waits.call incomplete now spoiled performed with
      ⟨waits', incomplete', quiet, spoken⟩ | ⟨closed, rfl⟩
    · obtain ⟨earlier, moment, rest, rfl, before, failed⟩ := ih waits' incomplete' spoiled recorded after_
      refine ⟨_ :: earlier, moment, rest, rfl, ?_, failed⟩
      exact List.forall_mem_cons.mpr ⟨⟨quiet, spoken⟩, before⟩
    · have ended : after.isClosed = true := by rw [LinkDriver.isClosed, closed]; rfl
      exact ⟨[], _, later, rfl, by simp, rfl, closed,
        fun m mem => (record_ended ended recorded m mem).1⟩

variable {config config' : LinkDriverConfig} {openedAtUs openedAtUs' : UInt64}
  {calls calls' : List (EntryStore × Call)} {moments moments' : List Moment} {s' e' : Keypair}
  {own' helloI helloR first second : List UInt8} {firstMsg secondMsg : Handshake}

theorem tampered_hello_refused
    (ran : record (.new .initiator s e config openedAtUs) ((store, .start) :: calls) = some moments)
    (ran' : record (.new .responder s' e' config' openedAtUs') calls' = some moments')
    (hello₁ : encodeMessage (LinkDriver.new .initiator s e config openedAtUs).ourHello = .ok own)
    (hello₂ : encodeMessage (LinkDriver.new .responder s' e' config' openedAtUs').ourHello = .ok own')
    (inTime : ∀ moment ∈ moments, InTime moment.before moment.call)
    (reads : BeginsWith (received calls) helloR second)
    (reads' : BeginsWith (received calls') helloI first)
    (accepted : decodeMessage helloR = .ok (.hello hello))
    (common : (LinkDriver.new .initiator s e config openedAtUs).commonVersion hello ≠ none)
    (answer : (sent moments')[1]? = some (frameBytes second))
    (message₁ : decodeMessage first = .ok (.handshake firstMsg))
    (message₂ : decodeMessage second = .ok (.handshake secondMsg))
    (tampered : (own, helloR) ≠ (helloI, own'))
    (apart : NoCollisions
      (hashed .newForProtocol [own ++ helloR, e.publicKey.bytes, [], e'.publicKey.bytes] ++
        hashed .newForProtocol [helloI ++ own', firstMsg.msg, [], e'.publicKey.bytes]))
    (bound : OpensOnly (sealedStatic secondMsg.msg)) :
    own ++ helloR ≠ helloI ++ own' ∧
    ∃ earlier moment later, moments = earlier ++ moment :: later ∧
      (∀ m ∈ earlier, m.out.events = [] ∧ ∀ frame ∈ m.out.frames,
        frame = frameBytes own ∨ encodeFrame (.handshake ⟨e.publicKey.bytes⟩) = .ok frame) ∧
      moment.out = ⟨[], [.closed .handshakeFailed]⟩ ∧
      moment.after.closeReason = some .handshakeFailed ∧ ∀ m ∈ later, m.out = ⟨[], []⟩ := by
  obtain ⟨theirs, first', noiseMsg, reply, encoded⟩ := reply_of_second_frame ran' hello₂ answer
  obtain ⟨rfl, rfl⟩ := reply.begins.unique reads'
  obtain ⟨hello', greeted⟩ := reply.greeted
  have differ := prologues_differ (decodeMessage_of_encodeMessage hello₁) greeted tampered
  refine ⟨differ, ?_⟩
  obtain rfl : secondMsg = ⟨noiseMsg⟩ :=
    Message.handshake.inj (Except.ok.inj (message₂.symm.trans (decodeMessage_of_encodeFrame encoded)))
  obtain ⟨handshake, read, written, decoded, read_eq, wrote⟩ := reply.answers
  obtain rfl := Message.handshake.inj (Except.ok.inj (message₁.symm.trans decoded))
  obtain ⟨key, msg_eq, rfl⟩ := readMessage_first rfl read_eq
  rw [msg_eq] at apart
  have spoiled : Spoiled s e own helloR hello (received calls) :=
    ⟨accepted, second, _, reads, message₂, second_refused differ apart wrote bound⟩
  obtain ⟨version, agreed⟩ := Option.ne_none_iff_exists'.mp common
  set started : LinkDriver :=
    { LinkDriver.new .initiator s e config openedAtUs with ourHelloBody := own }
  have waits : Waits s e own helloR hello started [] :=
    .awaiting version rfl rfl rfl hello₁ rfl agreed
  obtain ⟨after, store', out, later, performed, recorded, rfl⟩ := record_performed ran
  have began : perform (LinkDriver.new .initiator s e config openedAtUs) store .start =
      some (started, store, ⟨[frameBytes own], []⟩) := by
    change ((LinkDriver.new .initiator s e config openedAtUs).queueHello {}).map _ = _
    rw [queueHello_ok hello₁]
    rfl
  rw [began] at performed
  obtain ⟨rfl, rest⟩ := Prod.mk.inj (Option.some.inj performed)
  obtain ⟨rfl, rfl⟩ := Prod.mk.inj rest
  obtain ⟨earlier, moment, later, rfl, before, failed⟩ :=
    waits.run rfl spoiled recorded (List.forall_mem_cons.mp inTime).2
  refine ⟨_ :: earlier, moment, later, rfl, List.forall_mem_cons.mpr ⟨⟨rfl, ?_⟩, before⟩, failed⟩
  rw [List.forall_mem_singleton]
  exact Or.inl rfl

end

/-! ## A HELLO with another padding -/

section Padding

/-- A stand-in for the hash: the string as a number with its length, modulo a large one. -/
@[reducible] def residueDigest : Sha256 where
  digest bytes := ⟨beBytes 32 (ofBe (1 :: bytes) % (2 ^ 256 - 189)), length_beBytes _ _⟩

/-- A stand-in for the cipher, whose tag tells one key, nonce and associated data from all others. -/
@[reducible] def markingCipher (mark : FixedBytes 32 × FixedBytes 12 × List UInt8) : ChaCha20Poly1305 where
  encrypt key nonce aad msg :=
    if msg.length < plaintextLimit then
      some (msg ++ List.replicate tagLen (if (key, nonce, aad) = mark then 1 else 0))
    else none
  decrypt key nonce aad msg :=
    if tagLen ≤ msg.length ∧
        msg.drop (msg.length - tagLen) = List.replicate tagLen (if (key, nonce, aad) = mark then 1 else 0) then
      some (msg.take (msg.length - tagLen))
    else none
  length_encrypt key nonce aad msg out sealed := by
    split_ifs at sealed <;> obtain rfl := Option.some.inj sealed <;> simp
  length_decrypt key nonce aad msg out opened := by
    split_ifs at opened with long <;> obtain rfl := Option.some.inj opened <;>
      simp only [List.length_take] <;> omega
  encrypt_isSome key nonce aad msg short := by simp [short]

theorem opensOnly_marked {mark : FixedBytes 32 × FixedBytes 12 × List UInt8} {c : List UInt8}
    (marked : c.drop (c.length - tagLen) = List.replicate tagLen 1) :
    @OpensOnly (markingCipher mark) c := by
  have tagged : ∀ {used : FixedBytes 32 × FixedBytes 12 × List UInt8},
      c.drop (c.length - tagLen) = List.replicate tagLen (if used = mark then 1 else 0) → used = mark := by
    intro used tag
    by_contra other
    rw [if_neg other, marked] at tag
    cases tag
  intro key nonce aad msg key' nonce' aad' msg' encrypted opened
  change (if _ then _ else _) = _ at encrypted
  change (if _ then _ else _) = _ at opened
  rw [Option.ite_none_right_eq_some] at encrypted opened
  have sealedTag : c.drop (c.length - tagLen) =
      List.replicate tagLen (if (key, nonce, aad) = mark then 1 else 0) := by
    rw [← Option.some.inj encrypted.2]
    simp
  have same := (tagged opened.1.2).trans (tagged sealedTag).symm
  exact ⟨congrArg Prod.fst same, congrArg (·.2.1) same, congrArg (·.2.2) same⟩

local instance paddingDigest : Sha256 := residueDigest

def plainHello : List UInt8 := (encodeMessage (idleDriver .initiator).ourHello).toOption.getD []

/-- The HELLO of the initiator on its way, with another byte at the end of the padding. -/
def paddedHello : List UInt8 := plainHello.take 255 ++ [1]

local instance paddingCipher : ChaCha20Poly1305 := markingCipher
  (SymmetricState.newForProtocol.ck, nonceBytes 0,
    (mixAll .newForProtocol [paddedHello ++ plainHello, List.replicate 32 0, [], List.replicate 32 0]).h.bytes)

local instance paddingCode : HmacSha256 := plainMac

local instance paddingCurve : X25519 := plainCurve

local instance paddingSignatures : Ed25519 := Proof.Storage.trusting

def firstBody : List UInt8 := (encodeMessage (.handshake ⟨List.replicate 32 0⟩)).toOption.getD []

def responderCalls : List (EntryStore × Call) :=
  [(EntryStore.new, .onBytes (frameBytes paddedHello ++ frameBytes firstBody) 0)]

def secondBody : List UInt8 :=
  ((((record (idleDriver .responder) responderCalls).map sent).getD [])[1]?.getD []).drop 2

def initiatorCalls : List (EntryStore × Call) :=
  [(EntryStore.new, .onBytes (frameBytes plainHello ++ frameBytes secondBody) 0)]

def secondMsg : Handshake :=
  match decodeMessage secondBody with
  | .ok (.handshake msg) => msg
  | _ => ⟨[]⟩

theorem tampered_hello_refused_padding : ∃ moments moment,
    record (idleDriver .initiator) ((EntryStore.new, .start) :: initiatorCalls) = some moments ∧
      moment ∈ moments ∧ moment.out = ⟨[], [.closed .handshakeFailed]⟩ := by
  obtain ⟨moments, ran⟩ := Option.isSome_iff_exists.mp (show (record (idleDriver .initiator)
    ((EntryStore.new, .start) :: initiatorCalls)).isSome from by decide +kernel)
  obtain ⟨moments', ran'⟩ := Option.isSome_iff_exists.mp (show (record (idleDriver .responder)
    responderCalls).isSome from by decide +kernel)
  have inTime : (record (idleDriver .initiator) ((EntryStore.new, .start) :: initiatorCalls)).all
      fun moments => decide (∀ moment ∈ moments, InTime moment.before moment.call) := by
    decide +kernel
  have answer : (record (idleDriver .responder) responderCalls).all
      fun moments => decide ((sent moments)[1]? = some (frameBytes secondBody)) := by
    decide +kernel
  rw [ran, Option.all_some, decide_eq_true_iff] at inTime
  rw [ran', Option.all_some, decide_eq_true_iff] at answer
  have hello : encodeMessage (idleDriver .initiator).ourHello = .ok plainHello := by decide +kernel
  have reads : BeginsWith (received initiatorCalls) plainHello secondBody :=
    ⟨by decide +kernel, by decide +kernel, [], by decide +kernel⟩
  have reads' : BeginsWith (received responderCalls) paddedHello firstBody :=
    ⟨by decide +kernel, by decide +kernel, [], by decide +kernel⟩
  have accepted : decodeMessage plainHello = .ok (.hello ⟨[1], 0, [1]⟩) := by decide +kernel
  have message₁ : decodeMessage firstBody = .ok (.handshake ⟨List.replicate 32 0⟩) := by decide +kernel
  have message₂ : decodeMessage secondBody = .ok (.handshake secondMsg) := by decide +kernel
  have tampered : (plainHello, plainHello) ≠ (paddedHello, plainHello) := by decide +kernel
  have bound : OpensOnly (sealedStatic secondMsg.msg) := opensOnly_marked (by decide +kernel)
  obtain ⟨-, earlier, moment, later, rfl, -, out, -⟩ :=
    tampered_hello_refused ran ran' hello hello inTime reads reads' accepted (by decide +kernel) answer
      message₁ message₂ tampered (by rw [NoCollisions]; decide +kernel) bound
  exact ⟨_, moment, ran, by simp, out⟩

end Padding

end Racnet.Proof.Driver
