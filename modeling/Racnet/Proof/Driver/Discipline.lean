import Racnet.Proof.Driver.Calls
import Racnet.Proof.Driver.Segmentation

/-!
# What a link tells its peer

In the cleartext epoch a link sends its HELLO, its handshake messages and at most one ERROR. After it,
all that it sends is encrypted.
-/

namespace Racnet.Proof.Driver
open Lib Noise Store Sync Wire Link

def IsHello (driver : LinkDriver) (frame : List UInt8) : Prop :=
  encodeFrame driver.ourHello = .ok frame

def IsHandshake (frame : List UInt8) : Prop :=
  ∃ noiseMsg, encodeFrame (.handshake ⟨noiseMsg⟩) = .ok frame

section

theorem intoTransport_keyed [HmacSha256] {hs : HandshakeState} {transport : TransportState}
    {remote : PublicKey} (opened : hs.intoTransport = .ok (transport, remote)) :
    transport.send.k.isSome := by
  rw [HandshakeState.intoTransport] at opened
  split_ifs at opened
  split at opened
  · cases opened
  · dsimp only at opened
    split at opened <;> cases opened <;> rfl

theorem phaseOf_transport {driver : LinkDriver} {transport : TransportState}
    (established : driver.state = .transport transport) : phaseOf driver = .established := by
  rw [phaseOf, established]

variable [ChaCha20Poly1305]

/-- The frames that a transport encrypts one after the other, with the bodies that it decrypts in
between. -/
inductive Ciphertexts : TransportState → List (List UInt8) → TransportState → Prop where
  | done {transport : TransportState} : Ciphertexts transport [] transport
  | received {transport next last : TransportState} {frames : List (List UInt8)}
      {body plaintext : List UInt8} (decrypted : transport.decrypt body = (.ok plaintext, next))
      (rest : Ciphertexts next frames last) : Ciphertexts transport frames last
  | sent {transport next last : TransportState} {frames : List (List UInt8)} {msg : Message}
      {frame : List UInt8} (encrypted : LinkDriver.encryptFrame transport msg = (.ok frame, next))
      (rest : Ciphertexts next frames last) : Ciphertexts transport (frame :: frames) last

theorem Ciphertexts.append {transport middle last : TransportState} {first second : List (List UInt8)}
    (earlier : Ciphertexts transport first middle) (later : Ciphertexts middle second last) :
    Ciphertexts transport (first ++ second) last := by
  induction earlier with
  | done => exact later
  | received decrypted rest ih => exact .received decrypted (ih later)
  | sent encrypted rest ih => exact .sent encrypted (ih later)

theorem ciphertexts_encryptAll {transport last : TransportState} {msgs : List Message}
    {frames : List (List UInt8)} (encrypted : encryptAll transport msgs = some (frames, last)) :
    Ciphertexts transport frames last := by
  induction msgs generalizing transport frames with
  | nil =>
    cases encrypted
    exact .done
  | cons msg msgs ih =>
    obtain ⟨frame, next, later, first, rest, rfl⟩ := encryptAll_cons encrypted
    exact .sent first (ih rest)

theorem ciphertexts_errorFrames (transport : TransportState) (code : UInt64) :
    ∃ last, Ciphertexts transport (errorFrames transport code) last := by
  rcases encrypted : LinkDriver.encryptFrame transport (.error ⟨code⟩) with ⟨error | frame, next⟩
  · rw [errorFrames, encrypted]
    exact ⟨transport, .done⟩
  · rw [errorFrames, encrypted]
    exact ⟨next, .sent encrypted .done⟩

/-- A frame around a ciphertext of the cipher. -/
def Sealed (frame : List UInt8) : Prop :=
  ∃ key nonce plaintext ciphertext, ChaCha20Poly1305.encrypt key nonce [] plaintext = some ciphertext ∧
    frame = frameBytes ciphertext

theorem rekeyIfDue_keyed {cipher : CipherState} (keyed : cipher.k.isSome) :
    (TransportState.rekeyIfDue cipher).k.isSome := by
  rw [TransportState.rekeyIfDue]
  split_ifs
  · obtain ⟨key, known⟩ := Option.isSome_iff_exists.mp keyed
    rw [CipherState.rekeyPreservingNonce, CipherState.rekey, known]
    rfl
  · exact keyed

theorem encryptFrame_sealed {transport next : TransportState} {msg : Message} {frame : List UInt8}
    (keyed : transport.send.k.isSome)
    (encrypted : LinkDriver.encryptFrame transport msg = (.ok frame, next)) :
    Sealed frame ∧ next.send.k.isSome := by
  obtain ⟨key, known⟩ := Option.isSome_iff_exists.mp (rekeyIfDue_keyed keyed)
  rw [LinkDriver.encryptFrame] at encrypted
  cases encoded : encodeMessage msg with
  | error e =>
    rw [encoded] at encrypted
    cases encrypted
  | ok plaintext =>
    rw [encoded] at encrypted
    dsimp only at encrypted
    rw [TransportState.encrypt] at encrypted
    by_cases failed : transport.failed = true
    · rw [if_pos failed] at encrypted
      cases encrypted
    rw [if_neg failed, CipherState.encryptWithAd, known] at encrypted
    dsimp only at encrypted
    split_ifs at encrypted
    · cases encrypted
    cases sealed : ChaCha20Poly1305.encrypt key (nonceBytes (TransportState.rekeyIfDue transport.send).n)
        [] plaintext with
    | none =>
      rw [sealed] at encrypted
      cases encrypted
    | some ciphertext =>
      rw [sealed] at encrypted
      cases encrypted
      exact ⟨⟨key, _, plaintext, ciphertext, sealed, rfl⟩, by simp⟩

theorem decrypt_send {transport next : TransportState} {body plaintext : List UInt8}
    (decrypted : transport.decrypt body = (.ok plaintext, next)) : next.send = transport.send := by
  rw [TransportState.decrypt] at decrypted
  split_ifs at decrypted
  · cases decrypted
  · exact (congrArg (fun result => result.2.send) decrypted).symm

theorem Ciphertexts.sealed {first last : TransportState} {frames : List (List UInt8)}
    (ciphertexts : Ciphertexts first frames last) (keyed : first.send.k.isSome) :
    (∀ frame ∈ frames, Sealed frame) ∧ last.send.k.isSome := by
  induction ciphertexts with
  | done => exact ⟨by simp, keyed⟩
  | received decrypted rest ih => exact ih (by rwa [decrypt_send decrypted])
  | sent encrypted rest ih =>
    obtain ⟨front, keyed⟩ := encryptFrame_sealed keyed encrypted
    exact ⟨List.forall_mem_cons.mpr ⟨front, (ih keyed).1⟩, (ih keyed).2⟩

/-- What the frames of a call, or of a part of it, are, when they are not dropped. `buffered` is what the
driver has to read. A call that establishes the link goes on with the transport that its handshake ends in. -/
inductive Speaks [Sha256] [HmacSha256] (driver : LinkDriver) (buffered : FrameDecoder) (after : LinkDriver)
    (frames : List (List UInt8)) (events : List LinkEvent) : Prop where
  | inert (ended : driver.isClosed = true) (silent : frames = [])
  | early (phase : phaseOf driver = .early) (pending : phaseOf after ≠ .established)
      (unestablished : ∀ remote, .established remote ∉ events) (clear : ∀ frame ∈ frames, IsHello driver frame ∨ IsHandshake frame)
  | refused (frame body : List UInt8) (rest : FrameDecoder) (hello : Hello)
      (waiting : driver.state = .awaitPeerHello) (next : buffered.nextBody = (some body, rest))
      (decoded : decodeMessage body = .ok (.hello hello))
      (disjoint : ∀ version ∈ hello.versions, version ∉ driver.config.versions)
      (encoded : encodeFrame (.error ⟨2⟩) = .ok frame) (last : frames = [frame])
      (unestablished : ∀ remote, .established remote ∉ events)
      (ended : after.closeReason = some .versionIncompatible)
  | crossing (clear secret : List (List UInt8)) (hs : HandshakeState) (first last : TransportState)
      (remote : PublicKey) (phase : phaseOf driver = .early) (split : frames = clear ++ secret)
      (cleartext : ∀ frame ∈ clear, IsHello driver frame ∨ IsHandshake frame)
      (opened : hs.intoTransport = .ok (first, remote))
      (established : .established (fingerprintOf remote) ∈ events)
      (ciphertext : Ciphertexts first secret last)
      (reached : after.state = .transport last ∨ after.isClosed = true)
  | transport (first last : TransportState) (established : driver.state = .transport first)
      (ciphertext : Ciphertexts first frames last)
      (reached : after.state = .transport last ∨ after.isClosed = true)

variable [Sha256] [HmacSha256] {driver middle after : LinkDriver} {buffered : FrameDecoder}
  {frames : List (List UInt8)} {events : List LinkEvent}

theorem speaks_idle (driver : LinkDriver) (buffered : FrameDecoder) :
    Speaks driver buffered driver [] [] := by
  cases state : driver.state with
  | awaitPeerHello => exact .early (by rw [phaseOf, state]) (by simp [phaseOf, state]) (by simp) (by simp)
  | handshaking hs => exact .early (by rw [phaseOf, state]) (by simp [phaseOf, state]) (by simp) (by simp)
  | transport transport => exact .transport transport transport state .done (Or.inl state)
  | closed reason =>
    exact .inert (by rw [LinkDriver.isClosed, LinkDriver.closeReason, state]; rfl) rfl

theorem speaks_one {frame : List UInt8} (phase : phaseOf driver = .early)
    (still : phaseOf after = .early) (clear : IsHello driver frame ∨ IsHandshake frame) :
    Speaks driver buffered after [frame] [] := by
  refine .early phase (by rw [still]; decide) (by simp) fun other mem => ?_
  rwa [List.mem_singleton.mp mem]

theorem Speaks.established {transport : TransportState}
    (speaks : Speaks driver buffered after frames events)
    (state : driver.state = .transport transport) :
    ∃ last, Ciphertexts transport frames last ∧
      (after.state = .transport last ∨ after.isClosed = true) := by
  have phase := phaseOf_transport state
  cases speaks with
  | inert ended silent => cases phase.symm.trans (isClosed_iff.mp ended)
  | early early => cases phase.symm.trans early
  | refused _ _ _ _ waiting => cases state.symm.trans waiting
  | crossing _ _ _ _ _ _ early => cases phase.symm.trans early
  | transport first last established ciphertext reached =>
    cases state.symm.trans established
    exact ⟨last, ciphertext, reached⟩

theorem Speaks.append {frames' : List (List UInt8)} {events' : List LinkEvent}
    {buffered' : FrameDecoder} (earlier : Speaks driver buffered middle frames events)
    (later : Speaks middle buffered' after frames' events')
    (begun : driver.isClosed = false) (open_ : middle.isClosed = false)
    (answered : middle.state ≠ .awaitPeerHello) (config : middle.config = driver.config) :
    Speaks driver buffered after (frames ++ frames') (events ++ events') := by
  have ours : ∀ frame, IsHello middle frame ∨ IsHandshake frame →
      IsHello driver frame ∨ IsHandshake frame := by
    intro frame clear
    rwa [IsHello, LinkDriver.ourHello, config] at clear
  cases earlier with
  | inert ended silent => cases ended.symm.trans begun
  | refused _ _ _ _ _ _ _ _ _ _ _ ended =>
    rw [LinkDriver.isClosed, ended] at open_
    cases open_
  | early phase pending unestablished clear =>
    cases later with
    | inert ended silent => cases ended.symm.trans open_
    | refused _ _ _ _ waiting => exact absurd waiting answered
    | early phase' pending' unestablished' clear' =>
      refine .early phase pending' (fun remote mem => ?_) fun frame mem => ?_
      · exact (List.mem_append.mp mem).elim (unestablished remote) (unestablished' remote)
      · exact (List.mem_append.mp mem).elim (clear frame) fun mem => ours frame (clear' frame mem)
    | crossing clear' secret hs begins last remote phase' split cleartext opened event ciphertext
        reached =>
        refine .crossing (frames ++ clear') secret hs begins last remote phase ?_ ?_ opened
          (List.mem_append_right _ event) ciphertext reached
        · rw [split, List.append_assoc]
        · intro frame mem
          rw [List.mem_append] at mem
          exact mem.elim (clear frame) fun mem => ours frame (cleartext frame mem)
    | transport _ _ established => exact absurd (phaseOf_transport established) pending
  | crossing clear secret hs begins last remote phase split cleartext opened event ciphertext reached =>
    rcases reached with state | ended
    · obtain ⟨final, rest, reached⟩ := later.established state
      refine .crossing clear (secret ++ frames') hs begins final remote phase ?_ cleartext opened
        (List.mem_append_left _ event) (ciphertext.append rest) reached
      rw [split, List.append_assoc]
    · cases ended.symm.trans open_
  | transport begins last established ciphertext reached =>
    rcases reached with state | ended
    · obtain ⟨final, rest, reached⟩ := later.established state
      exact .transport begins final established (ciphertext.append rest) reached
    · cases ended.symm.trans open_

theorem Speaks.of_decoder {decoder : FrameDecoder}
    (speaks : Speaks (withDecoder decoder driver) buffered after frames events) :
    Speaks driver buffered after frames events := by
  cases speaks with
  | inert ended silent => exact .inert ended silent
  | early phase pending unestablished clear => exact .early phase pending unestablished clear
  | refused frame body rest hello waiting next decoded disjoint encoded last unestablished ended =>
    exact .refused frame body rest hello waiting next decoded disjoint encoded last unestablished ended
  | crossing clear secret hs first last remote phase split cleartext opened established ciphertext
      reached =>
      exact .crossing clear secret hs first last remote phase split cleartext opened established
        ciphertext reached
  | transport first last established ciphertext reached =>
    exact .transport first last established ciphertext reached

end

/-! ## Bodies and calls -/

section
variable {driver after : LinkDriver} {store store' : EntryStore} {effect : Effect}

theorem disjoint_of_commonVersion {hello : Hello} (none : driver.commonVersion hello = none) :
    ∀ version ∈ hello.versions, version ∉ driver.config.versions := by
  intro version mem ours
  rw [LinkDriver.commonVersion, List.max?_eq_none_iff, List.filter_eq_nil_iff] at none
  exact none version mem (by simp [ours])

theorem isHello_frameBytes {body : List UInt8} (encoded : encodeMessage driver.ourHello = .ok body) :
    IsHello driver (frameBytes body) := by
  rw [IsHello, encodeFrame, encoded]
  rfl

theorem closed_of_dropped {phase : Phase} (plain : Plain effect) (dropped : effect.dropped = true)
    (followed : phase.follow effect.events = some (phaseOf after)) : after.isClosed = true := by
  obtain ⟨-, reason, mem, -⟩ := plain.silent dropped
  by_contra open_
  exact not_closed_of_open followed (fun ended => open_ (isClosed_iff.mpr ended)) reason mem

/-- An established link has a key to encrypt with. -/
def Keyed (driver : LinkDriver) : Prop :=
  ∀ transport, driver.state = .transport transport → transport.send.k.isSome

theorem keyed_of_reached {last : TransportState} (keyed : last.send.k.isSome)
    (reached : after.state = .transport last ∨ after.isClosed = true) : Keyed after := by
  intro transport established
  rcases reached with state | ended
  · cases established.symm.trans state
    exact keyed
  · cases (phaseOf_transport established).symm.trans (isClosed_iff.mp ended)

variable [Sha256] [HmacSha256] [X25519] [ChaCha20Poly1305] [Ed25519]

theorem BodyStep.answered {body : List UInt8}
    (step : BodyStep driver store body after store' effect) : after.state ≠ .awaitPeerHello := by
  cases step with
  | hello waiting step => cases step <;> simp [closedWith]
  | handshake hs waiting step => cases step <;> simp [closedWith]
  | transport transport established step => cases step <;> simp [closedWith]

theorem BodyStep.speaks {body : List UInt8} {buffered rest : FrameDecoder}
    (step : BodyStep driver store body after store' effect)
    (next : buffered.nextBody = (some body, rest)) (kept : effect.dropped = false) :
    Speaks driver buffered after effect.frames effect.events := by
  cases step with
  | hello waiting step =>
    have phase : phaseOf driver = .early := by rw [phaseOf, waiting]
    cases step with
    | failed => cases kept
    | incompatible hello frame decoded disjoint encoded =>
      exact .refused frame body rest hello waiting next decoded
        (disjoint_of_commonVersion disjoint) encoded rfl
        (fun remote mem => by cases List.mem_singleton.mp mem) rfl
    | welcomed hello version ownBody s e role decoded common keys encoded =>
      exact speaks_one phase rfl (Or.inl (isHello_frameBytes encoded))
    | answered hello version s e noiseMsg frame hs role decoded common keys written encoded =>
      exact speaks_one phase rfl (Or.inr ⟨noiseMsg, encoded⟩)
  | handshake hs waiting step =>
    have phase : phaseOf driver = .early := by rw [phaseOf, waiting]
    cases step with
    | failed => cases kept
    | continued handshake read written noiseMsg frame decoded reads open_ writes more encoded =>
      exact speaks_one phase rfl (Or.inr ⟨noiseMsg, encoded⟩)
    | concluded handshake read written noiseMsg frame transport remote decoded reads open_ writes done
        encoded split =>
        refine .crossing [frame] [] written transport transport remote phase rfl (fun other mem => ?_)
          split (List.mem_singleton_self _) .done (Or.inl rfl)
        rw [List.mem_singleton.mp mem]
        exact Or.inr ⟨noiseMsg, encoded⟩
    | finished handshake read transport remote decoded reads done split =>
      exact .crossing [] [] read transport transport remote phase rfl (by simp) split
        (List.mem_singleton_self _) .done (Or.inl rfl)
  | transport transport established step =>
    cases step with
    | dropped | peerError | exhausted => cases kept
    | violated plaintext received code decrypted =>
      obtain ⟨last, sent⟩ := ciphertexts_errorFrames received code
      exact .transport transport last established (.received decrypted sent) (Or.inr rfl)
    | handled plaintext received last msg handled frames decrypted decoded sync ran accepted
        encrypted =>
        exact .transport transport last established
          (.received decrypted (ciphertexts_encryptAll encrypted)) (Or.inl rfl)
    | refused plaintext received msg handled err decrypted decoded sync ran rejected =>
      obtain ⟨last, sent⟩ := ciphertexts_errorFrames received err.errorCode.toU64
      exact .transport transport last established (.received decrypted sent) (Or.inr rfl)

theorem Bodies.speaks (bodies : Bodies driver store after store' effect)
    (begun : driver.isClosed = false) (kept : effect.dropped = false) :
    Speaks driver driver.decoder after effect.frames effect.events := by
  induction bodies with
  | waiting incomplete => exact speaks_idle _ _
  | closed next step ended => exact (step.speaks next kept).of_decoder
  | @more driver middle after store store₁ store₂ body decoder first second next step open_ rest ih =>
    obtain ⟨first_, second_⟩ := Bool.or_eq_false_iff.mp kept
    have earlier : Speaks driver driver.decoder middle first.frames first.events :=
      (step.speaks next first_).of_decoder
    rw [Effect.andThen, second_]
    exact earlier.append (ih open_ second_) begun open_ step.answered step.keeps.2.2.1

/-- What a driver has to read in a call. -/
def readable (driver : LinkDriver) : Call → FrameDecoder
  | .onBytes bytes _ => driver.decoder.push bytes
  | .start | .onTick _ | .openSync _ | .send _ => driver.decoder

theorem CallStep.speaks {call : Call} (step : CallStep driver store call after store' effect)
    (kept : effect.dropped = false) :
    Speaks driver (readable driver call) after effect.frames effect.events := by
  cases step with
  | idle => exact speaks_idle _ _
  | started body role waiting encoded =>
    have phase : phaseOf driver = .early := by rw [phaseOf, waiting]
    exact speaks_one phase phase (Or.inl (isHello_frameBytes encoded))
  | bytes step =>
    cases step with
    | inert ended => exact .inert ended rfl
    | expired => cases kept
    | read open_ inTime bodies => exact (bodies.speaks open_ kept).of_decoder
  | expired => cases kept
  | sent transport last syncer msg frame established encrypted =>
    exact .transport transport last established (.sent encrypted .done) (Or.inl rfl)
  | exhausted => cases kept
  | ended transport code established =>
    obtain ⟨last, sent⟩ := ciphertexts_errorFrames transport code
    exact .transport transport last established sent (Or.inr rfl)

theorem CallStep.plain {call : Call} (step : CallStep driver store call after store' effect) :
    Plain effect := by
  cases step with
  | idle | started | sent => exact plain_quiet rfl fun _ => by simp
  | bytes step => exact step.plain
  | @expired nowUs reason open_ late =>
    exact (@BytesStep.expired _ _ _ _ _ driver store [] nowUs reason open_ late).plain
  | exhausted => exact plain_silence fun code => by simp
  | ended transport code established => exact @plain_violation _ [] code

theorem CallStep.silent {call : Call} (step : CallStep driver store call after store' effect)
    (dropped : effect.dropped = true) : effect.frames = [] ∧ after.isClosed = true :=
  ⟨(step.plain.silent dropped).1, closed_of_dropped step.plain dropped step.follows⟩

theorem CallStep.sealed {call : Call} (step : CallStep driver store call after store' effect)
    (keyed : Keyed driver) :
    Keyed after ∧ (phaseOf driver = .established → ∀ frame ∈ effect.frames, Sealed frame) := by
  cases dropped : effect.dropped with
  | true =>
    obtain ⟨none, ended⟩ := step.silent dropped
    refine ⟨fun transport established => ?_, by simp [none]⟩
    cases (phaseOf_transport established).symm.trans (isClosed_iff.mp ended)
  | false =>
  cases step.speaks dropped with
  | inert ended silent =>
    rw [(step.inert ended).1, silent]
    exact ⟨keyed, by simp⟩
  | early phase pending unestablished clear =>
    refine ⟨fun transport established => absurd (phaseOf_transport established) pending, fun other => ?_⟩
    cases phase.symm.trans other
  | refused frame body rest hello waiting next decoded disjoint encoded last unestablished ended =>
    refine ⟨fun transport established => ?_, fun other => ?_⟩
    · rw [LinkDriver.closeReason, established] at ended
      cases ended
    · rw [phaseOf, waiting] at other
      cases other
  | crossing clear secret hs first last remote phase split cleartext opened event ciphertext reached =>
    refine ⟨keyed_of_reached (ciphertext.sealed (intoTransport_keyed opened)).2 reached, fun other => ?_⟩
    cases phase.symm.trans other
  | transport first last established ciphertext reached =>
    obtain ⟨frames, still⟩ := ciphertext.sealed (keyed first established)
    exact ⟨keyed_of_reached still reached, fun _ => frames⟩

/-! ## The reason of a close -/

omit [Sha256] [HmacSha256] [X25519] [ChaCha20Poly1305] [Ed25519] in
theorem reason_sync {events : List SyncEvent} {reason given : CloseReason}
    (mem : .closed reason ∈ events.map LinkEvent.sync ++ [.closed given]) : reason = given := by
  rcases List.mem_append.mp mem with old | new
  · obtain ⟨event, -, other⟩ := List.mem_map.mp old
    cases other
  · cases List.mem_singleton.mp new
    rfl

theorem BodyStep.reason {body : List UInt8} {reason : CloseReason}
    (step : BodyStep driver store body after store' effect) (mem : .closed reason ∈ effect.events) :
    after.closeReason = some reason := by
  cases step with
  | hello waiting step =>
    cases step with
    | failed | incompatible =>
      cases List.mem_singleton.mp mem
      rfl
    | welcomed | answered => cases mem
  | handshake hs waiting step =>
    cases step with
    | failed =>
      cases List.mem_singleton.mp mem
      rfl
    | continued => cases mem
    | concluded | finished => cases List.mem_singleton.mp mem
  | transport transport established step =>
    cases step with
    | dropped | peerError | violated =>
      cases List.mem_singleton.mp mem
      rfl
    | handled =>
      obtain ⟨event, -, other⟩ := List.mem_map.mp mem
      cases other
    | exhausted | refused =>
      rw [reason_sync mem]
      rfl

theorem Bodies.reason {reason : CloseReason} (bodies : Bodies driver store after store' effect)
    (mem : .closed reason ∈ effect.events) : after.closeReason = some reason := by
  induction bodies with
  | waiting incomplete => cases mem
  | closed next step ended => exact step.reason mem
  | @more driver middle after store store₁ store₂ body decoder first second next step open_ rest ih =>
    rcases List.mem_append.mp mem with early | late
    · have found := step.reason early
      rw [LinkDriver.isClosed, found] at open_
      cases open_
    · exact ih late

theorem CallStep.reason {call : Call} {reason : CloseReason}
    (step : CallStep driver store call after store' effect) (mem : .closed reason ∈ effect.events) :
    after.closeReason = some reason := by
  cases step with
  | idle | started | sent => cases mem
  | bytes step =>
    cases step with
    | inert ended => cases mem
    | expired reason open_ late =>
      cases List.mem_singleton.mp mem
      rfl
    | read open_ inTime bodies => exact bodies.reason mem
  | expired | exhausted | ended =>
    cases List.mem_singleton.mp mem
    rfl

omit [Sha256] [HmacSha256] [X25519] [ChaCha20Poly1305] [Ed25519] in
theorem closed_reported {phase : Phase} {events : List LinkEvent}
    (followed : phase.follow events = some .closed) (open_ : phase ≠ .closed) :
    ∃ reason, .closed reason ∈ events := by
  induction events generalizing phase with
  | nil => exact absurd (Option.some.inj followed) open_
  | cons event events ih =>
    cases event with
    | closed reason => exact ⟨reason, List.mem_cons_self⟩
    | established _ | sync _ =>
      rw [Phase.follow, Option.bind_eq_some_iff] at followed
      obtain ⟨next, stepped, followed⟩ := followed
      have still : next ≠ .closed := by
        rintro rfl
        cases phase <;> cases stepped
      obtain ⟨reason, mem⟩ := ih followed still
      exact ⟨reason, List.mem_cons_of_mem _ mem⟩

theorem CallStep.closed_iff {call : Call} (reason : CloseReason)
    (step : CallStep driver store call after store' effect) :
    .closed reason ∈ effect.events ↔
      driver.closeReason = none ∧ after.closeReason = some reason := by
  constructor
  · intro mem
    refine ⟨?_, step.reason mem⟩
    cases ended : driver.isClosed with
    | false => exact Option.isNone_iff_eq_none.mp (Option.isSome_eq_false_iff.mp ended)
    | true =>
      rw [(step.inert ended).2.2] at mem
      cases mem
  · rintro ⟨open_, ended⟩
    have last : phaseOf after = .closed := isClosed_iff.mp (by rw [LinkDriver.isClosed, ended]; rfl)
    have first : phaseOf driver ≠ .closed := fun phase => by
      have closed := isClosed_iff.mpr phase
      rw [LinkDriver.isClosed, open_] at closed
      cases closed
    obtain ⟨other, mem⟩ := closed_reported (last ▸ step.follows) first
    rwa [← Option.some.inj ((step.reason mem).symm.trans ended)]

/-! ## Runs -/

structure Moment where
  before : LinkDriver
  call : Call
  out : LinkOutput
  after : LinkDriver

/-- The calls of a run, in which the store may change between them in any way. -/
def record : LinkDriver → List (EntryStore × Call) → Option (List Moment)
  | _, [] => some []
  | driver, (store, call) :: calls => do
    let (after, _, out) ← perform driver store call
    let moments ← record after calls
    some (⟨driver, call, out, after⟩ :: moments)

theorem record_performed {call : Call} {calls : List (EntryStore × Call)} {moments : List Moment}
    (ran : record driver ((store, call) :: calls) = some moments) :
    ∃ after store' out later, perform driver store call = some (after, store', out) ∧
      record after calls = some later ∧ moments = ⟨driver, call, out, after⟩ :: later := by
  rw [record] at ran
  obtain ⟨⟨after, store', out⟩, performed, ran⟩ := Option.bind_eq_some_iff.mp ran
  obtain ⟨later, recorded, ran⟩ := Option.bind_eq_some_iff.mp ran
  exact ⟨after, store', out, later, performed, recorded, (Option.some.inj ran).symm⟩

theorem record_cons {call : Call} {calls : List (EntryStore × Call)} {moments : List Moment}
    (ran : record driver ((store, call) :: calls) = some moments) :
    ∃ after store' effect later, CallStep driver store call after store' effect ∧
      record after calls = some later ∧
      moments = ⟨driver, call, ⟨effect.frames, effect.events⟩, after⟩ :: later := by
  obtain ⟨after, store', out, later, performed, recorded, rfl⟩ := record_performed ran
  obtain ⟨effect, step, rfl⟩ := perform_step performed
  refine ⟨after, store', effect, later, step, recorded, ?_⟩
  rw [← effect.frames_on_new, ← effect.events_on_new]

/-- The reasons of a close that the peer is not told. -/
def IsSilent : CloseReason → Prop
  | .handshakeFailed | .handshakeTimeout | .badCiphertextLength | .decryptFailed | .peerError _
  | .lifetimeExpired | .nonceExhausted => True
  | .versionIncompatible | .protocolViolation _ => False

def isClose : LinkEvent → Bool
  | .closed _ => true
  | .established _ | .sync _ => false

theorem record_ended {calls : List (EntryStore × Call)} {moments : List Moment}
    (ended : driver.isClosed = true) (ran : record driver calls = some moments) :
    ∀ moment ∈ moments, moment.out = {} ∧ moment.after = driver := by
  induction calls generalizing moments with
  | nil =>
    cases ran
    simp
  | cons head calls ih =>
    obtain ⟨after, store', effect, later, step, recorded, rfl⟩ := record_cons ran
    obtain ⟨rfl, -, rfl⟩ := step.inert ended
    intro moment mem
    rcases List.mem_cons.mp mem with rfl | mem
    · exact ⟨rfl, rfl⟩
    · exact ih recorded moment mem

structure Disciplined (moment : Moment) : Prop where
  speaks : moment.out.frames = [] ∧ moment.after.isClosed = true ∨
    Speaks moment.before (readable moment.before moment.call) moment.after moment.out.frames
      moment.out.events
  silent : ∀ reason, .closed reason ∈ moment.out.events → IsSilent reason → moment.out.frames = []
  closes : ∀ reason, .closed reason ∈ moment.out.events ↔
    moment.before.closeReason = none ∧ moment.after.closeReason = some reason

theorem CallStep.disciplined {call : Call} (step : CallStep driver store call after store' effect) :
    Disciplined ⟨driver, call, ⟨effect.frames, effect.events⟩, after⟩ := by
  refine ⟨?_, fun reason mem silent => ?_, fun reason => step.closed_iff reason⟩
  all_goals cases dropped : effect.dropped
  · exact Or.inr (step.speaks dropped)
  · exact Or.inl (step.silent dropped)
  · rcases step.plain.spoken dropped reason mem with ⟨code, rfl⟩ | ⟨rfl, -⟩ <;> cases silent
  · exact (step.silent dropped).1

omit [Sha256] [HmacSha256] [X25519] [ChaCha20Poly1305] [Ed25519] in
theorem follow_count {phase last : Phase} {events : List LinkEvent}
    (followed : phase.follow events = some last) : events.countP isClose ≤ 1 := by
  induction events generalizing phase with
  | nil => simp
  | cons event events ih =>
    rw [Phase.follow, Option.bind_eq_some_iff] at followed
    obtain ⟨next, stepped, followed⟩ := followed
    cases event with
    | closed reason =>
      have ended : next = .closed := by
        cases phase <;> cases stepped <;> rfl
      rw [ended] at followed
      rw [follow_closed followed]
      rfl
    | established _ | sync _ =>
      rw [List.countP_cons_of_neg (by simp [isClose])]
      exact ih followed

theorem record_follows {calls : List (EntryStore × Call)} {moments : List Moment}
    (ran : record driver calls = some moments) :
    ∃ last, (phaseOf driver).follow (moments.flatMap fun moment => moment.out.events) = some last := by
  induction calls generalizing driver moments with
  | nil =>
    cases ran
    exact ⟨_, rfl⟩
  | cons head calls ih =>
    obtain ⟨after, store', effect, later, step, recorded, rfl⟩ := record_cons ran
    obtain ⟨last, followed⟩ := ih recorded
    refine ⟨last, ?_⟩
    rw [List.flatMap_cons, follow_append, step.follows]
    exact followed

theorem record_all {Holds : LinkDriver → Prop} {Told : Moment → Prop}
    (kept : ∀ {driver after : LinkDriver} {store store' : EntryStore} {call : Call} {effect : Effect},
      Holds driver → CallStep driver store call after store' effect →
      Holds after ∧ Told ⟨driver, call, ⟨effect.frames, effect.events⟩, after⟩)
    {calls : List (EntryStore × Call)} {moments : List Moment} (holds : Holds driver)
    (ran : record driver calls = some moments) : ∀ moment ∈ moments, Told moment := by
  induction calls generalizing driver moments with
  | nil =>
    cases ran
    simp
  | cons head calls ih =>
    obtain ⟨after, store', effect, later, step, recorded, rfl⟩ := record_cons ran
    obtain ⟨still, told⟩ := kept holds step
    exact List.forall_mem_cons.mpr ⟨told, ih still recorded⟩

/-- The discipline of a link over any run: what its frames are, that its failures do not show, and that
it is closed once and for good. A link that has a key whenever it is established, as a new one, keeps one,
and all that it sends from then on is sealed. -/
theorem failure_discipline {calls : List (EntryStore × Call)} {moments : List Moment}
    (ran : record driver calls = some moments) :
    (∀ moment ∈ moments, Disciplined moment) ∧
      (moments.flatMap fun moment => moment.out.events).countP isClose ≤ 1 ∧
      (∀ (earlier later : List Moment) (moment : Moment), moments = earlier ++ moment :: later →
        moment.after.isClosed = true → ∀ next ∈ later, next.out = {} ∧ next.after = moment.after) ∧
      (Keyed driver → ∀ moment ∈ moments, Keyed moment.before ∧ Keyed moment.after ∧
        (phaseOf moment.before = .established → ∀ frame ∈ moment.out.frames, Sealed frame)) := by
  obtain ⟨last, followed⟩ := record_follows ran
  refine ⟨?_, follow_count followed, ?_, fun keyed => ?_⟩
  · exact record_all (fun _ step => ⟨trivial, step.disciplined⟩) trivial ran
  · clear followed
    intro earlier later moment split ended
    induction earlier generalizing driver moments calls with
    | nil =>
      cases calls with
      | nil =>
        cases ran
        cases split
      | cons head calls =>
        obtain ⟨after, store', effect, rest, step, recorded, rfl⟩ := record_cons ran
        cases split
        exact record_ended ended recorded
    | cons first earlier ih =>
      cases calls with
      | nil =>
        cases ran
        cases split
      | cons head calls =>
        obtain ⟨after, store', effect, rest, step, recorded, rfl⟩ := record_cons ran
        exact ih recorded (List.cons.inj split).2
  · exact record_all (fun keyed step => ⟨(step.sealed keyed).1, keyed, step.sealed keyed⟩) keyed ran

end

/-! ## A run -/

section
open StandIns

/-- A responder that is sent, with the last message of the handshake, the end of a session that it does not
know, and then a message more. -/
def strayCalls : List (EntryStore × Call) :=
  handshaken.elim [] fun talk =>
    let stray := messageBytes talk.initiator (.reconDone ⟨7⟩)
    [(EntryStore.new, .onBytes talk.hello 0), (EntryStore.new, .onBytes talk.first 0),
      (EntryStore.new, .onBytes (talk.third ++ stray) 0), (EntryStore.new, .onBytes stray 0)]

def shown (moment : Moment) : List LinkEvent × List Bool :=
  (moment.out.events, moment.out.frames.map fun frame => (decodeMessage (frame.drop 2)).isOk)

theorem shown_stray : (record (idleDriver .responder) strayCalls).map (·.map shown) =
    some [([], [true]), ([], [true]), ([.established (fingerprintOf (FixedBytes.zero 32)),
      .closed (.protocolViolation 1)], [false]), ([], [])] := by
  decide +kernel

theorem isOk_of_encodeFrame {msg : Message} {frame : List UInt8} (encoded : encodeFrame msg = .ok frame) :
    (decodeMessage (frame.drop 2)).isOk = true := by
  cases found : encodeMessage msg with
  | error e =>
    rw [encodeFrame, found] at encoded
    cases encoded
  | ok body =>
    rw [encodeFrame, found] at encoded
    obtain rfl := Except.ok.inj encoded
    rw [frameBytes, List.drop_left' (length_beBytes 2 _),
      Format.decodeMessage_of_encodeMessage found]
    rfl

theorem Speaks.sealed_of_unreadable {driver after : LinkDriver} {buffered : FrameDecoder}
    {frame : List UInt8} {remote : Noise.Fingerprint} {events : List LinkEvent}
    (speaks : Speaks driver buffered after [frame] (.established remote :: events))
    (keyed : Keyed driver) (unreadable : (decodeMessage (frame.drop 2)).isOk = false) : Sealed frame := by
  have unclear : ¬ (IsHello driver frame ∨ IsHandshake frame) := by
    rintro (hello | ⟨noiseMsg, handshake⟩)
    · cases (isOk_of_encodeFrame hello).symm.trans unreadable
    · cases (isOk_of_encodeFrame handshake).symm.trans unreadable
  cases speaks with
  | inert ended silent => cases silent
  | early phase pending unestablished clear =>
    exact absurd List.mem_cons_self (unestablished remote)
  | refused _ _ _ _ _ _ _ _ _ _ unestablished => exact absurd List.mem_cons_self (unestablished remote)
  | crossing clear secret hs first last key phase split cleartext opened event ciphertext reached =>
    have mem : frame ∈ clear ++ secret := split ▸ List.mem_singleton_self frame
    rcases List.mem_append.mp mem with early | late
    · exact absurd (cleartext frame early) unclear
    · exact (ciphertext.sealed (intoTransport_keyed opened)).1 frame late
  | transport first last established ciphertext reached =>
    exact (ciphertext.sealed (keyed first established)).1 frame (List.mem_singleton_self frame)

/-- The link is established and closed in one call. Its ERROR is sealed, and then it is silent. -/
theorem failure_discipline_stray : ∃ first second third fourth,
    record (idleDriver .responder) strayCalls = some [first, second, third, fourth] ∧
      third.out.events = [.established (fingerprintOf (FixedBytes.zero 32)),
        .closed (.protocolViolation 1)] ∧
      (∃ frame, third.out.frames = [frame] ∧ Sealed frame) ∧
      fourth.out = {} := by
  obtain ⟨moments, ran, shows⟩ := Option.map_eq_some_iff.mp shown_stray
  obtain ⟨disciplined, -, -, keyed⟩ := failure_discipline ran
  obtain ⟨first, later, rfl, -, shows⟩ := List.map_eq_cons_iff.mp shows
  obtain ⟨second, later, rfl, -, shows⟩ := List.map_eq_cons_iff.mp shows
  obtain ⟨third, later, rfl, crossed, shows⟩ := List.map_eq_cons_iff.mp shows
  obtain ⟨fourth, later, rfl, quiet, shows⟩ := List.map_eq_cons_iff.mp shows
  obtain rfl := List.map_eq_nil_iff.mp shows
  obtain ⟨events, readable⟩ := Prod.mk.inj crossed
  obtain ⟨frame, none, frames, secret, empty⟩ := List.map_eq_cons_iff.mp readable
  obtain rfl := List.map_eq_nil_iff.mp empty
  have speaks := (disciplined third (by simp)).speaks
  rw [frames, events] at speaks
  have sealed := (speaks.resolve_left nofun).sealed_of_unreadable (keyed nofun third (by simp)).1 secret
  obtain ⟨silent, unread⟩ := Prod.mk.inj quiet
  have last : fourth.out = ⟨[], []⟩ := by
    rw [← silent, ← List.map_eq_nil_iff.mp unread]
  exact ⟨first, second, third, fourth, ran, events, ⟨frame, frames, sealed⟩, last⟩

end

end Racnet.Proof.Driver
