import Racnet.Proof.Driver.Establishment

/-!
# An honest link never desynchronises
-/

namespace Racnet.Proof.Driver
open Lib Noise Store Sync Wire Link
open Proof.Channel (End Duplex)

/-! ## Calls -/

section
variable {pair : Pair} {side : End} {after : LinkDriver} {out : LinkOutput} {rest : List UInt8}

theorem take_stream (pair : Pair) (side : End) : pair.take side (pair side).stream = pair := by
  funext other
  rw [Pair.take]
  split_ifs with same
  · rw [same]
  · rfl

theorem rests_take (quiet : out.frames = []) (role : after.role = (pair side).driver.role)
    (config : after.config = (pair side).driver.config)
    (version : after.negotiatedVersion = (pair side).driver.negotiatedVersion)
    (remote : after.remoteFingerprint = (pair side).driver.remoteFingerprint) (steady : Steady after)
    (still : after.isClosed = false → after.decoder.buf ++ rest = (pair side).unread ∧
      ∃ decoder, after = { (pair side).driver with decoder }) :
    Rests side pair ((pair.take side rest).after side after out {}) := by
  refine ⟨?_, ?_, ?_, ?_, ?_, ?_, ?_, ?_, (pair side.peer).stream, ?_, List.prefix_rfl, fun _ => rfl⟩
  · rwa [after_self]
  · rwa [after_self]
  · rwa [after_self]
  · rwa [after_self]
  · rw [after_self, take_self]
    exact Log.andThen_empty _
  · rw [after_self, take_self]
    exact fun event mem => List.mem_append_left _ mem
  · intro live
    rw [Side.Live, after_self] at live
    rw [Side.unread, after_self, take_self]
    exact still live
  · rwa [after_self]
  · rw [after_peer, take_peer, quiet, List.flatten_nil, List.append_nil]

theorem rests_after (quiet : out.frames = []) (keeps : Keeps (pair side).driver after)
    (steady : Steady after) (still : after.isClosed = false → after = (pair side).driver) :
    Rests side pair (pair.after side after out {}) := by
  have rests : Rests side pair ((pair.take side (pair side).stream).after side after out {}) := by
    refine rests_take quiet keeps.role keeps.config keeps.version keeps.remote steady fun live => ?_
    rw [still live]
    exact ⟨rfl, (pair side).driver.decoder, rfl⟩
  rwa [take_stream] at rests

theorem rests_dropped {middle : LinkDriver} {first : LinkOutput} {log log' : Log} {effect : Effect}
    (ended : after.isClosed = true) (steady : Steady after) (quiet : effect.frames = [])
    (dropped : effect.dropped = true) :
    Rests side ((pair.after side middle first log).after side after (effect.on {}) log')
      (pair.after side after (effect.on first) (log.andThen log')) := by
  have frames : (effect.on first).frames = [] := by
    rw [Effect.on, dropped, quiet]
    rfl
  rw [after_after]
  refine ⟨?_, ?_, ?_, ?_, ?_, ?_, ?_, ?_, (pair side.peer).stream, ?_, ?_, ?_⟩
  · rw [after_self, after_self]
  · rw [after_self, after_self]
  · rw [after_self, after_self]
  · rw [after_self, after_self]
  · rw [after_self, after_self]
  · rw [after_self, after_self]
    simp [Effect.on]
  · intro live
    rw [Side.Live, after_self] at live
    cases ended.symm.trans live
  · rwa [after_self]
  · rw [after_peer, after_peer, frames, List.flatten_nil, List.append_nil]
  · rw [after_peer]
    exact List.prefix_append _ _
  · intro live
    rw [Side.Live, after_self] at live
    cases ended.symm.trans live

end

section
variable [Sha256] [HmacSha256] [X25519] [ChaCha20Poly1305] [Ed25519] {s e s' e' : Keypair}
  {terms : Terms s e s' e'} {pair : Pair} {side : End} {after : LinkDriver} {out : LinkOutput}
  {store store' : EntryStore}

omit [Ed25519] in
theorem Honest.idle (honest : Honest terms pair) (side : End) :
    Honest terms (pair.after side (pair side).driver {} {}) :=
  honest.rests (rests_after rfl ⟨rfl, rfl, rfl, rfl, rfl⟩ (honest.steady side) fun _ => rfl)

theorem Honest.handleBodies {fuel : Nat} (inverts : DecryptInverts) (honest : Honest terms pair)
    (live : (pair side).Live) (enough : (pair side).driver.decoder.buf.length ≤ fuel)
    (ran : LinkDriver.handleBodies fuel (pair side).driver store {} = some (after, store', out)) :
    Honest terms (pair.after side after out (bodiesLog fuel (pair side).driver store)) := by
  induction fuel generalizing pair store out with
  | zero =>
    cases ran
    exact honest.idle side
  | succ fuel ih =>
    rw [handleBodies_succ] at ran
    rw [bodiesLog]
    rcases next : (pair side).driver.decoder.nextBody with ⟨_ | body, decoder⟩
    · rw [next] at ran
      cases ran
      exact honest.idle side
    rw [next] at ran
    obtain ⟨⟨middle, store₁, first⟩, handled, ran⟩ := Option.bind_eq_some_iff.mp ran
    have stepped := honest.handleBody inverts live next handled
    have kept : middle.decoder = decoder := handleBody_keeps_decoder handled
    have shorter := Format.nextBody_shorter next
    dsimp only at ran ⊢
    rw [show LinkDriver.handleBody { (pair side).driver with decoder } store body {} = _ from handled]
    dsimp only
    cases ended : middle.isClosed with
    | true =>
      rw [if_pos ended] at ran
      cases ran
      rw [if_pos rfl]
      exact stepped
    | false =>
      rw [if_neg (by simp [ended])] at ran
      rw [if_neg Bool.false_ne_true]
      -- the rest of the loop adds to what is queued, or drops it
      rcases @handleBodies_acts _ _ _ _ _ fuel middle ended (by rw [kept]; omega) store₁ with
        panics | ⟨after', store₂, effect, bodies, acts⟩
      · cases (panics first).symm.trans ran
      cases (acts first).symm.trans ran
      set log := bodyLog { (pair side).driver with decoder } store body
      have same : (pair.after side middle first log side).driver = middle := by rw [after_self]
      have last := @ih (pair.after side middle first log) (effect.on {}) store₁ stepped
        (by rw [Side.Live, same]; exact ended) (by rw [same, kept]; omega) (by rw [same]; exact acts {})
      rw [same] at last
      cases dropped : effect.dropped with
      | false =>
        rw [after_after] at last
        simpa [Effect.on, dropped] using last
      | true =>
        have closed := closed_of_dropped bodies.plain dropped bodies.follows
        refine last.rests (rests_dropped closed ?_ (bodies.plain.silent dropped).1 dropped)
        have steady := last.steady side
        rwa [after_self] at steady

theorem Honest.deliver {chunk rest : List UInt8} {nowUs : UInt64} (inverts : DecryptInverts)
    (honest : Honest terms pair) (cut : (pair side).stream = chunk ++ rest)
    (ran : perform (pair side).driver store (.onBytes chunk nowUs) = some (after, store', out)) :
    Honest terms ((pair.take side rest).after side after out
      (callLog (pair side).driver store (.onBytes chunk nowUs))) := by
  rw [perform] at ran
  rw [callLog]
  cases ended : (pair side).driver.isClosed with
  | true =>
    rw [onBytes_closed ended] at ran
    cases ran
    rw [if_pos (Or.inl rfl)]
    refine honest.rests (rests_take rfl rfl rfl rfl rfl (honest.steady side) fun live => ?_)
    cases ended.symm.trans live
  | false =>
    cases late : timeout (pair side).driver nowUs with
    | some reason =>
      rw [onBytes_late ended late] at ran
      cases ran
      rw [if_pos (by simp)]
      have other : reason ∉ desyncReasons := by
        rw [timeout] at late
        split_ifs at late <;> cases late <;> decide
      exact honest.rests (rests_take rfl rfl rfl rfl rfl (steady_of_reason rfl other) (by rintro ⟨⟩))
    | none =>
      rw [onBytes_inTime ended late] at ran
      rw [if_neg (by simp)]
      set pushed := withDecoder ((pair side).driver.decoder.push chunk) (pair side).driver
      have filled : Honest terms ((pair.take side rest).after side pushed {} {}) := by
        refine honest.rests (rests_take rfl rfl rfl rfl rfl (steady_of_open ended) fun _ => ⟨?_, _, rfl⟩)
        rw [Side.unread, cut, ← List.append_assoc]
        rfl
      have same : ((pair.take side rest).after side pushed {} {} side).driver = pushed := by
        rw [after_self]
      have read := @Honest.handleBodies _ _ _ _ _ _ _ _ _ _ _ side after out store store'
        pushed.decoder.buf.length inverts filled (by rw [Side.Live, same]; exact ended)
        (by rw [same]) (by rw [same]; exact ran)
      rw [same, after_after] at read
      exact read

theorem Honest.call {call : Call} (honest : Honest terms pair)
    (quiet : ∀ bytes nowUs, call ≠ .onBytes bytes nowUs) (started : call = .start → side = .right)
    (ran : perform (pair side).driver store call = some (after, store', out)) :
    Honest terms (pair.after side after out (callLog (pair side).driver store call)) := by
  have responder : call = .start → (pair side).driver.role = .responder := by
    intro start
    rw [started start]
    exact honest.role_right
  cases perform_spoke quiet responder ran with
  | idle same silent empty =>
    rw [same, empty]
    refine honest.rests (rests_after silent ⟨rfl, rfl, rfl, rfl, rfl⟩ (honest.steady side) fun _ => rfl)
  | shut keeps reason closed other silent empty =>
    rw [empty]
    refine honest.rests (rests_after silent keeps (steady_of_reason closed other) fun live => ?_)
    cases (isClosed_of_reason closed).symm.trans live
  | wrote transport msgs established written answers =>
    rw [written]
    have live : (pair side).Live := by
      rw [Side.Live, LinkDriver.isClosed, LinkDriver.closeReason, established]
      rfl
    refine honest.act answers.keeps.role answers.keeps.config answers.steady ?_
    cases honest.stage with
    | early act early =>
      have state : ∀ transport, (pair side).driver.state ≠ .transport transport := by
        intro transport other
        cases side with
        | left =>
          have state := early.left live
          cases act <;> cases state.1.symm.trans other
        | right =>
          have state := early.right live
          cases act <;> cases state.1.symm.trans other
      exact absurd established (state transport)
    | linked early d linked =>
      have reads : ¬ Waiting early side := by
        rintro ⟨first, rfl⟩
        cases (linked.waits first live).1.symm.trans established
      obtain rfl := LinkState.transport.inj ((linked.state side reads live).symm.trans established)
      obtain ⟨d', linked'⟩ := linked.write reads live answers
      exact .linked early d' linked'

theorem Honest.step {pair' : Pair} (inverts : DecryptInverts) (honest : Honest terms pair)
    (step : Pair.Step pair pair') : Honest terms pair' := by
  cases step with
  | deliver side store chunk rest nowUs cut ran => exact honest.deliver inverts cut ran
  | call side store call quiet started ran => exact honest.call quiet started ran

end

/-! ## Runs -/

instance lawfulOrderMax : Std.LawfulOrderMax UInt64 where
  max_eq_or a b := by
    change (if a ≤ b then b else a) = a ∨ (if a ≤ b then b else a) = b
    split_ifs <;> simp
  max_le_iff a b c := by
    change (if a ≤ b then b else a) ≤ c ↔ _
    simp only [UInt64.le_iff_toNat_le]
    split_ifs <;> omega

theorem exists_common {versions versions' : List UInt64}
    (common : ∃ version, version ∈ versions ∧ version ∈ versions') :
    ∃ version, IsGreatest {v | v ∈ versions ∧ v ∈ versions'} version ∧
      (versions'.filter fun v => decide (v ∈ versions)).max? = some version := by
  obtain ⟨shared, left, right⟩ := common
  have some : shared ∈ versions'.filter fun v => decide (v ∈ versions) := by simp [left, right]
  obtain ⟨version, found⟩ := Option.isSome_iff_exists.mp (List.isSome_max?_of_mem some)
  obtain ⟨mem, greatest⟩ := List.max?_eq_some_iff.mp found
  refine ⟨version, ⟨by simpa [and_comm] using mem, ?_⟩, found⟩
  rintro v ⟨offered, offered'⟩
  exact greatest v (by simp [offered, offered'])

section
variable [Sha256] [HmacSha256] [X25519] [ChaCha20Poly1305] [Ed25519]
  {secretS secretE secretS' secretE' : FixedBytes 32} {config config' : LinkDriverConfig}
  {openedAtUs openedAtUs' : UInt64} {own own' : List UInt8}

omit [Ed25519] in
theorem exists_terms (commutes : DhCommutes) (inverts : DecryptInverts)
    (hello : encodeMessage (.hello (helloOf config)) = .ok own)
    (hello' : encodeMessage (.hello (helloOf config')) = .ok own')
    (common : ∃ version, version ∈ config.versions ∧ version ∈ config'.versions) :
    ∃ terms : Terms (.fromSecretBytes secretS) (.fromSecretBytes secretE) (.fromSecretBytes secretS')
        (.fromSecretBytes secretE'),
      terms.config = config ∧ terms.config' = config' ∧
      IsGreatest {v | v ∈ config.versions ∧ v ∈ config'.versions} terms.version := by
  obtain ⟨script⟩ :=
    exists_script commutes inverts secretS secretE secretS' secretE' (own ++ own')
  obtain ⟨version, greatest, agreed⟩ := exists_common common
  obtain ⟨version', greatest', agreed'⟩ := exists_common
    (common.imp fun _ shared => And.symm shared)
  obtain rfl : version = version' :=
    UInt64.le_antisymm (greatest'.2 greatest.1.symm) (greatest.2 greatest'.1.symm)
  obtain ⟨body₁, encoded₁⟩ := @exists_body (Keypair.fromSecretBytes secretE).publicKey.bytes (by
    rw [FixedBytes.length_eq]
    omega)
  obtain ⟨_, -, -, written₂⟩ := script.replies
  obtain ⟨_, -, -, written₃⟩ := script.concludes
  obtain ⟨body₂, encoded₂⟩ := exists_body (length_writeMessage written₂)
  obtain ⟨body₃, encoded₃⟩ := exists_body (length_writeMessage written₃)
  exact ⟨⟨config, config', own, own', version, script, body₁, body₂, body₃, hello, hello', agreed,
    agreed', encoded₁, encoded₂, encoded₃⟩, rfl, rfl, greatest⟩

theorem honest_started
    {terms : Terms (.fromSecretBytes secretS) (.fromSecretBytes secretE) (.fromSecretBytes secretS')
      (.fromSecretBytes secretE')} {store store' : EntryStore} {after : LinkDriver} {out : LinkOutput}
    (ran : perform (.new .initiator (.fromSecretBytes secretS) (.fromSecretBytes secretE) terms.config
      openedAtUs) store .start = some (after, store', out)) :
    Honest terms ((Pair.new
      (.new .initiator (.fromSecretBytes secretS) (.fromSecretBytes secretE) terms.config openedAtUs)
      (.new .responder (.fromSecretBytes secretS') (.fromSecretBytes secretE') terms.config'
        openedAtUs')).after .left after out {}) := by
  set left := LinkDriver.new .initiator (.fromSecretBytes secretS) (.fromSecretBytes secretE) terms.config
    openedAtUs
  set right := LinkDriver.new .responder (.fromSecretBytes secretS') (.fromSecretBytes secretE')
    terms.config' openedAtUs'
  have began : perform left store .start =
      some ({ left with ourHelloBody := terms.own }, store, ⟨[frameBytes terms.own], []⟩) := by
    change (left.queueHello {}).map _ = _
    rw [@queueHello_ok left _ terms.hello]
    rfl
  cases began.symm.trans ran
  have steady : ∀ side, Steady ((Pair.new left right).after .left
      { left with ourHelloBody := terms.own } ⟨[frameBytes terms.own], []⟩ {} side).driver := by
    intro side
    cases side <;> exact steady_of_open rfl
  have nothing : ∀ side, Delivers (Pair.new left right) side [] := by
    intro side _
    cases side <;> exact carries_nil _
  refine ⟨rfl, rfl, rfl, rfl, steady, .early .hailed ⟨fun _ => ⟨rfl, rfl, rfl⟩, fun _ => ⟨rfl, rfl⟩, ?_, ?_,
    rfl, rfl⟩⟩
  · intro _
    exact carries_nil _
  · exact delivers_first .left (nothing .right) rfl (small_of_encodeMessage terms.hello) rfl

omit [HmacSha256] [X25519] [ChaCha20Poly1305] [Ed25519] in
/-- The driver knows the fingerprint of a key, and has reported that it is established with it. -/
def Side.Met (side : Side) (key : PublicKey) : Prop :=
  side.driver.remoteFingerprint = some (fingerprintOf key) ∧
    .established (fingerprintOf key) ∈ side.events

/-- However the streams are cut and whatever the drivers are told to send, none of them finds the other
one out of step. Once the third HANDSHAKE message is consumed, both have reported that they are
established, with the same version and with each other. What a driver decrypts and decodes is a
beginning of what the other one has encrypted. -/
theorem honest_link_in_sync (commutes : DhCommutes) (inverts : DecryptInverts)
    (hello : encodeMessage (.hello (helloOf config)) = .ok own)
    (hello' : encodeMessage (.hello (helloOf config')) = .ok own')
    (common : ∃ version, version ∈ config.versions ∧ version ∈ config'.versions) {pair : Pair}
    (reached : Pair.Reached
      (.new .initiator (.fromSecretBytes secretS) (.fromSecretBytes secretE) config openedAtUs)
      (.new .responder (.fromSecretBytes secretS') (.fromSecretBytes secretE') config' openedAtUs')
      pair) :
    (∀ side, ∀ reason ∈ [.handshakeFailed, .versionIncompatible, .badCiphertextLength, .decryptFailed],
      (pair side).driver.closeReason ≠ some reason) ∧
    (3 ≤ ((pair .left).log.handshakes ++ (pair .right).log.handshakes).length →
      ∃ version, IsGreatest {v | v ∈ config.versions ∧ v ∈ config'.versions} version ∧
        (∀ side, (pair side).driver.negotiatedVersion = some version) ∧
        (pair .left).Met (Keypair.fromSecretBytes secretS').publicKey ∧
        (pair .right).Met (Keypair.fromSecretBytes secretS).publicKey) ∧
    ∀ side, (pair side).log.decoded <+: (pair side.peer).log.encrypted := by
  obtain ⟨terms, rfl, rfl, greatest⟩ :=
    @exists_terms _ _ _ _ secretS secretE secretS' secretE' _ _ _ _ commutes inverts hello hello' common
  have honest : Honest terms pair := by
    induction reached with
    | started ran => exact honest_started ran
    | step _ step ih => exact ih.step inverts step
  refine ⟨honest.steady, ?_, fun side => ?_⟩
  · intro consumed
    cases honest.stage with
    | early act early =>
      rw [early.logLeft, early.logRight] at consumed
      cases act <;> simp [Driver.consumed] at consumed
    | linked early d linked =>
      have late : early = false := by
        by_contra first
        rw [linked.handshakes, if_pos (by simpa using first)] at consumed
        omega
      subst late
      have knows : ∀ side, Knows terms pair side := fun side => linked.knows side (by rintro ⟨⟨⟩, -⟩)
      exact ⟨terms.version, greatest, fun side => (knows side).version,
        ⟨(knows .left).remote, (knows .left).reported⟩, (knows .right).remote, (knows .right).reported⟩
  · cases honest.stage with
    | early act early =>
      have nothing : (pair side).log.decoded = [] := by
        cases side with
        | left => rw [early.logLeft]
        | right => rw [early.logRight]
      rw [nothing]
      exact List.nil_prefix
    | linked early d linked =>
      rw [linked.decoded side]
      exact List.take_prefix _ _

end

/-! ## A session that is opened over a link -/

section
open StandIns

def Pair.deliverAll (pair : Pair) (side : End) : Option Pair :=
  (perform (pair side).driver EntryStore.new (.onBytes (pair side).stream 0)).map fun (after, _, out) =>
    (pair.take side []).after side after out
      (callLog (pair side).driver EntryStore.new (.onBytes (pair side).stream 0))

def Pair.openSync (pair : Pair) (side : End) : Option Pair :=
  (perform (pair side).driver EntryStore.new (.openSync ⟨0, 9⟩)).map fun (after, _, out) =>
    pair.after side after out (callLog (pair side).driver EntryStore.new (.openSync ⟨0, 9⟩))

theorem step_deliverAll {pair pair' : Pair} {side : End} (ran : pair.deliverAll side = some pair') :
    Pair.Step pair pair' := by
  obtain ⟨⟨after, store, out⟩, performed, rfl⟩ := Option.map_eq_some_iff.mp ran
  exact .deliver side EntryStore.new _ [] 0 (List.append_nil _).symm performed

theorem step_openSync {pair pair' : Pair} {side : End} (ran : pair.openSync side = some pair') :
    Pair.Step pair pair' := by
  obtain ⟨⟨after, store, out⟩, performed, rfl⟩ := Option.map_eq_some_iff.mp ran
  exact .call side EntryStore.new (.openSync ⟨0, 9⟩) (by rintro _ _ ⟨⟩) (by rintro ⟨⟩) performed

def startedPair : Option Pair :=
  (perform (idleDriver .initiator) EntryStore.new .start).map fun (after, _, out) =>
    (Pair.new (idleDriver .initiator) (idleDriver .responder)).after .left after out {}

def Pair.play (pair : Pair) : List (Pair → Option Pair) → Option Pair
  | [] => some pair
  | move :: moves => (move pair).bind (·.play moves)

theorem reached_play {left right : LinkDriver} {moves : List (Pair → Option Pair)} {pair pair' : Pair}
    (steps : ∀ move ∈ moves, ∀ before after, move before = some after → Pair.Step before after)
    (reached : Pair.Reached left right pair) (ran : pair.play moves = some pair') :
    Pair.Reached left right pair' := by
  induction moves generalizing pair with
  | nil =>
    cases ran
    exact reached
  | cons move moves ih =>
    obtain ⟨now, later⟩ := List.forall_mem_cons.mp steps
    obtain ⟨next, moved, ran⟩ := Option.bind_eq_some_iff.mp ran
    exact ih later (.step reached (now pair next moved)) ran

/-- Both HELLOs and the three messages, the last of them together with the RECON_INIT of a session. -/
def openingMoves : List (Pair → Option Pair) :=
  [(·.deliverAll .right), (·.deliverAll .left), (·.deliverAll .right), (·.deliverAll .left),
    (·.openSync .left), (·.deliverAll .right)]

theorem step_openingMoves : ∀ move ∈ openingMoves, ∀ before after, move before = some after →
    Pair.Step before after := by
  simp only [openingMoves, List.forall_mem_cons]
  exact ⟨fun _ _ => step_deliverAll, fun _ _ => step_deliverAll, fun _ _ => step_deliverAll,
    fun _ _ => step_deliverAll, fun _ _ => step_openSync, fun _ _ => step_deliverAll, by simp⟩

theorem honest_link_in_sync_opened : ∃ pair msg,
    Pair.Reached (idleDriver .initiator) (idleDriver .responder) pair ∧
      (pair .right).log.decoded = [msg] ∧ [msg] <+: (pair .left).log.encrypted ∧
      ∃ version, (pair .left).driver.negotiatedVersion = some version ∧
        (pair .right).driver.negotiatedVersion = some version := by
  have ran : (startedPair.bind (·.play openingMoves)).any (fun pair =>
      decide (3 ≤ ((pair .left).log.handshakes ++ (pair .right).log.handshakes).length) &&
        decide ((pair .right).log.decoded.length = 1)) = true := by decide +kernel
  obtain ⟨pair, opened, holds⟩ := (Option.any_eq_true _ _).mp ran
  rw [Bool.and_eq_true, decide_eq_true_iff, decide_eq_true_iff] at holds
  obtain ⟨consumed, one⟩ := holds
  obtain ⟨msg, decoded⟩ := List.length_eq_one_iff.mp one
  obtain ⟨first, started, played⟩ := Option.bind_eq_some_iff.mp opened
  obtain ⟨⟨after, store, out⟩, performed, rfl⟩ := Option.map_eq_some_iff.mp started
  have reached := reached_play step_openingMoves (.started performed) played
  obtain ⟨own, hello⟩ : ∃ own, encodeMessage (.hello (helloOf .default)) = .ok own := ⟨_, rfl⟩
  have common : ∃ version, version ∈ LinkDriverConfig.default.versions ∧
      version ∈ LinkDriverConfig.default.versions := ⟨wireVersion, by decide, by decide⟩
  obtain ⟨-, established, inOrder⟩ := @honest_link_in_sync _ _ _ _ _ (FixedBytes.zero 32)
    (FixedBytes.zero 32) (FixedBytes.zero 32) (FixedBytes.zero 32) .default .default 0 0 own own
    Channel.plain_commutes Channel.shift_inverts hello hello common pair reached
  obtain ⟨version, -, agreed, -⟩ := established consumed
  exact ⟨pair, msg, reached, decoded, decoded ▸ inOrder .right, version, agreed .left, agreed .right⟩

end

end Racnet.Proof.Driver
