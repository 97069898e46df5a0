import Racnet.Proof.Driver.Conversation

/-!
# The drivers of an honest link, body by body
-/

namespace Racnet.Proof.Driver
open Lib Noise Store Sync Wire Link
open Proof.Channel (End Duplex InStep inStep_start)
open Proof.Format (decodeMessage_of_encodeMessage padded_of_encodeMessage)

theorem small_of_encodeMessage {msg : Message} {body : List UInt8}
    (encoded : encodeMessage msg = .ok body) : body.length ≤ 65535 := by
  have short := (padded_of_encodeMessage encoded).2
  rw [maxPaddedLen] at short
  omega

section
variable [Sha256] [HmacSha256] [X25519] [ChaCha20Poly1305] [Ed25519] {s e s' e' : Keypair}
  {terms : Terms s e s' e'} {pair : Pair} {side : End} {after : LinkDriver} {out : LinkOutput}
  {store store' : EntryStore} {body : List UInt8} {decoder : FrameDecoder}

omit [Ed25519] in
theorem Honest.act {log : Log} (honest : Honest terms pair)
    (role : after.role = (pair side).driver.role) (config : after.config = (pair side).driver.config)
    (steady : Steady after) (stage : Stage terms (pair.after side after out log)) :
    Honest terms (pair.after side after out log) := by
  obtain ⟨role_left, role_right, config_left, config_right, others, -⟩ := honest
  have steady' : ∀ other, Steady (pair.after side after out log other).driver := by
    intro other
    rcases End.eq_or_peer side other with rfl | rfl
    · rwa [after_self]
    · rw [after_peer]
      exact others side.peer
  cases side with
  | left => exact ⟨role.trans role_left, role_right, config.trans config_left, config_right, steady', stage⟩
  | right => exact ⟨role_left, role.trans role_right, config_left, config.trans config_right, steady', stage⟩

theorem Early.welcome (early : Early terms .hailed pair) (honest : Honest terms pair)
    (live : (pair .right).Live)
    (next : (pair .right).driver.decoder.nextBody = (some body, decoder))
    (ran : LinkDriver.handleBody { (pair .right).driver with decoder } store body {} =
      some (after, store', out)) :
    Steady after ∧ Early terms .welcomed (pair.after .right after out
      (bodyLog { (pair .right).driver with decoder } store body)) := by
  obtain ⟨waiting, keys⟩ := early.right live
  obtain ⟨later, same, delivered⟩ := early.toRight.read live next
  obtain ⟨rfl, rfl⟩ := List.cons.inj same
  set driver := { (pair .right).driver with decoder }
  have config : driver.config = terms.config' := honest.config_right
  have encoded : encodeMessage driver.ourHello = .ok terms.own' := by
    rw [LinkDriver.ourHello, config]
    exact terms.hello'
  have common : driver.commonVersion (helloOf terms.config) = some terms.version := by
    rw [LinkDriver.commonVersion, config]
    exact terms.agreed'
  have handled := handleBody_welcomed store (show driver.role = .responder from honest.role_right) waiting
    keys encoded (decodeMessage_of_encodeMessage terms.hello) common
  cases handled.symm.trans ran
  have log : bodyLog driver store terms.own = {} := by
    rw [bodyLog, show driver.state = _ from waiting]
  refine ⟨steady_of_open rfl, early.left, fun _ => ⟨rfl, rfl⟩, ?_, delivered rfl, early.logLeft, ?_⟩
  · exact delivers_first .right early.toLeft live (small_of_encodeMessage terms.hello') rfl
  · rw [after_self, log]
    exact (Log.andThen_empty _).trans early.logRight

theorem Early.initiate (early : Early terms .welcomed pair) (honest : Honest terms pair)
    (live : (pair .left).Live)
    (next : (pair .left).driver.decoder.nextBody = (some body, decoder))
    (ran : LinkDriver.handleBody { (pair .left).driver with decoder } store body {} =
      some (after, store', out)) :
    Steady after ∧ Early terms .initiated (pair.after .left after out
      (bodyLog { (pair .left).driver with decoder } store body)) := by
  obtain ⟨waiting, keys, said⟩ := early.left live
  obtain ⟨later, same, delivered⟩ := early.toLeft.read live next
  obtain ⟨rfl, rfl⟩ := List.cons.inj same
  set driver := { (pair .left).driver with decoder }
  have config : driver.config = terms.config := honest.config_left
  have common : driver.commonVersion (helloOf terms.config') = some terms.version := by
    rw [LinkDriver.commonVersion, config]
    exact terms.agreed
  have handled := handleBody_hello driver store (decodeMessage_of_encodeMessage terms.hello')
    (encodeFrame_of_encodeMessage terms.encoded₁) honest.role_left waiting keys said common {}
  cases handled.symm.trans ran
  have log : bodyLog driver store terms.own' = {} := by
    rw [bodyLog, show driver.state = _ from waiting]
  refine ⟨steady_of_open rfl, fun _ => ⟨rfl, rfl⟩, early.right, delivered rfl, ?_, ?_, early.logRight⟩
  · exact delivers_first .left early.toRight live (small_of_encodeMessage terms.encoded₁) rfl
  · rw [after_self, log]
    exact (Log.andThen_empty _).trans early.logLeft

theorem Early.reply (early : Early terms .initiated pair) (live : (pair .right).Live)
    (next : (pair .right).driver.decoder.nextBody = (some body, decoder))
    (ran : LinkDriver.handleBody { (pair .right).driver with decoder } store body {} =
      some (after, store', out)) :
    Steady after ∧ Early terms .replied (pair.after .right after out
      (bodyLog { (pair .right).driver with decoder } store body)) := by
  obtain ⟨waiting, version⟩ := early.right live
  obtain ⟨later, same, delivered⟩ := early.toRight.read live next
  obtain ⟨rfl, rfl⟩ := List.cons.inj same
  set driver := { (pair .right).driver with decoder }
  have handled := @handleBody_turns _ _ _ _ _ driver _ _ _ _ _ store waiting
    (decodeMessage_of_encodeMessage terms.encoded₁) terms.script.replies _ terms.encoded₂
  rw [advanceHandshake_running terms.script.waits] at handled
  cases handled.symm.trans ran
  refine ⟨steady_of_open rfl, early.left, fun _ => ⟨rfl, version⟩, ?_, delivered rfl, early.logLeft, ?_⟩
  · exact delivers_first .right early.toLeft live (small_of_encodeMessage terms.encoded₂) rfl
  · rw [after_self, bodyLog_handshake driver store waiting (decodeMessage_of_encodeMessage terms.encoded₁)]
    dsimp only
    rw [early.logRight]
    rfl

theorem Early.conclude (early : Early terms .replied pair) (live : (pair .left).Live)
    (next : (pair .left).driver.decoder.nextBody = (some body, decoder))
    (ran : LinkDriver.handleBody { (pair .left).driver with decoder } store body {} =
      some (after, store', out)) :
    Steady after ∧ Linked terms true (Duplex.start terms.script.keys terms.script.hash)
      (pair.after .left after out (bodyLog { (pair .left).driver with decoder } store body)) := by
  obtain ⟨waiting, version⟩ := early.left live
  obtain ⟨later, same, delivered⟩ := early.toLeft.read live next
  obtain ⟨rfl, rfl⟩ := List.cons.inj same
  set driver := { (pair .left).driver with decoder }
  have handled := @handleBody_turns _ _ _ _ _ driver _ _ _ _ _ store waiting
    (decodeMessage_of_encodeMessage terms.encoded₂) terms.script.concludes _ terms.encoded₃
  rw [advanceHandshake_done terms.script.done_left terms.script.split_left] at handled
  cases handled.symm.trans ran
  rw [bodyLog_handshake driver store waiting (decodeMessage_of_encodeMessage terms.encoded₂)]
  have onlyLeft : ∀ side, ¬ Waiting true side → side = .left := fun _ => left_of_not_waiting rfl
  have logLeft : ∀ {driver out log}, (pair.after .left driver out log .left).log = log := by
    intro driver out log
    rw [after_self, early.logLeft]
    rfl
  have logRight : ∀ {driver out log}, (pair.after .left driver out log .right).log =
      { handshakes := [⟨e.publicKey.bytes⟩] } := early.logRight
  refine ⟨steady_of_open rfl, inStep_start _ _, fun side reads _ => ?_, fun side reads => ?_,
    fun side reads => ?_, fun _ => early.right, fun _ => ?_, fun _ => ⟨rfl, rfl, rfl⟩, fun side => ?_,
    fun side => ?_, ?_⟩
  · obtain rfl := onlyLeft side reads
    rw [after_self]
  · obtain rfl := onlyLeft side reads
    refine ⟨version, rfl, ?_⟩
    rw [after_self]
    exact List.mem_append_right _ (List.mem_singleton_self _)
  · obtain rfl := onlyLeft side reads
    exact delivered rfl
  · exact delivers_first .left early.toRight live (small_of_encodeMessage terms.encoded₃) rfl
  · cases side with
    | left =>
      rw [logLeft]
      exact .nil
    | right =>
      rw [logRight]
      exact .nil
  · cases side with
    | left =>
      rw [logLeft]
      rfl
    | right =>
      rw [logRight]
      rfl
  · rw [logLeft, logRight]
    rfl

theorem Linked.finish {d : Duplex} (linked : Linked terms true d pair) (live : (pair .right).Live)
    (next : (pair .right).driver.decoder.nextBody = (some body, decoder))
    (ran : LinkDriver.handleBody { (pair .right).driver with decoder } store body {} =
      some (after, store', out)) :
    Steady after ∧ Linked terms false d (pair.after .right after out
      (bodyLog { (pair .right).driver with decoder } store body)) := by
  obtain ⟨waiting, version⟩ := linked.waits rfl live
  obtain ⟨later, same, delivered⟩ := (linked.third rfl).read live next
  obtain ⟨rfl, rfl⟩ := List.cons.inj same
  set driver := { (pair .right).driver with decoder }
  have handled := @handleBody_finished _ _ _ _ _ driver _ _ _ _ store _ _ waiting
    (decodeMessage_of_encodeMessage terms.encoded₃) terms.script.finishes terms.script.done_right
    terms.script.split_right
  cases handled.symm.trans ran
  rw [bodyLog_handshake driver store waiting (decodeMessage_of_encodeMessage terms.encoded₃)]
  have left : ¬ Waiting true .left := by decide
  refine ⟨steady_of_open rfl, linked.inStep, fun side _ live' => ?_, fun side _ => ?_, fun side _ => ?_,
    by rintro ⟨⟩, by rintro ⟨⟩, by rintro ⟨⟩, fun side => ?_, fun side => ?_, ?_⟩
  · cases side with
    | left => exact linked.state .left left live'
    | right =>
      rw [after_self, (linked.unused rfl).1]
  · cases side with
    | left =>
      obtain ⟨version, remote, reported⟩ := linked.knows .left left
      exact ⟨version, remote, reported⟩
    | right =>
      refine ⟨version, rfl, ?_⟩
      rw [after_self]
      exact List.mem_append_right _ (List.mem_singleton_self _)
  · cases side with
    | left => exact delivers_quiet .right (linked.delivers .left left) live rfl
    | right => exact delivered rfl
  · cases side with
    | left => exact linked.encrypted .left
    | right =>
      rw [after_self]
      dsimp only [Log.andThen]
      rw [List.append_nil]
      exact linked.encrypted .right
  · have decoded := linked.decoded side
    cases side <;> simpa [Pair.after, Log.andThen, Channel.End.peer] using decoded
  · have before := linked.handshakes
    rw [if_pos rfl, List.length_append] at before
    rw [if_neg Bool.false_ne_true, after_self, List.length_append]
    dsimp only [Log.andThen]
    rw [List.length_append, List.length_singleton]
    change (pair .left).log.handshakes.length + _ = 3
    omega

theorem Linked.converse {early : Bool} {d : Duplex} (inverts : DecryptInverts)
    (linked : Linked terms early d pair) (live : (pair side).Live)
    (next : (pair side).driver.decoder.nextBody = (some body, decoder))
    (ran : LinkDriver.handleBody { (pair side).driver with decoder } store body {} =
      some (after, store', out)) :
    Steady after ∧ ∃ early' d', Linked terms early' d' (pair.after side after out
      (bodyLog { (pair side).driver with decoder } store body)) := by
  by_cases waits : Waiting early side
  · obtain ⟨rfl, rfl⟩ := waits
    obtain ⟨steady, linked'⟩ := linked.finish live next ran
    exact ⟨steady, false, d, linked'⟩
  obtain ⟨plaintext, msg, d₁, gate, decrypted, decoded, read⟩ := linked.read inverts waits live next
  obtain ⟨log, writes, keeps, steady⟩ := handleBody_answers
    (show { (pair side).driver with decoder }.state = _ from linked.state side waits live) gate decrypted
    decoded ran
  refine ⟨steady, early, ?_⟩
  obtain ⟨kept, role, config, version, remote⟩ := keeps
  set reader : LinkDriver := { (pair side).driver with decoder, state := .transport (d₁.ends side) }
  have same : (pair.after side reader {} { decoded := [msg] } side).driver = reader := by
    rw [after_self]
  have live' : (pair.after side reader {} { decoded := [msg] } side).Live := by
    rw [Side.Live, same]
    rfl
  obtain ⟨d₂, wrote⟩ := read.write waits live' (by
    rw [same]
    exact ⟨writes, ⟨kept, role, config, version, remote⟩, steady⟩)
  rw [after_after] at wrote
  rw [log]
  exact ⟨d₂, wrote⟩

theorem Honest.handleBody (inverts : DecryptInverts) (honest : Honest terms pair) (live : (pair side).Live)
    (next : (pair side).driver.decoder.nextBody = (some body, decoder))
    (ran : LinkDriver.handleBody { (pair side).driver with decoder } store body {} =
      some (after, store', out)) :
    Honest terms (pair.after side after out
      (bodyLog { (pair side).driver with decoder } store body)) := by
  have acted : Steady after ∧ Stage terms (pair.after side after out
      (bodyLog { (pair side).driver with decoder } store body)) := by
    cases honest.stage with
    | linked early d linked =>
      obtain ⟨steady, early', d', linked'⟩ := linked.converse inverts live next ran
      exact ⟨steady, .linked early' d' linked'⟩
    | early act early =>
      cases act with
      | hailed =>
        cases side with
        | left =>
          obtain ⟨later, other, -⟩ := early.toLeft.read live next
          cases other
        | right =>
          obtain ⟨steady, next⟩ := early.welcome honest live next ran
          exact ⟨steady, .early .welcomed next⟩
      | welcomed =>
        cases side with
        | left =>
          obtain ⟨steady, next⟩ := early.initiate honest live next ran
          exact ⟨steady, .early .initiated next⟩
        | right =>
          obtain ⟨later, other, -⟩ := early.toRight.read live next
          cases other
      | initiated =>
        cases side with
        | left =>
          obtain ⟨later, other, -⟩ := early.toLeft.read live next
          cases other
        | right =>
          obtain ⟨steady, next⟩ := early.reply live next ran
          exact ⟨steady, .early .replied next⟩
      | replied =>
        cases side with
        | left =>
          obtain ⟨steady, next⟩ := early.conclude live next ran
          exact ⟨steady, .linked _ _ next⟩
        | right =>
          obtain ⟨later, other, -⟩ := early.toRight.read live next
          cases other
  rcases @handleBody_acts _ _ _ _ _ { (pair side).driver with decoder } live store body with
    panics | ⟨after', store₁, effect, step, handled⟩
  · cases (panics {}).symm.trans ran
  cases (handled {}).symm.trans ran
  obtain ⟨-, role, config, -⟩ := step.keeps
  exact honest.act role config acted.1 acted.2

end

end Racnet.Proof.Driver
