import Racnet.Proof.Channel.Handshake
import Racnet.Proof.Driver.Greeting

/-!
# The script of an honest handshake

Between two honest ends the three messages are determined by the keys and the HELLOs.
-/

namespace Racnet.Proof.Driver
open Lib Noise Store Sync Wire Link
open Proof.Channel (End Duplex first_passes second_passes third_passes)

section
variable [Sha256] [HmacSha256] [X25519] [ChaCha20Poly1305]

/-- A handshake message is read, and the next one is written. -/
def Turns (hs : HandshakeState) (msg answer : List UInt8) (written : HandshakeState) : Prop :=
  ∃ read, hs.readMessage msg = .ok ([], read) ∧ read.isFinished = false ∧
    read.writeMessage [] = .ok (answer, written)

/-- The second and the third message, the ends when they have written or read their last message, and
what they split off. -/
structure Script (s e s' e' : Keypair) (prologue : List UInt8) where
  second : List UInt8
  third : List UInt8
  replied : HandshakeState
  concluded : HandshakeState
  finished : HandshakeState
  keys : End → FixedBytes 32
  hash : FixedBytes 32
  replies : Turns (.newXx .responder s' e' prologue) e.publicKey.bytes second replied
  concludes : Turns (opened s e prologue) second third concluded
  finishes : replied.readMessage third = .ok ([], finished)
  waits : replied.isFinished = false
  done_left : concluded.isFinished = true
  done_right : finished.isFinished = true
  split_left : concluded.intoTransport = .ok ((Duplex.start keys hash).ends .left, s'.publicKey)
  split_right : finished.intoTransport = .ok ((Duplex.start keys hash).ends .right, s.publicKey)

theorem exists_script (commutes : DhCommutes) (inverts : DecryptInverts)
    (secretS secretE secretS' secretE' : FixedBytes 32) (prologue : List UInt8) :
    Nonempty (Script (.fromSecretBytes secretS) (.fromSecretBytes secretE) (.fromSecretBytes secretS')
      (.fromSecretBytes secretE') prologue) := by
  set s := Keypair.fromSecretBytes secretS
  set e := Keypair.fromSecretBytes secretE
  set s' := Keypair.fromSecretBytes secretS'
  set e' := Keypair.fromSecretBytes secretE'
  have short : ([] : List UInt8).length < plaintextLimit := by decide
  have first := first_passes s e s' e' [] inverts
    (rfl : (SymmetricState.newForProtocol.mixHash prologue).cipher = .new)
  obtain ⟨after₂, key, second, keyed, second_⟩ := second_passes s e s' e' [] inverts
    (commutes _ _) (commutes _ _) short
  obtain ⟨after₃, third, third_⟩ := third_passes s e s' e' [] inverts (commutes _ _) keyed short
  rw [List.append_nil] at first
  exact ⟨{
    second, third
    replied := _
    concluded := _
    finished := _
    keys := fun side => side.casesOn (hkdf2 after₃.ck []).1 (hkdf2 after₃.ck []).2
    hash := after₃.h
    replies := ⟨_, first.read, rfl, second_.written⟩
    concludes := ⟨_, second_.read, rfl, third_.written⟩
    finishes := third_.read
    waits := rfl
    done_left := rfl
    done_right := rfl
    split_left := rfl
    split_right := rfl }⟩

end

/-! ## The drivers that follow it -/

theorem exists_body {noiseMsg : List UInt8} (short : noiseMsg.length ≤ 96) :
    ∃ body, encodeMessage (.handshake ⟨noiseMsg⟩) = .ok body := by
  obtain ⟨frame, framed⟩ := encodeFrame_handshake short
  obtain ⟨body, encoded, -⟩ := except_bind_ok framed
  exact ⟨body, encoded⟩

theorem encodeFrame_of_encodeMessage {msg : Message} {body : List UInt8}
    (encoded : encodeMessage msg = .ok body) : encodeFrame msg = .ok (frameBytes body) := by
  rw [encodeFrame, encoded]
  rfl

section
variable [Sha256] [HmacSha256]

theorem advanceHandshake_running {hs : HandshakeState} (running : hs.isFinished = false)
    (driver : LinkDriver) (out : LinkOutput) :
    driver.advanceHandshake hs out = ({ driver with state := .handshaking hs }, out) := by
  rw [LinkDriver.advanceHandshake, if_neg (by simp [running])]

theorem advanceHandshake_done {hs : HandshakeState} {transport : TransportState} {remote : PublicKey}
    (done : hs.isFinished = true) (split : hs.intoTransport = .ok (transport, remote))
    (driver : LinkDriver) (out : LinkOutput) :
    driver.advanceHandshake hs out =
      ({ driver with remoteFingerprint := some (fingerprintOf remote), state := .transport transport },
        { out with events := out.events ++ [.established (fingerprintOf remote)] }) := by
  rw [LinkDriver.advanceHandshake, if_pos done, split]

variable [X25519] [ChaCha20Poly1305] [Ed25519] {driver : LinkDriver} {hs written : HandshakeState} {msg answer body : List UInt8}
  (store : EntryStore)

theorem handleBody_welcomed {s e : Keypair} {own theirs : List UInt8} {hello : Hello} {version : UInt64}
    (role : driver.role = .responder) (waiting : driver.state = .awaitPeerHello)
    (keys : driver.keys = some (s, e)) (encoded : encodeMessage driver.ourHello = .ok own)
    (decoded : decodeMessage theirs = .ok (.hello hello))
    (common : driver.commonVersion hello = some version) :
    driver.handleBody store theirs {} = some
      ({ driver with
          negotiatedVersion := some version
          ourHelloBody := own
          keys := none
          state := .handshaking (.newXx .responder s e (theirs ++ own)) },
        store, { frames := [frameBytes own] }) := by
  have common' : (parked driver).commonVersion hello = some version := common
  have queued := @queueHello_ok { parked driver with negotiatedVersion := some version } own encoded
  rw [LinkDriver.handleBody, waiting]
  change ((parked driver).handleHelloBody theirs {}).bind _ = _
  rw [LinkDriver.handleHelloBody, decoded]
  dsimp only
  rw [common']
  simp only [LinkDriver.answerHello, parked, role, bind] at queued ⊢
  rw [queued]
  simp only [Option.bind_some, LinkDriver.beginHandshake, keys]
  rfl

theorem handleBody_turns (waiting : driver.state = .handshaking hs)
    (decoded : decodeMessage body = .ok (.handshake ⟨msg⟩)) (turns : Turns hs msg answer written)
    {next : List UInt8} (encoded : encodeMessage (.handshake ⟨answer⟩) = .ok next) :
    driver.handleBody store body {} = some
      (((parked driver).advanceHandshake written { frames := [frameBytes next] }).1, store,
        ((parked driver).advanceHandshake written { frames := [frameBytes next] }).2) := by
  obtain ⟨read, reads, running, writes⟩ := turns
  rw [LinkDriver.handleBody, waiting]
  change ((parked driver).handleHandshakeBody hs body {}).bind _ = _
  rw [LinkDriver.handleHandshakeBody, decoded]
  dsimp only
  rw [reads]
  dsimp only
  rw [if_neg (by simp [running]), writes]
  dsimp only
  rw [queueHandshakeFrame_ok (encodeFrame_of_encodeMessage encoded)]
  rfl

theorem handleBody_finished {transport : TransportState} {remote : PublicKey}
    (waiting : driver.state = .handshaking hs) (decoded : decodeMessage body = .ok (.handshake ⟨msg⟩))
    (reads : hs.readMessage msg = .ok ([], written)) (done : written.isFinished = true)
    (split : written.intoTransport = .ok (transport, remote)) :
    driver.handleBody store body {} = some
      ({ driver with remoteFingerprint := some (fingerprintOf remote), state := .transport transport },
        store, { events := [.established (fingerprintOf remote)] }) := by
  rw [LinkDriver.handleBody, waiting]
  change ((parked driver).handleHandshakeBody hs body {}).bind _ = _
  rw [LinkDriver.handleHandshakeBody, decoded]
  dsimp only
  rw [reads]
  dsimp only
  rw [if_pos done, advanceHandshake_done done split]
  rfl

end

end Racnet.Proof.Driver
