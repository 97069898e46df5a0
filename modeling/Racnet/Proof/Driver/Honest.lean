import Racnet.Proof.Driver.Pair

/-!
# An honest link

Two drivers that follow the script of the handshake, and after it count alike. What one of them has not
read yet is what the other one has written.
-/

namespace Racnet.Proof.Driver
open Lib Noise Store Sync Wire Link
open Proof.Channel (End Duplex InStep inStep_start)
open Proof.Format (decodeMessage_of_encodeMessage padded_of_encodeMessage)

def helloOf (config : LinkDriverConfig) : Hello := ⟨config.versions, config.features, config.transports⟩

section
variable [Sha256] [HmacSha256] [X25519] [ChaCha20Poly1305]

/-- What the two drivers are going to say until they are established. -/
structure Terms (s e s' e' : Keypair) where
  config : LinkDriverConfig
  config' : LinkDriverConfig
  own : List UInt8
  own' : List UInt8
  version : UInt64
  script : Script s e s' e' (own ++ own')
  body₁ : List UInt8
  body₂ : List UInt8
  body₃ : List UInt8
  hello : encodeMessage (.hello (helloOf config)) = .ok own
  hello' : encodeMessage (.hello (helloOf config')) = .ok own'
  agreed : (config'.versions.filter fun v => decide (v ∈ config.versions)).max? = some version
  agreed' : (config.versions.filter fun v => decide (v ∈ config'.versions)).max? = some version
  encoded₁ : encodeMessage (.handshake ⟨e.publicKey.bytes⟩) = .ok body₁
  encoded₂ : encodeMessage (.handshake ⟨script.second⟩) = .ok body₂
  encoded₃ : encodeMessage (.handshake ⟨script.third⟩) = .ok body₃

/-- How far the handshake has come. -/
inductive Act where
  | hailed
  | welcomed
  | initiated
  | replied
  deriving DecidableEq

variable {s e s' e' : Keypair} (terms : Terms s e s' e')

namespace Terms

def leftState : Act → LinkDriver → Prop
  | .hailed, driver | .welcomed, driver =>
    driver.state = .awaitPeerHello ∧ driver.keys = some (s, e) ∧ driver.ourHelloBody = terms.own
  | .initiated, driver | .replied, driver =>
    driver.state = .handshaking (opened s e (terms.own ++ terms.own')) ∧
      driver.negotiatedVersion = some terms.version

def rightState : Act → LinkDriver → Prop
  | .hailed, driver => driver.state = .awaitPeerHello ∧ driver.keys = some (s', e')
  | .welcomed, driver | .initiated, driver =>
    driver.state = .handshaking (.newXx .responder s' e' (terms.own ++ terms.own')) ∧
      driver.negotiatedVersion = some terms.version
  | .replied, driver =>
    driver.state = .handshaking terms.script.replied ∧ driver.negotiatedVersion = some terms.version

def toLeft : Act → List (List UInt8)
  | .welcomed => [terms.own']
  | .replied => [terms.body₂]
  | .hailed | .initiated => []

def toRight : Act → List (List UInt8)
  | .hailed => [terms.own]
  | .initiated => [terms.body₁]
  | .welcomed | .replied => []

end Terms

def consumed (e : Keypair) : Act → List Handshake
  | .replied => [⟨e.publicKey.bytes⟩]
  | .hailed | .welcomed | .initiated => []

/-- The drivers before the first of them is established. -/
structure Early (act : Act) (pair : Pair) : Prop where
  left : (pair .left).Live → terms.leftState act (pair .left).driver
  right : (pair .right).Live → terms.rightState act (pair .right).driver
  toLeft : Delivers pair .left (terms.toLeft act)
  toRight : Delivers pair .right (terms.toRight act)
  logLeft : (pair .left).log = {}
  logRight : (pair .right).log = { handshakes := consumed e act }

def Waiting (early : Bool) (side : End) : Prop := early = true ∧ side = .right

instance (early : Bool) (side : End) : Decidable (Waiting early side) :=
  inferInstanceAs (Decidable (_ ∧ _))

def Terms.print (_ : Terms s e s' e') : End → Noise.Fingerprint
  | .left => fingerprintOf s.publicKey
  | .right => fingerprintOf s'.publicKey

/-- A driver that has reported that it is established. -/
structure Knows (pair : Pair) (side : End) : Prop where
  version : (pair side).driver.negotiatedVersion = some terms.version
  remote : (pair side).driver.remoteFingerprint = some (terms.print side.peer)
  reported : .established (terms.print side.peer) ∈ (pair side).events

def pendingFor (d : Duplex) (side : End) : List (List UInt8) :=
  ((d.sent side.peer).drop (d.received side).length).map Prod.snd

/-- The drivers when the left one is established, and the right one unless it waits for the third
message. -/
structure Linked (early : Bool) (d : Duplex) (pair : Pair) : Prop where
  inStep : InStep terms.script.keys d
  state : ∀ side, ¬ Waiting early side → (pair side).Live →
    (pair side).driver.state = .transport (d.ends side)
  knows : ∀ side, ¬ Waiting early side → Knows terms pair side
  delivers : ∀ side, ¬ Waiting early side → Delivers pair side (pendingFor d side)
  waits : early = true → (pair .right).Live → terms.rightState .replied (pair .right).driver
  third : early = true → Delivers pair .right (terms.body₃ :: pendingFor d .right)
  unused : early = true → d.ends .right = (Duplex.start terms.script.keys terms.script.hash).ends .right ∧
    d.sent .right = [] ∧ d.received .right = []
  encrypted : ∀ side, List.Forall₂ (fun msg message => encodeMessage msg = .ok message.1)
    (pair side).log.encrypted (d.sent side)
  decoded : ∀ side, (pair side).log.decoded =
    (pair side.peer).log.encrypted.take (d.received side).length
  handshakes : ((pair .left).log.handshakes ++ (pair .right).log.handshakes).length =
    if early then 2 else 3

inductive Stage (pair : Pair) : Prop where
  | early (act : Act) (early : Early terms act pair)
  | linked (early : Bool) (d : Duplex) (linked : Linked terms early d pair)

structure Honest (pair : Pair) : Prop where
  role_left : (pair .left).driver.role = .initiator
  role_right : (pair .right).driver.role = .responder
  config_left : (pair .left).driver.config = terms.config
  config_right : (pair .right).driver.config = terms.config'
  steady : ∀ side, Steady (pair side).driver
  stage : Stage terms pair

end

/-! ## Nothing is read or written -/

/-- A driver closes the link, or it goes on with the same bytes to read. The other driver keeps what it
has to read, or a part of it is lost if the link is closed. -/
structure Rests (side : End) (pair pair' : Pair) : Prop where
  role : (pair' side).driver.role = (pair side).driver.role
  config : (pair' side).driver.config = (pair side).driver.config
  version : (pair' side).driver.negotiatedVersion = (pair side).driver.negotiatedVersion
  remote : (pair' side).driver.remoteFingerprint = (pair side).driver.remoteFingerprint
  log : (pair' side).log = (pair side).log
  events : ∀ event ∈ (pair side).events, event ∈ (pair' side).events
  still : (pair' side).Live → (pair' side).unread = (pair side).unread ∧
    ∃ decoder, (pair' side).driver = { (pair side).driver with decoder }
  steady : Steady (pair' side).driver
  peer : ∃ stream, (pair' side.peer) = { (pair side.peer) with stream } ∧
    stream <+: (pair side.peer).stream ∧ ((pair' side).Live → stream = (pair side.peer).stream)

section
variable {pair pair' : Pair} {side other : End} {bodies : List (List UInt8)}

theorem Rests.live (rests : Rests side pair pair') (live : (pair' other).Live) : (pair other).Live := by
  rcases End.eq_or_peer side other with rfl | rfl
  · obtain ⟨-, decoder, same⟩ := rests.still live
    rw [Side.Live, same] at live
    exact live
  · obtain ⟨stream, same, -⟩ := rests.peer
    rw [Side.Live, same] at live
    exact live

theorem Rests.delivers (rests : Rests side pair pair') (delivers : Delivers pair other bodies) :
    Delivers pair' other bodies := by
  intro live
  have carries := delivers (rests.live live)
  obtain ⟨stream, same, front, kept⟩ := rests.peer
  rcases End.eq_or_peer side other with rfl | rfl
  · rw [(rests.still live).1]
    refine ⟨carries.small, carries.front, fun whole => carries.all ?_⟩
    rw [Side.Live, same] at whole
    exact whole
  · rw [Channel.End.peer_peer] at carries ⊢
    rw [Side.unread, same]
    have shorter : (pair side.peer).driver.decoder.buf ++ stream <+: (pair side.peer).unread :=
      (List.prefix_append_right_inj _).mpr front
    refine ⟨carries.small, shorter.trans carries.front, fun whole => ?_⟩
    dsimp only
    rw [kept whole]
    exact carries.all (rests.live whole)

theorem Rests.driver (rests : Rests side pair pair') (live : (pair' other).Live) :
    ∃ decoder, (pair' other).driver = { (pair other).driver with decoder } := by
  rcases End.eq_or_peer side other with rfl | rfl
  · exact (rests.still live).2
  · obtain ⟨stream, same, -⟩ := rests.peer
    exact ⟨(pair side.peer).driver.decoder, by rw [same]⟩

theorem Rests.log_eq (rests : Rests side pair pair') (other : End) :
    (pair' other).log = (pair other).log := by
  rcases End.eq_or_peer side other with rfl | rfl
  · exact rests.log
  · obtain ⟨stream, same, -⟩ := rests.peer
    rw [same]

theorem Rests.kept {α : Type} (rests : Rests side pair pair') (field : LinkDriver → α)
    (same : field (pair' side).driver = field (pair side).driver) (other : End) :
    field (pair' other).driver = field (pair other).driver := by
  rcases End.eq_or_peer side other with rfl | rfl
  · exact same
  · obtain ⟨stream, peer, -⟩ := rests.peer
    rw [peer]

end

section
variable [Sha256] [HmacSha256] [X25519] [ChaCha20Poly1305] {s e s' e' : Keypair}
  {terms : Terms s e s' e'} {pair pair' : Pair} {side : End}

theorem Terms.leftState_decoder {act : Act} {driver : LinkDriver} (decoder : FrameDecoder)
    (state : terms.leftState act driver) : terms.leftState act { driver with decoder } := by
  cases act <;> exact state

theorem Terms.rightState_decoder {act : Act} {driver : LinkDriver} (decoder : FrameDecoder)
    (state : terms.rightState act driver) : terms.rightState act { driver with decoder } := by
  cases act <;> exact state

theorem Early.rests {act : Act} (early : Early terms act pair) (rests : Rests side pair pair') :
    Early terms act pair' where
  left live := by
    obtain ⟨decoder, same⟩ := rests.driver live
    rw [same]
    exact terms.leftState_decoder decoder (early.left (rests.live live))
  right live := by
    obtain ⟨decoder, same⟩ := rests.driver live
    rw [same]
    exact terms.rightState_decoder decoder (early.right (rests.live live))
  toLeft := rests.delivers early.toLeft
  toRight := rests.delivers early.toRight
  logLeft := (rests.log_eq .left).trans early.logLeft
  logRight := (rests.log_eq .right).trans early.logRight

theorem Knows.rests {other : End} (knows : Knows terms pair other) (rests : Rests side pair pair') :
    Knows terms pair' other := by
  rcases End.eq_or_peer side other with rfl | rfl
  · exact ⟨rests.version.trans knows.version, rests.remote.trans knows.remote,
      rests.events _ knows.reported⟩
  · obtain ⟨stream, same, -⟩ := rests.peer
    obtain ⟨version, remote, reported⟩ := knows
    refine ⟨?_, ?_, ?_⟩ <;> rw [same]
    · exact version
    · exact remote
    · exact reported

theorem Linked.rests {early : Bool} {d : Duplex} (linked : Linked terms early d pair)
    (rests : Rests side pair pair') : Linked terms early d pair' where
  inStep := linked.inStep
  state other reads live := by
    obtain ⟨decoder, same⟩ := rests.driver live
    rw [same]
    exact linked.state other reads (rests.live live)
  knows other reads := (linked.knows other reads).rests rests
  delivers other reads := rests.delivers (linked.delivers other reads)
  waits first live := by
    obtain ⟨decoder, same⟩ := rests.driver live
    rw [same]
    exact terms.rightState_decoder decoder (linked.waits first (rests.live live))
  third first := rests.delivers (linked.third first)
  unused := linked.unused
  encrypted other := by
    rw [rests.log_eq]
    exact linked.encrypted other
  decoded other := by
    rw [rests.log_eq, rests.log_eq]
    exact linked.decoded other
  handshakes := by
    rw [rests.log_eq, rests.log_eq]
    exact linked.handshakes

theorem Stage.rests (stage : Stage terms pair) (rests : Rests side pair pair') :
    Stage terms pair' := by
  cases stage with
  | early act early => exact .early act (early.rests rests)
  | linked early d linked => exact .linked early d (linked.rests rests)

theorem Honest.rests (honest : Honest terms pair) (rests : Rests side pair pair') :
    Honest terms pair' where
  role_left := (rests.kept (·.role) rests.role .left).trans honest.role_left
  role_right := (rests.kept (·.role) rests.role .right).trans honest.role_right
  config_left := (rests.kept (·.config) rests.config .left).trans honest.config_left
  config_right := (rests.kept (·.config) rests.config .right).trans honest.config_right
  steady other := by
    rcases End.eq_or_peer side other with rfl | rfl
    · exact rests.steady
    · obtain ⟨stream, same, -⟩ := rests.peer
      rw [same]
      exact honest.steady side.peer
  stage := honest.stage.rests rests

end

end Racnet.Proof.Driver
