import Mathlib.Data.List.Forall2
import Racnet.Proof.Driver.Honest
import Racnet.Proof.Driver.Exhaustion

/-!
# The conversation of two established drivers

What they encrypt and decrypt keeps them in step.
-/

namespace Racnet.Proof.Driver
open Lib Noise Store Sync Wire Link
open Proof.Channel (End Duplex InStep)
open Proof.Format (decodeMessage_of_encodeMessage padded_of_encodeMessage)

section
variable [ChaCha20Poly1305] {keys : End → FixedBytes 32} {d d' : Duplex} {side : End}
  {msgs : List Message} {frames : List (List UInt8)} {last : TransportState}

theorem encryptFrame_ok {transport : TransportState} {msg : Message} {frame : List UInt8}
    (encrypted : LinkDriver.encryptFrame transport msg = (.ok frame, last)) :
    ∃ plaintext ciphertext, encodeMessage msg = .ok plaintext ∧
      transport.encrypt plaintext = (.ok ciphertext, last) ∧ frame = frameBytes ciphertext := by
  rw [LinkDriver.encryptFrame] at encrypted
  cases encoded : encodeMessage msg with
  | error error =>
    rw [encoded] at encrypted
    cases encrypted
  | ok plaintext =>
    rw [encoded] at encrypted
    dsimp only at encrypted
    rcases result : transport.encrypt plaintext with ⟨error | ciphertext, next⟩
    · rw [result] at encrypted
      cases encrypted
    · rw [result] at encrypted
      cases encrypted
      exact ⟨plaintext, ciphertext, rfl, result, rfl⟩

structure Extends (side : End) (d : Duplex) (new : List (List UInt8 × List UInt8)) (d' : Duplex) :
    Prop where
  sent : d'.sent side = d.sent side ++ new
  sent_peer : d'.sent side.peer = d.sent side.peer
  ends_peer : d'.ends side.peer = d.ends side.peer
  received : d'.received = d.received
  small : ∀ message ∈ new, message.2.length ≤ 65535

theorem extends_encrypt {msg : Message} {plaintext ciphertext : List UInt8}
    (inStep : InStep keys d) (encoded : encodeMessage msg = .ok plaintext)
    (encrypted : (d.ends side).encrypt plaintext = (.ok ciphertext, last)) :
    ∃ d', InStep keys d' ∧ d'.ends side = last ∧ Extends side d [(plaintext, ciphertext)] d' := by
  have next : InStep keys (d.step (.encrypt side plaintext)) :=
    inStep.encrypt (length_encodeMessage_lt encoded)
  simp only [Duplex.step, encrypted] at next
  refine ⟨_, next, Function.update_self _ _ _, Function.update_self _ _ _,
    Function.update_of_ne side.peer_ne _ _, Function.update_of_ne side.peer_ne _ _, rfl, ?_⟩
  have sealed := next.sealed side (d.sent side).length plaintext ciphertext (by simp)
  have length := ChaCha20Poly1305.length_encrypt _ _ _ _ _ sealed
  have short := (padded_of_encodeMessage encoded).2
  rw [List.forall_mem_singleton, length]
  rw [maxPaddedLen] at short
  rw [tagLen]
  omega

theorem extends_encryptAll (inStep : InStep keys d)
    (encrypted : encryptAll (d.ends side) msgs = some (frames, last)) :
    ∃ d' new, InStep keys d' ∧ d'.ends side = last ∧ Extends side d new d' ∧
      frames = (new.map Prod.snd).map frameBytes ∧
      List.Forall₂ (fun msg message => encodeMessage msg = .ok message.1) msgs new := by
  induction msgs generalizing d frames with
  | nil =>
    cases encrypted
    exact ⟨d, [], inStep, rfl, ⟨(List.append_nil _).symm, rfl, rfl, rfl, by simp⟩, rfl, .nil⟩
  | cons msg msgs ih =>
    obtain ⟨frame, next, later, first, rest, rfl⟩ := encryptAll_cons encrypted
    obtain ⟨plaintext, ciphertext, encoded, ran, rfl⟩ := encryptFrame_ok first
    obtain ⟨d₁, inStep₁, rfl, one⟩ := extends_encrypt inStep encoded ran
    obtain ⟨d₂, new, inStep₂, ended, more, rfl, encodes⟩ := ih inStep₁ rest
    refine ⟨d₂, (plaintext, ciphertext) :: new, inStep₂, ended, ?_, rfl, .cons encoded encodes⟩
    refine ⟨?_, more.sent_peer.trans one.sent_peer, more.ends_peer.trans one.ends_peer,
      more.received.trans one.received, ?_⟩
    · rw [more.sent, one.sent, List.append_assoc]
      rfl
    · exact List.forall_mem_cons.mpr ⟨one.small _ (List.mem_singleton_self _), more.small⟩

end

section
variable [Sha256] [HmacSha256] [X25519] [ChaCha20Poly1305] {s e s' e' : Keypair}
  {terms : Terms s e s' e'} {pair : Pair} {side : End} {early : Bool} {d : Duplex}
  {after : LinkDriver} {out : LinkOutput}

omit [Sha256] [HmacSha256] [X25519] [ChaCha20Poly1305] in
theorem left_of_not_waiting (first : early = true) (reads : ¬ Waiting early side) : side = .left := by
  cases side with
  | left => rfl
  | right => exact absurd ⟨first, rfl⟩ reads

omit [Sha256] [HmacSha256] [X25519] [ChaCha20Poly1305] in
theorem Extends.pending_self {new : List (List UInt8 × List UInt8)} {d' : Duplex}
    (more : Extends side d new d') : pendingFor d' side = pendingFor d side := by
  rw [pendingFor, more.sent_peer, more.received, pendingFor]

omit [Sha256] [HmacSha256] [X25519] in
theorem Extends.pending_peer {new : List (List UInt8 × List UInt8)} {d' : Duplex}
    {keys : End → FixedBytes 32} (more : Extends side d new d') (inStep : InStep keys d) :
    pendingFor d' side.peer = pendingFor d side.peer ++ new.map Prod.snd := by
  have read := inStep.received_le side.peer
  rw [Channel.End.peer_peer] at read
  rw [pendingFor, pendingFor, Channel.End.peer_peer, more.sent, more.received,
    List.drop_append_of_le_length read, List.map_append]

theorem Knows.acts {other : End} {log : Log} (knows : Knows terms pair other)
    (version : after.negotiatedVersion = (pair side).driver.negotiatedVersion)
    (remote : after.remoteFingerprint = (pair side).driver.remoteFingerprint) :
    Knows terms (pair.after side after out log) other := by
  rcases End.eq_or_peer side other with rfl | rfl
  · refine ⟨?_, ?_, ?_⟩ <;> rw [after_self]
    · exact version.trans knows.version
    · exact remote.trans knows.remote
    · exact List.mem_append_left _ knows.reported
  · refine ⟨?_, ?_, ?_⟩ <;> rw [after_peer]
    · exact knows.version
    · exact knows.remote
    · exact knows.reported

theorem Linked.write {msgs : List Message} (linked : Linked terms early d pair)
    (reads : ¬ Waiting early side) (live : (pair side).Live)
    (answers : Answers (pair side).driver (d.ends side) msgs after out.frames) :
    ∃ d', Linked terms early d' (pair.after side after out { encrypted := msgs }) := by
  obtain ⟨⟨frames, last, encrypted, sent, state⟩, keeps, -⟩ := answers
  obtain ⟨d', new, inStep, rfl, more, rfl, encodes⟩ := extends_encryptAll linked.inStep encrypted
  have small : ∀ body ∈ new.map Prod.snd, body.length ≤ 65535 := by
    simpa using fun c p mem => more.small (p, c) mem
  have toPeer : ∀ bodies, Delivers pair side.peer bodies → Delivers
      (pair.after side after out { encrypted := msgs }) side.peer (bodies ++ new.map Prod.snd) :=
    fun bodies delivers => delivers.write live small sent
  refine ⟨d', inStep, fun other reads' live' => ?_, fun other reads' => ?_, fun other reads' => ?_,
    fun first live' => ?_, fun first => ?_, fun first => ?_, fun other => ?_, fun other => ?_, ?_⟩
  · rcases End.eq_or_peer side other with rfl | rfl
    · rw [Side.Live, after_self] at live'
      rw [after_self]
      exact state live'
    · rw [Side.Live, after_peer] at live'
      rw [after_peer, more.ends_peer]
      exact linked.state side.peer reads' live'
  · exact (linked.knows other reads').acts keeps.version keeps.remote
  · rcases End.eq_or_peer side other with rfl | rfl
    · rw [more.pending_self]
      intro live'
      rw [Side.unread, after_self, after_peer]
      dsimp only
      rw [keeps.decoder]
      exact linked.delivers other reads live
    · rw [more.pending_peer linked.inStep]
      exact toPeer _ (linked.delivers side.peer reads')
  · obtain rfl := left_of_not_waiting first reads
    exact linked.waits first live'
  · obtain rfl := left_of_not_waiting first reads
    have pending := more.pending_peer linked.inStep
    rw [Channel.End.peer] at pending
    rw [pending]
    exact toPeer _ (linked.third first)
  · obtain rfl := left_of_not_waiting first reads
    obtain ⟨ends, silent, unread⟩ := linked.unused first
    exact ⟨more.ends_peer.trans ends, more.sent_peer.trans silent, by rw [more.received, unread]⟩
  · rcases End.eq_or_peer side other with rfl | rfl
    · rw [after_self, more.sent]
      exact List.rel_append (linked.encrypted other) encodes
    · rw [after_peer, more.sent_peer]
      exact linked.encrypted side.peer
  · rw [more.received]
    rcases End.eq_or_peer side other with rfl | rfl
    · rw [after_self, after_peer]
      exact (List.append_nil _).trans (linked.decoded other)
    · have read := linked.inStep.received_le side.peer
      have length := (linked.encrypted side).length_eq
      rw [Channel.End.peer_peer] at read ⊢
      rw [after_self, after_peer]
      dsimp only [Log.andThen]
      rw [List.take_append_of_le_length (by omega)]
      have decoded := linked.decoded side.peer
      rwa [Channel.End.peer_peer] at decoded
  · cases side <;> simpa [Pair.after, Log.andThen] using linked.handshakes

omit [Sha256] [HmacSha256] [X25519] [ChaCha20Poly1305] in
theorem pendingFor_cons {body : List UInt8} {later : List (List UInt8)}
    (pending : pendingFor d side = body :: later) :
    ∃ plaintext, (d.sent side.peer)[(d.received side).length]? = some (plaintext, body) ∧
      ((d.sent side.peer).drop ((d.received side).length + 1)).map Prod.snd = later := by
  obtain ⟨⟨plaintext, ciphertext⟩, rest, dropped, rfl, rfl⟩ := List.map_eq_cons_iff.mp pending
  refine ⟨plaintext, ?_, ?_⟩
  · rw [← List.head?_drop, dropped]
    rfl
  · rw [← List.tail_drop, dropped]
    rfl

theorem Linked.encodes {plaintext body : List UInt8} {n : Nat} (linked : Linked terms early d pair)
    (found : (d.sent side)[n]? = some (plaintext, body)) :
    ∃ msg, (pair side).log.encrypted[n]? = some msg ∧ encodeMessage msg = .ok plaintext ∧
      ¬ (body.length < tagLen ∨ ¬ isPaddedLen (body.length - tagLen)) := by
  obtain ⟨length, all⟩ := List.forall₂_iff_get.mp (linked.encrypted side)
  obtain ⟨inside, same⟩ := List.getElem?_eq_some_iff.mp found
  have inside' : n < (pair side).log.encrypted.length := by omega
  have encoded := all n inside' inside
  rw [List.get_eq_getElem, List.get_eq_getElem, same] at encoded
  refine ⟨_, List.getElem?_eq_getElem inside', encoded, ?_⟩
  rw [ChaCha20Poly1305.length_encrypt _ _ _ _ _ (linked.inStep.sealed side n plaintext body found),
    Nat.add_sub_cancel, (padded_of_encodeMessage encoded).1]
  simp

theorem Linked.read {decoder : FrameDecoder} {body : List UInt8} (inverts : DecryptInverts)
    (linked : Linked terms early d pair) (reads : ¬ Waiting early side) (live : (pair side).Live)
    (next : (pair side).driver.decoder.nextBody = (some body, decoder)) :
    ∃ plaintext msg d', ¬ (body.length < tagLen ∨ ¬ isPaddedLen (body.length - tagLen)) ∧
      (d.ends side).decrypt body = (.ok plaintext, d'.ends side) ∧
      decodeMessage plaintext = .ok msg ∧
      Linked terms early d' (pair.after side
        { (pair side).driver with decoder, state := .transport (d'.ends side) } {}
        { decoded := [msg] }) := by
  obtain ⟨later, pending, delivered⟩ := (linked.delivers side reads).read live next
  obtain ⟨plaintext, found, left⟩ := pendingFor_cons pending
  obtain ⟨msg, said, encoded, gate⟩ := linked.encodes found
  have decrypted := linked.inStep.decrypt inverts found
  have inStep := linked.inStep.deliver inverts side
  simp only [Duplex.step, found, decrypted] at inStep
  set transport := { d.ends side with
    recv := Channel.cipherAfter (terms.script.keys side.peer) ((d.received side).length + 1) }
  set d' : Duplex := { d with
    ends := Function.update d.ends side transport
    received := Function.update d.received side (d.received side ++ [.ok plaintext]) }
  have ends : d'.ends side = transport := Function.update_self _ _ _
  have ends_peer : d'.ends side.peer = d.ends side.peer := Function.update_of_ne side.peer_ne _ _
  have received : d'.received side = d.received side ++ [.ok plaintext] := Function.update_self _ _ _
  have received_peer : d'.received side.peer = d.received side.peer :=
    Function.update_of_ne side.peer_ne _ _
  have pending_self : pendingFor d' side = later := by
    rw [pendingFor, received, List.length_append, List.length_singleton]
    exact left
  have pending_peer : pendingFor d' side.peer = pendingFor d side.peer := by
    rw [pendingFor, received_peer, pendingFor]
  refine ⟨plaintext, msg, d', gate, by rw [ends, decrypted], decodeMessage_of_encodeMessage encoded, ?_⟩
  set reader : LinkDriver := { (pair side).driver with decoder, state := .transport (d'.ends side) }
  have toPeer : ∀ bodies, Delivers pair side.peer bodies →
      Delivers (pair.after side reader {} { decoded := [msg] }) side.peer bodies :=
    fun bodies delivers => delivers_quiet side delivers live rfl
  refine ⟨inStep, fun other reads' live' => ?_, fun other reads' => ?_, fun other reads' => ?_,
    fun first live' => ?_, fun first => ?_, fun first => ?_, fun other => ?_, fun other => ?_, ?_⟩
  · rcases End.eq_or_peer side other with rfl | rfl
    · rw [after_self]
    · rw [Side.Live, after_peer] at live'
      rw [after_peer, ends_peer]
      exact linked.state side.peer reads' live'
  · exact (linked.knows other reads').acts rfl rfl
  · rcases End.eq_or_peer side other with rfl | rfl
    · rw [pending_self]
      exact delivered rfl
    · rw [pending_peer]
      exact toPeer _ (linked.delivers side.peer reads')
  · obtain rfl := left_of_not_waiting first reads
    exact linked.waits first live'
  · obtain rfl := left_of_not_waiting first reads
    rw [Channel.End.peer] at pending_peer
    rw [pending_peer]
    exact toPeer _ (linked.third first)
  · obtain rfl := left_of_not_waiting first reads
    obtain ⟨unchanged, silent, unread⟩ := linked.unused first
    exact ⟨ends_peer.trans unchanged, silent, received_peer.trans unread⟩
  · rcases End.eq_or_peer side other with rfl | rfl
    · rw [after_self]
      dsimp only [Log.andThen]
      rw [List.append_nil]
      exact linked.encrypted other
    · rw [after_peer]
      exact linked.encrypted side.peer
  · rcases End.eq_or_peer side other with rfl | rfl
    · rw [after_self, after_peer, received, List.length_append, List.length_singleton,
        List.take_add_one, said, ← linked.decoded other]
      rfl
    · rw [after_peer, received_peer]
      have decoded := linked.decoded side.peer
      rw [Channel.End.peer_peer] at decoded ⊢
      rw [after_self]
      dsimp only [Log.andThen]
      rw [List.append_nil]
      exact decoded
  · cases side <;> simpa [Pair.after, Log.andThen] using linked.handshakes

end

end Racnet.Proof.Driver
