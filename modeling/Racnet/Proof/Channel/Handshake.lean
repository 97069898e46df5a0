import Racnet.Proof.Driver.Bodies

/-!
# The XX handshake

Reader and writer take the same steps: what one mixes and encrypts, the other mixes and decrypts, and
the two symmetric states are equal after every message.
-/

namespace Racnet.Proof.Channel
open Lib Noise

/-! ## The calls in place -/

/-- The result of a call in place, without the state that an error leaves. -/
def outcome {ε σ α : Type} : Except ε α × σ → Except ε (α × σ)
  | (.ok a, s) => .ok (a, s)
  | (.error e, _) => .error e

theorem outcome_eq_ok {ε σ α : Type} {result : Except ε α × σ} {a : α} {s : σ} :
    outcome result = .ok (a, s) ↔ result = (.ok a, s) := by
  obtain ⟨_ | a', s'⟩ := result <;> simp [outcome]

section
variable [Sha256] [HmacSha256] [X25519] [ChaCha20Poly1305] (hs : HandshakeState)

theorem outcome_putTokens :
    outcome hs.putTokens = hs.writeTokens.map fun (out, symmetric) => (out, { hs with symmetric }) := by
  obtain ⟨symmetric, s, e, re, rs, role, step⟩ := hs
  match step with
  | 0 => rfl
  | 1 => rfl
  | 2 =>
    cases re with
    | none => rfl
    | some re =>
      simp only [HandshakeState.putTokens, HandshakeState.writeTokens, HandshakeState.encryptAndHash,
        HandshakeState.mixHash, HandshakeState.mixKey]
      cases ((symmetric.mixHash e.publicKey.bytes).mixKey (e.dh re).bytes).encryptAndHash
        s.publicKey.bytes <;> rfl
  | 3 =>
    simp only [HandshakeState.putTokens, HandshakeState.writeTokens, HandshakeState.encryptAndHash]
    cases symmetric.encryptAndHash s.publicKey.bytes with
    | error err => rfl
    | ok out => cases re <;> rfl
  | _ + 4 => rfl

theorem outcome_write (payload : List UInt8) : outcome (hs.write payload) = hs.writeMessage payload := by
  rw [HandshakeState.write, HandshakeState.writeMessage]
  by_cases turn : hs.step > 3 ∨ ¬ hs.ourTurnToWrite
  · rw [if_pos turn, if_pos turn]
    rfl
  · rw [if_neg turn, if_neg turn]
    have tokens := outcome_putTokens hs
    rcases put : hs.putTokens with ⟨_ | out, left⟩ <;>
      rcases written : hs.writeTokens with _ | ⟨out', symmetric⟩ <;>
      simp only [put, written, outcome, Except.map, reduceCtorEq, Except.error.injEq, Except.ok.injEq,
        Prod.mk.injEq] at tokens
    · rw [tokens]
      rfl
    · obtain ⟨rfl, rfl⟩ := tokens
      simp only [HandshakeState.encryptAndHash, bind, Except.bind]
      cases symmetric.encryptAndHash payload <;> rfl

theorem outcome_takeTokens (message : List UInt8) :
    outcome (hs.takeTokens message) = (hs.readTokens message).map fun (left, rest) => (rest, left) := by
  obtain ⟨symmetric, s, e, re, rs, role, step⟩ := hs
  match step with
  | 0 => rfl
  | 1 =>
    simp only [HandshakeState.takeTokens, HandshakeState.readTokens]
    cases HandshakeState.splitKey message <;> rfl
  | 2 =>
    simp only [HandshakeState.takeTokens, HandshakeState.readTokens, HandshakeState.takeStatic,
      HandshakeState.decryptAndHash, HandshakeState.mixHash, HandshakeState.mixKey]
    rcases HandshakeState.splitKey message with _ | ⟨re', rest⟩
    · rfl
    simp only [Exec.orPanic_some, Exec.ok_bind]
    rcases HandshakeState.splitAt (dhLen + tagLen) rest with _ | ⟨encS, rest'⟩
    · rfl
    simp only [Exec.orPanic_some, Exec.ok_bind]
    rcases ((symmetric.mixHash re'.bytes).mixKey (e.dh re').bytes).decryptAndHash encS with
      err | ⟨sPlain, after⟩
    · rfl
    simp only [Exec.lift_ok, Exec.ok_bind]
    cases HandshakeState.asKey sPlain <;> rfl
  | 3 =>
    simp only [HandshakeState.takeTokens, HandshakeState.readTokens, HandshakeState.takeStatic,
      HandshakeState.decryptAndHash, HandshakeState.mixKey]
    rcases HandshakeState.splitAt (dhLen + tagLen) message with _ | ⟨encS, rest⟩
    · rfl
    simp only [Exec.orPanic_some, Exec.ok_bind]
    rcases symmetric.decryptAndHash encS with err | ⟨sPlain, after⟩
    · rfl
    simp only [Exec.lift_ok, Exec.ok_bind]
    cases HandshakeState.asKey sPlain <;> rfl
  | _ + 4 => rfl

theorem outcome_read (message : List UInt8) : outcome (hs.read message) = hs.readMessage message := by
  rw [HandshakeState.read, HandshakeState.readMessage]
  by_cases turn : hs.step > 3 ∨ hs.ourTurnToWrite
  · rw [if_pos turn, if_pos turn]
    rfl
  by_cases short : message.length < hs.expectedOverhead
  · rw [if_neg turn, if_neg turn, if_pos short, if_pos short]
    rfl
  · rw [if_neg turn, if_neg turn, if_neg short, if_neg short]
    have tokens := outcome_takeTokens hs message
    rcases took : hs.takeTokens message with ⟨_ | rest, left⟩ <;>
      rcases taken : hs.readTokens message with _ | ⟨left', rest'⟩ <;>
      simp only [took, taken, outcome, Except.map, reduceCtorEq, Except.error.injEq, Except.ok.injEq,
        Prod.mk.injEq] at tokens
    · rw [tokens]
      rfl
    · obtain ⟨rfl, rfl⟩ := tokens
      simp only [HandshakeState.decryptAndHash, Exec.ok_bind]
      cases left.symmetric.decryptAndHash rest <;> rfl

end

/-! ## The symmetric state -/

section
variable [Sha256] [ChaCha20Poly1305] {symmetric : SymmetricState}

theorem encryptAndHash_keyless (keyless : symmetric.cipher = .new) (payload : List UInt8) :
    symmetric.encryptAndHash payload = .ok (payload, symmetric.mixHash payload) := by
  obtain ⟨ck, h, cipher⟩ := symmetric
  obtain rfl : cipher = .new := keyless
  rfl

theorem decryptAndHash_keyless (keyless : symmetric.cipher = .new) (payload : List UInt8) :
    symmetric.decryptAndHash payload = .ok (payload, symmetric.mixHash payload) := by
  obtain ⟨ck, h, cipher⟩ := symmetric
  obtain rfl : cipher = .new := keyless
  rfl

theorem encryptAndHash_keyed {key : FixedBytes 32} {n : UInt64}
    (keyed : symmetric.cipher = ⟨some key, n⟩) (left : n ≠ maxNonce) {plaintext : List UInt8}
    (short : plaintext.length < plaintextLimit) :
    ∃ c after, c.length = plaintext.length + tagLen ∧ after.cipher = ⟨some key, n + 1⟩ ∧
      symmetric.encryptAndHash plaintext = .ok (c, after) := by
  obtain ⟨c, sealed⟩ := Option.isSome_iff_exists.mp
    (ChaCha20Poly1305.encrypt_isSome key (nonceBytes n) symmetric.h.bytes plaintext short)
  refine ⟨c, { symmetric with cipher := ⟨some key, n + 1⟩ }.mixHash c,
    ChaCha20Poly1305.length_encrypt _ _ _ _ _ sealed, rfl, ?_⟩
  rw [SymmetricState.encryptAndHash, keyed, CipherState.encryptWithAd]
  simp only [left, if_false, sealed]

theorem decryptAndHash_of_encryptAndHash (inverts : DecryptInverts) {plaintext c : List UInt8}
    {after : SymmetricState} (sealed : symmetric.encryptAndHash plaintext = .ok (c, after)) :
    symmetric.decryptAndHash c = .ok (plaintext, after) := by
  obtain ⟨ck, h, ⟨_ | key, n⟩⟩ := symmetric
  · obtain ⟨rfl, rfl⟩ := Prod.mk.inj (Except.ok.inj sealed)
    rfl
  rw [SymmetricState.encryptAndHash, CipherState.encryptWithAd] at sealed
  rw [SymmetricState.decryptAndHash, CipherState.decryptWithAd]
  dsimp only at sealed ⊢
  by_cases last : n = maxNonce
  · rw [if_pos last] at sealed
    cases sealed
  rw [if_neg last] at sealed ⊢
  cases encrypted : ChaCha20Poly1305.encrypt key (nonceBytes n) h.bytes plaintext with
  | none =>
    rw [encrypted] at sealed
    cases sealed
  | some c' =>
    rw [encrypted] at sealed
    obtain ⟨rfl, rfl⟩ := Prod.mk.inj (Except.ok.inj sealed)
    rw [inverts _ _ _ _ _ encrypted]

end

/-! ## The three messages -/

theorem splitKey_append (key : PublicKey) (rest : List UInt8) :
    HandshakeState.splitKey (key.bytes ++ rest) = some (key, rest) := by
  have fits : dhLen ≤ (key.bytes ++ rest).length := Nat.not_lt.mp (key.not_length_append_lt rest)
  rw [HandshakeState.splitKey, dif_pos fits]
  have front : (key.bytes ++ rest).take dhLen = key.bytes := key.take_append rest
  have back : (key.bytes ++ rest).drop dhLen = rest := key.drop_append rest
  simp only [front, back]

theorem splitAt_append {n : Nat} {bytes : List UInt8} (size : bytes.length = n) (rest : List UInt8) :
    HandshakeState.splitAt n (bytes ++ rest) = some (bytes, rest) := by
  rw [HandshakeState.splitAt, if_pos (by rw [List.length_append]; omega), List.take_left' size,
    List.drop_left' size]

theorem asKey_bytes (key : PublicKey) : HandshakeState.asKey key.bytes = some key :=
  dif_pos key.length_eq

theorem shortKey (key : PublicKey) : key.bytes.length < plaintextLimit := by
  rw [key.length_eq, plaintextLimit]
  omega

section
variable [Sha256] [HmacSha256] [X25519] [ChaCha20Poly1305]

/-- One message: the writer writes it, the reader reads the payload out of it, and the handshake
hashes of the two are the same. -/
structure Passes (writer reader : HandshakeState) (payload : List UInt8)
    (writer' reader' : HandshakeState) (msg : List UInt8) : Prop where
  writes : writer.write payload = (.ok msg, writer')
  reads : reader.read msg = (.ok payload, reader')
  agree : writer'.handshakeHash = reader'.handshakeHash

theorem Passes.written {writer reader writer' reader' : HandshakeState} {payload msg : List UInt8}
    (passes : Passes writer reader payload writer' reader' msg) :
    writer.writeMessage payload = .ok (msg, writer') := by
  rw [← outcome_write]
  exact outcome_eq_ok.mpr passes.writes

theorem Passes.read {writer reader writer' reader' : HandshakeState} {payload msg : List UInt8}
    (passes : Passes writer reader payload writer' reader' msg) :
    reader.readMessage msg = .ok (payload, reader') := by
  rw [← outcome_read]
  exact outcome_eq_ok.mpr passes.reads

theorem passes_of_tokens (inverts : DecryptInverts) {writer reader left : HandshakeState}
    {out payload c : List UInt8} {after : SymmetricState} (running : writer.step ≤ 3)
    (level : reader.step = writer.step) (ours : writer.ourTurnToWrite = true)
    (theirs : reader.ourTurnToWrite = false) (put : writer.writeTokens = .ok (out, left.symmetric))
    (taken : reader.readTokens (out ++ c) = .ok (left, c))
    (sealed : left.symmetric.encryptAndHash payload = .ok (c, after))
    (long : reader.expectedOverhead ≤ (out ++ c).length) :
    Passes writer reader payload { writer with symmetric := after, step := writer.step + 1 }
      { left with symmetric := after, step := left.step + 1 } (out ++ c) := by
  refine ⟨outcome_eq_ok.mp ?_, outcome_eq_ok.mp ?_, rfl⟩
  · have turn : ¬ (writer.step > 3 ∨ ¬ writer.ourTurnToWrite = true) := by
      simp [ours, running]
    rw [outcome_write, HandshakeState.writeMessage, if_neg turn, put]
    simp only [bind, Except.bind, sealed]
  · have turn : ¬ (reader.step > 3 ∨ reader.ourTurnToWrite = true) := by
      simp [theirs, level, running]
    rw [outcome_read, HandshakeState.readMessage, if_neg turn, if_neg (Nat.not_lt.mpr long), taken]
    simp only [Exec.ok_bind, decryptAndHash_of_encryptAndHash inverts sealed, Exec.lift_ok]
    rfl

variable {symmetric : SymmetricState} (s e s' e' : Keypair) (payload : List UInt8)

theorem first_passes (inverts : DecryptInverts) (keyless : symmetric.cipher = .new) :
    Passes ⟨symmetric, s, e, none, none, .initiator, 1⟩ ⟨symmetric, s', e', none, none, .responder, 1⟩
      payload
      ⟨(symmetric.mixHash e.publicKey.bytes).mixHash payload, s, e, none, none, .initiator, 2⟩
      ⟨(symmetric.mixHash e.publicKey.bytes).mixHash payload, s', e', some e.publicKey, none,
        .responder, 2⟩
      (e.publicKey.bytes ++ payload) := by
  have keyless' : (symmetric.mixHash e.publicKey.bytes).cipher = .new := keyless
  have taken : HandshakeState.readTokens
      ⟨symmetric, s', e', none, none, .responder, 1⟩ (e.publicKey.bytes ++ payload) =
      .ok (⟨symmetric.mixHash e.publicKey.bytes, s', e', some e.publicKey, none, .responder, 1⟩,
        payload) := by
    simp only [HandshakeState.readTokens, splitKey_append, Exec.orPanic_some, Exec.ok_bind]
    rfl
  exact passes_of_tokens inverts (by simp) (by rfl) (by rfl) (by rfl) (by rfl) taken
    (encryptAndHash_keyless keyless' payload) (Nat.not_lt.mp (e.publicKey.not_length_append_lt payload))

theorem second_passes (inverts : DecryptInverts) (ee : e'.dh e.publicKey = e.dh e'.publicKey)
    (es : s'.dh e.publicKey = e.dh s'.publicKey) (short : payload.length < plaintextLimit) :
    ∃ after key msg, after.cipher = ⟨some key, 1⟩ ∧
      Passes ⟨symmetric, s', e', some e.publicKey, none, .responder, 2⟩
        ⟨symmetric, s, e, none, none, .initiator, 2⟩ payload
        ⟨after, s', e', some e.publicKey, none, .responder, 3⟩
        ⟨after, s, e, some e'.publicKey, some s'.publicKey, .initiator, 3⟩ msg := by
  set keyed := (symmetric.mixHash e'.publicKey.bytes).mixKey (e.dh e'.publicKey).bytes
  obtain ⟨encS, named, sizeS, -, sealedS⟩ :=
    @encryptAndHash_keyed _ _ keyed _ _ rfl (by decide) _ (shortKey s'.publicKey)
  set mixed := named.mixKey (e.dh s'.publicKey).bytes
  obtain ⟨c, after, size, keyed', sealed⟩ :=
    @encryptAndHash_keyed _ _ mixed _ _ rfl (by decide) payload short
  have openedS := decryptAndHash_of_encryptAndHash inverts sealedS
  have sizeS' : encS.length = dhLen + tagLen := sizeS.trans (by rw [s'.publicKey.length_eq]; rfl)
  have put : HandshakeState.writeTokens ⟨symmetric, s', e', some e.publicKey, none, .responder, 2⟩ =
      .ok (e'.publicKey.bytes ++ encS, mixed) := by
    simp only [HandshakeState.writeTokens, ee, es, bind, Except.bind]
    rw [sealedS]
  have taken : HandshakeState.readTokens ⟨symmetric, s, e, none, none, .initiator, 2⟩
      (e'.publicKey.bytes ++ encS ++ c) =
      .ok (⟨mixed, s, e, some e'.publicKey, some s'.publicKey, .initiator, 2⟩, c) := by
    simp only [HandshakeState.readTokens, List.append_assoc, splitKey_append, splitAt_append sizeS',
      Exec.orPanic_some, Exec.ok_bind]
    rw [openedS]
    simp only [Exec.lift_ok, Exec.ok_bind, asKey_bytes, Exec.orPanic_some]
    rfl
  refine ⟨after, _, e'.publicKey.bytes ++ encS ++ c, keyed', ?_⟩
  refine passes_of_tokens inverts (by simp) (by rfl) (by rfl) (by rfl) put taken sealed ?_
  have sizeE := e'.publicKey.length_eq
  simp only [List.length_append, HandshakeState.expectedOverhead, dhLen] at sizeS' ⊢
  omega

theorem third_passes (inverts : DecryptInverts) (se : s.dh e'.publicKey = e'.dh s.publicKey)
    {key : FixedBytes 32} (keyed : symmetric.cipher = ⟨some key, 1⟩)
    (short : payload.length < plaintextLimit) :
    ∃ after msg, Passes ⟨symmetric, s, e, some e'.publicKey, some s'.publicKey, .initiator, 3⟩
      ⟨symmetric, s', e', some e.publicKey, none, .responder, 3⟩ payload
      ⟨after, s, e, some e'.publicKey, some s'.publicKey, .initiator, 4⟩
      ⟨after, s', e', some e.publicKey, some s.publicKey, .responder, 4⟩ msg := by
  obtain ⟨encS, named, sizeS, -, sealedS⟩ :=
    encryptAndHash_keyed keyed (by decide) (shortKey s.publicKey)
  set mixed := named.mixKey (e'.dh s.publicKey).bytes
  obtain ⟨c, after, size, -, sealed⟩ :=
    @encryptAndHash_keyed _ _ mixed _ _ rfl (by decide) payload short
  have openedS := decryptAndHash_of_encryptAndHash inverts sealedS
  have sizeS' : encS.length = dhLen + tagLen := sizeS.trans (by rw [s.publicKey.length_eq]; rfl)
  have put : HandshakeState.writeTokens
      ⟨symmetric, s, e, some e'.publicKey, some s'.publicKey, .initiator, 3⟩ = .ok (encS, mixed) := by
    simp only [HandshakeState.writeTokens, se, bind, Except.bind, sealedS]
    rfl
  have taken : HandshakeState.readTokens
      ⟨symmetric, s', e', some e.publicKey, none, .responder, 3⟩ (encS ++ c) =
      .ok (⟨mixed, s', e', some e.publicKey, some s.publicKey, .responder, 3⟩, c) := by
    simp only [HandshakeState.readTokens, splitAt_append sizeS', Exec.orPanic_some, Exec.ok_bind,
      openedS, Exec.lift_ok, asKey_bytes]
    rfl
  refine ⟨after, encS ++ c, ?_⟩
  refine passes_of_tokens inverts (by simp) (by rfl) (by rfl) (by rfl) put taken sealed ?_
  simp only [List.length_append, HandshakeState.expectedOverhead] at sizeS' ⊢
  omega

theorem write_refused {hs left : HandshakeState} {out long : List UInt8} {key : FixedBytes 32}
    {n : UInt64} (running : hs.step ≤ 3) (ours : hs.ourTurnToWrite = true)
    (put : hs.putTokens = (.ok out, left)) (keyed : left.symmetric.cipher = ⟨some key, n⟩)
    (spare : n ≠ maxNonce) (refused : ∀ key nonce ad, ChaCha20Poly1305.encrypt key nonce ad long = none) :
    (hs.write long).1 = .error .decryptFailed := by
  rw [HandshakeState.write, if_neg (by simp [ours, running]), put]
  simp only [HandshakeState.encryptAndHash, SymmetricState.encryptAndHash, CipherState.encryptWithAd, keyed,
    spare, if_false, refused]

/-! ## The whole handshake -/

omit [Sha256] [X25519] [ChaCha20Poly1305] in
theorem intoTransport_mirrored (after : SymmetricState) :
    ∃ transport transport',
      HandshakeState.intoTransport ⟨after, s, e, some e'.publicKey, some s'.publicKey, .initiator, 4⟩ =
        .ok (transport, s'.publicKey) ∧
      HandshakeState.intoTransport ⟨after, s', e', some e.publicKey, some s.publicKey, .responder, 4⟩ =
        .ok (transport', s.publicKey) ∧
      transport.send = transport'.recv ∧ transport'.send = transport.recv :=
  ⟨_, _, rfl, rfl, rfl, rfl⟩

variable (prologue : List UInt8)

theorem honest_handshake (commutes : DhCommutes) (inverts : DecryptInverts)
    (secretS secretE secretS' secretE' : FixedBytes 32) (payload₁ : List UInt8)
    {payload₂ payload₃ : List UInt8} (short₂ : payload₂.length < plaintextLimit)
    (short₃ : payload₃.length < plaintextLimit) :
    (∃ initiator₁ initiator₂ initiator₃ responder₁ responder₂ responder₃ msg₁ msg₂ msg₃,
      Passes (.newXx .initiator (.fromSecretBytes secretS) (.fromSecretBytes secretE) prologue)
        (.newXx .responder (.fromSecretBytes secretS') (.fromSecretBytes secretE') prologue)
        payload₁ initiator₁ responder₁ msg₁ ∧
      Passes responder₁ initiator₁ payload₂ responder₂ initiator₂ msg₂ ∧
      Passes initiator₂ responder₂ payload₃ initiator₃ responder₃ msg₃ ∧
      (initiator₂.isFinished = false ∧ responder₂.isFinished = false) ∧
      (initiator₃.isFinished ∧ responder₃.isFinished) ∧
      ∃ transport transport',
        initiator₃.intoTransport = .ok (transport, (Keypair.fromSecretBytes secretS').publicKey) ∧
        responder₃.intoTransport = .ok (transport', (Keypair.fromSecretBytes secretS).publicKey) ∧
        transport.send = transport'.recv ∧ transport'.send = transport.recv) ∧
    (∀ (hs : HandshakeState) payload, hs.isFinished ∨ ¬ hs.ourTurnToWrite →
      hs.write payload = (.error .outOfOrder, hs)) ∧
    (∀ (hs : HandshakeState) message, hs.isFinished ∨ hs.ourTurnToWrite →
      hs.read message = (.fail .outOfOrder, hs)) ∧
    ∀ hs : HandshakeState, ¬ hs.isFinished → hs.intoTransport = .error .outOfOrder := by
  set s := Keypair.fromSecretBytes secretS
  set e := Keypair.fromSecretBytes secretE
  set s' := Keypair.fromSecretBytes secretS'
  set e' := Keypair.fromSecretBytes secretE'
  refine ⟨?_, ?_, ?_, fun hs running => if_pos running⟩
  · have first := first_passes s e s' e' payload₁ inverts
      (rfl : (SymmetricState.newForProtocol.mixHash prologue).cipher = .new)
    obtain ⟨after₂, key, msg₂, keyed, second⟩ := second_passes s e s' e' payload₂ inverts
      (commutes _ _) (commutes _ _) short₂
    obtain ⟨after₃, msg₃, third⟩ := third_passes s e s' e' payload₃ inverts (commutes _ _) keyed short₃
    exact ⟨_, _, _, _, _, _, _, _, _, first, second, third, ⟨rfl, rfl⟩, ⟨rfl, rfl⟩,
      intoTransport_mirrored s e s' e' after₃⟩
  · intro hs payload turn
    exact if_pos (turn.imp_left of_decide_eq_true)
  · intro hs message turn
    exact if_pos (turn.imp_left of_decide_eq_true)

end

section
open Proof.Driver.StandIns

theorem plain_commutes : DhCommutes := fun _ _ =>
  FixedBytes.ext (List.zipWith_comm_of_comm UInt8.add_comm)

def newPlain (role : Role) : HandshakeState :=
  .newXx role (.fromSecretBytes (FixedBytes.zero 32)) (.fromSecretBytes (FixedBytes.zero 32)) []

theorem honest_handshake_plain : ∃ initiator responder initiator' responder' msg₁ msg₂,
    Passes (newPlain .initiator) (newPlain .responder) [1] initiator responder msg₁ ∧
      Passes responder initiator [2] responder' initiator' msg₂ := by
  have short : ∀ byte : UInt8, [byte].length < plaintextLimit := fun _ => by simp [plaintextLimit]
  obtain ⟨⟨_, _, _, _, _, _, _, _, _, first, second, -⟩, -⟩ :=
    honest_handshake [] plain_commutes shift_inverts (FixedBytes.zero 32) (FixedBytes.zero 32)
      (FixedBytes.zero 32) (FixedBytes.zero 32) [1] (short 2) (short 3)
  exact ⟨_, _, _, _, _, _, first, second⟩

/-- The second payload is too long for the cipher: the responder cannot write its message. -/
theorem long_payload_refused : ∃ initiator responder msg long,
    Passes (newPlain .initiator) (newPlain .responder) [] initiator responder msg ∧
      (responder.write long).1 = .error .decryptFailed := by
  obtain ⟨long, tooLong⟩ : ∃ long : List UInt8, ¬ long.length < plaintextLimit :=
    ⟨List.replicate plaintextLimit 0, by rw [List.length_replicate]; exact lt_irrefl _⟩
  have refused : ∀ key nonce ad, ChaCha20Poly1305.encrypt key nonce ad long = none :=
    fun _ _ _ => if_neg tooLong
  have first := first_passes (.fromSecretBytes (FixedBytes.zero 32))
    (.fromSecretBytes (FixedBytes.zero 32)) (.fromSecretBytes (FixedBytes.zero 32))
    (.fromSecretBytes (FixedBytes.zero 32)) [] shift_inverts
    (rfl : (SymmetricState.newForProtocol.mixHash []).cipher = .new)
  refine ⟨_, _, _, long, first, ?_⟩
  exact write_refused (by simp) (by rfl) (by rfl) (by rfl) (by decide) refused

end

end Racnet.Proof.Channel
