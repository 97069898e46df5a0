import Racnet.Proof.Channel.Handshake

/-!
# The transcript of a handshake

The handshake hash is a chain over all that was said, and the first ciphertext is bound to it.
-/

namespace Racnet.Proof.Channel
open Lib Noise

/-! ## The chain of hashes -/

section
variable [Sha256]

/-- No two different ones of these strings have the same digest. -/
def NoCollisions (inputs : List (List UInt8)) : Prop :=
  ∀ a ∈ inputs, ∀ b ∈ inputs, Sha256.digest a = Sha256.digest b → a = b

def mixAll (symmetric : SymmetricState) (data : List (List UInt8)) : SymmetricState :=
  data.foldl .mixHash symmetric

def hashed : SymmetricState → List (List UInt8) → List (List UInt8)
  | _, [] => []
  | symmetric, piece :: data => (symmetric.h.bytes ++ piece) :: hashed (symmetric.mixHash piece) data

theorem NoCollisions.tail {a b : List UInt8} {first second : List (List UInt8)}
    (apart : NoCollisions ((a :: first) ++ (b :: second))) : NoCollisions (first ++ second) := by
  have sub : ∀ c ∈ first ++ second, c ∈ (a :: first) ++ (b :: second) := by
    intro c mem
    rcases List.mem_append.mp mem with mem | mem
    · exact List.mem_append_left _ (List.mem_cons_of_mem _ mem)
    · exact List.mem_append_right _ (List.mem_cons_of_mem _ mem)
  exact fun c mem d mem' => apart c (sub c mem) d (sub d mem')

theorem mixAll_injective {left right : SymmetricState} {data other : List (List UInt8)}
    (apart : NoCollisions (hashed left data ++ hashed right other))
    (length : data.length = other.length) (same : (mixAll left data).h = (mixAll right other).h) :
    left.h = right.h ∧ data = other := by
  induction data generalizing left right other with
  | nil =>
    obtain rfl : other = [] := List.length_eq_zero_iff.mp length.symm
    exact ⟨same, rfl⟩
  | cons piece data ih =>
    obtain ⟨piece', other, rfl⟩ : ∃ piece' rest, other = piece' :: rest :=
      List.exists_cons_of_length_eq_add_one length.symm
    obtain ⟨digests, rfl⟩ := ih apart.tail (Nat.succ.inj length) same
    have inputs : left.h.bytes ++ piece = right.h.bytes ++ piece' :=
      apart _ (by simp [hashed]) _ (by simp [hashed]) digests
    obtain ⟨front, rfl⟩ := List.append_inj inputs (by rw [left.h.length_eq, right.h.length_eq])
    exact ⟨FixedBytes.ext front, rfl⟩

end

/-! ## The first ciphertext -/

section
variable [Sha256] [HmacSha256] [X25519] [ChaCha20Poly1305]

/-- A ciphertext that opens only under the key, the nonce and the data it was made with. -/
def OpensOnly (ciphertext : List UInt8) : Prop :=
  ∀ key nonce aad msg key' nonce' aad' msg',
    ChaCha20Poly1305.encrypt key nonce aad msg = some ciphertext →
    ChaCha20Poly1305.decrypt key' nonce' aad' ciphertext = some msg' →
    key' = key ∧ nonce' = nonce ∧ aad' = aad

def sealedStatic (msg : List UInt8) : List UInt8 := (msg.drop dhLen).take (dhLen + tagLen)

variable {symmetric : SymmetricState} {s e : Keypair}

omit [HmacSha256] [X25519] in
theorem encrypt_of_encryptAndHash {key : FixedBytes 32} {n : UInt64} {plaintext c : List UInt8}
    {after : SymmetricState} (keyed : symmetric.cipher = ⟨some key, n⟩)
    (sealed : symmetric.encryptAndHash plaintext = .ok (c, after)) :
    ChaCha20Poly1305.encrypt key (nonceBytes n) symmetric.h.bytes plaintext = some c := by
  rw [SymmetricState.encryptAndHash, keyed, CipherState.encryptWithAd] at sealed
  dsimp only at sealed
  by_cases last : n = maxNonce
  · rw [if_pos last] at sealed
    cases sealed
  rw [if_neg last] at sealed
  cases encrypted : ChaCha20Poly1305.encrypt key (nonceBytes n) symmetric.h.bytes plaintext with
  | none =>
    rw [encrypted] at sealed
    cases sealed
  | some c' =>
    rw [encrypted] at sealed
    rw [(Prod.mk.inj (Except.ok.inj sealed)).1]

omit [HmacSha256] [X25519] in
theorem decryptAndHash_refused {key : FixedBytes 32} {n : UInt64} {c : List UInt8}
    (keyed : symmetric.cipher = ⟨some key, n⟩) (left : n ≠ maxNonce)
    (refused : ChaCha20Poly1305.decrypt key (nonceBytes n) symmetric.h.bytes c = none) :
    symmetric.decryptAndHash c = .error .decryptFailed := by
  rw [SymmetricState.decryptAndHash, keyed, CipherState.decryptWithAd]
  simp only [left, if_false, refused]

theorem readMessage_first {msg : List UInt8} {read : HandshakeState} (keyless : symmetric.cipher = .new)
    (ran : HandshakeState.readMessage ⟨symmetric, s, e, none, none, .responder, 1⟩ msg = .ok ([], read)) :
    ∃ first : PublicKey, msg = first.bytes ∧
      read = ⟨mixAll symmetric [first.bytes, []], s, e, some first, none, .responder, 2⟩ := by
  rw [HandshakeState.readMessage, if_neg (by simp [HandshakeState.ourTurnToWrite])] at ran
  split_ifs at ran with short
  · cases ran
  have fits : dhLen ≤ msg.length := Nat.not_lt.mp short
  obtain ⟨first, rest, rfl⟩ : ∃ (first : PublicKey) (rest : List UInt8), msg = first.bytes ++ rest :=
    ⟨⟨msg.take dhLen, List.length_take_of_le fits⟩, msg.drop dhLen, (List.take_append_drop _ _).symm⟩
  have keyless' : (symmetric.mixHash first.bytes).cipher = .new := keyless
  simp only [HandshakeState.readTokens, splitKey_append, Exec.orPanic_some, Exec.ok_bind, pure, Except.pure,
    decryptAndHash_keyless keyless' rest, Exec.lift_ok] at ran
  obtain ⟨rfl, rfl⟩ := Prod.mk.inj (Except.ok.inj ran)
  exact ⟨first, List.append_nil _, rfl⟩

theorem writeMessage_second {first : PublicKey} {msg : List UInt8} {written : HandshakeState}
    (ran : HandshakeState.writeMessage ⟨symmetric, s, e, some first, none, .responder, 2⟩ [] =
      .ok (msg, written)) :
    ∃ key encS encPayload, msg = e.publicKey.bytes ++ (encS ++ encPayload) ∧
      encS.length = dhLen + tagLen ∧ encPayload.length = tagLen ∧
      ChaCha20Poly1305.encrypt key (nonceBytes 0) (symmetric.mixHash e.publicKey.bytes).h.bytes
        s.publicKey.bytes = some encS ∧ written.re = some first := by
  set keyed := (symmetric.mixHash e.publicKey.bytes).mixKey (e.dh first).bytes with keyed_eq
  obtain ⟨encS, named, sizeS, -, sealedS⟩ :=
    @encryptAndHash_keyed _ _ keyed _ _ rfl (by decide) _ (shortKey s.publicKey)
  obtain ⟨c, after, size, -, sealed⟩ :=
    @encryptAndHash_keyed _ _ (named.mixKey (s.dh first).bytes) _ _ rfl (by decide) [] (by
      simp [plaintextLimit])
  have turn : ¬ ((2 : Nat) > 3 ∨
      ¬ HandshakeState.ourTurnToWrite ⟨symmetric, s, e, some first, none, .responder, 2⟩ = true) := by
    simp [HandshakeState.ourTurnToWrite]
  rw [HandshakeState.writeMessage, if_neg turn] at ran
  simp only [HandshakeState.writeTokens, ← keyed_eq, sealedS, sealed, bind, Except.bind] at ran
  obtain ⟨rfl, rfl⟩ := Prod.mk.inj (Except.ok.inj ran)
  have sizeS' : encS.length = dhLen + tagLen := sizeS.trans (by rw [s.publicKey.length_eq]; rfl)
  exact ⟨_, encS, c, List.append_assoc _ _ _, sizeS', size.trans (Nat.zero_add _),
    @encrypt_of_encryptAndHash _ _ keyed _ _ _ _ _ rfl sealedS, rfl⟩

theorem readMessage_refused {re : PublicKey} {encS rest : List UInt8}
    (size : encS.length = dhLen + tagLen) (long : tagLen ≤ rest.length)
    (refused : ∀ key, ChaCha20Poly1305.decrypt key (nonceBytes 0)
      (symmetric.mixHash re.bytes).h.bytes encS = none) :
    HandshakeState.readMessage ⟨symmetric, s, e, none, none, .initiator, 2⟩ (re.bytes ++ (encS ++ rest)) =
      .fail .decryptFailed := by
  have length : ¬ (re.bytes ++ (encS ++ rest)).length <
      HandshakeState.expectedOverhead ⟨symmetric, s, e, none, none, .initiator, 2⟩ := by
    have sizeE := re.length_eq
    simp only [List.length_append, HandshakeState.expectedOverhead, dhLen] at size ⊢
    omega
  have closed : SymmetricState.decryptAndHash
      ((symmetric.mixHash re.bytes).mixKey (e.dh re).bytes) encS = .error .decryptFailed :=
    decryptAndHash_refused rfl (by decide) (refused _)
  rw [HandshakeState.readMessage, if_neg (by simp [HandshakeState.ourTurnToWrite]), if_neg length]
  simp only [HandshakeState.readTokens, splitKey_append, splitAt_append size, Exec.orPanic_some,
    Exec.ok_bind, closed]
  rfl

theorem second_refused {left right : List UInt8} {s' e' : Keypair} {first : PublicKey}
    {msg : List UInt8} {written : HandshakeState} (differ : left ≠ right)
    (apart : NoCollisions
      (hashed .newForProtocol [left, e.publicKey.bytes, [], e'.publicKey.bytes] ++
        hashed .newForProtocol [right, first.bytes, [], e'.publicKey.bytes]))
    (wrote : HandshakeState.writeMessage ⟨mixAll .newForProtocol [right, first.bytes, []], s', e',
      some first, none, .responder, 2⟩ [] = .ok (msg, written))
    (bound : OpensOnly (sealedStatic msg)) :
    HandshakeState.readMessage ⟨mixAll .newForProtocol [left, e.publicKey.bytes, []], s, e, none, none,
      .initiator, 2⟩ msg = .fail .decryptFailed := by
  obtain ⟨key, encS, encPayload, rfl, size, size', encrypted, -⟩ := writeMessage_second wrote
  have static : sealedStatic (e'.publicKey.bytes ++ (encS ++ encPayload)) = encS := by
    rw [sealedStatic, show (e'.publicKey.bytes ++ (encS ++ encPayload)).drop dhLen = encS ++ encPayload
      from e'.publicKey.drop_append _, List.take_left' size]
  rw [static] at bound
  refine readMessage_refused size size'.ge fun key' => ?_
  cases opened : ChaCha20Poly1305.decrypt key' (nonceBytes 0)
      ((mixAll .newForProtocol [left, e.publicKey.bytes, []]).mixHash e'.publicKey.bytes).h.bytes encS with
  | none => rfl
  | some msg' =>
    obtain ⟨-, -, hash⟩ := bound _ _ _ _ _ _ _ _ encrypted opened
    obtain ⟨-, same⟩ := mixAll_injective apart rfl (FixedBytes.ext hash)
    exact absurd (List.cons.inj same).1 differ

end

end Racnet.Proof.Channel
