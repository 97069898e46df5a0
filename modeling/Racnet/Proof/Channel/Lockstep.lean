import Mathlib.Data.List.Induction
import Mathlib.Logic.Function.Iterate
import Racnet.Noise.Transport

/-!
# Two transport states in lockstep

Both ends count the messages of a direction and rekey lazily, before the message whose number is a
multiple of 1024. The key of message `i` is the first key rekeyed `i / 1024` times.
-/

namespace Racnet.Proof.Channel
open Lib Noise

inductive End where
  | left
  | right
  deriving DecidableEq

def End.peer : End → End
  | .left => .right
  | .right => .left

@[simp] theorem End.peer_peer (side : End) : side.peer.peer = side := by
  cases side <;> rfl

theorem End.peer_ne (side : End) : side.peer ≠ side := by
  cases side <;> decide

section

theorem ofNat_ne_maxNonce {count : Nat} (room : count < 2 ^ 64 - 1) :
    UInt64.ofNat count ≠ maxNonce := by
  intro same
  have values := congrArg UInt64.toNat same
  rw [maxNonce, UInt64.toNat_ofNat_of_lt' (by rw [UInt64.size]; omega),
    UInt64.toNat_ofNat_of_lt' (by rw [UInt64.size]; omega)] at values
  omega

variable [ChaCha20Poly1305]

def keyOf (key : FixedBytes 32) (i : Nat) : FixedBytes 32 := rekeyKey^[i / rekeyInterval] key

/-- The cipher of a direction after `count` messages: the rekey before the next one is still to come. -/
def cipherAfter (key : FixedBytes 32) (count : Nat) : CipherState :=
  ⟨some (keyOf key (count - 1)), UInt64.ofNat count⟩

theorem rekeyIfDue_cipherAfter (key : FixedBytes 32) {count : Nat} (word : count < 2 ^ 64) :
    TransportState.rekeyIfDue (cipherAfter key count) =
      ⟨some (keyOf key count), UInt64.ofNat count⟩ := by
  have value : (UInt64.ofNat count).toNat = count := UInt64.toNat_ofNat_of_lt' word
  rw [TransportState.rekeyIfDue, CipherState.nonce, cipherAfter, value]
  split_ifs with due
  · have index : count / rekeyInterval = (count - 1) / rekeyInterval + 1 := by
      rw [rekeyInterval] at due ⊢
      omega
    rw [keyOf, keyOf, index, Function.iterate_succ_apply']
    rfl
  · have index : (count - 1) / rekeyInterval = count / rekeyInterval := by
      rw [rekeyInterval] at due ⊢
      omega
    rw [keyOf, keyOf, index]

theorem cipherAfter_zero (key : FixedBytes 32) :
    cipherAfter key 0 = CipherState.new.initializeKey key := by
  simp [cipherAfter, keyOf, CipherState.initializeKey]

theorem cipherAfter_succ (key : FixedBytes 32) (count : Nat) :
    (⟨some (keyOf key count), UInt64.ofNat count + 1⟩ : CipherState) = cipherAfter key (count + 1) := by
  rw [cipherAfter, Nat.add_sub_cancel, UInt64.ofNat_add]
  rfl

variable {transport : TransportState} {key : FixedBytes 32} {count : Nat} {plaintext : List UInt8}

theorem encrypt_next (working : transport.failed = false) (send : transport.send = cipherAfter key count)
    (room : count < 2 ^ 64 - 1) (short : plaintext.length < plaintextLimit) :
    ∃ ciphertext, ChaCha20Poly1305.encrypt (keyOf key count) (nonceBytes (UInt64.ofNat count)) []
        plaintext = some ciphertext ∧
      transport.encrypt plaintext =
        (.ok ciphertext, { transport with send := cipherAfter key (count + 1) }) := by
  obtain ⟨ciphertext, sealed⟩ := Option.isSome_iff_exists.mp
    (ChaCha20Poly1305.encrypt_isSome (keyOf key count) (nonceBytes (UInt64.ofNat count)) [] plaintext
      short)
  refine ⟨ciphertext, sealed, ?_⟩
  rw [TransportState.encrypt, if_neg (by simp [working]), send,
    rekeyIfDue_cipherAfter key (by omega), CipherState.encryptWithAd]
  simp only [ofNat_ne_maxNonce room, if_false, sealed, cipherAfter_succ]

theorem encrypt_exhausted (working : transport.failed = false)
    (send : transport.send = cipherAfter key (2 ^ 64 - 1)) :
    transport.encrypt plaintext = (.error .nonceExhausted, transport) := by
  have same : (⟨some (keyOf key (2 ^ 64 - 1)), UInt64.ofNat (2 ^ 64 - 1)⟩ : CipherState) =
      transport.send := by
    rw [send]
    rfl
  rw [TransportState.encrypt, if_neg (by simp [working]), send,
    rekeyIfDue_cipherAfter key (by decide), CipherState.encryptWithAd]
  simp only [maxNonce, if_true, same]

theorem decrypt_next (inverts : DecryptInverts) (working : transport.failed = false)
    (recv : transport.recv = cipherAfter key count) (room : count < 2 ^ 64 - 1)
    {ciphertext : List UInt8}
    (sealed : ChaCha20Poly1305.encrypt (keyOf key count) (nonceBytes (UInt64.ofNat count)) []
      plaintext = some ciphertext) :
    transport.decrypt ciphertext =
      (.ok plaintext, { transport with recv := cipherAfter key (count + 1) }) := by
  have opened := inverts _ _ _ _ _ sealed
  rw [TransportState.decrypt, if_neg (by simp [working]), recv,
    rekeyIfDue_cipherAfter key (by omega), CipherState.decryptWithAd]
  simp only [ofNat_ne_maxNonce room, if_false, opened, cipherAfter_succ, working]
  rfl

theorem fails_for_good {ciphertext : List UInt8} {after : TransportState} {error : NoiseError}
    (failed : transport.decrypt ciphertext = (.error error, after)) :
    (∀ plaintext, after.encrypt plaintext = (.error .decryptFailed, after)) ∧
      ∀ ciphertext, after.decrypt ciphertext = (.error .decryptFailed, after) := by
  have flag : after.failed = true := by
    rw [TransportState.decrypt] at failed
    split_ifs at failed with already
    · exact (Prod.mk.inj failed).2 ▸ already
    · rcases outcome : (TransportState.rekeyIfDue transport.recv).decryptWithAd [] ciphertext with
        ⟨result, recv⟩
      rw [outcome] at failed
      obtain ⟨rfl, rfl⟩ := Prod.mk.inj failed
      rfl
  constructor
  · intro plaintext
    rw [TransportState.encrypt, if_pos flag]
  · intro ciphertext
    rw [TransportState.decrypt, if_pos flag]

/-! ## Runs of two ends -/

/-- Two ends, what each has encrypted and what its decryptions returned. The ciphertexts an end has not
decrypted yet are in flight. -/
structure Duplex where
  ends : End → TransportState
  sent : End → List (List UInt8 × List UInt8)
  received : End → List (Except NoiseError (List UInt8))

inductive Action where
  | encrypt (side : End) (plaintext : List UInt8)
  | deliver (side : End)

/-- One call: an encryption that succeeds puts the message on its way, and a delivery hands an end the
first ciphertext it has not seen. -/
def Duplex.step (d : Duplex) : Action → Duplex
  | .encrypt side plaintext =>
    match (d.ends side).encrypt plaintext with
    | (.ok ciphertext, transport) =>
      { d with
        ends := Function.update d.ends side transport
        sent := Function.update d.sent side (d.sent side ++ [(plaintext, ciphertext)]) }
    | (.error _, transport) => { d with ends := Function.update d.ends side transport }
  | .deliver side =>
    match (d.sent side.peer)[(d.received side).length]? with
    | none => d
    | some (_, ciphertext) =>
      let (result, transport) := (d.ends side).decrypt ciphertext
      { d with
        ends := Function.update d.ends side transport
        received := Function.update d.received side (d.received side ++ [result]) }

def Duplex.run (d : Duplex) (actions : List Action) : Duplex := actions.foldl Duplex.step d

theorem Duplex.run_concat (d : Duplex) (actions : List Action) (action : Action) :
    d.run (actions ++ [action]) = (d.run actions).step action := by
  rw [Duplex.run, List.foldl_append]
  rfl

/-- Two ends that start with mirrored keys: `keys side` is the key `side` sends under. -/
def Duplex.start (keys : End → FixedBytes 32) (hash : FixedBytes 32) : Duplex where
  ends side := TransportState.new (CipherState.new.initializeKey (keys side))
    (CipherState.new.initializeKey (keys side.peer)) hash
  sent _ := []
  received _ := []

/-- All that was decrypted is what was encrypted, and both ends have counted alike. -/
structure InStep (keys : End → FixedBytes 32) (d : Duplex) : Prop where
  working : ∀ side, (d.ends side).failed = false
  send : ∀ side, (d.ends side).send = cipherAfter (keys side) (d.sent side).length
  recv : ∀ side, (d.ends side).recv = cipherAfter (keys side.peer) (d.received side).length
  room : ∀ side, (d.sent side).length ≤ 2 ^ 64 - 1
  sealed : ∀ side i p c, (d.sent side)[i]? = some (p, c) →
    ChaCha20Poly1305.encrypt (keyOf (keys side) i) (nonceBytes (UInt64.ofNat i)) [] p = some c
  received : ∀ side, d.received side =
    ((d.sent side.peer).take (d.received side).length).map fun m => .ok m.1

def Short : Action → Prop
  | .encrypt _ plaintext => plaintext.length < plaintextLimit
  | .deliver _ => True

variable {keys : End → FixedBytes 32} {d : Duplex}

theorem inStep_start (keys : End → FixedBytes 32) (hash : FixedBytes 32) :
    InStep keys (Duplex.start keys hash) where
  working _ := rfl
  send side := (cipherAfter_zero (keys side)).symm
  recv side := (cipherAfter_zero (keys side.peer)).symm
  room _ := Nat.zero_le _
  sealed _ _ _ _ found := absurd found (by simp [Duplex.start])
  received _ := rfl

theorem InStep.received_le (inStep : InStep keys d) (side : End) :
    (d.received side).length ≤ (d.sent side.peer).length := by
  have same := congrArg List.length (inStep.received side)
  rw [List.length_map, List.length_take] at same
  omega

theorem InStep.encrypt (inStep : InStep keys d) {side : End} {plaintext : List UInt8}
    (short : plaintext.length < plaintextLimit) : InStep keys (d.step (.encrypt side plaintext)) := by
  rcases Nat.lt_or_eq_of_le (inStep.room side) with room | full
  · obtain ⟨ciphertext, sealed, ran⟩ :=
      encrypt_next (inStep.working side) (inStep.send side) room short
    simp only [Duplex.step, ran]
    refine ⟨fun s => ?_, fun s => ?_, fun s => ?_, fun s => ?_, fun s i p c found => ?_, fun s => ?_⟩
    · rcases eq_or_ne s side with rfl | ne
      · simpa using inStep.working s
      · simpa [ne] using inStep.working s
    · rcases eq_or_ne s side with rfl | ne
      · simp
      · simpa [ne] using inStep.send s
    · rcases eq_or_ne s side with rfl | ne
      · simpa using inStep.recv s
      · simpa [ne] using inStep.recv s
    · rcases eq_or_ne s side with rfl | ne
      · simpa using Nat.succ_le_of_lt room
      · simpa [ne] using inStep.room s
    · rcases eq_or_ne s side with rfl | ne
      · dsimp only at found
        rw [Function.update_self, List.getElem?_append] at found
        split_ifs at found with old
        · exact inStep.sealed s i p c found
        · obtain rfl : i = (d.sent s).length := by
            have := (List.getElem?_eq_some_iff.mp found).1
            simp only [List.length_singleton] at this
            omega
          obtain ⟨rfl, rfl⟩ : plaintext = p ∧ ciphertext = c := by simpa using found
          exact sealed
      · dsimp only at found
        rw [Function.update_of_ne ne] at found
        exact inStep.sealed s i p c found
    · dsimp only
      rcases eq_or_ne s.peer side with rfl | ne
      · rw [Function.update_self, List.take_append_of_le_length (inStep.received_le s)]
        exact inStep.received s
      · rw [Function.update_of_ne ne]
        exact inStep.received s
  · have ran := @encrypt_exhausted _ _ _ plaintext (inStep.working side) (full ▸ inStep.send side)
    simp only [Duplex.step, ran, Function.update_eq_self]
    exact inStep

theorem InStep.decrypt (inverts : DecryptInverts) (inStep : InStep keys d) {side : End}
    {plaintext ciphertext : List UInt8}
    (waiting : (d.sent side.peer)[(d.received side).length]? = some (plaintext, ciphertext)) :
    (d.ends side).decrypt ciphertext = (.ok plaintext, { d.ends side with
      recv := cipherAfter (keys side.peer) ((d.received side).length + 1) }) := by
  have inside := (List.getElem?_eq_some_iff.mp waiting).1
  exact decrypt_next inverts (inStep.working side) (inStep.recv side)
    (lt_of_lt_of_le inside (inStep.room side.peer)) (inStep.sealed _ _ _ _ waiting)

theorem InStep.deliver (inverts : DecryptInverts) (inStep : InStep keys d) (side : End) :
    InStep keys (d.step (.deliver side)) := by
  cases waiting : (d.sent side.peer)[(d.received side).length]? with
  | none =>
    simp only [Duplex.step, waiting]
    exact inStep
  | some message =>
    obtain ⟨plaintext, ciphertext⟩ := message
    simp only [Duplex.step, waiting, inStep.decrypt inverts waiting]
    refine ⟨fun s => ?_, fun s => ?_, fun s => ?_, inStep.room, inStep.sealed, fun s => ?_⟩
    · rcases eq_or_ne s side with rfl | ne
      · simpa using inStep.working s
      · simpa [ne] using inStep.working s
    · rcases eq_or_ne s side with rfl | ne
      · simpa using inStep.send s
      · simpa [ne] using inStep.send s
    · rcases eq_or_ne s side with rfl | ne
      · simp
      · simpa [ne] using inStep.recv s
    · dsimp only
      rcases eq_or_ne s side with rfl | ne
      · rw [Function.update_self, List.length_append, List.length_singleton, List.take_add_one,
          waiting, List.map_append, ← inStep.received s]
        rfl
      · rw [Function.update_of_ne ne]
        exact inStep.received s

theorem InStep.run (inverts : DecryptInverts) (inStep : InStep keys d) {actions : List Action}
    (short : ∀ action ∈ actions, Short action) : InStep keys (d.run actions) := by
  induction actions generalizing d with
  | nil => exact inStep
  | cons action actions ih =>
    refine ih ?_ fun a mem => short a (List.mem_cons_of_mem _ mem)
    cases action with
    | encrypt side plaintext => exact inStep.encrypt (short _ List.mem_cons_self)
    | deliver side => exact inStep.deliver inverts side

/-- The plaintext that an action has an end encrypt. -/
def Action.offers (side : End) : Action → Option (List UInt8)
  | .encrypt source plaintext => if source = side then some plaintext else none
  | .deliver _ => none

theorem InStep.sent_encrypt (inStep : InStep keys d) {source : End} {plaintext : List UInt8}
    (short : plaintext.length < plaintextLimit) (side : End) :
    ((d.step (.encrypt source plaintext)).sent side).map Prod.fst =
      ((d.sent side).map Prod.fst ++ ((Action.encrypt source plaintext).offers side).toList).take
        (2 ^ 64 - 1) := by
  have most : ((d.sent side).map Prod.fst).length ≤ 2 ^ 64 - 1 := by
    rw [List.length_map]
    exact inStep.room side
  rcases eq_or_ne source side with rfl | ne
  · rw [Action.offers, if_pos rfl, Option.toList_some]
    rcases Nat.lt_or_eq_of_le (inStep.room source) with room | full
    · obtain ⟨ciphertext, -, ran⟩ := encrypt_next (inStep.working source) (inStep.send source) room short
      rw [List.take_of_length_le (by simpa using Nat.succ_le_of_lt room)]
      simp only [Duplex.step, ran, Function.update_self, List.map_append, List.map_cons, List.map_nil]
    · have ran := @encrypt_exhausted _ _ _ plaintext (inStep.working source) (full ▸ inStep.send source)
      rw [List.take_left' (by simpa using full)]
      simp only [Duplex.step, ran]
  · rw [Action.offers, if_neg ne, Option.toList_none, List.append_nil, List.take_of_length_le most,
      Duplex.step]
    rcases (d.ends source).encrypt plaintext with ⟨_ | ciphertext, transport⟩
    · rfl
    · dsimp only
      rw [Function.update_of_ne ne.symm]

omit [ChaCha20Poly1305] in
theorem take_take_append {α : Type} (n : Nat) (xs ys : List α) :
    (xs.take n ++ ys).take n = (xs ++ ys).take n := by
  rw [List.take_append, List.take_append, List.take_take, List.length_take, Nat.min_self,
    show n - min n xs.length = n - xs.length by omega]

theorem sent_deliver (d : Duplex) (target side : End) :
    (d.step (.deliver target)).sent side = d.sent side := by
  rw [Duplex.step]
  split <;> rfl

theorem sent_run (inverts : DecryptInverts) (keys : End → FixedBytes 32) (hash : FixedBytes 32)
    {actions : List Action} (short : ∀ action ∈ actions, Short action) (side : End) :
    (((Duplex.start keys hash).run actions).sent side).map Prod.fst =
      (actions.filterMap (Action.offers side)).take (2 ^ 64 - 1) := by
  induction actions using List.reverseRecOn with
  | nil => rfl
  | append_singleton actions action ih =>
    have earlier : ∀ action ∈ actions, Short action := fun a mem => short a (List.mem_append_left _ mem)
    have inStep := (inStep_start keys hash).run inverts earlier
    rw [Duplex.run_concat, List.filterMap_append]
    cases action with
    | encrypt source plaintext =>
      have one : [Action.encrypt source plaintext].filterMap (Action.offers side) =
          ((Action.encrypt source plaintext).offers side).toList := by
        cases offered : (Action.encrypt source plaintext).offers side <;> simp [offered]
      rw [inStep.sent_encrypt (short (.encrypt source plaintext) (by simp)), ih earlier,
        take_take_append, one]
    | deliver target =>
      rw [sent_deliver, ih earlier]
      exact congrArg _ (List.append_nil _).symm

/-- Every decryption returns what was encrypted, and none fails. Every message is encrypted until the nonces
have run out, message `i` with nonce `i` under the first key rekeyed `i / 1024` times, and no nonce is used
twice nor the reserved one. A failed decryption is for good. -/
theorem transport_lockstep (inverts : DecryptInverts) (keys : End → FixedBytes 32)
    (hash : FixedBytes 32) {actions : List Action} (short : ∀ action ∈ actions, Short action)
    {d : Duplex} (ran : (Duplex.start keys hash).run actions = d) :
    (∀ side, d.received side =
      ((d.sent side.peer).take (d.received side).length).map fun m => .ok m.1) ∧
    (∀ side p c, (d.sent side.peer)[(d.received side).length]? = some (p, c) →
      ∃ after, (d.ends side).decrypt c = (.ok p, after)) ∧
    (∀ side, (d.sent side).map Prod.fst = (actions.filterMap (Action.offers side)).take (2 ^ 64 - 1)) ∧
    (∀ side plaintext, plaintext.length < plaintextLimit → (d.sent side).length < 2 ^ 64 - 1 →
      ∃ ciphertext after, (d.ends side).encrypt plaintext = (.ok ciphertext, after)) ∧
    (∀ side i p c, (d.sent side)[i]? = some (p, c) →
      ChaCha20Poly1305.encrypt (rekeyKey^[i / 1024] (keys side)) (nonceBytes (UInt64.ofNat i)) [] p =
        some c ∧
      nonceBytes (UInt64.ofNat i) ≠ nonceBytes maxNonce ∧
      ∀ j < i, nonceBytes (UInt64.ofNat j) ≠ nonceBytes (UInt64.ofNat i)) ∧
    ∀ (transport after : TransportState) ciphertext error,
      transport.decrypt ciphertext = (.error error, after) →
        (∀ plaintext, after.encrypt plaintext = (.error .decryptFailed, after)) ∧
          ∀ ciphertext, after.decrypt ciphertext = (.error .decryptFailed, after) := by
  have inStep := (inStep_start keys hash).run inverts short
  have sent := sent_run inverts keys hash short
  rw [ran] at inStep sent
  refine ⟨inStep.received, fun side p c waiting => ⟨_, inStep.decrypt inverts waiting⟩, sent,
    fun side plaintext short room => ?_, fun side i p c found => ⟨inStep.sealed side i p c found, ?_, ?_⟩,
    fun _ _ _ _ failed => fails_for_good failed⟩
  · obtain ⟨ciphertext, -, ran⟩ := encrypt_next (inStep.working side) (inStep.send side) room short
    exact ⟨ciphertext, _, ran⟩
  · have inside := (List.getElem?_eq_some_iff.mp found).1
    intro same
    exact ofNat_ne_maxNonce (lt_of_lt_of_le inside (inStep.room side)) (nonceBytes_injective same)
  · intro j lt same
    have inside := lt_of_lt_of_le (List.getElem?_eq_some_iff.mp found).1 (inStep.room side)
    have values := congrArg UInt64.toNat (nonceBytes_injective same)
    rw [UInt64.toNat_ofNat_of_lt' (by rw [UInt64.size]; omega),
      UInt64.toNat_ofNat_of_lt' (by rw [UInt64.size]; omega)] at values
    omega

end

/-! ## A message that is refused at a rekey boundary -/

/-- A stand-in for the cipher: every byte is moved on by one more than the first byte of the key. -/
@[reducible] def shiftCipher : ChaCha20Poly1305 where
  encrypt key _ _ msg :=
    if msg.length < plaintextLimit then
      some (msg.map (fun byte => byte + (key.bytes.headD 0 + 1)) ++ List.replicate tagLen 0)
    else none
  decrypt key _ _ msg :=
    if tagLen ≤ msg.length then
      some ((msg.take (msg.length - tagLen)).map fun byte => byte - (key.bytes.headD 0 + 1))
    else none
  length_encrypt key nonce aad msg out sealed := by
    split_ifs at sealed
    obtain rfl := Option.some.inj sealed
    simp
  length_decrypt key nonce aad msg out opened := by
    split_ifs at opened with long
    obtain rfl := Option.some.inj opened
    simp only [List.length_map, List.length_take]
    omega
  encrypt_isSome key nonce aad msg short := by simp [short]

local instance : ChaCha20Poly1305 := shiftCipher

theorem shift_inverts : DecryptInverts := by
  intro key nonce aad msg out sealed
  change (if msg.length < plaintextLimit then
    some (msg.map (fun byte => byte + (key.bytes.headD 0 + 1)) ++ List.replicate tagLen 0)
    else none) = some out at sealed
  split_ifs at sealed
  obtain rfl := Option.some.inj sealed
  change (if _ then _ else _) = _
  simp [Function.comp_def]

def zeroKeys : End → FixedBytes 32 := fun _ => FixedBytes.zero 32

def exchange : Nat → List Action
  | 0 => []
  | n + 1 => exchange n ++ [.encrypt .left [7]] ++ [.deliver .right]

theorem short_exchange (n : Nat) : ∀ action ∈ exchange n, Short action := by
  induction n with
  | zero => simp [exchange]
  | succ n ih =>
    rw [exchange, List.forall_mem_append, List.forall_mem_append]
    exact ⟨⟨ih, by simp [Short, plaintextLimit]⟩, by simp [Short]⟩

theorem offered_exchange (n : Nat) :
    (exchange n).filterMap (Action.offers .left) = List.replicate n [7] := by
  induction n with
  | zero => rfl
  | succ n ih =>
    rw [exchange, List.filterMap_append, List.filterMap_append, ih, List.replicate_succ']
    exact List.append_nil _

theorem received_exchange {n : Nat} (room : n ≤ 2 ^ 64 - 1) :
    (((Duplex.start zeroKeys (FixedBytes.zero 32)).run (exchange n)).received .right).length = n := by
  induction n with
  | zero => rfl
  | succ n ih =>
    have size := ih (by omega)
    have inStep := (inStep_start zeroKeys (FixedBytes.zero 32)).run shift_inverts (short_exchange n)
    have sent := congrArg List.length
      (sent_run shift_inverts zeroKeys (FixedBytes.zero 32) (short_exchange n) .left)
    rw [List.length_map, offered_exchange, List.length_take, List.length_replicate,
      Nat.min_eq_right (by omega)] at sent
    rw [exchange, Duplex.run_concat, Duplex.run_concat]
    obtain ⟨ciphertext, -, ran⟩ := @encrypt_next _ _ _ _ [7] (inStep.working .left)
      (inStep.send .left) (by omega) (by decide)
    simp only [Duplex.step, ran, End.peer, Function.update_self, size]
    rw [List.getElem?_append_right sent.le, sent, Nat.sub_self]
    simp [size]

/-- The keys have been changed once, all 1025 messages have arrived, and the next one can be sent. -/
theorem transport_lockstep_exchange : ∃ d,
    (Duplex.start zeroKeys (FixedBytes.zero 32)).run (exchange 1025) = d ∧
      d.received .right = List.replicate 1025 (.ok [7]) ∧
      (∃ c, (d.sent .left)[1024]? = some ([7], c) ∧
        ChaCha20Poly1305.encrypt (rekeyKey (zeroKeys .left)) (nonceBytes 1024) [] [7] = some c) ∧
      ∃ c after, (d.ends .left).encrypt [7] = (.ok c, after) := by
  obtain ⟨received, -, sent, next, keyed, -⟩ :=
    transport_lockstep shift_inverts zeroKeys (FixedBytes.zero 32) (short_exchange 1025) rfl
  have plain := sent .left
  rw [offered_exchange, List.take_of_length_le (by rw [List.length_replicate]; omega)] at plain
  have size := congrArg List.length plain
  rw [List.length_map, List.length_replicate] at size
  refine ⟨_, rfl, ?_, ?_, next .left [7] (by decide) (by omega)⟩
  · have all := congrArg (List.map (Except.ok : _ → Except NoiseError _)) plain
    rw [List.map_map, List.map_replicate] at all
    rw [received .right, received_exchange (by omega), End.peer, List.take_of_length_le size.le]
    exact all
  · have front := congrArg (·[1024]?) plain
    simp only [List.getElem?_map, List.getElem?_replicate] at front
    obtain ⟨⟨p, c⟩, found, rfl⟩ := Option.map_eq_some_iff.mp front
    exact ⟨c, found, (keyed .left 1024 _ c found).1⟩

def afterEmpty (n : Nat) : Duplex :=
  (Duplex.start zeroKeys (FixedBytes.zero 32)).run (List.replicate n (.encrypt .left []))

theorem run_empty_concat (n : Nat) (first second : Action) :
    (Duplex.start zeroKeys (FixedBytes.zero 32)).run
      (List.replicate n (.encrypt .left []) ++ [first] ++ [second]) =
        ((afterEmpty n).step first).step second := by
  rw [Duplex.run_concat, Duplex.run_concat, afterEmpty]

theorem inStep_afterEmpty (n : Nat) : InStep zeroKeys (afterEmpty n) := by
  refine (inStep_start zeroKeys (FixedBytes.zero 32)).run shift_inverts fun action mem => ?_
  rw [List.eq_of_mem_replicate mem]
  exact (by decide : 0 < plaintextLimit)

theorem sent_afterEmpty {n : Nat} (room : n ≤ 2 ^ 64 - 1) :
    ((afterEmpty n).sent .left).length = n := by
  induction n with
  | zero => rfl
  | succ n ih =>
    have size := ih (by omega)
    have inStep := inStep_afterEmpty n
    obtain ⟨ciphertext, -, ran⟩ := @encrypt_next _ _ _ _ [] (inStep.working .left)
      (inStep.send .left) (by omega) (by decide)
    have next : afterEmpty (n + 1) = (afterEmpty n).step (.encrypt .left []) := by
      rw [afterEmpty, List.replicate_succ', Duplex.run_concat]
      rfl
    rw [next]
    simp only [Duplex.step, ran, Function.update_self, List.length_append, List.length_singleton,
      size]

theorem refused_at_boundary {transport : TransportState} {long : List UInt8}
    (working : transport.failed = false) (tooLong : ¬ long.length < plaintextLimit)
    (send : transport.send = cipherAfter (zeroKeys .left) 1024) :
    transport.encrypt long = (.error .decryptFailed, { transport with
      send := ⟨some (rekeyKey (zeroKeys .left)), 1024⟩ }) := by
  have refused : ∀ key nonce, ChaCha20Poly1305.encrypt key nonce [] long = none :=
    fun _ _ => if_neg tooLong
  rw [TransportState.encrypt, if_neg (by simp [working]), send,
    rekeyIfDue_cipherAfter _ (by decide), CipherState.encryptWithAd]
  simp only [ofNat_ne_maxNonce (by decide : 1024 < 2 ^ 64 - 1), if_false, refused]
  rfl

theorem rekeyed_twice {transport : TransportState} (working : transport.failed = false) :
    ∃ c after, ChaCha20Poly1305.encrypt (rekeyKey (rekeyKey (zeroKeys .left))) (nonceBytes 1024) []
      [0] = some c ∧ TransportState.encrypt { transport with
        send := ⟨some (rekeyKey (zeroKeys .left)), 1024⟩ } [0] = (.ok c, after) := by
  have due : TransportState.rekeyIfDue ⟨some (rekeyKey (zeroKeys .left)), 1024⟩ =
      ⟨some (rekeyKey (rekeyKey (zeroKeys .left))), 1024⟩ := rfl
  rw [TransportState.encrypt, if_neg (by simp [working]), due, CipherState.encryptWithAd]
  exact ⟨_, _, rfl, rfl⟩

theorem sent_after_refusal {d : Duplex} {long : List UInt8} (inStep : InStep zeroKeys d)
    (size : (d.sent .left).length = 1024) (tooLong : ¬ long.length < plaintextLimit) :
    ∃ c, (((d.step (.encrypt .left long)).step (.encrypt .left [0])).sent .left)[1024]? =
        some ([0], c) ∧
      ChaCha20Poly1305.encrypt (rekeyKey (rekeyKey (zeroKeys .left))) (nonceBytes 1024) [] [0] =
        some c := by
  have send := inStep.send .left
  rw [size] at send
  have refused := refused_at_boundary (inStep.working .left) tooLong send
  obtain ⟨c, after, sealed, ran⟩ := rekeyed_twice (inStep.working .left)
  refine ⟨c, ?_, sealed⟩
  simp only [Duplex.step, refused, Function.update_self, ran]
  rw [List.getElem?_append_right size.le, size]
  rfl

/-- A plaintext that is too long for the cipher, at the boundary: the key is changed and no message is
sent. The next message changes it again. -/
theorem refused_message_rekeys : ∃ actions c,
    (((Duplex.start zeroKeys (FixedBytes.zero 32)).run actions).sent .left)[1024]? = some ([0], c) ∧
      ChaCha20Poly1305.encrypt (rekeyKey^[1024 / 1024] (zeroKeys .left))
        (nonceBytes (UInt64.ofNat 1024)) [] [0] ≠ some c := by
  obtain ⟨long, tooLong⟩ : ∃ long : List UInt8, ¬ long.length < plaintextLimit :=
    ⟨List.replicate plaintextLimit 0, by rw [List.length_replicate]; exact lt_irrefl _⟩
  obtain ⟨c, found, sealed⟩ :=
    sent_after_refusal (inStep_afterEmpty 1024) (sent_afterEmpty (by omega)) tooLong
  refine ⟨List.replicate 1024 (.encrypt .left []) ++ [.encrypt .left long] ++ [.encrypt .left [0]],
    c, ?_, ?_⟩
  · rw [run_empty_concat]
    exact found
  · rw [← sealed]
    decide

end Racnet.Proof.Channel
