import Mathlib.Order.Bounds.Basic
import Racnet.Wire.Frame

/-!
# The wire format, there and back
-/

namespace Racnet.Proof.Format
open Lib Lib.Cbor Wire

/-! ## Padding -/

def Permitted (len : Nat) : Prop :=
  len = 256 ∨ len = 512 ∨ len = 1024 ∨ 0 < len ∧ len ≤ maxPaddedLen ∧ 2048 ∣ len

theorem paddedLen_eq_none {unpadded : Nat} (large : maxPaddedLen < unpadded) :
    paddedLen unpadded = none := if_pos large

theorem paddedLen_least {unpadded : Nat} (fits : unpadded ≤ maxPaddedLen) :
    ∃ padded, paddedLen unpadded = some padded ∧
      IsLeast {len | Permitted len ∧ unpadded ≤ len} padded := by
  have limit : maxPaddedLen = 63488 := rfl
  rw [paddedLen, if_neg (not_lt.mpr fits), blockSizes]
  by_cases first : unpadded ≤ 256
  · refine ⟨256, by simp [first], ⟨by simp [Permitted], first⟩, ?_⟩
    rintro len ⟨permitted, le⟩
    rw [Permitted] at permitted
    omega
  by_cases second : unpadded ≤ 512
  · refine ⟨512, by simp [first, second], ⟨by simp [Permitted], second⟩, ?_⟩
    rintro len ⟨permitted, le⟩
    rw [Permitted] at permitted
    omega
  by_cases third : unpadded ≤ 1024
  · refine ⟨1024, by simp [first, second, third], ⟨by simp [Permitted], third⟩, ?_⟩
    rintro len ⟨permitted, le⟩
    rw [Permitted] at permitted
    omega
  -- from here on the padded length is the next multiple of the largest block
  have rounded : (unpadded + 2047) / 2048 * 2048 ≤ maxPaddedLen := by omega
  refine ⟨(unpadded + 2047) / 2048 * 2048, ?_, ⟨?_, by omega⟩, ?_⟩
  · by_cases fourth : unpadded ≤ 2048
    · have once : (unpadded + 2047) / 2048 = 1 := by omega
      simp [first, second, third, fourth, once]
    · simp [first, second, third, fourth, rounded]
  · exact Or.inr (Or.inr (Or.inr ⟨by omega, rounded, Nat.dvd_mul_left _ _⟩))
  · rintro len ⟨permitted, le⟩
    rw [Permitted] at permitted
    omega

theorem le_of_paddedLen {unpadded padded : Nat} (found : paddedLen unpadded = some padded) :
    unpadded ≤ padded ∧ 256 ≤ padded ∧ padded ≤ maxPaddedLen := by
  have fits : unpadded ≤ maxPaddedLen := by
    by_contra large
    rw [paddedLen_eq_none (not_le.mp large)] at found
    cases found
  obtain ⟨padded', found', ⟨permitted, le⟩, -⟩ := paddedLen_least fits
  obtain rfl := Option.some.inj (found.symm.trans found')
  have limit : maxPaddedLen = 63488 := rfl
  rw [Permitted] at permitted
  omega

theorem isPaddedLen_of_paddedLen {unpadded padded : Nat} (found : paddedLen unpadded = some padded) :
    isPaddedLen padded = true := by
  obtain ⟨enough, -, small⟩ := le_of_paddedLen found
  obtain ⟨first, found', ⟨permitted, -⟩, -⟩ := paddedLen_least (enough.trans small)
  obtain rfl := Option.some.inj (found'.symm.trans found)
  obtain ⟨second, again, least⟩ := paddedLen_least small
  have same : second = first := least.unique ⟨⟨permitted, le_rfl⟩, fun _ mem => mem.2⟩
  rw [isPaddedLen, again, same, decide_eq_true rfl]

/-! ## Payloads -/

theorem decodeU64_encodeU64 (n : UInt64) (rest : List UInt8) :
    decodeU64 (encodeU64 n ++ rest) = some (n, rest) := by
  rw [decodeU64, encodeU64, readUnsigned_unsigned n.toNat_lt]
  simp

theorem length_encodeU64_pos (n : UInt64) : 0 < (encodeU64 n).length := length_head_pos 0 _

theorem window_decode_encode (window : SortKeyWindow) (rest : List UInt8) :
    SortKeyWindow.decode (window.encode ++ rest) = some (window, rest) := by
  rw [SortKeyWindow.decode, SortKeyWindow.encode, List.append_assoc, List.append_assoc,
    readPair_array (decodeU64_encodeU64 window.since) (decodeU64_encodeU64 window.until_)]
  rfl

theorem readList_u64 {ns : List UInt64} (fits : (list encodeU64 ns).length < 2 ^ 64)
    (rest : List UInt8) : readList decodeU64 (list encodeU64 ns ++ rest) = some (ns, rest) :=
  readList_list (fun n _ => decodeU64_encodeU64 n)
    (lt_of_le_of_lt (length_le_list length_encodeU64_pos ns) fits) rest

theorem readList_entries {entries : List Entry} (fits : (list Entry.toBytes entries).length < 2 ^ 64)
    (rest : List UInt8) :
    readList Entry.decode (list Entry.toBytes entries ++ rest) = some (entries, rest) :=
  readList_list (fun entry _ => Entry.decode_toBytes entry)
    (lt_of_le_of_lt (length_le_list Entry.length_toBytes_pos entries) fits) rest

theorem readBytes_field {bytes : List UInt8} (fits : (byteString bytes).length < 2 ^ 64)
    (rest : List UInt8) : readBytes (byteString bytes ++ rest) = some (bytes, rest) :=
  readBytes_byteString (lt_of_le_of_lt (length_le_byteString bytes) fits) rest

theorem decodePayload_payloadBytes (msg : Message) (fits : msg.payloadBytes.length < 2 ^ 64)
    (rest : List UInt8) :
    decodePayload msg.msgType (msg.payloadBytes ++ rest) = some (msg, rest) := by
  have field : ∀ {items : List (List UInt8)}, msg.payloadBytes = record items →
      ∀ item ∈ items, item.length < 2 ^ 64 := by
    intro items written item mem
    rw [written] at fits
    exact lt_of_le_of_lt (length_le_record mem) fits
  cases msg with
  | hello p =>
    have sizes := field rfl
    simp only [List.forall_mem_cons] at sizes
    simp only [Message.msgType, Message.payloadBytes, decodePayload, Hello.decode, Hello.encode,
      readRecord3_record (readList_u64 sizes.1) (decodeU64_encodeU64 p.features)
        (readList_u64 sizes.2.2.1), Option.bind_eq_bind, Option.bind_some]
  | handshake p =>
    have sizes := field rfl
    simp only [List.forall_mem_cons] at sizes
    simp only [Message.msgType, Message.payloadBytes, decodePayload, Handshake.decode,
      Handshake.encode, readRecord1_record (readBytes_field sizes.1), Option.bind_eq_bind,
      Option.bind_some]
  | gossipPush p =>
    have sizes := field rfl
    simp only [List.forall_mem_cons] at sizes
    simp only [Message.msgType, Message.payloadBytes, decodePayload, GossipPush.decode,
      GossipPush.encode, readRecord2_record (readList_entries sizes.1)
        (decodeU64_encodeU64 p.ttl), Option.bind_eq_bind, Option.bind_some]
  | reconInit p =>
    have sizes := field rfl
    simp only [List.forall_mem_cons] at sizes
    simp only [Message.msgType, Message.payloadBytes, decodePayload, ReconInit.decode,
      ReconInit.encode, readRecord3_record (decodeU64_encodeU64 p.sid)
        (window_decode_encode p.window) (readBytes_field sizes.2.2.1), Option.bind_eq_bind,
      Option.bind_some]
  | reconMsg p =>
    have sizes := field rfl
    simp only [List.forall_mem_cons] at sizes
    simp only [Message.msgType, Message.payloadBytes, decodePayload, ReconMsg.decode,
      ReconMsg.encode, readRecord2_record (decodeU64_encodeU64 p.sid)
        (readBytes_field sizes.2.1), Option.bind_eq_bind, Option.bind_some]
  | reconDone p =>
    simp only [Message.msgType, Message.payloadBytes, decodePayload, ReconDone.decode,
      ReconDone.encode, readRecord1_record (decodeU64_encodeU64 p.sid), Option.bind_eq_bind,
      Option.bind_some]
  | error p =>
    simp only [Message.msgType, Message.payloadBytes, decodePayload, ErrorMsg.decode,
      ErrorMsg.encode, readRecord1_record (decodeU64_encodeU64 p.code), Option.bind_eq_bind,
      Option.bind_some]

/-! ## Messages -/

theorem tryFrom_toU8 (type : MsgType) : MsgType.tryFrom type.toU8 = .ok type := by
  cases type <;> rfl

theorem beBytes_two (n : Nat) : beBytes 2 n = [UInt8.ofNat (n / 256), UInt8.ofNat n] := rfl

theorem decodeMessage_padded {msg : Message} {padded : Nat} {padding : List UInt8}
    (valid : validate msg = .ok ())
    (found : paddedLen (headerLen + msg.payloadBytes.length) = some padded)
    (size : padding.length = padded - (headerLen + msg.payloadBytes.length)) :
    decodeMessage (msg.msgType.toU8 :: (beBytes 2 msg.payloadBytes.length ++
      (msg.payloadBytes ++ padding))) = .ok msg := by
  obtain ⟨covers, least, most⟩ := le_of_paddedLen found
  have limit : maxPaddedLen = 63488 := rfl
  have header : headerLen = 3 := rfl
  have len : ofBe (beBytes 2 msg.payloadBytes.length) = msg.payloadBytes.length :=
    ofBe_beBytes (by omega)
  have total : (msg.msgType.toU8 :: (beBytes 2 msg.payloadBytes.length ++
      (msg.payloadBytes ++ padding))).length = padded := by
    simp only [List.length_cons, List.length_append, length_beBytes, size]
    omega
  have payload := decodePayload_payloadBytes msg (by omega) []
  rw [List.append_nil] at payload
  rw [beBytes_two] at len total ⊢
  simp only [List.cons_append, List.nil_append] at total ⊢
  simp only [decodeMessage, len, total, found, List.take_left, tryFrom_toU8]
  rw [if_neg (by omega), if_neg (by simp)]
  simp only [bind, Except.bind, payload, valid]

def Refused (msg : Message) : Prop :=
  (∃ p, msg = .hello p ∧ p.versions = []) ∨ (∃ p, msg = .gossipPush p ∧ p.entries = []) ∨
    maxPaddedLen < headerLen + msg.payloadBytes.length

theorem validate_cases (msg : Message) :
    (validate msg = .ok () ∧ ¬ (∃ p, msg = .hello p ∧ p.versions = []) ∧
      ¬ ∃ p, msg = .gossipPush p ∧ p.entries = []) ∨
    ((∃ error, validate msg = .error error) ∧
      ((∃ p, msg = .hello p ∧ p.versions = []) ∨ ∃ p, msg = .gossipPush p ∧ p.entries = [])) := by
  cases msg with
  | hello p => by_cases empty : p.versions = [] <;> simp [validate, empty]
  | gossipPush p => by_cases empty : p.entries = [] <;> simp [validate, empty]
  | _ => simp [validate]

theorem encodeMessage_of_refused {msg : Message} (refused : Refused msg) :
    ∃ error, encodeMessage msg = .error error := by
  rw [encodeMessage]
  rcases validate_cases msg with ⟨valid, filled⟩ | ⟨⟨error, invalid⟩, -⟩
  · have large : maxPaddedLen < headerLen + msg.payloadBytes.length := by
      rcases refused with empty | empty | large
      · exact absurd empty filled.1
      · exact absurd empty filled.2
      · exact large
    exact ⟨.tooLarge, by rw [valid, paddedLen_eq_none large]; rfl⟩
  · exact ⟨error, by rw [invalid]; rfl⟩

theorem encodeMessage_of_not_refused {msg : Message} (accepted : ¬ Refused msg) :
    ∃ padded, paddedLen (headerLen + msg.payloadBytes.length) = some padded ∧
      validate msg = .ok () ∧
      IsLeast {len | Permitted len ∧ headerLen + msg.payloadBytes.length ≤ len} padded ∧
      encodeMessage msg = .ok (msg.msgType.toU8 :: (beBytes 2 msg.payloadBytes.length ++
        (msg.payloadBytes ++
          List.replicate (padded - (headerLen + msg.payloadBytes.length)) 0))) := by
  rw [Refused, not_or, not_or, not_lt] at accepted
  obtain ⟨padded, found, least⟩ := paddedLen_least accepted.2.2
  rcases validate_cases msg with ⟨valid, -⟩ | ⟨-, empty⟩
  · refine ⟨padded, found, valid, least, ?_⟩
    rw [encodeMessage, valid, found]
    rfl
  · rcases empty with empty | empty
    · exact absurd empty accepted.1
    · exact absurd empty accepted.2.1

theorem decodeMessage_of_encodeMessage {msg : Message} {body : List UInt8}
    (encoded : encodeMessage msg = .ok body) : decodeMessage body = .ok msg := by
  have accepted : ¬ Refused msg := fun refused => by
    obtain ⟨error, failed⟩ := encodeMessage_of_refused refused
    rw [failed] at encoded
    cases encoded
  obtain ⟨padded, found, valid, -, encoded'⟩ := encodeMessage_of_not_refused accepted
  rw [← Except.ok.inj (encoded'.symm.trans encoded)]
  exact decodeMessage_padded valid found List.length_replicate

theorem length_of_decodeMessage {body : List UInt8} {msg : Message} (decoded : decodeMessage body = .ok msg) :
    ∃ type high low rest, body = type :: high :: low :: rest ∧
      paddedLen (headerLen + ofBe [high, low]) = some body.length := by
  match body, decoded with
  | [], decoded | [_], decoded | [_, _], decoded => cases decoded
  | type :: high :: low :: rest, decoded =>
    refine ⟨type, high, low, rest, rfl, ?_⟩
    rw [decodeMessage] at decoded
    split_ifs at decoded with short padded
    exact not_not.mp padded

theorem padded_of_encodeMessage {msg : Message} {body : List UInt8}
    (encoded : encodeMessage msg = .ok body) :
    isPaddedLen body.length = true ∧ body.length ≤ maxPaddedLen := by
  obtain ⟨-, _, _, _, -, length⟩ :=
    length_of_decodeMessage (decodeMessage_of_encodeMessage encoded)
  exact ⟨isPaddedLen_of_paddedLen length, (le_of_paddedLen length).2.2⟩

theorem decodeMessage_append_inj {first second more more' : List UInt8} {msg msg' : Message}
    (decoded : decodeMessage first = .ok msg) (decoded' : decodeMessage second = .ok msg')
    (same : first ++ more = second ++ more') : first = second ∧ more = more' := by
  obtain ⟨type, high, low, rest, eq, length⟩ := length_of_decodeMessage decoded
  obtain ⟨type', high', low', rest', eq', length'⟩ := length_of_decodeMessage decoded'
  have heads := same
  simp only [eq, eq', List.cons_append, List.cons.injEq] at heads
  obtain ⟨-, rfl, rfl, -⟩ := heads
  exact List.append_inj same (Option.some.inj (length.symm.trans length'))

/-! ## Frames -/

theorem nextBody_frameBytes {body : List UInt8} (small : body.length < 2 ^ 16)
    (rest : List UInt8) :
    FrameDecoder.nextBody ⟨frameBytes body ++ rest⟩ = (some body, ⟨rest⟩) := by
  have len : ofBe (beBytes 2 body.length) = body.length := ofBe_beBytes (by omega)
  rw [frameBytes, List.append_assoc]
  rw [beBytes_two] at len ⊢
  simp only [FrameDecoder.nextBody, List.cons_append, List.nil_append, len, List.length_append,
    List.take_left, List.drop_left]
  rw [if_neg (by omega)]

/-- Whether a message is encoded, what it is encoded to, and that a body and a frame are decoded to
it. -/
theorem codec_round_trip (msg : Message) :
    (Refused msg ∧ ∃ error, encodeMessage msg = .error error) ∨
    (¬ Refused msg ∧ ∃ body frame, encodeMessage msg = .ok body ∧ encodeFrame msg = .ok frame ∧
      IsLeast {len | Permitted len ∧ headerLen + msg.payloadBytes.length ≤ len} body.length ∧
      decodeMessage body = .ok msg ∧
      (∀ padding, padding.length = body.length - (headerLen + msg.payloadBytes.length) →
        decodeMessage (body.take (headerLen + msg.payloadBytes.length) ++ padding) = .ok msg) ∧
      (FrameDecoder.new.push frame).nextMessage = (.ok (some msg), ⟨[]⟩) ∧
      FrameDecoder.nextMessage ⟨[]⟩ = (.ok none, ⟨[]⟩)) := by
  by_cases refused : Refused msg
  · exact Or.inl ⟨refused, encodeMessage_of_refused refused⟩
  obtain ⟨padded, found, valid, least, encoded⟩ := encodeMessage_of_not_refused refused
  obtain ⟨covers, -, most⟩ := le_of_paddedLen found
  have limit : maxPaddedLen = 63488 := rfl
  have header : headerLen = 3 := rfl
  set zeros := List.replicate (padded - (headerLen + msg.payloadBytes.length)) (0 : UInt8) with eq
  set body := msg.msgType.toU8 :: (beBytes 2 msg.payloadBytes.length ++ (msg.payloadBytes ++ zeros))
    with bodyEq
  have size : body.length = padded := by
    simp only [bodyEq, eq, List.length_cons, List.length_append, length_beBytes,
      List.length_replicate]
    omega
  have decoded : decodeMessage body = .ok msg :=
    decodeMessage_padded valid found List.length_replicate
  refine Or.inr ⟨refused, body, frameBytes body, encoded, ?_, ?_, decoded, ?_, ?_, rfl⟩
  · rw [encodeFrame, encoded]
    rfl
  · rw [size]
    exact least
  · intro padding length
    have unpadded : body.take (headerLen + msg.payloadBytes.length) =
        msg.msgType.toU8 :: (beBytes 2 msg.payloadBytes.length ++ msg.payloadBytes) := by
      rw [bodyEq, ← List.append_assoc, ← List.cons_append]
      refine List.take_left' ?_
      simp only [List.length_cons, List.length_append, length_beBytes]
      omega
    rw [unpadded, List.cons_append, List.append_assoc]
    exact decodeMessage_padded valid found (by rw [length, size])
  · have next := nextBody_frameBytes (show body.length < 2 ^ 16 by omega) []
    rw [List.append_nil] at next
    rw [FrameDecoder.nextMessage, FrameDecoder.push, FrameDecoder.new, List.nil_append, next]
    change ((decodeMessage body).map some, _) = _
    rw [decoded]
    rfl

end Racnet.Proof.Format
