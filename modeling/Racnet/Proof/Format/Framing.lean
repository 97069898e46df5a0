import Mathlib.Algebra.Order.BigOperators.Group.List
import Racnet.Lib.Cbor.Taken
import Racnet.Lib.Exec
import Racnet.Proof.Format.Canonical
import Racnet.Proof.Format.RoundTrip

/-!
# Entries that fit in a frame
-/

namespace Racnet.Proof.Format
open Lib Lib.Cbor Wire

/-- A push of this entry alone fits in a frame. -/
def Framable (entry : Entry) : Prop := headerLen + (5 + entry.toBytes.length) ≤ maxPaddedLen

theorem length_push (entries : List Entry) (ttl : UInt64) :
    (Message.gossipPush ⟨entries, ttl⟩).payloadBytes.length =
      3 + (head 4 entries.length).length + (entries.map fun entry => entry.toBytes.length).sum +
        (unsigned ttl.toNat).length := by
  simp only [Message.payloadBytes, GossipPush.encode, record, list, encodeU64, array, Cbor.map,
    List.length_append, List.length_cons, List.length_nil, List.zipIdx_cons, List.zipIdx_nil,
    List.flatMap_cons, List.flatMap_nil, List.length_flatMap, show (head 5 2).length = 1 from rfl,
    show (unsigned 0).length = 1 from rfl, show (unsigned 1).length = 1 from rfl, Nat.zero_add]
  omega

theorem encodes_of_length_le {msg : Message} (valid : validate msg = .ok ())
    (short : headerLen + msg.payloadBytes.length ≤ maxPaddedLen) :
    ∃ body, encodeMessage msg = .ok body := by
  obtain ⟨padded, found, -⟩ := paddedLen_least short
  rw [encodeMessage, valid, found]
  exact ⟨_, rfl⟩

theorem length_le_of_encodes {msg : Message} {body : List UInt8}
    (encoded : encodeMessage msg = .ok body) :
    headerLen + msg.payloadBytes.length ≤ maxPaddedLen := by
  by_contra large
  obtain ⟨error, failed⟩ := encodeMessage_of_refused (Or.inr (Or.inr (not_le.mp large)))
  cases failed.symm.trans encoded

theorem framable_of_encodeFrame {entry : Entry} {ttl : UInt64} {frame : List UInt8}
    (framed : encodeFrame (.gossipPush ⟨[entry], ttl⟩) = .ok frame) : Framable entry := by
  cases encoded : encodeMessage (.gossipPush ⟨[entry], ttl⟩) with
  | error error =>
    rw [encodeFrame, encoded] at framed
    cases framed
  | ok body =>
    have short := length_le_of_encodes encoded
    have count : (head 4 [entry].length).length = 1 := rfl
    have some := length_head_pos 0 ttl.toNat
    rw [length_push, count, unsigned, List.map_singleton, List.sum_singleton] at short
    rw [Framable]
    omega

theorem takes_decode : Takes (fun entry => entry.toBytes.length) Entry.decode := by
  intro input entry rest read
  obtain ⟨used, rfl, rewrites⟩ := rewrites_of_decode read
  have shorter := rewrites.length_le
  rw [List.length_append]
  dsimp only
  omega

theorem takes_decodeU64 : Takes (fun _ => 1) decodeU64 := by
  intro input n rest read
  obtain ⟨⟨value, after⟩, found, read⟩ := Option.bind_eq_some_iff.mp read
  obtain ⟨-, rfl⟩ := Prod.mk.inj (Option.some.inj read)
  exact takes_readHead found

theorem takes_push : Takes (fun push => 5 + (push.entries.map fun entry => entry.toBytes.length).sum)
    GossipPush.decode := by
  intro input push rest read
  obtain ⟨⟨⟨entries, ttl⟩, after⟩, found, read⟩ := Option.bind_eq_some_iff.mp read
  obtain ⟨rfl, rfl⟩ := Prod.mk.inj (Option.some.inj read)
  have taken := takes_readRecord2 (takes_readList takes_decode) takes_decodeU64 found
  dsimp only at taken ⊢
  omega

theorem push_of_decodeMessage {body : List UInt8} {push : GossipPush}
    (decoded : decodeMessage body = .ok (.gossipPush push)) :
    ∃ payload, GossipPush.decode payload = some (push, []) ∧
      headerLen + payload.length ≤ maxPaddedLen := by
  match body, decoded with
  | [], decoded | [_], decoded | [_, _], decoded => cases decoded
  | type :: high :: low :: rest, decoded =>
    rw [decodeMessage] at decoded
    split_ifs at decoded with short padded
    obtain ⟨fits, -, most⟩ := le_of_paddedLen (not_not.mp padded)
    have size : (rest.take (ofBe [high, low])).length ≤ ofBe [high, low] := List.length_take_le _ _
    refine ⟨rest.take (ofBe [high, low]), ?_, by omega⟩
    generalize rest.take (ofBe [high, low]) = payload at decoded ⊢
    obtain ⟨msgType, -, decoded⟩ := except_bind_ok decoded
    rcases read : decodePayload msgType payload with _ | ⟨msg, _ | ⟨byte, more⟩⟩
    · rw [read] at decoded
      cases decoded
    · rw [read] at decoded
      obtain ⟨-, -, decoded⟩ := except_bind_ok decoded
      obtain rfl := Except.ok.inj decoded
      cases msgType with
      | gossipPush =>
        obtain ⟨⟨p, left⟩, found, same⟩ := Option.bind_eq_some_iff.mp read
        cases same
        exact found
      | hello | handshake | reconInit | reconMsg | reconDone | error =>
        obtain ⟨⟨p, left⟩, found, same⟩ := Option.bind_eq_some_iff.mp read
        cases same
    · rw [read] at decoded
      cases decoded

theorem framable_of_decodeMessage {body : List UInt8} {push : GossipPush}
    (decoded : decodeMessage body = .ok (.gossipPush push)) :
    ∀ entry ∈ push.entries, Framable entry := by
  obtain ⟨payload, read, fits⟩ := push_of_decodeMessage decoded
  intro entry mem
  have taken := takes_push read
  have listed : entry.toBytes.length ∈ push.entries.map fun entry => entry.toBytes.length :=
    List.mem_map.mpr ⟨entry, mem, rfl⟩
  have part := List.single_le_sum (fun _ _ => Nat.zero_le _) _ listed
  dsimp only at taken
  rw [List.length_nil] at taken
  rw [Framable]
  omega

end Racnet.Proof.Format
