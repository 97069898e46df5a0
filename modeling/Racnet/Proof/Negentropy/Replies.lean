import Racnet.Proof.Negentropy.Reports
import Racnet.Proof.Negentropy.Robust
import Racnet.Proof.Storage.Interchange

/-!
# Every reply can be read

What an engine sends in answer to arbitrary bytes has bounds that may go backwards, and another engine
may then read other timestamps than were meant. It reads every range to its end all the same.
-/

namespace Racnet.Proof.Negentropy
open Lib Store Sync

/-! ## Reading -/

section Reading
variable {S : Type} [NegentropyStore S] (ne : Negentropy S)

theorem answerIdList_reads (p : Progress) (lower upper : Nat) (bound : Bound) {ids : List EntryId}
    (fits : ids.length < 2 ^ 64) (rest : List UInt8) :
    Exec.Errorless (fun out => out.2.2.2 = rest) (ne.answerIdList p lower upper bound
      (writeVarint ids.length ++ ids.flatMap FixedBytes.bytes ++ rest)) := by
  have enough : ¬ ids.length > (ids.flatMap FixedBytes.bytes ++ rest).length / idSize := by
    rw [List.length_append, length_flatMap_bytes, idSize]
    omega
  obtain ⟨order, read⟩ := readIds_flatMap_some ids [] rest
  rw [Negentropy.answerIdList, List.append_assoc, readVarint_writeVarint _ fits]
  simp only [Exec.ok_bind]
  rw [if_neg enough, read]
  simp only [Exec.orPanic_some, Exec.ok_bind]
  split_ifs
  · exact (Exec.errorless_orPanic _).bind fun _ _ => Exec.errorless_pure.mpr rfl
  · exact (Exec.errorless_orPanic _).bind fun _ _ => Exec.errorless_pure.mpr rfl

theorem answerFingerprint_reads (p : Progress) (lower upper : Nat) (bound : Bound) (fp : Fingerprint)
    (rest : List UInt8) :
    Exec.Errorless (fun out => out.2.2.2 = rest)
      (ne.answerFingerprint p lower upper bound (fp.bytes ++ rest)) := by
  rw [Negentropy.answerFingerprint, if_neg (fp.not_length_append_lt rest)]
  refine (Exec.errorless_orPanic _).bind fun ours _ => ?_
  have back : (fp.bytes ++ rest).drop fingerprintSize = rest := fp.drop_append rest
  rw [back]
  split_ifs
  · exact (Exec.errorless_orPanic _).bind fun _ _ => Exec.errorless_pure.mpr rfl
  · exact Exec.errorless_pure.mpr rfl

theorem answer_reads (p : Progress) (lower upper : Nat) (bound : Bound) {payload : Payload}
    (fits : Payload.Fits payload) (rest : List UInt8) :
    Exec.Errorless (fun out => out.2.2.2 = rest)
      (ne.answer p lower upper bound (payloadMode payload) (payloadBody payload ++ rest)) := by
  cases payload with
  | skip => exact Exec.errorless_ok.mpr rfl
  | fingerprint fp => exact answerFingerprint_reads ne p lower upper bound fp rest
  | idList ids => exact answerIdList_reads ne p lower upper bound fits rest

theorem reconcileRange_reads (p : Progress) (last : UInt64) {r : WireRange}
    (fits : Payload.Fits r.payload) (rest : List UInt8) :
    Exec.Errorless (fun out => out.2.2 = rest)
      (ne.reconcileRange p (boundBytes last r.bound ++ payloadBytes r.payload ++ rest)) := by
  rw [Negentropy.reconcileRange, List.append_assoc, decode_boundBytes_after, payloadBytes_eq,
    List.append_assoc]
  simp only [Exec.ok_bind]
  rw [readVarint_writeVarint _ (payloadMode_lt r.payload)]
  refine (Exec.errorless_orPanic _).bind fun upper _ => ?_
  refine (answer_reads ne _ _ _ _ fits rest).bind ?_
  rintro ⟨p', upper', out, unread⟩ rfl
  refine (Exec.errorless_orPanic _).bind fun exceeds _ => ?_
  split_ifs
  · exact (Exec.errorless_orPanic _).bind fun _ _ => Exec.errorless_pure.mpr rfl
  · exact Exec.errorless_pure.mpr rfl

theorem reconcileLoop_reads (ranges : List WireRange)
    (fits : ∀ r ∈ ranges, Payload.Fits r.payload) (fuel : Nat) (p : Progress) (last : UInt64) :
    Exec.Errorless (fun _ => True) (ne.reconcileLoop fuel p (rangesBytes last ranges)) := by
  induction ranges generalizing fuel p last with
  | nil => cases fuel <;> trivial
  | cons r ranges ih =>
    obtain ⟨head, tail⟩ := List.forall_mem_cons.mp fits
    have unread := rangesBytes_ne_nil last r ranges
    cases fuel with
    | zero =>
      cases wire : rangesBytes last (r :: ranges) with
      | nil => exact absurd wire unread
      | cons byte cursor => trivial
    | succ fuel =>
      rw [reconcileLoop_unread ne fuel p unread, rangesBytes]
      refine (reconcileRange_reads ne p last head (rangesBytes r.bound.ts ranges)).bind ?_
      rintro ⟨stop, p', rest⟩ rfl
      dsimp only
      split_ifs
      · trivial
      · exact ih tail fuel p' r.bound.ts

theorem Sendable.errorless {msg : List UInt8} (sendable : Sendable msg) :
    Exec.Errorless (fun _ => True) (ne.reconcile msg) := by
  obtain ⟨ranges, rfl, fits⟩ := sendable
  rw [messageBytes, Negentropy.reconcile, if_neg (by decide), if_neg (by simp)]
  exact (reconcileLoop_reads ne ranges fits _ _ _).bind fun _ _ => trivial

end Reading

/-! ## Accepted engines -/

theorem limitOk_of_new {S : Type} {store : S} {limit : Option Nat} {ne : Negentropy S}
    (made : Negentropy.new store limit = .ok ne) : ne = ⟨store, limit, false⟩ ∧ LimitOk limit := by
  rw [Negentropy.new] at made
  split_ifs at made with small
  refine ⟨(Except.ok.inj made).symm, fun l mem => ?_⟩
  rw [Option.mem_def] at mem
  simpa [mem] using small

theorem new_of_limitOk {S : Type} [NegentropyStore S] (store : S) {limit : Option Nat} (ok : LimitOk limit) :
    Negentropy.new store limit = .ok ⟨store, limit, false⟩ := by
  rw [Negentropy.new, if_neg]
  simp only [Option.any_eq_true, decide_eq_true_eq, not_exists, not_and, not_lt]
  exact ok

/-- Two fingerprints and two id lists under bounds that go up, down and up again. -/
def disorderly : List UInt8 :=
  [0x61, 1, 1, 0xff, 1] ++ List.replicate 16 0 ++ [1, 1, 0, 2, 0, 1, 0, 1] ++ List.replicate 16 7 ++
    [0, 0, 2, 1] ++ List.replicate 32 9

variable [Sha256]

/-- An engine answers any message or reports an error: no index, slice, assertion or subtraction
fails, and the one addition on numbers of the peer's stays in range. What it answers is read without
an error by every engine, whatever its store. -/
theorem reconcile_total {vec : SealedVec} {limit : Option Nat} {made : Negentropy SealedVec}
    (accepted : Negentropy.new vec limit = .ok made) (initiator : Bool) (msg : List UInt8) :
    Negentropy.reconcile { made with isInitiator := initiator } msg ≠ .error .panic ∧
      (∀ last bound, deltaOut last bound < 2 ^ 64) ∧
      ∀ round reply, Negentropy.reconcile { made with isInitiator := initiator } msg = .ok round →
        round.reply = some reply →
          (∀ (S : Type) [NegentropyStore S] (other : Negentropy S) error,
            other.reconcile reply ≠ .fail error) ∧
          ∀ vec' limit' (other : Negentropy SealedVec) initiator',
            Negentropy.new vec' limit' = .ok other →
              ∃ round', Negentropy.reconcile { other with isInitiator := initiator' } reply =
                .ok round' := by
  obtain ⟨rfl, ok⟩ := limitOk_of_new accepted
  have safe := @reconcile_safe _ ⟨vec, limit, initiator⟩ ok msg
  refine ⟨safe.ne_panic, deltaOut_lt, fun round reply ran found => ?_⟩
  have sendable := (safe.of_ok ran).sendable reply found
  refine ⟨fun S _ other error => (sendable.errorless other).ne_fail error, ?_⟩
  intro vec' limit' other initiator' accepted'
  obtain ⟨rfl, ok'⟩ := limitOk_of_new accepted'
  obtain ⟨round', ran', -⟩ := (@reconcile_safe _ ⟨vec', limit', initiator'⟩ ok' reply).returns
    (sendable.errorless _)
  exact ⟨round', ran'⟩

theorem reply_of_toOption {ne : Negentropy SealedVec} {msg : List UInt8} {size : Nat}
    (answered : ∃ round ∈ (ne.reconcile msg).toOption, ∃ reply ∈ round.reply, size < reply.length) :
    ∃ round reply, ne.reconcile msg = .ok round ∧ round.reply = some reply ∧ size < reply.length := by
  obtain ⟨round, found, reply, replied, long⟩ := answered
  cases outcome : ne.reconcile msg with
  | error trap =>
    rw [outcome] at found
    cases found
  | ok round' =>
    rw [outcome] at found
    cases found
    exact ⟨round, reply, rfl, replied, long⟩

omit [Sha256] in
theorem reconcile_total_disorderly :
    letI := tailDigest
    ∃ round reply,
      Negentropy.reconcile ⟨SealedVec.new fortyItems, some 4096, false⟩ disorderly = .ok round ∧
        round.reply = some reply ∧ 700 < reply.length ∧
        ∃ round', Negentropy.reconcile ⟨SealedVec.new sampleOurs, none, true⟩ reply = .ok round' := by
  obtain ⟨round, reply, ran, replied, long⟩ := @reply_of_toOption tailDigest
    ⟨SealedVec.new fortyItems, some 4096, false⟩ disorderly 700 (by decide +kernel)
  have total := @reconcile_total tailDigest (SealedVec.new fortyItems) (some 4096) _ rfl false disorderly
  refine ⟨round, reply, ran, replied, long, ?_⟩
  exact (total.2.2 round reply ran replied).2 (SealedVec.new sampleOurs) none _ true rfl

theorem initiate_length_le {vec : SealedVec} {limit : Option Nat} {initiator : Bool}
    {engine : Negentropy SealedVec} {msg : List UInt8}
    (started : Negentropy.initiate ⟨vec, limit, initiator⟩ = .ok (engine, msg)) : msg.length ≤ 1000 := by
  cases initiator with
  | true => exact absurd started (by simp [Negentropy.initiate, Exec.fail])
  | false =>
    obtain ⟨msg', ran, short⟩ := @initiate_short _ ⟨vec, limit, false⟩ rfl
    obtain ⟨-, rfl⟩ := Prod.mk.inj (Except.ok.inj (started.symm.trans ran))
    exact short

/-- Replies stay within the frame limit, and a first message needs none: it is short over every
snapshot and over every index that fewer than 2^32 - 1 insertions filled. -/
theorem frame_budget :
    (∀ (vec : SealedVec) (initiator : Bool) (limit : Nat), 4096 ≤ limit → ∀ msg round reply,
      Negentropy.reconcile ⟨vec, some limit, initiator⟩ msg = .ok round →
        round.reply = some reply → reply.length ≤ limit) ∧
    (∀ (vec : SealedVec) limit initiator engine msg,
      Negentropy.initiate ⟨vec, limit, initiator⟩ = .ok (engine, msg) → msg.length ≤ 1000) ∧
    ∀ (items : List Item) index isNew, items.length < 2 ^ 32 - 1 →
      Storage.insertAll OrderIndex.new items = some (index, isNew) →
      ∀ limit initiator engine msg,
        Negentropy.initiate ⟨index, limit, initiator⟩ = .ok (engine, msg) → msg.length ≤ 1000 := by
  refine ⟨?_, fun vec limit initiator engine msg => initiate_length_le, ?_⟩
  · intro vec initiator limit floor msg round reply ran found
    have ok : LimitOk (some limit) := by
      intro l mem
      rwa [← Option.some.inj mem]
    exact ((@reconcile_safe _ ⟨vec, some limit, initiator⟩ ok msg).of_ok ran).small limit rfl reply found
  · intro items index isNew short filled limit initiator engine msg started
    obtain ⟨index', t, isNew', ran, keeps, mem, -⟩ := Storage.insertAll_new short
    obtain ⟨rfl, -⟩ := Prod.mk.inj (Option.some.inj (filled.symm.trans ran))
    have alike := @Storage.Keeps.interchangeable_new _ _ _ keeps ⟨items, by omega⟩ mem
    obtain ⟨after, outcome, onIndex, onSnapshot⟩ := Storage.initiate_congr alike limit initiator
    cases outcome with
    | error trap => exact absurd (onIndex.symm.trans started) (by simp [Except.map])
    | ok msg' =>
      obtain ⟨-, rfl⟩ := Prod.mk.inj (Except.ok.inj (onIndex.symm.trans started))
      exact initiate_length_le onSnapshot

omit [Sha256] in
/-- A responder that is asked for all it holds lists what fits. -/
theorem frame_budget_listing :
    letI := tailDigest
    ∃ round reply, Negentropy.reconcile ⟨SealedVec.new sampleTheirs, some 4096, false⟩
        (messageBytes [⟨Bound.infinity, .idList []⟩]) = .ok round ∧ round.reply = some reply ∧
      3900 < reply.length ∧ reply.length ≤ 4096 := by
  let _ := tailDigest
  have asked : Readable 0 [⟨Bound.infinity, .idList []⟩] := ⟨by decide, ⟨by decide, List.nodup_nil⟩, trivial⟩
  have ran := @reconcile_spec _ ⟨SealedVec.new sampleTheirs, some 4096, false⟩ sample_pairOk.theirs _ asked
  refine ⟨_, _, ran, rfl, ?_, frame_budget.1 _ false 4096 le_rfl _ _ _ ran rfl⟩
  change 3900 < (messageBytes ((responderSide sampleTheirs (some 4096)).answerRanges .start _).out).length
  rw [sample_sides.2]
  decide +kernel

end Racnet.Proof.Negentropy
