import Racnet.Proof.Negentropy.Varint
import Racnet.Sync.Negentropy.Ranges

namespace Racnet.Proof.Negentropy
open Lib Store Sync

/-! ## Lengths -/

theorem length_writeVarint {n : Nat} (bound : n < 2 ^ 64) :
    (writeVarint n).length = varintLen n := by
  by_cases pos : n = 0
  · subst pos
    rfl
  · rw [writeVarint_pos pos bound, length_digitBytes, varintLen, if_neg pos]

theorem varintLen_le {n k : Nat} (pos : 0 < k) (bound : n < 2 ^ (7 * k)) : varintLen n ≤ k := by
  rw [varintLen]
  split_ifs with zero
  · exact pos
  · have : n.log2 < 7 * k := (Nat.log2_lt zero).mpr bound
    omega

theorem varintLen_pos (n : Nat) : 0 < varintLen n := by
  rw [varintLen]
  split_ifs <;> omega

theorem tsInfinity_toNat : tsInfinity.toNat = 2 ^ 64 - 1 := rfl

theorem ts_lt_of_ne {ts : UInt64} (finite : ts ≠ tsInfinity) : ts.toNat < 2 ^ 64 - 1 := by
  have le := ts.toNat_lt
  have ne : ts.toNat ≠ tsInfinity.toNat := fun same => finite (UInt64.toNat_inj.mp same)
  rw [tsInfinity_toNat] at ne
  omega

theorem idPrefix_length_lt (bound : Bound) : bound.idPrefix.length < 2 ^ 64 := by
  have := bound.idPrefix_le
  simp only [idSize] at this
  omega

theorem length_boundBytes (last : UInt64) (bound : Bound) :
    (boundBytes last bound).length = boundLen last bound := by
  have tail := length_writeVarint (idPrefix_length_lt bound)
  by_cases finite : bound.ts = tsInfinity
  · simp only [boundBytes, BoundCodec.encode, boundLen, finite, if_true, List.length_append, tail]
    rw [show (writeVarint 0).length = 1 from rfl]
    omega
  · have delta : bound.ts.toNat - last.toNat + 1 < 2 ^ 64 := by
      have := ts_lt_of_ne finite
      omega
    simp only [boundBytes, BoundCodec.encode, boundLen, finite, if_false, List.length_append, tail,
      length_writeVarint delta]
    omega

theorem length_flatMap_bytes (ids : List EntryId) :
    (ids.flatMap FixedBytes.bytes).length = 32 * ids.length := by
  induction ids with
  | nil => rfl
  | cons id ids ih =>
    simp only [List.flatMap_cons, List.length_append, ih, id.length_eq, List.length_cons]
    omega

/-- An id list whose length fits in the `u64` that counts it. -/
def Payload.Fits : Payload → Prop
  | .idList ids => ids.length < 2 ^ 64
  | _ => True

theorem length_payloadBytes {payload : Payload} (fits : Payload.Fits payload) :
    (payloadBytes payload).length = payloadLen payload := by
  cases payload with
  | skip => rfl
  | fingerprint fp =>
    simp only [payloadBytes, payloadLen, List.length_append, fp.length_eq]
    rfl
  | idList ids =>
    simp only [payloadBytes, payloadLen, List.length_append, length_flatMap_bytes,
      length_writeVarint fits]
    rfl

theorem length_rangesBytes (last : UInt64) (ranges : List WireRange)
    (fits : ∀ r ∈ ranges, Payload.Fits r.payload) :
    (rangesBytes last ranges).length = rangesLen last ranges := by
  induction ranges generalizing last with
  | nil => rfl
  | cons r rs ih =>
    simp only [rangesBytes, rangesLen, List.length_append, length_boundBytes,
      length_payloadBytes (fits r List.mem_cons_self),
      ih r.bound.ts (fun r' mem => fits r' (List.mem_cons_of_mem r mem))]

theorem length_messageBytes (ranges : List WireRange)
    (fits : ∀ r ∈ ranges, Payload.Fits r.payload) :
    (messageBytes ranges).length = messageLen ranges := by
  rw [messageBytes, List.length_cons, length_rangesBytes 0 ranges fits, messageLen, Nat.add_comm]

theorem boundLen_pos (last : UInt64) (bound : Bound) : 0 < boundLen last bound := by
  have := varintLen_pos bound.idPrefix.length
  rw [boundLen]
  omega

theorem boundLen_le (last : UInt64) (bound : Bound) : boundLen last bound ≤ 43 := by
  have short := bound.idPrefix_le
  have count := varintLen_le (k := 1) (by decide)
    (show bound.idPrefix.length < 2 ^ (7 * 1) by simp only [idSize] at short; omega)
  have ts := bound.ts.toNat_lt
  have delta := varintLen_le (k := 10) (by decide)
    (show bound.ts.toNat - last.toNat + 1 < 2 ^ (7 * 10) by omega)
  simp only [idSize] at short
  rw [boundLen]
  split_ifs <;> omega

theorem messageLen_eq_one {ranges : List WireRange} : messageLen ranges = 1 ↔ ranges = [] := by
  cases ranges with
  | nil => simp [messageLen, rangesLen]
  | cons r rs =>
    have := boundLen_pos 0 r.bound
    simp only [messageLen, rangesLen, reduceCtorEq, iff_false]
    omega

/-! ## The codec -/

@[simp] theorem encode_eq (codec : BoundCodec) (bound : Bound) :
    codec.encode bound =
      ({ codec with lastTsOut := bound.ts }, boundBytes codec.lastTsOut bound) := by
  by_cases finite : bound.ts = tsInfinity
  · simp only [boundBytes, BoundCodec.encode, finite, if_true]
  · simp only [boundBytes, BoundCodec.encode, finite, if_false]

def lastTs (last : UInt64) (ranges : List WireRange) : UInt64 :=
  (ranges.getLast?.map fun r => r.bound.ts).getD last

def advance (codec : BoundCodec) (ranges : List WireRange) : BoundCodec :=
  { codec with lastTsOut := lastTs codec.lastTsOut ranges }

@[simp] theorem lastTs_nil (last : UInt64) : lastTs last [] = last := rfl

theorem lastTs_cons (last : UInt64) (r : WireRange) (ranges : List WireRange) :
    lastTs last (r :: ranges) = lastTs r.bound.ts ranges := by
  cases ranges with
  | nil => rfl
  | cons r' rs => simp [lastTs, List.getLast?_cons]

theorem lastTs_append (last : UInt64) (xs ys : List WireRange) :
    lastTs last (xs ++ ys) = lastTs (lastTs last xs) ys := by
  induction xs generalizing last with
  | nil => rfl
  | cons x xs ih => rw [List.cons_append, lastTs_cons, ih, lastTs_cons]

theorem advance_append (codec : BoundCodec) (xs ys : List WireRange) :
    advance codec (xs ++ ys) = advance (advance codec xs) ys := by
  simp only [advance, lastTs_append]

theorem rangesBytes_append (last : UInt64) (xs ys : List WireRange) :
    rangesBytes last (xs ++ ys) = rangesBytes last xs ++ rangesBytes (lastTs last xs) ys := by
  induction xs generalizing last with
  | nil => rfl
  | cons x xs ih =>
    simp only [List.cons_append, rangesBytes, ih, lastTs_cons, List.append_assoc]

theorem rangesLen_append (last : UInt64) (xs ys : List WireRange) :
    rangesLen last (xs ++ ys) = rangesLen last xs + rangesLen (lastTs last xs) ys := by
  induction xs generalizing last with
  | nil => simp [rangesLen]
  | cons x xs ih =>
    simp only [List.cons_append, rangesLen, ih, lastTs_cons]
    omega

theorem messageLen_append (xs ys : List WireRange) :
    messageLen (xs ++ ys) = messageLen xs + rangesLen (lastTs 0 xs) ys := by
  rw [messageLen, messageLen, rangesLen_append]
  omega

/-- The number that stands for the timestamp of a bound written after `last`. -/
def deltaOut (last : UInt64) (bound : Bound) : Nat :=
  if bound.ts = tsInfinity then 0 else bound.ts.toNat - last.toNat + 1

theorem deltaOut_lt (last : UInt64) (bound : Bound) : deltaOut last bound < 2 ^ 64 := by
  rw [deltaOut]
  split_ifs with finite
  · decide
  · have := ts_lt_of_ne finite
    omega

theorem boundBytes_eq (last : UInt64) (bound : Bound) :
    boundBytes last bound = writeVarint (deltaOut last bound) ++
      (writeVarint bound.idPrefix.length ++ bound.idPrefix) := by
  by_cases finite : bound.ts = tsInfinity
  · simp only [boundBytes, BoundCodec.encode, deltaOut, finite, if_true]
  · simp only [boundBytes, BoundCodec.encode, deltaOut, finite, if_false]

/-- The timestamp that the number `raw` stands for after `last`. -/
def tsIn (last : UInt64) (raw : Nat) : UInt64 :=
  if raw = 0 ∨ last = tsInfinity then tsInfinity
  else UInt64.ofNat (min (raw - 1 + last.toNat) (2 ^ 64 - 1))

theorem decode_boundBytes_after (codec : BoundCodec) (last : UInt64) (bound : Bound)
    (rest : List UInt8) :
    codec.decode (boundBytes last bound ++ rest) =
      .ok ({ codec with lastTsIn := tsIn codec.lastTsIn (deltaOut last bound) },
        { bound with ts := tsIn codec.lastTsIn (deltaOut last bound) }, rest) := by
  have readPrefix : readVarint (writeVarint bound.idPrefix.length ++ (bound.idPrefix ++ rest)) =
      .ok (bound.idPrefix.length, bound.idPrefix ++ rest) :=
    readVarint_writeVarint _ (idPrefix_length_lt bound) _
  have short : ¬ bound.idPrefix.length > idSize := Nat.not_lt.mpr bound.idPrefix_le
  have enough : ¬ (bound.idPrefix ++ rest).length < bound.idPrefix.length := by
    rw [List.length_append]
    omega
  rw [BoundCodec.decode, boundBytes_eq, List.append_assoc,
    readVarint_writeVarint _ (deltaOut_lt last bound)]
  simp only [Exec.ok_bind, List.append_assoc, readPrefix, short, enough, if_false, List.take_left,
    List.drop_left]
  rw [Bound.new, dif_pos bound.idPrefix_le]
  rfl

theorem deltaOut_add_last {last : UInt64} {bound : Bound} (finite : bound.ts ≠ tsInfinity)
    (order : last.toNat ≤ bound.ts.toNat) :
    deltaOut last bound - 1 + last.toNat = bound.ts.toNat := by
  rw [deltaOut, if_neg finite]
  omega

theorem decode_boundBytes (codec : BoundCodec) (bound : Bound)
    (order : codec.lastTsIn.toNat ≤ bound.ts.toNat) (rest : List UInt8) :
    codec.decode (boundBytes codec.lastTsIn bound ++ rest) =
      .ok ({ codec with lastTsIn := bound.ts }, bound, rest) := by
  have same : tsIn codec.lastTsIn (deltaOut codec.lastTsIn bound) = bound.ts := by
    by_cases finite : bound.ts = tsInfinity
    · rw [tsIn, deltaOut, if_pos finite, if_pos (Or.inl rfl), finite]
    · have upper := ts_lt_of_ne finite
      have lastFinite : codec.lastTsIn ≠ tsInfinity := by
        intro same
        rw [same, tsInfinity_toNat] at order
        omega
      have nonzero : deltaOut codec.lastTsIn bound ≠ 0 := by
        rw [deltaOut, if_neg finite]
        omega
      rw [tsIn, if_neg (by simp [lastFinite, nonzero]), deltaOut_add_last finite order,
        min_eq_left (by omega), UInt64.ofNat_toNat]
  rw [decode_boundBytes_after, same]

theorem ts_of_decode {codec after : BoundCodec} {bound : Bound} {input rest : List UInt8}
    (read : codec.decode input = .ok (after, bound, rest)) :
    after.lastTsIn = bound.ts ∧ (codec.lastTsIn = tsInfinity → bound.ts = tsInfinity) := by
  obtain ⟨⟨raw, tail⟩, -, read⟩ := Exec.bind_eq_ok.mp read
  obtain ⟨⟨len, tail'⟩, -, read⟩ := Exec.bind_eq_ok.mp read
  dsimp only at read
  have short : ¬ len > idSize := fun long => by
    rw [if_pos long] at read
    cases read
  have enough : ¬ tail'.length < len := fun cut => by
    rw [if_neg short, if_pos cut] at read
    cases read
  rw [if_neg short, if_neg enough] at read
  obtain ⟨made, new, done⟩ := Exec.bind_eq_ok.mp read
  obtain ⟨rfl, rfl, -⟩ : _ = after ∧ made = bound ∧ _ = rest := by
    simpa using Except.ok.inj done
  have ts : made.ts = tsIn codec.lastTsIn raw := by
    have fits : (tail'.take len).length ≤ idSize :=
      (List.length_take_le _ _).trans (Nat.not_lt.mp short)
    rw [Bound.new, dif_pos fits] at new
    obtain rfl := Except.ok.inj new
    rfl
  refine ⟨ts.symm, fun infinite => ?_⟩
  rw [ts, tsIn, if_pos (Or.inr infinite)]

/-! ## Streams of bounds -/

/-- A message as one codec writes it: each bound followed by bytes of some other kind. -/
def encodeStream (codec : BoundCodec) : List (Bound × List UInt8) → BoundCodec × List UInt8
  | [] => (codec, [])
  | (bound, other) :: pieces =>
    let (codec, bytes) := codec.encode bound
    let (codec, tail) := encodeStream codec pieces
    (codec, bytes ++ other ++ tail)

/-- The bounds one codec reads, stepping over as many other bytes after each as `others` says. -/
def decodeStream (codec : BoundCodec) :
    List Nat → List UInt8 → Exec SyncError (BoundCodec × List Bound × List UInt8)
  | [], input => return (codec, [], input)
  | other :: others, input => do
    let (codec, bound, input) ← codec.decode input
    let (codec, bounds, input) ← decodeStream codec others (input.drop other)
    return (codec, bound :: bounds, input)

theorem decodeStream_encodeStream (pieces : List (Bound × List UInt8)) (writer reader : BoundCodec)
    (same : writer.lastTsOut = reader.lastTsIn)
    (order : (pieces.map fun piece => piece.1.ts.toNat).Pairwise (· ≤ ·))
    (front : ∀ piece ∈ pieces, reader.lastTsIn.toNat ≤ piece.1.ts.toNat) (rest : List UInt8) :
    ∃ after, decodeStream reader (pieces.map fun piece => piece.2.length)
      ((encodeStream writer pieces).2 ++ rest) = .ok (after, pieces.map Prod.fst, rest) := by
  induction pieces generalizing writer reader with
  | nil => exact ⟨reader, rfl⟩
  | cons piece pieces ih =>
    obtain ⟨bound, other⟩ := piece
    obtain ⟨later, order⟩ := List.pairwise_cons.mp order
    obtain ⟨after, tail⟩ := ih { writer with lastTsOut := bound.ts }
      { reader with lastTsIn := bound.ts } rfl order
      (fun piece mem => later _ (List.mem_map_of_mem mem))
    have first := decode_boundBytes reader bound (front _ List.mem_cons_self)
      (other ++ ((encodeStream { writer with lastTsOut := bound.ts } pieces).2 ++ rest))
    refine ⟨after, ?_⟩
    simp only [encodeStream, encode_eq, same, List.map_cons, decodeStream, List.append_assoc, first,
      Exec.ok_bind, List.drop_left, tail]
    rfl

theorem decodeStream_sticky (others : List Nat) (codec after : BoundCodec) (input rest : List UInt8)
    (bounds : List Bound) (read : decodeStream codec others input = .ok (after, bounds, rest)) :
    bounds.Pairwise (fun earlier later => earlier.ts = tsInfinity → later.ts = tsInfinity) ∧
      (codec.lastTsIn = tsInfinity → ∀ bound ∈ bounds, bound.ts = tsInfinity) := by
  induction others generalizing codec input bounds with
  | nil =>
    obtain ⟨-, rfl, -⟩ : codec = after ∧ [] = bounds ∧ input = rest := by
      simpa using Except.ok.inj read
    exact ⟨List.Pairwise.nil, fun _ bound mem => absurd mem List.not_mem_nil⟩
  | cons other others ih =>
    obtain ⟨⟨middle, bound, input'⟩, first, read⟩ := Exec.bind_eq_ok.mp read
    obtain ⟨⟨after', later, rest'⟩, second, done⟩ := Exec.bind_eq_ok.mp read
    obtain ⟨rfl, rfl, rfl⟩ : after' = after ∧ bound :: later = bounds ∧ rest' = rest := by
      simpa using Except.ok.inj done
    obtain ⟨kept, final⟩ := ts_of_decode first
    obtain ⟨ordered, infinite⟩ := ih middle (input'.drop other) later second
    refine ⟨List.pairwise_cons.mpr ⟨fun b mem top => infinite (kept.trans top) b mem, ordered⟩, ?_⟩
    intro top b mem
    rcases List.mem_cons.mp mem with rfl | mem
    · exact final top
    · exact infinite (kept.trans (final top)) b mem

/-- Bounds with non-decreasing timestamps are read back from among the other bytes of a message,
without an overflow on either side, and infinity is sticky in every message. -/
theorem boundStream_roundTrip (pieces : List (Bound × List UInt8)) (rest : List UInt8)
    (order : (pieces.map fun piece => piece.1.ts.toNat).Pairwise (· ≤ ·)) :
    (∃ after, decodeStream {} (pieces.map fun piece => piece.2.length)
      ((encodeStream {} pieces).2 ++ rest) = .ok (after, pieces.map Prod.fst, rest)) ∧
    (∀ (bound : Bound) (last : UInt64), bound.ts ≠ tsInfinity →
      bound.ts.toNat - last.toNat + 1 < 2 ^ 64 ∧
      (last.toNat ≤ bound.ts.toNat →
        bound.ts.toNat - last.toNat + 1 - 1 + last.toNat = bound.ts.toNat)) ∧
    ∀ others input after bounds unread,
      decodeStream {} others input = .ok (after, bounds, unread) →
        bounds.Pairwise fun earlier later => earlier.ts = tsInfinity → later.ts = tsInfinity := by
  refine ⟨?_, ?_, ?_⟩
  · exact decodeStream_encodeStream pieces {} {} rfl order (fun _ _ => Nat.zero_le _) rest
  · intro bound last finite
    have small := deltaOut_lt last bound
    rw [deltaOut, if_neg finite] at small
    exact ⟨small, fun order => by omega⟩
  · intro others input after bounds unread read
    exact (decodeStream_sticky others {} after input unread bounds read).1

def topPieces : List (Bound × List UInt8) :=
  [(Bound.fromTs 0xFFFFFFFFFFFFFFFE, [1, 2]), (Bound.atItem 0xFFFFFFFFFFFFFFFE IdSum.one, [3]),
    (Bound.infinity, []), (Bound.infinity, [0])]

theorem boundStream_roundTrip_top :
    ∃ after, decodeStream {} [2, 1, 0, 1] ((encodeStream {} topPieces).2 ++ [9]) =
      .ok (after, topPieces.map Prod.fst, [9]) :=
  (boundStream_roundTrip topPieces [9] (by decide)).1

/-! ## Id lists -/

theorem readIds_flatMap (ids seen : List EntryId) (fresh : (seen ++ ids).Nodup)
    (rest : List UInt8) :
    readIds ids.length (ids.flatMap FixedBytes.bytes ++ rest) seen = some (seen ++ ids, rest) := by
  induction ids generalizing seen with
  | nil => simp [readIds]
  | cons id ids ih =>
    have notSeen : id ∉ seen := by
      intro mem
      exact (List.nodup_append.mp fresh).2.2 id mem id List.mem_cons_self rfl
    rw [List.flatMap_cons, List.append_assoc, List.length_cons]
    have fits := Nat.not_lt.mp (id.not_length_append_lt (ids.flatMap FixedBytes.bytes ++ rest))
    have front := id.take_append (ids.flatMap FixedBytes.bytes ++ rest)
    have back := id.drop_append (ids.flatMap FixedBytes.bytes ++ rest)
    simp only [readIds, idSize, dif_pos fits, front, back]
    rw [if_neg notSeen, ih (seen ++ [id]) (by simpa using fresh)]
    simp

theorem readIds_flatMap_some (ids seen : List EntryId) (rest : List UInt8) :
    ∃ order, readIds ids.length (ids.flatMap FixedBytes.bytes ++ rest) seen = some (order, rest) := by
  induction ids generalizing seen with
  | nil => exact ⟨seen, rfl⟩
  | cons id ids ih =>
    have fits := Nat.not_lt.mp (id.not_length_append_lt (ids.flatMap FixedBytes.bytes ++ rest))
    have back := id.drop_append (ids.flatMap FixedBytes.bytes ++ rest)
    rw [List.flatMap_cons, List.append_assoc, List.length_cons]
    simp only [readIds, idSize, dif_pos fits, back]
    exact ih _

end Racnet.Proof.Negentropy
