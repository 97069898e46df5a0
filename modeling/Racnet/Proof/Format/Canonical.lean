import Racnet.Lib.Cbor.Shortest
import Racnet.Wire.Entry

/-!
# The canonical encoding of entries
-/

namespace Racnet.Proof.Format
open Lib Lib.Cbor Wire

theorem readBytes_of_readFixed {n : Nat} {input rest : List UInt8} {bytes : FixedBytes n}
    (read : Entry.readFixed n input = some (bytes, rest)) :
    readBytes input = some (bytes.bytes, rest) := by
  obtain ⟨⟨raw, after⟩, found, read⟩ := Option.bind_eq_some_iff.mp read
  rw [Option.dite_none_right_eq_some] at read
  obtain ⟨size, read⟩ := read
  obtain ⟨rfl, rfl⟩ := Prod.mk.inj (Option.some.inj read)
  exact found

theorem items_of_decode {input rest : List UInt8} {entry : Entry}
    (read : Entry.decode input = some (entry, rest)) :
    ∃ atAuthor atKey atKind atPayload atSig,
      readHead 4 input = some (5, atAuthor) ∧
      readBytes atAuthor = some (entry.author.bytes, atKey) ∧
      readHead 0 atKey = some (entry.sortKey.toNat, atKind) ∧
      readHead 0 atKind = some (entry.kind.toNat, atPayload) ∧
      readBytes atPayload = some (entry.payload.toList, atSig) ∧
      readBytes atSig = some (entry.sig.bytes, rest) := by
  have value {n : Nat} {input rest : List UInt8} (read : readHead 0 input = some (n, rest)) :
      (UInt64.ofNat n).toNat = n := by
    obtain ⟨-, -, small, -⟩ := readHead_spec read
    exact UInt64.toNat_ofNat_of_lt' small
  obtain ⟨⟨arity, atAuthor⟩, array, read⟩ := Option.bind_eq_some_iff.mp read
  rw [Option.ite_none_left_eq_some, ne_eq, not_not] at read
  obtain ⟨rfl, read⟩ := read
  obtain ⟨⟨author, atKey⟩, authorRead, read⟩ := Option.bind_eq_some_iff.mp read
  obtain ⟨⟨sortKey, atKind⟩, keyRead, read⟩ := Option.bind_eq_some_iff.mp read
  obtain ⟨⟨kind, atPayload⟩, kindRead, read⟩ := Option.bind_eq_some_iff.mp read
  obtain ⟨⟨payload, atSig⟩, payloadRead, read⟩ := Option.bind_eq_some_iff.mp read
  obtain ⟨⟨sig, after⟩, sigRead, read⟩ := Option.bind_eq_some_iff.mp read
  rw [Option.dite_none_right_eq_some] at read
  obtain ⟨size, read⟩ := read
  obtain ⟨rfl, rfl⟩ := Prod.mk.inj (Option.some.inj read)
  refine ⟨atAuthor, atKey, atKind, atPayload, atSig, array, readBytes_of_readFixed authorRead,
    ?_, ?_, payloadRead, readBytes_of_readFixed sigRead⟩
  · rw [value keyRead]
    exact keyRead
  · rw [value kindRead]
    exact kindRead

theorem length_toBytes (entry : Entry) :
    entry.toBytes.length = 101 + (unsigned entry.sortKey.toNat).length +
      (unsigned entry.kind.toNat).length + (byteString entry.payload.toList).length := by
  simp only [Entry.toBytes, array, byteString, List.length_append, entry.author.length_eq,
    entry.sig.length_eq, show (head 4 5).length = 1 from rfl, show (head 2 32).length = 2 from rfl,
    show (head 2 64).length = 2 from rfl]
  omega

theorem rewrites_of_decode {input rest : List UInt8} {entry : Entry}
    (read : Entry.decode input = some (entry, rest)) :
    ∃ used, input = used ++ rest ∧ Rewrites used entry.toBytes (shortestHeads input) := by
  obtain ⟨atAuthor, atKey, atKind, atPayload, atSig, array, authorRead, keyRead, kindRead,
    payloadRead, sigRead⟩ := items_of_decode read
  obtain ⟨u₁, split₁, -, first⟩ := readHead_spec array
  obtain ⟨u₂, split₂, -, author⟩ := readBytes_spec authorRead
  obtain ⟨u₃, split₃, -, sortKey⟩ := readHead_spec keyRead
  obtain ⟨u₄, split₄, -, kind⟩ := readHead_spec kindRead
  obtain ⟨u₅, split₅, -, payload⟩ := readBytes_spec payloadRead
  obtain ⟨u₆, split₆, -, sig⟩ := readBytes_spec sigRead
  have whole : Rewrites (u₁ ++ (u₂ ++ (u₃ ++ (u₄ ++ (u₅ ++ u₆))))) entry.toBytes _ :=
    first.append (author.append (sortKey.append (kind.append (payload.append sig))))
  have split : input = u₁ ++ (u₂ ++ (u₃ ++ (u₄ ++ (u₅ ++ u₆)))) ++ rest := by
    simp only [split₁, split₂, split₃, split₄, split₅, split₆, List.append_assoc]
  obtain ⟨fuel, enough⟩ : ∃ fuel, input.length = fuel + 6 := by
    have long := whole.length_le
    have total := congrArg List.length split
    rw [length_toBytes] at long
    rw [List.length_append] at total
    exact ⟨input.length - 6, by omega⟩
  have walked : shortestHeads input = (shortestHead input && (shortestHead atAuthor &&
      (shortestHead atKey && (shortestHead atKind &&
        (shortestHead atPayload && shortestHead atSig))))) := by
    rw [shortestHeads, enough]
    refine (shortestItems_step array (fuel + 5) 0).trans (congrArg (_ && ·) ?_)
    refine (shortestItems_bytes authorRead (fuel + 4) 4).trans (congrArg (_ && ·) ?_)
    refine (shortestItems_step keyRead (fuel + 3) 3).trans (congrArg (_ && ·) ?_)
    refine (shortestItems_step kindRead (fuel + 2) 2).trans (congrArg (_ && ·) ?_)
    refine (shortestItems_bytes payloadRead (fuel + 1) 1).trans (congrArg (_ && ·) ?_)
    rw [shortestItems_bytes sigRead fuel 0, shortestItems, Bool.and_true]
  rw [walked]
  exact ⟨_, split, whole⟩

theorem decode_tbsBytes (entry : Entry) (rest : List UInt8) :
    Entry.decode (entry.tbsBytes ++ rest) = none := by
  rw [Entry.tbsBytes, List.append_assoc, Entry.decode, array, readHead_head (by decide) (by decide)]
  rfl

theorem tbsBytes_injective {a b : Entry} (same : a.tbsBytes = b.tbsBytes) :
    a.author = b.author ∧ a.sortKey = b.sortKey ∧ a.kind = b.kind ∧ a.payload = b.payload := by
  -- With one signature behind both, the two entries are one.
  have signed (entry : Entry) : { entry with sig := FixedBytes.zero 64 }.toBytes =
      array 5 ++ (entry.tbsBytes.drop 1 ++ byteString (FixedBytes.zero 64).bytes) := by
    rw [Entry.tbsBytes, List.drop_left' (show (array 4).length = 1 from rfl)]
    simp only [Entry.toBytes, List.append_assoc]
  have one := Entry.toBytes_injective ((signed a).trans ((by rw [same] : _ = _).trans (signed b).symm))
  simpa using one

/-- Entries are read back from their encoding; neither encoding is shared by two entries, nor by an
entry and a text to be signed; and whatever bytes an entry is read from, its own encoding is at
most as long, and the same if the bytes have heads in shortest form only. -/
theorem entry_canonical (entry other : Entry) (bytes : List UInt8) :
    Entry.decode entry.toBytes = some (entry, []) ∧
    (entry.toBytes = other.toBytes → entry = other) ∧
    (entry.tbsBytes = other.tbsBytes → entry.author = other.author ∧
      entry.sortKey = other.sortKey ∧ entry.kind = other.kind ∧ entry.payload = other.payload) ∧
    (∀ rest, Entry.decode (entry.tbsBytes ++ rest) = none) ∧
    (Entry.decode bytes = some (entry, []) →
      entry.toBytes.length ≤ bytes.length ∧
      (shortestHeads bytes = true ↔ entry.toBytes = bytes)) := by
  refine ⟨?_, Entry.toBytes_injective, tbsBytes_injective, decode_tbsBytes entry, fun read => ?_⟩
  · have read := Entry.decode_toBytes entry []
    rwa [List.append_nil] at read
  · obtain ⟨used, split, rewrites⟩ := rewrites_of_decode read
    rw [List.append_nil] at split
    subst split
    exact ⟨rewrites.length_le, rewrites.eq_iff⟩

def blankEntry : Entry := ⟨FixedBytes.zero 32, 0, 0, ⟨[], by decide⟩, FixedBytes.zero 64⟩

/-- The arity may take two bytes where one would do. -/
theorem entry_canonical_widened :
    Entry.decode (0x98 :: 0x05 :: blankEntry.toBytes.tail) = some (blankEntry, []) ∧
      shortestHeads (0x98 :: 0x05 :: blankEntry.toBytes.tail) = false := by
  have read : Entry.decode (0x98 :: 0x05 :: blankEntry.toBytes.tail) = some (blankEntry, []) := by
    decide +kernel
  refine ⟨read, Bool.eq_false_iff.mpr fun shortest => ?_⟩
  have same := ((entry_canonical blankEntry blankEntry _).2.2.2.2 read).2.mp shortest
  exact absurd same (by decide)

end Racnet.Proof.Format
