import Racnet.Lib.Cbor

/-!
# Shortest heads

Readers take an argument in a wider head than it needs. Writing again what was read never takes
more bytes, and it gives the same bytes exactly if every head was in its shortest form.
-/

namespace Racnet.Lib.Cbor

/-- The additional information `info` is that of the shortest head for the argument `n`. -/
def shortestForm (info n : Nat) : Bool :=
  info < 24 || (info == 24 && 24 ≤ n) || (info == 25 && 2 ^ 8 ≤ n) ||
    (info == 26 && 2 ^ 16 ≤ n) || (info == 27 && 2 ^ 32 ≤ n)

/-- The input begins with a head in its shortest form. -/
def shortestHead : List UInt8 → Bool
  | [] => false
  | first :: rest =>
    match readArgument (first.toNat % 32) rest with
    | none => false
    | some (n, _) => shortestForm (first.toNat % 32) n

/-- The items inside an item of type `major` with argument `n`. -/
def itemsWithin (major n : Nat) : Nat :=
  match major with
  | 4 => n
  | 5 => 2 * n
  | 6 => 1
  | _ => 0

/-- The bytes of the string that follows a head. -/
def bytesWithin (major n : Nat) : Nat :=
  match major with
  | 2 | 3 => n
  | _ => 0

/-- The heads of the first `count` items, and of all items within them, are in their shortest
form. Every item has a byte, so `fuel` need not exceed the length of the input. -/
def shortestItems : Nat → Nat → List UInt8 → Bool
  | _, 0, _ => true
  | 0, _ + 1, _ => false
  | _ + 1, _ + 1, [] => false
  | fuel + 1, count + 1, first :: rest =>
    match readArgument (first.toNat % 32) rest with
    | none => false
    | some (n, after) =>
      shortestForm (first.toNat % 32) n &&
        shortestItems fuel (itemsWithin (first.toNat / 32) n + count)
          (after.drop (bytesWithin (first.toNat / 32) n))

/-- The heads of the first item are in their shortest form. -/
def shortestHeads (input : List UInt8) : Bool := shortestItems input.length 1 input

/-- The heads with an argument after the first byte: the width of the argument, and the least
value that needs it. -/
inductive Tier : Nat → Nat → Nat → Prop
  | one : Tier 24 1 24
  | two : Tier 25 2 (2 ^ 8)
  | four : Tier 26 4 (2 ^ 16)
  | eight : Tier 27 8 (2 ^ 32)

theorem Tier.width_le {info width low : Nat} (tier : Tier info width low) : width ≤ 8 := by
  cases tier <;> decide

theorem Tier.shortestForm_iff {info width low : Nat} (tier : Tier info width low) (n : Nat) :
    shortestForm info n = true ↔ low ≤ n := by
  cases tier <;> simp [shortestForm]

theorem Tier.head_eq {info width low : Nat} (tier : Tier info width low) (major : Nat) {n : Nat}
    (fits : n < 256 ^ width) :
    (low ≤ n → head major n = UInt8.ofNat (32 * major + info) :: beBytes width n) ∧
      (n < low → (head major n).length ≤ width) := by
  rw [head]
  cases tier <;> split_ifs <;>
    simp only [List.length_cons, List.length_nil, length_beBytes, implies_true, and_true, true_and,
      Nat.reduceAdd, Nat.reduceLeDiff] <;> omega

theorem tier_of_readArgument {info n : Nat} {tail rest : List UInt8} (large : ¬ info < 24)
    (read : readArgument info tail = some (n, rest)) :
    ∃ width low, Tier info width low ∧ width ≤ tail.length ∧ ofBe (tail.take width) = n ∧
      tail.drop width = rest := by
  have taken (width : Nat) (unfolded : readArgument info tail =
      if width = 0 ∨ tail.length < width then none
      else some (ofBe (tail.take width), tail.drop width)) :
      width ≤ tail.length ∧ ofBe (tail.take width) = n ∧ tail.drop width = rest := by
    rw [unfolded, Option.ite_none_left_eq_some, not_or, not_lt] at read
    exact ⟨read.1.2, Prod.mk.inj (Option.some.inj read.2)⟩
  by_cases one : info = 24
  · exact ⟨1, 24, one ▸ .one, taken 1 (by subst one; rfl)⟩
  by_cases two : info = 25
  · exact ⟨2, 2 ^ 8, two ▸ .two, taken 2 (by subst two; rfl)⟩
  by_cases four : info = 26
  · exact ⟨4, 2 ^ 16, four ▸ .four, taken 4 (by subst four; rfl)⟩
  by_cases eight : info = 27
  · exact ⟨8, 2 ^ 32, eight ▸ .eight, taken 8 (by subst eight; rfl)⟩
  · simp [readArgument, large, one, two, four, eight] at read

/-- What a reader of arguments takes is at least what the writer needs, and the same if the form
is the shortest. -/
theorem readArgument_spec (major : Nat) {info n : Nat} {tail rest : List UInt8}
    (read : readArgument info tail = some (n, rest)) :
    ∃ used, tail = used ++ rest ∧ n < 2 ^ 64 ∧ (head major n).length ≤ used.length + 1 ∧
      (shortestForm info n = true ↔
        head major n = UInt8.ofNat (32 * major + info) :: used) := by
  by_cases tiny : info < 24
  · rw [readArgument, if_pos tiny] at read
    obtain ⟨rfl, rfl⟩ := Prod.mk.inj (Option.some.inj read)
    have whole : head major info = [UInt8.ofNat (32 * major + info)] := by rw [head, if_pos tiny]
    exact ⟨[], rfl, by omega, by rw [whole]; simp, by simp [shortestForm, tiny, whole]⟩
  · obtain ⟨width, low, tier, enough, rfl, rfl⟩ := tier_of_readArgument tiny read
    have size : (tail.take width).length = width := List.length_take_of_le enough
    have fits : ofBe (tail.take width) < 256 ^ width := by
      have bound := ofBe_lt (tail.take width)
      rwa [size] at bound
    have bytes : beBytes width (ofBe (tail.take width)) = tail.take width := by
      have same := beBytes_ofBe (tail.take width)
      rwa [size] at same
    have small : ofBe (tail.take width) < 2 ^ 64 :=
      fits.trans_le (Nat.pow_le_pow_right (by decide) tier.width_le)
    obtain ⟨filled, shorter⟩ := tier.head_eq major fits
    rw [bytes] at filled
    refine ⟨tail.take width, (List.take_append_drop _ _).symm, small, ?_, ?_⟩
    · rcases Nat.lt_or_ge (ofBe (tail.take width)) low with lower | same
      · rw [size]
        exact (shorter lower).trans (Nat.le_succ _)
      · rw [filled same, List.length_cons]
    · rw [tier.shortestForm_iff]
      refine ⟨filled, fun same => ?_⟩
      by_contra lower
      have short := shorter (Nat.not_le.mp lower)
      rw [same, List.length_cons, size] at short
      omega

/-- Writing again what was read from `used` gives `written`, which is not longer, and which is
`used` itself if `shortest` holds. -/
structure Rewrites (used written : List UInt8) (shortest : Bool) : Prop where
  length_le : written.length ≤ used.length
  eq_iff : shortest = true ↔ written = used

theorem Rewrites.append {used used' written written' : List UInt8} {shortest shortest' : Bool}
    (left : Rewrites used written shortest) (right : Rewrites used' written' shortest') :
    Rewrites (used ++ used') (written ++ written') (shortest && shortest') := by
  have lengths := left.length_le
  have lengths' := right.length_le
  refine ⟨by rw [List.length_append, List.length_append]; omega, ?_⟩
  rw [Bool.and_eq_true, left.eq_iff, right.eq_iff]
  constructor
  · rintro ⟨rfl, rfl⟩
    rfl
  · intro same
    have total := congrArg List.length same
    rw [List.length_append, List.length_append] at total
    exact List.append_inj same (by omega)

theorem readHead_spec {major n : Nat} {input rest : List UInt8}
    (read : readHead major input = some (n, rest)) :
    ∃ used, input = used ++ rest ∧ n < 2 ^ 64 ∧
      Rewrites used (head major n) (shortestHead input) := by
  cases input with
  | nil => cases read
  | cons first tail =>
    rw [readHead, Option.ite_none_right_eq_some] at read
    obtain ⟨type, read⟩ := read
    obtain ⟨used, rfl, small, short, form⟩ := readArgument_spec major read
    have byte : UInt8.ofNat (32 * major + first.toNat % 32) = first := by
      rw [← type, Nat.div_add_mod, UInt8.ofNat_toNat]
    rw [byte] at form
    refine ⟨first :: used, rfl, small, short, ?_⟩
    rw [shortestHead, read]
    exact form

theorem readBytes_spec {input bytes rest : List UInt8}
    (read : readBytes input = some (bytes, rest)) :
    ∃ used, input = used ++ rest ∧ bytes.length < 2 ^ 64 ∧
      Rewrites used (byteString bytes) (shortestHead input) := by
  rw [readBytes] at read
  obtain ⟨⟨length, tail⟩, headRead, read⟩ := Option.bind_eq_some_iff.mp read
  rw [Option.ite_none_right_eq_some] at read
  obtain ⟨enough, read⟩ := read
  obtain ⟨rfl, rfl⟩ := Prod.mk.inj (Option.some.inj read)
  obtain ⟨used, rfl, small, rewrites⟩ := readHead_spec headRead
  have size : (tail.take length).length = length := List.length_take_of_le enough
  have content : Rewrites (tail.take length) (tail.take length) true := ⟨le_rfl, by simp⟩
  refine ⟨used ++ tail.take length, ?_, by rwa [size], ?_⟩
  · rw [List.append_assoc, List.take_append_drop]
  · rw [byteString, size, ← Bool.and_true (shortestHead _)]
    exact rewrites.append content

theorem shortestItems_step {major n : Nat} {input rest : List UInt8}
    (read : readHead major input = some (n, rest)) (fuel count : Nat) :
    shortestItems (fuel + 1) (count + 1) input = (shortestHead input &&
      shortestItems fuel (itemsWithin major n + count) (rest.drop (bytesWithin major n))) := by
  cases input with
  | nil => cases read
  | cons first tail =>
    rw [readHead, Option.ite_none_right_eq_some] at read
    obtain ⟨rfl, read⟩ := read
    rw [shortestItems, shortestHead, read]

theorem shortestItems_bytes {input bytes rest : List UInt8}
    (read : readBytes input = some (bytes, rest)) (fuel count : Nat) :
    shortestItems (fuel + 1) (count + 1) input =
      (shortestHead input && shortestItems fuel count rest) := by
  rw [readBytes] at read
  obtain ⟨⟨length, tail⟩, headRead, read⟩ := Option.bind_eq_some_iff.mp read
  rw [Option.ite_none_right_eq_some] at read
  obtain ⟨-, rfl⟩ := Prod.mk.inj (Option.some.inj read.2)
  rw [shortestItems_step headRead]
  simp only [itemsWithin, bytesWithin, Nat.zero_add]

end Racnet.Lib.Cbor
