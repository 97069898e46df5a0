import Racnet.Lib.Cbor.Taken

/-!
# Skipping an item

Well-formed items are skipped whole. Of an ill-formed one minicbor may skip more or less than this: it
counts the breaks it expects and does not keep what is nested between them apart.
-/

namespace Racnet.Lib.Cbor

/-- A string, in one piece or in chunks, each of which satisfies `valid`. -/
def skipString (major : Nat) (valid : List UInt8 → Bool) : Reader Unit := fun input =>
  let chunk : Reader Unit := fun input => do
    let (length, rest) ← readHead major input
    if length ≤ rest.length ∧ valid (rest.take length) then some ((), rest.drop length) else none
  match readLength major input with
  | some (none, rest) => readUntilBreak (fun _ => chunk) input.length () rest
  | _ => chunk input

def isUtf8 (bytes : List UInt8) : Bool := ByteArray.validateUTF8 ⟨bytes.toArray⟩

/-- Skips one item, or a break. Items nest at most `fuel` deep: every level has a byte. -/
def skipItem : Nat → Reader Unit
  | 0, _ => none
  | _ + 1, [] => none
  | fuel + 1, first :: rest =>
    let input := first :: rest
    match first.toNat / 32 with
    | 0 | 1 => (readArgument (first.toNat % 32) rest).map fun (_, rest) => ((), rest)
    | 2 => skipString 2 (fun _ => true) input
    | 3 => skipString 3 isUtf8 input
    | 4 => readElements 4 1 (fun _ => skipItem fuel) () input
    | 5 => readElements 5 2 (fun _ => skipItem fuel) () input
    | 6 => (readArgument (first.toNat % 32) rest).bind fun (_, rest) => skipItem fuel rest
    | _ =>
      if first = 0xff then some ((), rest)
      else (readArgument (first.toNat % 32) rest).map fun (_, rest) => ((), rest)

theorem takes_chunk (major : Nat) (valid : List UInt8 → Bool) {input rest : List UInt8}
    (ran : (do
      let (length, after) ← readHead major input
      if length ≤ after.length ∧ valid (after.take length) then some ((), after.drop length)
      else none) = some ((), rest)) : rest.length ≤ input.length := by
  obtain ⟨⟨length, after⟩, head, ran⟩ := Option.bind_eq_some_iff.mp ran
  have taken := takes_readHead head
  dsimp only at ran
  rw [Option.ite_none_right_eq_some] at ran
  obtain ⟨-, rfl⟩ := Prod.mk.inj (Option.some.inj ran.2)
  rw [List.length_drop]
  omega

theorem takes_skipString (major : Nat) (valid : List UInt8 → Bool) {input rest : List UInt8}
    (ran : skipString major valid input = some ((), rest)) : rest.length ≤ input.length := by
  rw [skipString] at ran
  dsimp only at ran
  split at ran
  · rename_i after opened
    have head := takes_readLength opened
    have grows : Grows (fun _ : Unit => 0) (fun _ input => do
        let (length, after) ← readHead major input
        if length ≤ after.length ∧ valid (after.take length) then some ((), after.drop length)
        else none) := by
      intro _ input _ rest ran
      have := takes_chunk major valid ran
      dsimp only
      omega
    have body := grows.readUntilBreak _ ran
    omega
  · exact takes_chunk major valid ran

theorem takes_skipItem (fuel : Nat) {input rest : List UInt8}
    (ran : skipItem fuel input = some ((), rest)) : rest.length ≤ input.length := by
  induction fuel generalizing input rest with
  | zero => cases ran
  | succ fuel ih =>
    cases input with
    | nil => cases ran
    | cons first tail =>
      have grows : Grows (fun _ : Unit => 0) (fun _ => skipItem fuel) := by
        intro _ input _ rest ran
        have := ih ran
        dsimp only
        omega
      have argument {info : Nat} {left : List UInt8}
          (ran : (readArgument info tail).map (fun (_, rest) => ((), rest)) = some ((), left)) :
          left.length ≤ (first :: tail).length := by
        obtain ⟨⟨n, after⟩, read, same⟩ := Option.map_eq_some_iff.mp ran
        obtain ⟨-, rfl⟩ := Prod.mk.inj same
        have := takes_readArgument read
        rw [List.length_cons]
        omega
      rw [skipItem] at ran
      dsimp only at ran
      split at ran
      · exact argument ran
      · exact argument ran
      · exact takes_skipString 2 _ ran
      · exact takes_skipString 3 _ ran
      · have := grows.readElements 4 1 ran
        omega
      · have := grows.readElements 5 2 ran
        omega
      · obtain ⟨⟨n, after⟩, read, ran⟩ := Option.bind_eq_some_iff.mp ran
        have shorter := takes_readArgument read
        exact (ih ran).trans (shorter.trans (Nat.le_succ _))
      · split_ifs at ran
        · obtain ⟨-, rfl⟩ := Prod.mk.inj (Option.some.inj ran)
          rw [List.length_cons]
          omega
        · exact argument ran

/-- By the nesting of items. -/
def nested : Skip := ⟨fun input => skipItem input.length input, takes_skipItem _⟩

end Racnet.Lib.Cbor
