import Racnet.Lib.Cbor.Items
import Racnet.Lib.Cbor.Shortest

/-!
# What a reader takes

A reader leaves less of its input, the more it returns.
-/

namespace Racnet.Lib.Cbor

variable {α β σ : Type}

/-- To return `a` a reader takes `size a` bytes or more. -/
def Takes (size : α → Nat) (read : Reader α) : Prop :=
  ∀ ⦃input a rest⦄, read input = some (a, rest) → size a + rest.length ≤ input.length

/-- A step takes as many bytes as its state grows. -/
def Grows (size : σ → Nat) (step : σ → Reader σ) : Prop :=
  ∀ ⦃s input s' rest⦄, step s input = some (s', rest) →
    size s' + rest.length ≤ size s + input.length

theorem takes_readHead {major n : Nat} {input rest : List UInt8}
    (read : readHead major input = some (n, rest)) : 1 + rest.length ≤ input.length := by
  obtain ⟨used, rfl, -, rewrites⟩ := readHead_spec read
  have longer := rewrites.length_le
  have some := length_head_pos major n
  rw [List.length_append]
  omega

theorem takes_readArgument {info n : Nat} {tail rest : List UInt8}
    (read : readArgument info tail = some (n, rest)) : rest.length ≤ tail.length := by
  obtain ⟨used, rfl, -⟩ := readArgument_spec 0 read
  rw [List.length_append]
  omega

theorem takes_readLength {major : Nat} {length : Option Nat} {input rest : List UInt8}
    (read : readLength major input = some (length, rest)) : 1 + rest.length ≤ input.length := by
  cases input with
  | nil => cases read
  | cons first tail =>
    rw [readLength] at read
    split_ifs at read
    · obtain ⟨-, rfl⟩ := Prod.mk.inj (Option.some.inj read)
      rw [List.length_cons]
      omega
    · obtain ⟨⟨n, after⟩, argument, same⟩ := Option.map_eq_some_iff.mp read
      obtain ⟨-, rfl⟩ := Prod.mk.inj same
      have := takes_readArgument argument
      rw [List.length_cons]
      omega

theorem takes_readInteger {key : Int} {input rest : List UInt8}
    (read : readInteger input = some (key, rest)) : 1 + rest.length ≤ input.length := by
  cases input with
  | nil => cases read
  | cons first tail =>
    obtain ⟨⟨n, after⟩, argument, read⟩ := Option.bind_eq_some_iff.mp read
    have shorter := takes_readArgument argument
    dsimp only at read
    have left : after = rest := by
      split_ifs at read <;> exact (Prod.mk.inj (Option.some.inj read)).2
    rw [List.length_cons, ← left]
    omega

/-! ## Repetition -/

theorem Grows.readTimes {size : σ → Nat} {step : σ → Reader σ} (grows : Grows size step) (n : Nat) :
    Grows size (readTimes step n) := by
  induction n with
  | zero =>
    intro s input s' rest read
    obtain ⟨rfl, rfl⟩ := Prod.mk.inj (Option.some.inj read)
    exact Nat.le_refl _
  | succ n ih =>
    intro s input s' rest read
    obtain ⟨⟨middle, left⟩, first, read⟩ := Option.bind_eq_some_iff.mp read
    exact (ih read).trans (grows first)

theorem Grows.readUntilBreak {size : σ → Nat} {step : σ → Reader σ} (grows : Grows size step)
    (fuel : Nat) : Grows size (readUntilBreak step fuel) := by
  induction fuel with
  | zero =>
    intro s input s' rest read
    cases read
  | succ fuel ih =>
    intro s input s' rest read
    rw [Cbor.readUntilBreak] at read
    split_ifs at read
    · obtain ⟨rfl, rfl⟩ := Prod.mk.inj (Option.some.inj read)
      rw [List.length_tail]
      omega
    · obtain ⟨⟨middle, left⟩, first, read⟩ := Option.bind_eq_some_iff.mp read
      exact (ih read).trans (grows first)

/-- With the head, an array or a map takes one byte more than its elements. -/
theorem Grows.readElements {size : σ → Nat} {step : σ → Reader σ} (grows : Grows size step)
    (major factor : Nat) {s s' : σ} {input rest : List UInt8}
    (read : readElements major factor step s input = some (s', rest)) :
    size s' + 1 + rest.length ≤ size s + input.length := by
  obtain ⟨⟨length, elements⟩, opened, read⟩ := Option.bind_eq_some_iff.mp read
  have head := takes_readLength opened
  cases length with
  | some n =>
    have body := grows.readTimes _ read
    omega
  | none =>
    have body := grows.readUntilBreak _ read
    omega

theorem takes_readList {size : α → Nat} {read : Reader α} (takes : Takes size read) :
    Takes (fun xs => 1 + (xs.map size).sum) (readList read) := by
  have grows : Grows (fun xs => (xs.map size).sum) (into read fun x xs => xs ++ [x]) := by
    intro xs input xs' rest ran
    obtain ⟨⟨x, left⟩, first, ran⟩ := Option.bind_eq_some_iff.mp ran
    obtain ⟨rfl, rfl⟩ := Prod.mk.inj (Option.some.inj ran)
    have taken := takes first
    simp only [List.map_append, List.map_cons, List.map_nil, List.sum_append, List.sum_singleton]
    omega
  intro input xs rest ran
  have taken := grows.readElements 4 1 ran
  simp only [List.map_nil, List.sum_nil] at taken
  dsimp only
  omega

/-! ## Records -/

theorem grows_ignored (skip : Skip) (size : σ → Nat) : Grows size (ignored skip) := by
  intro s input s' rest ran
  obtain ⟨⟨_, after⟩, skipped, ran⟩ := Option.bind_eq_some_iff.mp ran
  obtain ⟨rfl, rfl⟩ := Prod.mk.inj (Option.some.inj ran)
  have := skip.shortens skipped
  omega

/-- The bytes of a field with its key, if it has been read. -/
def fieldSize (size : α → Nat) (field : Option α) : Nat := field.elim 0 fun a => 1 + size a

theorem takes_readRecord2 {skip : Skip} {size : α → Nat} {size' : β → Nat} {first : Reader α} {second : Reader β}
    (takesFirst : Takes size first) (takesSecond : Takes size' second) :
    Takes (fun p => 3 + size p.1 + size' p.2) (readRecord2 skip first second) := by
  have grows : Grows (fun s : Option α × Option β => fieldSize size s.1 + fieldSize size' s.2)
      (keyed fun key =>
        if key = 0 then into first fun a s => (some a, s.2)
        else if key = 1 then into second fun b s => (s.1, some b)
        else ignored skip) := by
    intro s input s' rest ran
    obtain ⟨⟨key, after⟩, read, ran⟩ := Option.bind_eq_some_iff.mp ran
    have keyTaken := takes_readInteger read
    dsimp only at ran
    split_ifs at ran
    · obtain ⟨⟨a, left⟩, field, ran⟩ := Option.bind_eq_some_iff.mp ran
      obtain ⟨rfl, rfl⟩ := Prod.mk.inj (Option.some.inj ran)
      have taken := takesFirst field
      simp only [fieldSize, Option.elim_some] at taken ⊢
      omega
    · obtain ⟨⟨b, left⟩, field, ran⟩ := Option.bind_eq_some_iff.mp ran
      obtain ⟨rfl, rfl⟩ := Prod.mk.inj (Option.some.inj ran)
      have taken := takesSecond field
      simp only [fieldSize, Option.elim_some] at taken ⊢
      omega
    · have taken := grows_ignored skip (fun s : Option α × Option β =>
        fieldSize size s.1 + fieldSize size' s.2) ran
      dsimp only at taken ⊢
      omega
  intro input p rest ran
  obtain ⟨⟨⟨a, b⟩, left⟩, fields, ran⟩ := Option.bind_eq_some_iff.mp ran
  obtain ⟨a', foundA, ran⟩ := Option.bind_eq_some_iff.mp ran
  obtain ⟨b', foundB, ran⟩ := Option.bind_eq_some_iff.mp ran
  obtain ⟨rfl, rfl⟩ := Prod.mk.inj (Option.some.inj ran)
  have taken := grows.readElements 5 1 fields
  simp only [fieldSize, foundA, foundB, Option.elim_some, Option.elim_none] at taken ⊢
  omega

end Racnet.Lib.Cbor
