import Mathlib.Algebra.Group.Nat.Defs
import Mathlib.Tactic.Common

namespace Racnet.Lib

/-- The ways in which a call of the modelled program returns no value: it reports an error, or it
panics (a failed assertion, an index or a slice out of range, an arithmetic underflow). -/
inductive Trap (ε : Type) where
  | err (error : ε)
  | panic
  deriving DecidableEq, Repr

abbrev Exec (ε α : Type) := Except (Trap ε) α

namespace Exec

variable {ε α β : Type}

def fail (error : ε) : Exec ε α := .error (.err error)

/-- A computation that can only panic, run inside one that can also report errors. -/
def orPanic : Option α → Exec ε α
  | some a => .ok a
  | none => .error .panic

/-- A computation that can only report errors. -/
def lift : Except ε α → Exec ε α
  | .ok a => .ok a
  | .error e => .error (.err e)

@[simp] theorem orPanic_some (a : α) : (orPanic (some a) : Exec ε α) = .ok a := rfl

@[simp] theorem orPanic_none : (orPanic none : Exec ε α) = .error .panic := rfl

@[simp] theorem lift_ok (a : α) : (lift (.ok a) : Exec ε α) = .ok a := rfl

@[simp] theorem lift_error (e : ε) : (lift (.error e) : Exec ε α) = .error (.err e) := rfl

@[simp] theorem ok_bind (a : α) (f : α → Exec ε β) : (Except.ok a >>= f) = f a := rfl

@[simp] theorem error_bind (t : Trap ε) (f : α → Exec ε β) :
    ((Except.error t : Exec ε α) >>= f) = .error t := rfl

theorem bind_eq_ok {x : Exec ε α} {f : α → Exec ε β} {b : β} :
    (x >>= f) = .ok b ↔ ∃ a, x = .ok a ∧ f a = .ok b := by
  cases x with
  | error t => simp
  | ok a => simp

/-- The computation does not panic, and what it returns satisfies `Q`. -/
def Safe (Q : α → Prop) : Exec ε α → Prop
  | .ok a => Q a
  | .error (.err _) => True
  | .error .panic => False

@[simp] theorem safe_ok {Q : α → Prop} {a : α} : @Safe ε α Q (.ok a) ↔ Q a := Iff.rfl

@[simp] theorem safe_pure {Q : α → Prop} {a : α} : @Safe ε α Q (pure a) ↔ Q a := Iff.rfl

@[simp] theorem safe_fail {Q : α → Prop} (error : ε) : Safe Q (fail error) := trivial

theorem Safe.bind {P : α → Prop} {Q : β → Prop} {x : Exec ε α} {f : α → Exec ε β}
    (first : Safe P x) (next : ∀ a, P a → Safe Q (f a)) : Safe Q (x >>= f) := by
  cases x with
  | ok a => exact next a first
  | error trap =>
    cases trap with
    | err error => trivial
    | panic => exact first

theorem Safe.mono {P Q : α → Prop} {x : Exec ε α} (safe : Safe P x) (le : ∀ a, P a → Q a) :
    Safe Q x := by
  cases x with
  | ok a => exact le a safe
  | error trap =>
    cases trap with
    | err error => trivial
    | panic => exact safe

theorem Safe.of_ok {Q : α → Prop} {x : Exec ε α} {a : α} (safe : Safe Q x) (ran : x = .ok a) :
    Q a := by
  subst ran
  exact safe

theorem Safe.trap_ne {Q : α → Prop} {trap : Trap ε} (safe : Safe Q (.error trap)) :
    trap ≠ .panic := by
  rintro rfl
  exact safe

theorem Safe.ne_panic {Q : α → Prop} {x : Exec ε α} (safe : Safe Q x) : x ≠ .error .panic := by
  rintro rfl
  exact safe

/-- The computation reports no error, and what it returns satisfies `Q`; it may still panic. -/
def Errorless (Q : α → Prop) : Exec ε α → Prop
  | .ok a => Q a
  | .error (.err _) => False
  | .error .panic => True

@[simp] theorem errorless_ok {Q : α → Prop} {a : α} : @Errorless ε α Q (.ok a) ↔ Q a := Iff.rfl

@[simp] theorem errorless_pure {Q : α → Prop} {a : α} : @Errorless ε α Q (pure a) ↔ Q a := Iff.rfl

theorem errorless_orPanic (x : Option α) : Errorless (fun _ => True) (orPanic x : Exec ε α) := by
  cases x <;> trivial

theorem Errorless.bind {P : α → Prop} {Q : β → Prop} {x : Exec ε α} {f : α → Exec ε β}
    (first : Errorless P x) (next : ∀ a, P a → Errorless Q (f a)) : Errorless Q (x >>= f) := by
  cases x with
  | ok a => exact next a first
  | error trap =>
    cases trap with
    | err error => exact first.elim
    | panic => trivial

theorem Errorless.ne_fail {Q : α → Prop} {x : Exec ε α} (errorless : Errorless Q x) (error : ε) :
    x ≠ fail error := by
  rintro rfl
  exact errorless

theorem Safe.returns {P Q : α → Prop} {x : Exec ε α} (safe : Safe P x) (errorless : Errorless Q x) :
    ∃ a, x = .ok a ∧ P a ∧ Q a := by
  cases x with
  | ok a => exact ⟨a, rfl, safe, errorless⟩
  | error trap =>
    cases trap with
    | err error => exact errorless.elim
    | panic => exact safe.elim

/-- Every error that the computation reports satisfies `P`. -/
def Reports (P : ε → Prop) (x : Exec ε α) : Prop := ∀ error, x = .error (.err error) → P error

@[simp] theorem reports_ok {P : ε → Prop} (a : α) : Reports P (.ok a : Exec ε α) := by
  rintro error ⟨⟩

@[simp] theorem reports_pure {P : ε → Prop} (a : α) : Reports P (pure a : Exec ε α) := reports_ok a

@[simp] theorem reports_fail {P : ε → Prop} {error : ε} :
    Reports P (fail error : Exec ε α) ↔ P error := by
  refine ⟨fun reports => reports error rfl, fun holds error' same => ?_⟩
  rw [← Trap.err.inj (Except.error.inj same)]
  exact holds

@[simp] theorem reports_orPanic {P : ε → Prop} (x : Option α) :
    Reports P (orPanic x : Exec ε α) := by
  cases x with
  | none => rintro error ⟨⟩
  | some a => exact reports_ok a

theorem Reports.bind {P : ε → Prop} {x : Exec ε α} {f : α → Exec ε β} (first : Reports P x)
    (next : ∀ a, Reports P (f a)) : Reports P (x >>= f) := by
  cases x with
  | ok a => exact next a
  | error trap =>
    intro error same
    exact first error (by rw [Except.error.inj same])

end Exec

/-! ## Computations with a state -/

section Stateful
variable {ε σ α β : Type}

@[simp] theorem stateful_pure (a : α) (s : σ) : (pure a : EStateM ε σ α) s = .ok a s := rfl

@[simp] theorem stateful_throw (e : ε) (s : σ) : (throw e : EStateM ε σ α) s = .error e s := rfl

theorem stateful_bind_of_ok {x : EStateM ε σ α} {f : α → EStateM ε σ β} {s s' : σ} {a : α}
    (ran : x s = .ok a s') : (x >>= f) s = f a s' := by
  change EStateM.bind x f s = f a s'
  rw [EStateM.bind, ran]

theorem stateful_bind_of_error {x : EStateM ε σ α} {f : α → EStateM ε σ β} {s s' : σ} {e : ε}
    (ran : x s = .error e s') : (x >>= f) s = .error e s' := by
  change EStateM.bind x f s = _
  rw [EStateM.bind, ran]

theorem stateful_bind_eq_ok {x : EStateM ε σ α} {f : α → EStateM ε σ β} {s s' : σ} {b : β}
    (ran : (x >>= f) s = .ok b s') : ∃ a s₁, x s = .ok a s₁ ∧ f a s₁ = .ok b s' := by
  cases first : x s with
  | ok a s₁ => exact ⟨a, s₁, rfl, (stateful_bind_of_ok first).symm.trans ran⟩
  | error e s₁ => exact absurd ((stateful_bind_of_error first).symm.trans ran) (by simp)

end Stateful

/-- Subtraction of unsigned machine integers: an underflow is a panic. -/
def checkedSub (a b : Nat) : Option Nat := if b ≤ a then some (a - b) else none

theorem checkedSub_of_le {a b : Nat} (le : b ≤ a) : checkedSub a b = some (a - b) := if_pos le

/-- `xs[lo..hi]`, which panics unless `lo ≤ hi ≤ xs.len()`. -/
def slice {α : Type} (xs : List α) (lo hi : Nat) : Option (List α) :=
  if lo ≤ hi ∧ hi ≤ xs.length then some ((xs.take hi).drop lo) else none

theorem slice_of_le {α : Type} {xs : List α} {lo hi : Nat} (order : lo ≤ hi)
    (bound : hi ≤ xs.length) : slice xs lo hi = some ((xs.take hi).drop lo) := if_pos ⟨order, bound⟩

theorem except_bind_ok {ε α β : Type} {x : Except ε α} {f : α → Except ε β} {b : β}
    (ran : (x >>= f) = .ok b) : ∃ a, x = .ok a ∧ f a = .ok b := by
  cases x with
  | error e => cases ran
  | ok a => exact ⟨a, rfl, ran⟩

/-- Pieces of at most `size` elements, which is not zero; `fuel` is at least the length. -/
def cut {α : Type} (size : Nat) : Nat → List α → List (List α)
  | 0, _ => []
  | _ + 1, [] => []
  | fuel + 1, x :: xs => (x :: xs).take size :: cut size fuel ((x :: xs).drop size)

/-- `xs.chunks(size)`, which panics when `size` is zero. -/
def chunks {α : Type} (size : Nat) (xs : List α) : Option (List (List α)) :=
  if size = 0 then none else some (cut size xs.length xs)

theorem cut_spec {α : Type} {size : Nat} (positive : 0 < size) {fuel : Nat} {xs : List α}
    (enough : xs.length ≤ fuel) :
    (cut size fuel xs).flatten = xs ∧ ∀ piece ∈ cut size fuel xs, piece.length ≤ size := by
  induction fuel generalizing xs with
  | zero =>
    obtain rfl := List.length_eq_zero_iff.mp (Nat.le_zero.mp enough)
    exact ⟨rfl, by simp [cut]⟩
  | succ fuel ih =>
    cases xs with
    | nil => exact ⟨rfl, by simp [cut]⟩
    | cons x xs =>
      have shorter : ((x :: xs).drop size).length ≤ fuel := by
        simp only [List.length_drop, List.length_cons] at enough ⊢
        omega
      obtain ⟨joined, short⟩ := ih shorter
      rw [cut]
      refine ⟨?_, List.forall_mem_cons.mpr ⟨List.length_take_le _ _, short⟩⟩
      rw [List.flatten_cons, joined, List.take_append_drop]

theorem chunks_spec {α : Type} {size : Nat} {xs : List α} {pieces : List (List α)}
    (made : chunks size xs = some pieces) :
    pieces.flatten = xs ∧ ∀ piece ∈ pieces, piece.length ≤ size := by
  rw [chunks, Option.ite_none_left_eq_some] at made
  obtain ⟨positive, made⟩ := made
  obtain rfl := Option.some.inj made
  exact cut_spec (Nat.pos_of_ne_zero positive) (Nat.le_refl _)

end Racnet.Lib
