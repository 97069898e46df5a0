import Mathlib.Tactic.Common
import Mathlib.Tactic.Ring

/-!
# Token buckets

A bucket holds at most `burst` tokens and gains one for every whole interval that has passed. It is
filled up lazily, when it is asked: the part of an interval that has passed is carried over.
-/

namespace Racnet.Lib

@[ext]
structure TokenBucket where
  tokens : Nat
  last : Nat
  deriving DecidableEq

namespace TokenBucket

variable {burst interval now later u : Nat} {b : TokenBucket}

def refill (burst interval now : Nat) (b : TokenBucket) : TokenBucket where
  tokens := min burst (b.tokens + (now - b.last) / interval)
  last := b.last + (now - b.last) / interval * interval

def take (b : TokenBucket) : TokenBucket := { b with tokens := b.tokens - 1 }

/-- The tokens that a bucket without a capacity could hand out up to the time `u`. -/
def supply (interval u : Nat) (b : TokenBucket) : Nat := b.tokens + (u - b.last) / interval

/-- Nothing is missing any more at the time `now`. -/
def IsFull (burst interval now : Nat) (b : TokenBucket) : Prop :=
  (burst - b.tokens) * interval ≤ now - b.last

theorem last_refill_le (past : b.last ≤ now) : (refill burst interval now b).last ≤ now := by
  have whole : (now - b.last) / interval * interval ≤ now - b.last := Nat.div_mul_le_self _ _
  simp only [refill]
  omega

theorem last_le_refill : b.last ≤ (refill burst interval now b).last := Nat.le_add_right _ _

theorem tokens_refill_le : (refill burst interval now b).tokens ≤ burst := min_le_left _ _

theorem sub_refill_lt (positive : 0 < interval) :
    now - (refill burst interval now b).last < interval := by
  have rest := Nat.mod_lt (now - b.last) positive
  have split := Nat.div_add_mod (now - b.last) interval
  rw [Nat.mul_comm] at split
  simp only [refill]
  omega

theorem supply_refill_le (positive : 0 < interval) (past : b.last ≤ now) (before : now ≤ u) :
    (refill burst interval now b).supply interval u ≤ b.supply interval u := by
  have whole : (now - b.last) / interval * interval ≤ now - b.last := Nat.div_mul_le_self _ _
  have split : u - b.last =
      u - (refill burst interval now b).last + (now - b.last) / interval * interval := by
    simp only [refill]
    omega
  rw [supply, supply, split, Nat.add_mul_div_right _ _ positive]
  have capped : (refill burst interval now b).tokens ≤ b.tokens + (now - b.last) / interval :=
    min_le_right _ _
  omega

theorem supply_take (token : 0 < b.tokens) :
    b.take.supply interval u + 1 = b.supply interval u := by
  simp only [take, supply]
  omega

/-- A full bucket may be replaced by a new one: that creates no tokens. -/
theorem supply_new_le (positive : 0 < interval) (full : b.IsFull burst interval now)
    (later_ : now ≤ later) (past : b.last ≤ now) (before : later ≤ u) :
    supply interval u ⟨burst, later⟩ ≤ b.supply interval u := by
  rw [IsFull] at full
  have missing : burst - b.tokens ≤ (later - b.last) / interval :=
    (Nat.le_div_iff_mul_le positive).mpr (by omega)
  have whole : (later - b.last) / interval * interval ≤ later - b.last := Nat.div_mul_le_self _ _
  have gained : (u - later) / interval + (later - b.last) / interval ≤ (u - b.last) / interval := by
    rw [Nat.le_div_iff_mul_le positive, Nat.add_mul]
    have := Nat.div_mul_le_self (u - later) interval
    omega
  simp only [supply]
  omega

/-- What a bucket that was just asked can hand out within a window. -/
theorem supply_window {t : Nat} (positive : 0 < interval) (inside : t ≤ now) (before : now ≤ u) :
    (refill burst interval now b).supply interval u ≤ burst + (u - t + (interval - 1)) / interval := by
  have recent := @sub_refill_lt burst interval now b positive
  have tokens := @tokens_refill_le burst interval now b
  have gained : (u - (refill burst interval now b).last) / interval ≤
      (u - t + (interval - 1)) / interval := Nat.div_le_div_right (by omega)
  rw [supply]
  omega

theorem refill_of_isFull (positive : 0 < interval) (full : b.IsFull burst interval now)
    (past : b.last ≤ now) (later_ : now ≤ later) (aligned : (later - b.last) % interval = 0) :
    refill burst interval later b = ⟨burst, later⟩ := by
  rw [IsFull] at full
  have missing : burst - b.tokens ≤ (later - b.last) / interval :=
    (Nat.le_div_iff_mul_le positive).mpr (by omega)
  have whole : (later - b.last) / interval * interval = later - b.last :=
    Nat.div_mul_cancel (Nat.dvd_of_mod_eq_zero aligned)
  apply TokenBucket.ext
  · simp only [refill]
    omega
  · simp only [refill, whole]
    omega

end TokenBucket

end Racnet.Lib
