import Mathlib.Data.List.Basic
import Mathlib.Data.Nat.Bitwise
import Mathlib.Tactic.Ring
import Racnet.Sync.Negentropy.Varint

namespace Racnet.Proof.Negentropy
open Lib Sync

/-- The digit bytes of `n` from digit `d - 1` down to digit zero. -/
def digitBytes (n d : Nat) : List UInt8 :=
  (List.range d).reverse.map fun i =>
    let digit := UInt8.ofNat ((n >>> (7 * i)) &&& 0x7F)
    if i = 0 then digit else digit ||| 0x80

theorem digitBytes_succ (n d : Nat) :
    digitBytes n (d + 1) =
      (let digit := UInt8.ofNat ((n >>> (7 * d)) &&& 0x7F)
        if d = 0 then digit else digit ||| 0x80) :: digitBytes n d := by
  simp [digitBytes, List.range_succ]

theorem length_digitBytes (n d : Nat) : (digitBytes n d).length = d := by
  simp [digitBytes]

theorem digit_eq_mod (n i : Nat) : (n >>> (7 * i)) &&& 0x7F = n / 2 ^ (7 * i) % 128 := by
  rw [show (0x7F : Nat) = 2 ^ 7 - 1 from rfl, Nat.and_two_pow_sub_one_eq_mod,
    Nat.shiftRight_eq_div_pow]

theorem low_bits (byte : UInt8) : (byte &&& 0x7F).toNat = byte.toNat % 128 := by
  rw [UInt8.toNat_and, show (0x7F : UInt8).toNat = 2 ^ 7 - 1 from rfl,
    Nat.and_two_pow_sub_one_eq_mod]

theorem high_bit_clear (byte : UInt8) : byte &&& 0x80 = 0 ↔ byte.toNat < 128 := by
  have size := byte.toNat_lt
  rw [← UInt8.toNat_inj, UInt8.toNat_and, show (0x80 : UInt8).toNat = 2 ^ 7 from rfl,
    Nat.and_two_pow, Nat.testBit_eq_decide_div_mod_eq]
  by_cases high : byte.toNat / 2 ^ 7 % 2 = 1
  · simp only [high, decide_true, Bool.toNat_true, UInt8.toNat_zero]
    omega
  · simp only [high, decide_false, Bool.toNat_false, UInt8.toNat_zero]
    omega

theorem set_high_bit {v : Nat} (small : v < 128) : (UInt8.ofNat v ||| 0x80).toNat = v + 128 := by
  have byte : (UInt8.ofNat v).toNat = v := by
    rw [UInt8.toNat_ofNat', Nat.mod_eq_of_lt (by omega)]
  rw [UInt8.toNat_or, byte, show (0x80 : UInt8).toNat = 2 ^ 7 * 1 from rfl, Nat.or_comm,
    ← Nat.two_pow_add_eq_or_of_lt small]
  omega

theorem shift_or_digit (res : Nat) {v : Nat} (small : v < 128) :
    (res <<< 7) ||| v = res * 128 + v := by
  rw [Nat.shiftLeft_eq, show (2 ^ 7 : Nat) = 128 from rfl, Nat.mul_comm,
    show (128 : Nat) = 2 ^ 7 from rfl, ← Nat.two_pow_add_eq_or_of_lt (by simpa using small)]

theorem div_digit (n d : Nat) :
    n / 2 ^ (7 * (d + 1)) * 128 + n / 2 ^ (7 * d) % 128 = n / 2 ^ (7 * d) := by
  rw [show 7 * (d + 1) = 7 * d + 7 by ring, Nat.pow_add, ← Nat.div_div_eq_div_mul]
  exact Nat.div_add_mod' (n / 2 ^ (7 * d)) 128

theorem readVarintLoop_cons {res : Nat} (fits : res ≤ (2 ^ 64 - 1) / 128) (byte : UInt8)
    (rest : List UInt8) :
    readVarintLoop res (byte :: rest) =
      if byte.toNat < 128 then .ok (res * 128 + byte.toNat % 128, rest)
      else readVarintLoop (res * 128 + byte.toNat % 128) rest := by
  have bound : ¬ res > (2 ^ 64 - 1) >>> 7 := by
    rw [Nat.shiftRight_eq_div_pow]
    omega
  have small : byte.toNat % 128 < 128 := Nat.mod_lt _ (by decide)
  simp only [readVarintLoop, if_neg bound, low_bits, shift_or_digit res small, high_bit_clear]

theorem readVarintLoop_digits (n : Nat) (bound : n < 2 ^ 64) (d : Nat) (rest : List UInt8) :
    readVarintLoop (n / 2 ^ (7 * (d + 1))) (digitBytes n (d + 1) ++ rest) = .ok (n, rest) := by
  have fits (k : Nat) : n / 2 ^ (7 * (k + 1)) ≤ (2 ^ 64 - 1) / 128 := by
    rw [show 7 * (k + 1) = 7 + 7 * k by ring, Nat.pow_add, ← Nat.div_div_eq_div_mul]
    exact (Nat.div_le_self _ _).trans (Nat.div_le_div_right (by omega))
  have digit (k : Nat) : n / 2 ^ (7 * k) % 128 < 128 := Nat.mod_lt _ (by decide)
  induction d with
  | zero =>
    have value : (UInt8.ofNat (n % 128)).toNat = n % 128 := by
      rw [UInt8.toNat_ofNat', Nat.mod_eq_of_lt (by omega)]
    have whole := div_digit n 0
    rw [digitBytes_succ]
    simp only [digit_eq_mod, List.cons_append, if_true, readVarintLoop_cons (fits 0)]
    simp only [Nat.mul_zero, Nat.pow_zero, Nat.div_one, value] at whole ⊢
    rw [if_pos (by omega), Nat.mod_mod, whole]
    rfl
  | succ d ih =>
    have value := set_high_bit (digit (d + 1))
    rw [digitBytes_succ]
    simp only [digit_eq_mod, Nat.succ_ne_zero, if_false, List.cons_append,
      readVarintLoop_cons (fits (d + 1)), value]
    rw [if_neg (by omega), Nat.add_mod_right, Nat.mod_mod, div_digit]
    exact ih

theorem digits_eq {n : Nat} (pos : n ≠ 0) (bound : n < 2 ^ 64) :
    (64 - leadingZeros n + 6) / 7 = (n.log2 + 7) / 7 := by
  have small : n.log2 < 64 := (Nat.log2_lt pos).mpr bound
  simp only [leadingZeros, pos, if_false]
  congr 1
  omega

theorem writeVarint_pos {n : Nat} (pos : n ≠ 0) (bound : n < 2 ^ 64) :
    writeVarint n = digitBytes n ((n.log2 + 7) / 7) := by
  simp only [writeVarint, pos, if_false, digits_eq pos bound]
  rfl

theorem readVarint_writeVarint (n : Nat) (bound : n < 2 ^ 64) (rest : List UInt8) :
    readVarint (writeVarint n ++ rest) = .ok (n, rest) := by
  by_cases pos : n = 0
  · subst pos
    rfl
  · obtain ⟨d, hd⟩ : ∃ d, (n.log2 + 7) / 7 = d + 1 := ⟨(n.log2 + 7) / 7 - 1, by omega⟩
    have top : n / 2 ^ (7 * (d + 1)) = 0 := by
      apply Nat.div_eq_of_lt
      exact (Nat.lt_log2_self).trans_le (Nat.pow_le_pow_right (by decide) (by omega))
    rw [writeVarint_pos pos bound, hd, readVarint, ← top]
    exact readVarintLoop_digits n bound d rest

/-! ## What the reader accepts -/

/-- The number whose base-128 digits are the low bits of `bytes`, after the digits of `res`. -/
def digitsAfter (res : Nat) (bytes : List UInt8) : Nat :=
  bytes.foldl (fun value byte => value * 128 + byte.toNat % 128) res

def digitsValue (bytes : List UInt8) : Nat := digitsAfter 0 bytes

/-- The bytes of one number: the high bit is set on all of them but the last. -/
structure Closes (high : List UInt8) (last : UInt8) : Prop where
  continued : ∀ byte ∈ high, byte &&& 0x80 ≠ 0
  ended : last &&& 0x80 = 0

theorem le_digitsAfter (res : Nat) (bytes : List UInt8) : res ≤ digitsAfter res bytes := by
  induction bytes generalizing res with
  | nil => exact le_rfl
  | cons byte bytes ih =>
    have longer := ih (res * 128 + byte.toNat % 128)
    rw [digitsAfter, List.foldl_cons]
    rw [digitsAfter] at longer
    omega

theorem digitsAfter_lt (res : Nat) (bytes : List UInt8) :
    digitsAfter res bytes < (res + 1) * 2 ^ (7 * bytes.length) := by
  induction bytes generalizing res with
  | nil => simp [digitsAfter]
  | cons byte bytes ih =>
    have low : byte.toNat % 128 < 128 := Nat.mod_lt _ (by decide)
    calc digitsAfter (res * 128 + byte.toNat % 128) bytes
        < (res * 128 + byte.toNat % 128 + 1) * 2 ^ (7 * bytes.length) := ih _
      _ ≤ (res + 1) * 128 * 2 ^ (7 * bytes.length) := Nat.mul_le_mul_right _ (by omega)
      _ = (res + 1) * 2 ^ (7 * (byte :: bytes).length) := by
        rw [List.length_cons, show 7 * (bytes.length + 1) = 7 * bytes.length + 7 by ring, pow_add]
        ring

theorem readVarintLoop_iff (res : Nat) (input : List UInt8) (value : Nat) (rest : List UInt8) :
    readVarintLoop res input = .ok (value, rest) ↔
      ∃ high last, input = high ++ last :: rest ∧ Closes high last ∧
        digitsAfter res (high ++ [last]) < 2 ^ 64 ∧ value = digitsAfter res (high ++ [last]) := by
  induction input generalizing res with
  | nil =>
    simp only [readVarintLoop, Exec.fail, reduceCtorEq, false_iff]
    rintro ⟨high, last, whole, -⟩
    simp at whole
  | cons byte input ih =>
    by_cases fits : res ≤ (2 ^ 64 - 1) / 128
    · rw [readVarintLoop_cons fits]
      by_cases final : byte.toNat < 128
      · rw [if_pos final]
        constructor
        · intro read
          obtain ⟨rfl, rfl⟩ : res * 128 + byte.toNat % 128 = value ∧ input = rest := by
            simpa using read
          refine ⟨[], byte, rfl, ⟨by simp, (high_bit_clear byte).mpr final⟩, ?_, rfl⟩
          simp only [List.nil_append, digitsAfter, List.foldl_cons, List.foldl_nil]
          omega
        · rintro ⟨high, last, whole, shape, -, rfl⟩
          cases high with
          | nil =>
            obtain ⟨rfl, rfl⟩ := List.cons.inj whole
            rfl
          | cons first high =>
            obtain ⟨rfl, -⟩ := List.cons.inj whole
            exact absurd ((high_bit_clear byte).mpr final)
              (shape.continued byte List.mem_cons_self)
      · rw [if_neg final, ih]
        constructor
        · rintro ⟨high, last, rfl, shape, small, rfl⟩
          refine ⟨byte :: high, last, rfl, ⟨?_, shape.ended⟩, small, rfl⟩
          intro b mem
          rcases List.mem_cons.mp mem with rfl | later
          · exact fun clear => final ((high_bit_clear b).mp clear)
          · exact shape.continued b later
        · rintro ⟨high, last, whole, shape, small, rfl⟩
          cases high with
          | nil =>
            obtain ⟨rfl, -⟩ := List.cons.inj whole
            exact absurd ((high_bit_clear byte).mp shape.ended) final
          | cons first high =>
            obtain ⟨rfl, rfl⟩ := List.cons.inj whole
            exact ⟨high, last, rfl,
              ⟨fun b mem => shape.continued b (List.mem_cons_of_mem byte mem), shape.ended⟩,
              small, rfl⟩
    · have beyond : res > (2 ^ 64 - 1) >>> 7 := by
        rw [Nat.shiftRight_eq_div_pow]
        omega
      simp only [readVarintLoop, if_pos beyond, Exec.fail, reduceCtorEq, false_iff]
      rintro ⟨high, last, -, -, small, -⟩
      -- One more digit already takes the running value past the limit.
      have grown : res * 128 ≤ digitsAfter res (high ++ [last]) := by
        cases high with
        | nil => exact Nat.le_add_right _ _
        | cons first high => exact (Nat.le_add_right _ _).trans (le_digitsAfter _ _)
      omega

theorem readVarint_iff (input : List UInt8) (value : Nat) (rest : List UInt8) :
    readVarint input = .ok (value, rest) ↔
      ∃ high last, input = high ++ last :: rest ∧ Closes high last ∧
        digitsValue (high ++ [last]) < 2 ^ 64 ∧ value = digitsValue (high ++ [last]) :=
  readVarintLoop_iff 0 input value rest

theorem digitsAfter_inj {as bs : List UInt8} (size : as.length = bs.length) {res res' : Nat}
    (same : digitsAfter res as = digitsAfter res' bs) :
    res = res' ∧ as.map (fun a => a.toNat % 128) = bs.map fun b => b.toNat % 128 := by
  induction as generalizing bs res res' with
  | nil =>
    obtain rfl := List.length_eq_zero_iff.mp size.symm
    exact ⟨same, rfl⟩
  | cons a as ih =>
    cases bs with
    | nil => simp at size
    | cons b bs =>
      have shorter : digitsAfter (res * 128 + a.toNat % 128) as =
          digitsAfter (res' * 128 + b.toNat % 128) bs := same
      obtain ⟨heads, tails⟩ := ih (by simpa using size) shorter
      have lowA : a.toNat % 128 < 128 := Nat.mod_lt _ (by decide)
      have lowB : b.toNat % 128 < 128 := Nat.mod_lt _ (by decide)
      refine ⟨by omega, ?_⟩
      rw [List.map_cons, List.map_cons, tails, show a.toNat % 128 = b.toNat % 128 by omega]

theorem Closes.eq_of_digits {high high' : List UInt8} {last last' : UInt8}
    (left : Closes high last) (right : Closes high' last')
    (same : (high ++ [last]).map (fun a => a.toNat % 128) =
      (high' ++ [last']).map fun b => b.toNat % 128) : high ++ [last] = high' ++ [last'] := by
  have values (bytes : List UInt8) (set : ∀ byte ∈ bytes, byte &&& 0x80 ≠ 0) :
      bytes.map UInt8.toNat = (bytes.map fun b => b.toNat % 128).map (· + 128) := by
    rw [List.map_map]
    refine List.map_congr_left fun byte mem => ?_
    have high : ¬ byte.toNat < 128 := fun low => set byte mem ((high_bit_clear byte).mpr low)
    have size := byte.toNat_lt
    simp only [Function.comp_apply]
    omega
  have injective : Function.Injective UInt8.toNat := fun a b => UInt8.toNat_inj.mp
  rw [List.map_append, List.map_append, List.map_singleton, List.map_singleton] at same
  obtain ⟨front, final⟩ := List.append_inj' same rfl
  have fronts : high = high' := injective.list_map (by
    rw [values high left.continued, values high' right.continued, front])
  have lasts : last = last' := injective (by
    have lowL := (high_bit_clear last).mp left.ended
    have lowR := (high_bit_clear last').mp right.ended
    have digit := List.head_eq_of_cons_eq final
    omega)
  rw [fronts, lasts]

theorem length_writeVarint_le {n : Nat} (bound : n < 2 ^ 64) {len : Nat} (pos : 0 < len)
    (small : n < 2 ^ (7 * len)) : (writeVarint n).length ≤ len := by
  by_cases zero : n = 0
  · subst zero
    exact pos
  · have top : n.log2 < 7 * len := (Nat.log2_lt zero).mpr small
    rw [writeVarint_pos zero bound, length_digitBytes]
    omega

/-- What was written is read back with what follows it left unread, no other encoding is as short,
and the reader accepts exactly the digit strings that end and whose value fits. -/
theorem varint_codec (n : UInt64) (rest : List UInt8) :
    readVarint (writeVarint n.toNat ++ rest) = .ok (n.toNat, rest) ∧
    (∀ bytes, readVarint bytes = .ok (n.toNat, []) → bytes ≠ writeVarint n.toNat →
      (writeVarint n.toNat).length < bytes.length) ∧
    ∀ input value, readVarint input = .ok (value, rest) ↔
      ∃ high last, input = high ++ last :: rest ∧
        ((∀ byte ∈ high, byte &&& 0x80 ≠ 0) ∧ last &&& 0x80 = 0) ∧
        digitsValue (high ++ [last]) < 2 ^ 64 ∧ value = digitsValue (high ++ [last]) := by
  refine ⟨readVarint_writeVarint _ n.toNat_lt rest, ?_, ?_⟩
  · intro bytes read other
    have written := readVarint_writeVarint n.toNat n.toNat_lt []
    rw [List.append_nil] at written
    obtain ⟨high, last, rfl, shape, -, value⟩ := (readVarint_iff _ _ _).mp read
    obtain ⟨high', last', whole, shape', -, value'⟩ := (readVarint_iff _ _ _).mp written
    have small := digitsAfter_lt 0 (high ++ [last])
    rw [← digitsValue, ← value, Nat.zero_add, Nat.one_mul] at small
    refine Nat.lt_of_le_of_ne (length_writeVarint_le n.toNat_lt (by simp) small) fun size => ?_
    rw [whole] at size
    have digits := (digitsAfter_inj size.symm (value.symm.trans value')).2
    exact other ((shape.eq_of_digits shape' digits).trans whole.symm)
  · intro input value
    rw [readVarint_iff]
    refine exists_congr fun high => exists_congr fun last => and_congr_right fun _ => ?_
    exact and_congr_left' ⟨fun shape => ⟨shape.1, shape.2⟩, fun shape => ⟨shape.1, shape.2⟩⟩

theorem varint_codec_padded :
    readVarint [0x80, 0x81, 0x00, 0x05] = .ok (128, [0x05]) ∧ (writeVarint 128).length < 3 :=
  ⟨((varint_codec 0 [0x05]).2.2 _ _).mpr ⟨[0x80, 0x81], 0x00, rfl, by decide +kernel, by decide, rfl⟩,
    (varint_codec 128 []).2.1 [0x80, 0x81, 0x00]
      (((varint_codec 0 []).2.2 _ _).mpr ⟨[0x80, 0x81], 0x00, rfl, by decide +kernel, by decide, rfl⟩)
      (by decide)⟩

end Racnet.Proof.Negentropy
