import Racnet.Lib.TokenBucket
import Racnet.Link.Limiter

/-!
# What a call of `admit` does to the buckets

The bucket of an address is a token bucket, and an address without one has a full one. A call fills up
the bucket that is asked, takes a token if there is one, and then drops every bucket that looks full.
-/

namespace Racnet.Proof.Limiter
open Lib Link

def tokensOf (bucket : Bucket) : TokenBucket := ⟨bucket.tokens, bucket.lastRefillUs⟩

/-- A bucket that holds no more than its capacity and was not filled up in the future. -/
structure BucketOk (config : LimiterConfig) (now : Nat) (bucket : Bucket) : Prop where
  tokens : bucket.tokens ≤ config.burst.toNat
  past : bucket.lastRefillUs ≤ now

def BucketsOk (limiter : HandshakeLimiter) (now : Nat) : Prop :=
  ∀ addr bucket, limiter.buckets.lookup addr = some bucket → BucketOk limiter.config now bucket

variable {config : LimiterConfig} {limiter after : HandshakeLimiter} {addr : Address} {now : UInt64}
  {bucket : Bucket}

def burstOf (limiter : HandshakeLimiter) : Nat := limiter.config.burst.toNat

def intervalOf (limiter : HandshakeLimiter) : Nat := limiter.config.refillIntervalUs.toNat

def held (limiter : HandshakeLimiter) (addr : Address) (now : Nat) : TokenBucket :=
  (limiter.buckets.lookup addr).elim ⟨burstOf limiter, now⟩ tokensOf

def asked (limiter : HandshakeLimiter) (addr : Address) (now : Nat) : TokenBucket :=
  (held limiter addr now).refill (burstOf limiter) (intervalOf limiter) now

theorem refill_spec (ok : BucketOk config now.toNat bucket) :
    bucket.refill config now = some
      ⟨((tokensOf bucket).refill config.burst.toNat config.refillIntervalUs.toNat now.toNat).tokens,
        ((tokensOf bucket).refill config.burst.toNat config.refillIntervalUs.toNat
          now.toNat).last⟩ := by
  have word := now.toNat_lt
  have cap := config.burst.toNat_lt
  obtain ⟨tokens, past⟩ := ok
  have whole := Nat.div_mul_le_self (now.toNat - bucket.lastRefillUs) config.refillIntervalUs.toNat
  rw [Bucket.refill]
  dsimp only [tokensOf, TokenBucket.refill]
  generalize (now.toNat - bucket.lastRefillUs) / config.refillIntervalUs.toNat = refilled at *
  split_ifs with some_
  · rw [checked64_of_lt (by omega), Option.bind_eq_bind, Option.bind_some,
      checked64_of_lt (by omega)]
    simp only [Option.bind_some, Option.pure_def, Option.some.injEq, Bucket.mk.injEq, and_true]
    omega
  · obtain rfl : refilled = 0 := by omega
    rw [Nat.zero_mul, Nat.add_zero, Nat.add_zero, Nat.min_eq_right tokens]
    rfl

/-- All that a call of `admit` can do to the buckets. -/
inductive AdmitStep (limiter : HandshakeLimiter) (addr : Address) (now : UInt64) :
    HandshakeLimiter → Option UInt64 → Prop where
  | capped (full : limiter.config.maxHalfOpen ≤ limiter.halfOpenCount) :
      AdmitStep limiter addr now limiter none
  | refused (room : limiter.halfOpenCount < limiter.config.maxHalfOpen)
      (empty : (asked limiter addr now.toNat).tokens = 0) :
      AdmitStep limiter addr now
        { limiter with
          buckets := limiter.buckets.insert addr ⟨0, (asked limiter addr now.toNat).last⟩ } none
  | granted (room : limiter.halfOpenCount < limiter.config.maxHalfOpen)
      (token : 0 < (asked limiter addr now.toNat).tokens)
      (counter : limiter.nextTicket.toNat + 1 < 2 ^ 64) (deadline : UInt64) :
      AdmitStep limiter addr now
        { limiter with
          buckets := retain (fun _ bucket => bucket.isKept limiter.config now)
            (limiter.buckets.insert addr ⟨(asked limiter addr now.toNat).tokens - 1,
              (asked limiter addr now.toNat).last⟩)
          halfOpen := limiter.halfOpen.insert limiter.nextTicket deadline
          nextTicket := UInt64.ofNat (limiter.nextTicket.toNat + 1) } (some limiter.nextTicket)

theorem entry_refill (ok : BucketsOk limiter now.toNat) :
    ((limiter.buckets.lookup addr).getD ⟨limiter.config.burst.toNat, now.toNat⟩).refill
        limiter.config now =
      some ⟨(asked limiter addr now.toNat).tokens, (asked limiter addr now.toNat).last⟩ := by
  rw [asked, held]
  cases found : limiter.buckets.lookup addr with
  | none => exact refill_spec ⟨le_rfl, le_rfl⟩
  | some bucket => exact refill_spec (ok addr bucket found)

theorem collect_spec (ok : BucketsOk limiter now.toNat) {bucket : Bucket}
    (small : bucket.tokens ≤ limiter.config.burst.toNat) :
    limiter.collect now (limiter.buckets.insert addr bucket) =
      some (retain (fun _ bucket => bucket.isKept limiter.config now)
        (limiter.buckets.insert addr bucket)) := by
  rw [HandshakeLimiter.collect, if_neg]
  rw [List.any_eq_true]
  rintro ⟨⟨a, b⟩, mem, exceeds⟩
  rw [← AList.mem_lookup_iff, Option.mem_def] at mem
  rw [decide_eq_true_eq] at exceeds
  by_cases same : a = addr
  · subst same
    rw [AList.lookup_insert, Option.some.injEq] at mem
    subst mem
    exact absurd small (not_le.mpr exceeds)
  · rw [AList.lookup_insert_ne same] at mem
    exact absurd (ok a b mem).tokens (not_le.mpr exceeds)

/-- Nothing in a call of `admit` overflows but the ticket counter. -/
theorem admit_spec (ok : BucketsOk limiter now.toNat) :
    (∃ after ticket, limiter.admitRemote addr now = some (after, ticket) ∧
      AdmitStep limiter addr now after ticket) ∨
    2 ^ 64 ≤ limiter.nextTicket.toNat + 1 ∧ 0 < (asked limiter addr now.toNat).tokens ∧
      limiter.admitRemote addr now = none := by
  rw [HandshakeLimiter.admitRemote]
  by_cases full : limiter.config.maxHalfOpen ≤ limiter.halfOpenCount
  · exact Or.inl ⟨limiter, none, if_pos full, .capped full⟩
  rw [if_neg full]
  simp only [entry_refill ok, Option.bind_eq_bind, Option.bind_some]
  by_cases empty : (asked limiter addr now.toNat).tokens = 0
  · rw [if_pos empty]
    refine Or.inl ⟨_, none, rfl, ?_⟩
    rw [empty]
    exact .refused (not_le.mp full) empty
  have small : (asked limiter addr now.toNat).tokens - 1 ≤ limiter.config.burst.toNat :=
    (Nat.sub_le _ _).trans TokenBucket.tokens_refill_le
  rw [if_neg empty, collect_spec ok small, Option.bind_some]
  by_cases counter : limiter.nextTicket.toNat + 1 < 2 ^ 64
  · rw [checked64_of_lt counter]
    exact Or.inl ⟨_, _, rfl, .granted (not_le.mp full) (Nat.pos_of_ne_zero empty) counter _⟩
  · rw [checked64, if_neg counter]
    exact Or.inr ⟨not_lt.mp counter, Nat.pos_of_ne_zero empty, rfl⟩

theorem admit_step (ok : BucketsOk limiter now.toNat) {ticket : Option UInt64}
    (ran : limiter.admitRemote addr now = some (after, ticket)) :
    AdmitStep limiter addr now after ticket := by
  rcases admit_spec ok with ⟨after', ticket', ran', step⟩ | ⟨-, -, none⟩
  · obtain ⟨rfl, rfl⟩ := Prod.mk.inj (Option.some.inj (ran.symm.trans ran'))
    exact step
  · exact absurd (ran.symm.trans none) (by simp)

/-! ## The bucket of one address -/

theorem config_step {ticket : Option UInt64} (step : AdmitStep limiter addr now after ticket) :
    after.config = limiter.config := by
  cases step <;> rfl

theorem lookup_refused (a : Address) (bucket : Bucket) :
    (limiter.buckets.insert addr bucket).lookup a =
      if a = addr then some bucket else limiter.buckets.lookup a := by
  split_ifs with same
  · rw [same, AList.lookup_insert]
  · rw [AList.lookup_insert_ne same]

theorem held_past (ok : BucketsOk limiter now.toNat) : (held limiter addr now.toNat).last ≤ now.toNat := by
  rw [held]
  cases found : limiter.buckets.lookup addr with
  | none => exact le_rfl
  | some bucket => exact (ok addr bucket found).past

theorem BucketsOk.insert (ok : BucketsOk limiter now.toNat) {bucket : Bucket}
    (new : BucketOk limiter.config now.toNat bucket) {a : Address} {b : Bucket}
    (found : (limiter.buckets.insert addr bucket).lookup a = some b) :
    BucketOk limiter.config now.toNat b := by
  rw [lookup_refused] at found
  split_ifs at found with same
  · exact Option.some.inj found ▸ new
  · exact ok a b found

theorem BucketsOk.step (ok : BucketsOk limiter now.toNat) {ticket : Option UInt64}
    (step : AdmitStep limiter addr now after ticket) : BucketsOk after now.toNat := by
  have last : (asked limiter addr now.toNat).last ≤ now.toNat :=
    TokenBucket.last_refill_le (held_past ok)
  cases step with
  | capped full => exact ok
  | refused room empty => exact fun a b found => ok.insert ⟨Nat.zero_le _, last⟩ found
  | granted room token counter deadline =>
    intro a b found
    rw [lookup_retain, Option.filter_eq_some_iff] at found
    exact ok.insert ⟨(Nat.sub_le _ _).trans TokenBucket.tokens_refill_le, last⟩ found.1

end Racnet.Proof.Limiter
