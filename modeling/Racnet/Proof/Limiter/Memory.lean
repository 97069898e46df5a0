import Racnet.Proof.Limiter.Rate

/-!
# The size of the table of buckets

A bucket was last filled up no later than its address was last granted a handshake: a refusal
changes nothing. One that is kept for long after that would be full, and is dropped.
-/

namespace Racnet.Proof.Limiter
open Lib Link

variable {limiter after : HandshakeLimiter} {addr : Address} {now : UInt64}

/-- The calls so far and which of them were granted: every bucket was last filled up no later than
at some grant to its address. -/
def Granted (past : List (Call × Bool)) (limiter : HandshakeLimiter) : Prop :=
  ∀ a bucket, limiter.buckets.lookup a = some bucket →
    ∃ time : UInt64, (.admitRemote a time, true) ∈ past ∧ bucket.lastRefillUs ≤ time.toNat

theorem lookup_of_refused (burst : 1 ≤ burstOf limiter)
    (empty : (asked limiter addr now.toNat).tokens = 0) :
    limiter.buckets.lookup addr = some ⟨0, (asked limiter addr now.toNat).last⟩ := by
  rw [asked] at empty ⊢
  cases found : limiter.buckets.lookup addr with
  | none =>
    rw [held_of_absent found] at empty
    simp only [TokenBucket.refill, Nat.sub_self, Nat.zero_div, Nat.add_zero, min_self] at empty
    omega
  | some bucket =>
    obtain ⟨tokens, last⟩ := bucket
    rw [held_of_lookup found] at empty ⊢
    simp only [tokensOf, TokenBucket.refill] at empty ⊢
    generalize (now.toNat - last) / intervalOf limiter = gained at empty ⊢
    obtain ⟨rfl, rfl⟩ : tokens = 0 ∧ gained = 0 := by omega
    rw [Nat.zero_mul, Nat.add_zero]

theorem buckets_of_refused (burst : 1 ≤ burstOf limiter)
    (step : AdmitStep limiter addr now after none) (a : Address) :
    after.buckets.lookup a = limiter.buckets.lookup a := by
  cases step with
  | capped full => rfl
  | refused room empty =>
    rw [lookup_refused]
    split_ifs with same
    · rw [same, lookup_of_refused burst empty]
    · rfl

theorem bucket_of_granted {ticket : UInt64} (ok : BucketsOk limiter now.toNat)
    (step : AdmitStep limiter addr now after (some ticket)) {a : Address} {bucket : Bucket}
    (found : after.buckets.lookup a = some bucket) :
    bucket.isKept limiter.config now = true ∧
      (a = addr ∧ bucket.lastRefillUs ≤ now.toNat ∨ limiter.buckets.lookup a = some bucket) := by
  have last : (asked limiter addr now.toNat).last ≤ now.toNat :=
    TokenBucket.last_refill_le (held_past ok)
  cases step with
  | granted room token counter deadline =>
    rw [lookup_retain, Option.filter_eq_some_iff, lookup_refused] at found
    obtain ⟨found, kept⟩ := found
    refine ⟨kept, ?_⟩
    split_ifs at found with same
    · obtain rfl := Option.some.inj found
      exact Or.inl ⟨same, last⟩
    · exact Or.inr found

theorem Granted.admit {past : List (Call × Bool)} {ticket : Option UInt64}
    (granted : Granted past limiter) (burst : 1 ≤ burstOf limiter)
    (ok : BucketsOk limiter now.toNat) (step : AdmitStep limiter addr now after ticket) :
    Granted (past ++ [(.admitRemote addr now, ticket.isSome)]) after := by
  intro a bucket found
  have before (found : limiter.buckets.lookup a = some bucket) : ∃ time : UInt64,
      (.admitRemote a time, true) ∈ past ++ [(.admitRemote addr now, ticket.isSome)] ∧
        bucket.lastRefillUs ≤ time.toNat := by
    obtain ⟨time, mem, filled⟩ := granted a bucket found
    exact ⟨time, List.mem_append_left _ mem, filled⟩
  cases ticket with
  | none => exact before (buckets_of_refused burst step a ▸ found)
  | some ticket =>
    rcases (bucket_of_granted ok step found).2 with ⟨rfl, last⟩ | old
    · exact ⟨now, List.mem_append_right _ (List.mem_singleton.mpr rfl), last⟩
    · exact before old

theorem Granted.perform {past : List (Call × Bool)} {call : Call} {result : Bool} {now : Nat}
    (granted : Granted past limiter) (burst : 1 ≤ burstOf limiter) (ok : BucketsOk limiter now)
    (order : now ≤ call.moment now) (ran : perform limiter call = some (after, result)) :
    Granted (past ++ [(call, result)]) after := by
  rcases perform_cases ran with ⟨addr, time, ticket, rfl, admitted, rfl⟩ | ⟨-, -, buckets, -⟩
  · have later : BucketsOk limiter time.toNat := fun a b found =>
      ⟨(ok a b found).tokens, (ok a b found).past.trans order⟩
    exact granted.admit burst later (admit_step later admitted)
  · intro a bucket found
    obtain ⟨time, mem, filled⟩ := granted a bucket (buckets ▸ found)
    exact ⟨time, List.mem_append_left _ mem, filled⟩

theorem Granted.performAll {past : List (Call × Bool)} {calls : List Call} {results : List Bool}
    {now : Nat} (granted : Granted past limiter) (burst : 1 ≤ burstOf limiter)
    (ok : BucketsOk limiter now) (order : InOrder now calls)
    (ran : performAll limiter calls = some (after, results)) :
    Granted (past ++ calls.zip results) after ∧ after.config = limiter.config := by
  induction calls generalizing limiter past results now with
  | nil =>
    obtain ⟨rfl, rfl⟩ := Prod.mk.inj (Option.some.inj ran)
    rw [List.zip_nil_left, List.append_nil]
    exact ⟨granted, rfl⟩
  | cons call calls ih =>
    obtain ⟨middle, result, rest, first, later, rfl⟩ := performAll_cons ran
    obtain ⟨okMiddle, config⟩ := ok.perform order.1 first
    have burstMiddle : 1 ≤ burstOf middle := by
      rw [burstOf, config]
      exact burst
    rw [List.zip_cons_cons, List.append_cons]
    obtain ⟨all, same⟩ := ih (granted.perform burst ok order.1 first) burstMiddle okMiddle order.2
      later
    exact ⟨all, same.trans config⟩

theorem inOrder_append {now : Nat} {calls more : List Call} (order : InOrder now (calls ++ more)) :
    InOrder now calls := by
  induction calls generalizing now with
  | nil => trivial
  | cons call calls ih => exact ⟨order.1, ih order.2⟩

/-- A refused `admit` adds no bucket. After one that is granted, whoever still has a bucket was
granted a handshake within the time it takes to fill a bucket, and has a token missing. -/
theorem memory_bounded {config : LimiterConfig} (burst : 1 ≤ config.burst.toNat)
    {calls : List Call} {addr : Address} {now : UInt64}
    (order : InOrder 0 (calls ++ [.admitRemote addr now]))
    {limiter after : HandshakeLimiter} {results : List Bool} {ticket : Option UInt64}
    (ran : performAll (HandshakeLimiter.new config) calls = some (limiter, results))
    (admitted : limiter.admitRemote addr now = some (after, ticket)) :
    (ticket = none → ∀ a, a ∈ after.buckets → a ∈ limiter.buckets) ∧
    (ticket.isSome → ∀ a bucket, after.buckets.lookup a = some bucket →
      bucket.tokens < config.burst.toNat ∧
      ∃ time : UInt64, (Call.admitRemote a time, true) ∈
          calls.zip results ++ [(Call.admitRemote addr now, true)] ∧
        now.toNat < time.toNat + config.burst.toNat * config.refillIntervalUs.toNat) := by
  have ok := (bucketsOk_new config).performAll order ran
  have step := admit_step ok admitted
  have fresh : Granted [] (HandshakeLimiter.new config) := fun a bucket found =>
    absurd (found.symm.trans (AList.lookup_empty a)) (by simp)
  obtain ⟨granted, same⟩ := fresh.performAll burst (bucketsOk_new config) (inOrder_append order) ran
  change limiter.config = config at same
  have burstNow : 1 ≤ burstOf limiter := by
    rw [burstOf, same]
    exact burst
  constructor
  · rintro rfl a mem
    rw [← AList.lookup_isSome] at mem ⊢
    rwa [buckets_of_refused burstNow step] at mem
  · intro success a bucket found
    obtain ⟨ticket, rfl⟩ := Option.isSome_iff_exists.mp success
    obtain ⟨kept, -⟩ := bucket_of_granted ok step found
    obtain ⟨time, mem, filled⟩ := granted.admit burstNow ok step a bucket found
    rw [Bucket.isKept, decide_eq_true_eq, same] at kept
    have missing : (config.burst.toNat - bucket.tokens) * config.refillIntervalUs.toNat ≤
        config.burst.toNat * config.refillIntervalUs.toNat :=
      Nat.mul_le_mul_right _ (Nat.sub_le _ _)
    refine ⟨?_, time, mem, by omega⟩
    by_contra full
    rw [Nat.sub_eq_zero_of_le (not_lt.mp full), Nat.zero_mul] at kept
    omega

theorem memory_bounded_churn : ∃ limiter after results ticket,
    performAll (HandshakeLimiter.new .default) [.admitRemote [1] 0, .admitRemote [2] 1] =
      some (limiter, results) ∧
    limiter.admitRemote [3] 5000000 = some (after, some ticket) ∧
    ∀ bucket, after.buckets.lookup [2] = some bucket → bucket.tokens < 3 := by
  have evaluated : ((performAll (HandshakeLimiter.new .default)
      [.admitRemote [1] 0, .admitRemote [2] 1]).any fun result =>
        (result.1.admitRemote [3] 5000000).any fun admitted => admitted.2.isSome) = true := by decide
  obtain ⟨⟨limiter, results⟩, ran, more⟩ := (Option.any_eq_true _ _).mp evaluated
  obtain ⟨⟨after, ticket⟩, admitted, success⟩ := (Option.any_eq_true _ _).mp more
  obtain ⟨ticket, rfl⟩ := Option.isSome_iff_exists.mp success
  refine ⟨limiter, after, results, ticket, ran, admitted, fun bucket found => ?_⟩
  have order : InOrder 0 ([.admitRemote [1] 0, .admitRemote [2] 1] ++ [.admitRemote [3] 5000000]) := by
    simp [InOrder, Call.moment, Call.time]
  exact ((@memory_bounded .default (by decide) _ _ _ order _ _ _ _ ran admitted).2 rfl [2] bucket
    found).1

end Racnet.Proof.Limiter
