import Racnet.Proof.Limiter.Buckets

/-!
# The rate limit

What an address can be granted up to a time never grows, and a grant uses up one of it. A bucket that is
dropped while it is full is no loss and no gain; the saturating product in the test for that is wrong in
one case, at the last time of the clock.
-/

namespace Racnet.Proof.Limiter
open Lib Link

variable {limiter after : HandshakeLimiter} {addr : Address} {now : UInt64} {u : Nat}
  {ticket : Option UInt64}

/-- The test for full buckets is right: its product does not saturate, or no time can reach it. -/
def Timely (config : LimiterConfig) (now : UInt64) : Prop :=
  config.burst.toNat * config.refillIntervalUs.toNat < 2 ^ 64 ∨ now.toNat < 2 ^ 64 - 1

theorem isFull_of_dropped (timely : Timely limiter.config now) {bucket : Bucket}
    (dropped : bucket.isKept limiter.config now = false) :
    (tokensOf bucket).IsFull (burstOf limiter) (intervalOf limiter) now.toNat := by
  have missing : (limiter.config.burst.toNat - bucket.tokens) * limiter.config.refillIntervalUs.toNat ≤
      limiter.config.burst.toNat * limiter.config.refillIntervalUs.toNat :=
    Nat.mul_le_mul_right _ (Nat.sub_le _ _)
  rw [Bucket.isKept, decide_eq_false_iff_not, not_lt] at dropped
  change (limiter.config.burst.toNat - bucket.tokens) * limiter.config.refillIntervalUs.toNat ≤
    now.toNat - bucket.lastRefillUs
  rcases timely with small | early
  · omega
  · omega

theorem held_of_lookup {a : Address} {now : Nat} {bucket : Bucket}
    (found : limiter.buckets.lookup a = some bucket) : held limiter a now = tokensOf bucket := by
  rw [held, found]
  rfl

theorem held_of_absent {a : Address} {now : Nat} (absent : limiter.buckets.lookup a = none) :
    held limiter a now = ⟨burstOf limiter, now⟩ := by
  rw [held, absent]
  rfl

theorem supply_retain (positive : 0 < intervalOf limiter) (timely : Timely limiter.config now)
    (before : now.toNat ≤ u) {buckets : AList fun _ : Address => Bucket} {a : Address} {b : Bucket}
    (found : buckets.lookup a = some b) (past : b.lastRefillUs ≤ now.toNat)
    (kept : after.buckets = retain (fun _ bucket => bucket.isKept limiter.config now) buckets)
    (same : after.config = limiter.config) :
    (held after a now.toNat).supply (intervalOf limiter) u ≤
      (tokensOf b).supply (intervalOf limiter) u := by
  have lookup : after.buckets.lookup a = (some b).filter fun b => b.isKept limiter.config now := by
    rw [kept, lookup_retain, found]
  cases keep : b.isKept limiter.config now with
  | true =>
    rw [Option.filter_some_pos keep] at lookup
    rw [held_of_lookup lookup]
  | false =>
    rw [Option.filter_some_neg (by simp [keep])] at lookup
    have full := isFull_of_dropped timely keep
    rw [held_of_absent lookup, burstOf, same]
    exact TokenBucket.supply_new_le positive full le_rfl past before

theorem supply_granted (positive : 0 < intervalOf limiter) (ok : BucketsOk limiter now.toNat)
    (timely : Timely limiter.config now) (before : now.toNat ≤ u) {t : UInt64}
    (step : AdmitStep limiter addr now after (some t)) :
    (held after addr now.toNat).supply (intervalOf limiter) u + 1 ≤
      (asked limiter addr now.toNat).supply (intervalOf limiter) u := by
  have last : (asked limiter addr now.toNat).last ≤ now.toNat :=
    TokenBucket.last_refill_le (held_past ok)
  cases step with
  | granted room token counter deadline =>
    rw [← TokenBucket.supply_take token]
    apply Nat.succ_le_succ
    exact @supply_retain limiter _ now u positive timely before
      (limiter.buckets.insert addr ⟨(asked limiter addr now.toNat).tokens - 1,
        (asked limiter addr now.toNat).last⟩) addr _ (AList.lookup_insert _) last rfl rfl

theorem supply_step (positive : 0 < intervalOf limiter) (ok : BucketsOk limiter now.toNat)
    (timely : Timely limiter.config now) (before : now.toNat ≤ u)
    (step : AdmitStep limiter addr now after ticket) (a : Address) :
    (held after a now.toNat).supply (intervalOf limiter) u ≤
      (held limiter a now.toNat).supply (intervalOf limiter) u := by
  have refilled : (asked limiter addr now.toNat).supply (intervalOf limiter) u ≤
      (held limiter addr now.toNat).supply (intervalOf limiter) u :=
    TokenBucket.supply_refill_le positive (held_past ok) before
  have granting := @supply_granted limiter after addr now u positive ok timely before
  cases step with
  | capped full => exact le_rfl
  | refused room empty =>
    by_cases same : a = addr
    · subst same
      rw [held_of_lookup (AList.lookup_insert _)]
      rw [show tokensOf ⟨0, (asked limiter a now.toNat).last⟩ = asked limiter a now.toNat from
        TokenBucket.ext empty.symm rfl]
      exact refilled
    · rw [held, AList.lookup_insert_ne same]
      exact le_rfl
  | granted room token counter deadline =>
    by_cases same : a = addr
    · subst same
      exact (Nat.le_of_succ_le (granting (.granted room token counter deadline))).trans refilled
    · cases found : limiter.buckets.lookup a with
      | none =>
        rw [held_of_absent found, held_of_absent]
        · exact le_rfl
        · rw [lookup_retain, AList.lookup_insert_ne same, found]
          rfl
      | some b =>
        rw [held_of_lookup found]
        exact supply_retain positive timely before
          ((AList.lookup_insert_ne same).trans found) (ok a b found).past rfl rfl

theorem supply_later (positive : 0 < intervalOf limiter) {now later : Nat} (le : now ≤ later)
    (before : later ≤ u) (a : Address) :
    (held limiter a later).supply (intervalOf limiter) u ≤
      (held limiter a now).supply (intervalOf limiter) u := by
  cases found : limiter.buckets.lookup a with
  | none =>
    rw [held_of_absent found, held_of_absent found]
    have empty : TokenBucket.IsFull (burstOf limiter) (intervalOf limiter) now
        ⟨burstOf limiter, now⟩ := by
      simp [TokenBucket.IsFull]
    exact TokenBucket.supply_new_le positive empty le le_rfl before
  | some b => rw [held_of_lookup found, held_of_lookup found]

/-! ## Runs -/

inductive Call where
  | admitRemote (addr : Address) (nowUs : UInt64)
  | established (ticket : UInt64)
  | closed (ticket : UInt64)
  | expire (nowUs : UInt64)
  deriving DecidableEq

def Call.time : Call → Option UInt64
  | .admitRemote _ nowUs => some nowUs
  | .established _ => none
  | .closed _ => none
  | .expire nowUs => some nowUs

def perform (limiter : HandshakeLimiter) : Call → Option (HandshakeLimiter × Bool)
  | .admitRemote addr nowUs => (limiter.admitRemote addr nowUs).map fun result => (result.1, result.2.isSome)
  | .established ticket => some (limiter.established ticket, false)
  | .closed ticket => some (limiter.closed ticket, false)
  | .expire nowUs => some ((limiter.expire nowUs).1, false)

def performAll : HandshakeLimiter → List Call → Option (HandshakeLimiter × List Bool)
  | limiter, [] => some (limiter, [])
  | limiter, call :: calls => do
    let (limiter, result) ← perform limiter call
    let (limiter, results) ← performAll limiter calls
    return (limiter, result :: results)

/-- The time of a call, where `now` is the time of the call before it. -/
def Call.moment (now : Nat) (call : Call) : Nat := call.time.elim now UInt64.toNat

/-- The times of the calls do not decrease, from `now` on. -/
def InOrder : Nat → List Call → Prop
  | _, [] => True
  | now, call :: calls => now ≤ call.moment now ∧ InOrder (call.moment now) calls

/-- An `admit` for `addr` at a time from `t` to `u` that was granted. -/
def isGrant (addr : Address) (t u : Nat) : Call × Bool → Bool
  | (.admitRemote a nowUs, granted) =>
    granted && decide (a = addr ∧ t ≤ nowUs.toNat ∧ nowUs.toNat ≤ u)
  | _ => false

theorem isGrant_iff {a : Address} {t u : Nat} {call : Call} {result : Bool} :
    isGrant a t u (call, result) = true ↔
      ∃ now, call = .admitRemote a now ∧ result = true ∧ t ≤ now.toNat ∧ now.toNat ≤ u := by
  cases call with
  | admitRemote addr now =>
    simp only [isGrant, Bool.and_eq_true, decide_eq_true_eq, Call.admitRemote.injEq]
    constructor
    · rintro ⟨granted, rfl, inside⟩
      exact ⟨now, ⟨rfl, rfl⟩, granted, inside⟩
    · rintro ⟨_, ⟨rfl, rfl⟩, granted, inside⟩
      exact ⟨granted, rfl, inside⟩
  | established ticket => simp [isGrant]
  | closed ticket => simp [isGrant]
  | expire now => simp [isGrant]

def grants (addr : Address) (t u : Nat) (calls : List Call) (results : List Bool) : Nat :=
  (calls.zip results).countP (isGrant addr t u)

theorem grants_cons (a : Address) (t u : Nat) (call : Call) (calls : List Call) (result : Bool)
    (results : List Bool) :
    grants a t u (call :: calls) (result :: results) =
      grants a t u calls results + if isGrant a t u (call, result) then 1 else 0 := by
  rw [grants, List.zip_cons_cons, List.countP_cons]
  rfl

theorem performAll_cons {call : Call} {calls : List Call} {results : List Bool}
    (ran : performAll limiter (call :: calls) = some (after, results)) :
    ∃ middle result rest, perform limiter call = some (middle, result) ∧
      performAll middle calls = some (after, rest) ∧ results = result :: rest := by
  rw [performAll, Option.bind_eq_bind, Option.bind_eq_some_iff] at ran
  obtain ⟨⟨middle, result⟩, first, ran⟩ := ran
  rw [Option.bind_eq_bind, Option.bind_eq_some_iff] at ran
  obtain ⟨⟨last, rest⟩, later, same⟩ := ran
  obtain ⟨rfl, rfl⟩ := Prod.mk.inj (Option.some.inj same)
  exact ⟨middle, result, rest, first, later, rfl⟩

theorem perform_admit {addr : Address} {now : UInt64} {result : Bool}
    (ran : perform limiter (.admitRemote addr now) = some (after, result)) :
    ∃ ticket, limiter.admitRemote addr now = some (after, ticket) ∧ result = ticket.isSome := by
  obtain ⟨⟨middle, ticket⟩, admitted, same⟩ := Option.map_eq_some_iff.mp ran
  obtain ⟨rfl, rfl⟩ := Prod.mk.inj same
  exact ⟨ticket, admitted, rfl⟩

theorem perform_cases {call : Call} {result : Bool}
    (ran : perform limiter call = some (after, result)) :
    (∃ addr now ticket, call = .admitRemote addr now ∧ limiter.admitRemote addr now = some (after, ticket) ∧
      result = ticket.isSome) ∨
    (∀ addr now, call ≠ .admitRemote addr now) ∧ after.config = limiter.config ∧
      after.buckets = limiter.buckets ∧ result = false := by
  cases call with
  | admitRemote addr now =>
    obtain ⟨ticket, admitted, granted⟩ := perform_admit ran
    exact Or.inl ⟨addr, now, ticket, rfl, admitted, granted⟩
  | established ticket =>
    obtain ⟨rfl, rfl⟩ := Prod.mk.inj (Option.some.inj ran)
    exact Or.inr ⟨by simp, rfl, rfl, rfl⟩
  | closed ticket =>
    obtain ⟨rfl, rfl⟩ := Prod.mk.inj (Option.some.inj ran)
    exact Or.inr ⟨by simp, rfl, rfl, rfl⟩
  | expire now =>
    obtain ⟨rfl, rfl⟩ := Prod.mk.inj (Option.some.inj ran)
    exact Or.inr ⟨by simp, rfl, rfl, rfl⟩

theorem BucketsOk.perform {call : Call} {now : Nat} {result : Bool} (ok : BucketsOk limiter now)
    (order : now ≤ call.moment now) (ran : perform limiter call = some (after, result)) :
    BucketsOk after (call.moment now) ∧ after.config = limiter.config := by
  have later : BucketsOk limiter (call.moment now) := fun a b found =>
    ⟨(ok a b found).tokens, (ok a b found).past.trans order⟩
  rcases perform_cases ran with ⟨addr, time, ticket, rfl, admitted, -⟩ | ⟨-, config, buckets, -⟩
  · have step := admit_step later admitted
    exact ⟨BucketsOk.step later step, config_step step⟩
  · refine ⟨fun a b found => ?_, config⟩
    rw [config]
    exact later a b (buckets ▸ found)

theorem grants_eq_zero {a : Address} {t u now : Nat} (late : u < now) {calls : List Call}
    (order : InOrder now calls) (results : List Bool) : grants a t u calls results = 0 := by
  induction calls generalizing now results with
  | nil => rw [grants, List.zip_nil_left, List.countP_nil]
  | cons call calls ih =>
    cases results with
    | nil => rw [grants, List.zip_nil_right, List.countP_nil]
    | cons result results =>
      rw [grants_cons, ih (late.trans_le order.1) order.2, if_neg]
      rw [isGrant_iff]
      rintro ⟨time, rfl, -, -, early⟩
      exact absurd (late.trans_le order.1) (not_lt.mpr early)

def AllTimely (config : LimiterConfig) (calls : List Call) : Prop :=
  ∀ addr now, Call.admitRemote addr now ∈ calls → Timely config now

theorem perform_supply {call : Call} {now : Nat} {result : Bool} (positive : 0 < intervalOf limiter)
    (ok : BucketsOk limiter now) (order : now ≤ call.moment now) (before : call.moment now ≤ u)
    (timely : AllTimely limiter.config [call]) (ran : perform limiter call = some (after, result))
    (a : Address) (t : Nat) :
    (held after a (call.moment now)).supply (intervalOf limiter) u +
        (if isGrant a t u (call, result) then 1 else 0) ≤
      (held limiter a now).supply (intervalOf limiter) u := by
  refine le_trans ?_ (supply_later positive order before a)
  rcases perform_cases ran with
    ⟨addr, time, ticket, rfl, admitted, granted⟩ | ⟨other, config, buckets, rfl⟩
  · have later : BucketsOk limiter time.toNat := fun a b found =>
      ⟨(ok a b found).tokens, (ok a b found).past.trans order⟩
    have step := admit_step later admitted
    have timely := timely addr time List.mem_cons_self
    split_ifs with grant
    · obtain ⟨_, same, rfl, -⟩ := isGrant_iff.mp grant
      obtain ⟨rfl, rfl⟩ := Call.admitRemote.inj same
      obtain ⟨number, rfl⟩ := Option.isSome_iff_exists.mp granted.symm
      exact (supply_granted positive later timely before step).trans
        (TokenBucket.supply_refill_le positive (held_past later) before)
    · exact supply_step positive later timely before step a
  · rw [if_neg]
    · rw [held, held, burstOf, burstOf, config, buckets]
      rfl
    · rw [isGrant_iff]
      rintro ⟨time, rfl, -⟩
      exact other a time rfl

theorem grants_le_supply {calls : List Call} {results : List Bool} {now : Nat}
    (positive : 0 < intervalOf limiter) (ok : BucketsOk limiter now) (order : InOrder now calls)
    (before : now ≤ u) (timely : AllTimely limiter.config calls)
    (ran : performAll limiter calls = some (after, results)) (a : Address) (t : Nat) :
    grants a t u calls results ≤ (held limiter a now).supply (intervalOf limiter) u := by
  induction calls generalizing limiter results now with
  | nil =>
    rw [grants, List.zip_nil_left, List.countP_nil]
    exact Nat.zero_le _
  | cons call calls ih =>
    obtain ⟨middle, result, rest, first, later, rfl⟩ := performAll_cons ran
    obtain ⟨okMiddle, config⟩ := ok.perform order.1 first
    by_cases inside : call.moment now ≤ u
    · have interval : intervalOf middle = intervalOf limiter := by rw [intervalOf, config]; rfl
      have tail := ih (interval ▸ positive) okMiddle order.2 inside
        (fun addr time mem => config ▸ timely addr time (List.mem_cons_of_mem _ mem)) later
      have head := perform_supply positive ok order.1 inside
        (fun addr time mem => timely addr time (by rw [List.mem_singleton.mp mem]; simp)) first a t
      rw [grants_cons]
      rw [interval] at tail
      omega
    · have late : grants a t u (call :: calls) (result :: rest) = 0 := by
        rw [grants_cons, grants_eq_zero (not_le.mp inside) order.2, if_neg]
        rw [isGrant_iff]
        rintro ⟨time, rfl, -, -, early⟩
        exact inside early
      rw [late]
      exact Nat.zero_le _

theorem grants_le_window {calls : List Call} {results : List Bool} {now : Nat}
    (positive : 0 < intervalOf limiter) (ok : BucketsOk limiter now) (order : InOrder now calls)
    (timely : AllTimely limiter.config calls)
    (ran : performAll limiter calls = some (after, results)) (a : Address) (t u : Nat) :
    grants a t u calls results ≤
      burstOf limiter + (u - t + (intervalOf limiter - 1)) / intervalOf limiter := by
  induction calls generalizing limiter results now with
  | nil =>
    rw [grants, List.zip_nil_left, List.countP_nil]
    exact Nat.zero_le _
  | cons call calls ih =>
    obtain ⟨middle, result, rest, first, later, rfl⟩ := performAll_cons ran
    obtain ⟨okMiddle, config⟩ := ok.perform order.1 first
    have interval : intervalOf middle = intervalOf limiter := by rw [intervalOf, config]; rfl
    have burst : burstOf middle = burstOf limiter := by rw [burstOf, config]; rfl
    have timelyRest : AllTimely middle.config calls := fun addr time mem =>
      config ▸ timely addr time (List.mem_cons_of_mem _ mem)
    rw [grants_cons]
    split_ifs with grant
    · obtain ⟨time, rfl, rfl, inside, early⟩ := isGrant_iff.mp grant
      have tail := grants_le_supply (interval ▸ positive) okMiddle order.2 early timelyRest later a t
      rcases perform_cases first with ⟨_, _, ticket, same, admitted, granted⟩ | ⟨other, -⟩
      · obtain ⟨rfl, rfl⟩ := Call.admitRemote.inj same
        obtain ⟨number, rfl⟩ := Option.isSome_iff_exists.mp granted.symm
        have past : BucketsOk limiter time.toNat := fun a b found =>
          ⟨(ok a b found).tokens, (ok a b found).past.trans order.1⟩
        have head := supply_granted positive past (timely a time List.mem_cons_self) early
          (admit_step past admitted)
        rw [interval] at tail
        exact (Nat.succ_le_succ tail).trans
          (head.trans (TokenBucket.supply_window positive inside early))
      · exact absurd rfl (other a time)
    · have tail := ih (interval ▸ positive) okMiddle order.2 timelyRest later
      rw [interval, burst] at tail
      exact tail

theorem bucketsOk_new (config : LimiterConfig) : BucketsOk (HandshakeLimiter.new config) 0 :=
  fun addr bucket found => absurd (found.symm.trans (AList.lookup_empty addr)) (by simp)

theorem BucketsOk.performAll {calls : List Call} {results : List Bool} {now : Nat}
    (ok : BucketsOk limiter now) {addr : Address} {time : UInt64}
    (order : InOrder now (calls ++ [.admitRemote addr time]))
    (ran : performAll limiter calls = some (after, results)) : BucketsOk after time.toNat := by
  induction calls generalizing limiter results now with
  | nil =>
    obtain ⟨rfl, -⟩ := Prod.mk.inj (Option.some.inj ran)
    exact fun a b found => ⟨(ok a b found).tokens, (ok a b found).past.trans order.1⟩
  | cons call calls ih =>
    obtain ⟨middle, result, rest, first, later, rfl⟩ := performAll_cons ran
    exact ih (ok.perform order.1 first).1 order.2 later

/-- In any window an address is granted no more than the burst and one for every interval begun; no
arithmetic of `admit` but the ticket counter can overflow. -/
theorem rate_limited {config : LimiterConfig} (positive : 1 ≤ config.refillIntervalUs.toNat)
    {calls : List Call} (order : InOrder 0 calls) {limiter : HandshakeLimiter} {results : List Bool}
    (ran : performAll (HandshakeLimiter.new config) calls = some (limiter, results)) :
    (∀ addr now, InOrder 0 (calls ++ [.admitRemote addr now]) → limiter.nextTicket.toNat + 1 < 2 ^ 64 →
      (limiter.admitRemote addr now).isSome) ∧
    (AllTimely config calls → ∀ addr t u, t ≤ u →
      grants addr t u calls results ≤ config.burst.toNat +
        (u - t + (config.refillIntervalUs.toNat - 1)) / config.refillIntervalUs.toNat) := by
  constructor
  · intro addr now next counter
    rcases @admit_spec limiter addr now ((bucketsOk_new config).performAll next ran) with
      ⟨after, ticket, admitted, -⟩ | ⟨exhausted, -⟩
    · rw [admitted]
      rfl
    · exact absurd counter (not_lt.mpr exhausted)
  · intro timely addr t u _
    exact @grants_le_window (HandshakeLimiter.new config) _ _ _ 0 positive (bucketsOk_new config) order
      timely ran addr t u

/-- Three handshakes at once, and then as many again before the second interval has passed. -/
def slowConfig : LimiterConfig := ⟨3, 9223372036854775808, 32, 0⟩

def slowCalls : List Call :=
  [.admitRemote [0] 0, .admitRemote [0] 0, .admitRemote [0] 0, .admitRemote [1] 18446744073709551615,
    .admitRemote [0] 18446744073709551615, .admitRemote [0] 18446744073709551615,
    .admitRemote [0] 18446744073709551615]

theorem rate_limited_slow : ∃ limiter results,
    performAll (HandshakeLimiter.new slowConfig) (slowCalls.take 3) = some (limiter, results) ∧
      grants [0] 0 5 (slowCalls.take 3) results ≤ 4 := by
  have evaluated : ((performAll (HandshakeLimiter.new slowConfig) (slowCalls.take 3)).map
      Prod.snd) = some [true, true, true] := by decide
  obtain ⟨⟨limiter, results⟩, ran, rfl⟩ := Option.map_eq_some_iff.mp evaluated
  refine ⟨limiter, _, ran, ?_⟩
  refine (@rate_limited slowConfig (by decide) (slowCalls.take 3) ?_ limiter _ ran).2 ?_ [0] 0 5
    (by decide)
  · simp [slowCalls, InOrder, Call.moment, Call.time]
  · intro addr now mem
    simp only [slowCalls, List.take_succ_cons, List.take_zero, List.mem_cons, Call.admitRemote.injEq,
      List.not_mem_nil, or_false, or_self] at mem
    obtain ⟨-, rfl⟩ := mem
    exact Or.inr (by decide)

theorem slow_exceeds_limit : InOrder 0 slowCalls ∧ ∃ limiter results,
    performAll (HandshakeLimiter.new slowConfig) slowCalls = some (limiter, results) ∧
      slowConfig.burst.toNat + (18446744073709551615 - 0 + (slowConfig.refillIntervalUs.toNat - 1)) /
        slowConfig.refillIntervalUs.toNat < grants [0] 0 18446744073709551615 slowCalls results := by
  refine ⟨by simp [slowCalls, InOrder, Call.moment, Call.time], ?_⟩
  have evaluated : ((performAll (HandshakeLimiter.new slowConfig) slowCalls).map Prod.snd) =
      some [true, true, true, true, true, true, true] := by decide
  obtain ⟨⟨limiter, results⟩, ran, rfl⟩ := Option.map_eq_some_iff.mp evaluated
  exact ⟨limiter, _, ran, by decide⟩

end Racnet.Proof.Limiter
