import Racnet.Proof.Limiter.Rate

/-!
# Addresses and each other's buckets

A limiter that all addresses share, beside one that only `a` uses. The calls of the others can drop the
bucket of `a` when it is full. The next call of `a` then starts a new bucket, and with it a new phase of
the refill: the two limiters agree when that call comes a whole number of intervals after the first one.
-/

namespace Racnet.Proof.Limiter
open Lib Link

abbrev Request := Address × UInt64

def admits (requests : List Request) : List Call := requests.map fun r => .admitRemote r.1 r.2

def decisionsOf (a : Address) (requests : List Request) (results : List Bool) : List Bool :=
  ((requests.zip results).filter fun e => e.1.1 = a).map Prod.snd

def requestsOf (a : Address) (requests : List Request) : List Request :=
  requests.filter fun r => r.1 = a

/-- The cap on half-open handshakes never refuses a request. -/
def Uncapped : HandshakeLimiter → List Request → Prop
  | _, [] => True
  | limiter, (addr, now) :: requests =>
    limiter.halfOpenCount < limiter.config.maxHalfOpen ∧
      match limiter.admitRemote addr now with
      | none => True
      | some (after, _) => Uncapped after requests

/-- Whenever a request of `a` finds its bucket gone, a whole number of intervals has passed since the
first request of `a`. -/
def Aligned (a : Address) : Option UInt64 → HandshakeLimiter → List Request → Prop
  | _, _, [] => True
  | first, limiter, (addr, now) :: requests =>
    (addr = a → limiter.buckets.lookup a = none →
      ∀ start ∈ first, (now.toNat - start.toNat) % intervalOf limiter = 0) ∧
    match limiter.admitRemote addr now with
    | none => True
    | some (after, _) => Aligned a (if addr = a then some (first.getD now) else first) after requests

/-! ## The two limiters -/

/-- What the bucket that only `a` uses looks like, and the shared one beside it. -/
inductive Paired (a : Address) (limiter alone : HandshakeLimiter) (now : Nat) : Option UInt64 → Prop
    where
  | fresh (absent : limiter.buckets.lookup a = none) (absent' : alone.buckets.lookup a = none) :
      Paired a limiter alone now none
  | same (start : UInt64) (bucket : Bucket) (found : limiter.buckets.lookup a = some bucket)
      (found' : alone.buckets.lookup a = some bucket) (from_ : start.toNat ≤ bucket.lastRefillUs)
      (phase : (bucket.lastRefillUs - start.toNat) % intervalOf limiter = 0) :
      Paired a limiter alone now (some start)
  | dropped (start : UInt64) (bucket : Bucket) (absent : limiter.buckets.lookup a = none)
      (found' : alone.buckets.lookup a = some bucket) (from_ : start.toNat ≤ bucket.lastRefillUs)
      (phase : (bucket.lastRefillUs - start.toNat) % intervalOf limiter = 0)
      (full : (tokensOf bucket).IsFull (burstOf limiter) (intervalOf limiter) now) :
      Paired a limiter alone now (some start)

structure Beside (a : Address) (limiter alone : HandshakeLimiter) (now : Nat)
    (first : Option UInt64) : Prop where
  config : alone.config = limiter.config
  ok : BucketsOk limiter now
  ok' : BucketsOk alone now
  count : alone.halfOpenCount ≤ limiter.halfOpenCount
  counter : alone.nextTicket.toNat ≤ limiter.nextTicket.toNat
  tickets : ∀ ticket ∈ limiter.halfOpen, ticket.toNat < limiter.nextTicket.toNat
  buckets : Paired a limiter alone now first

variable {limiter alone after : HandshakeLimiter} {a addr : Address} {now : UInt64}
  {first : Option UInt64} {ticket : Option UInt64}

theorem asked_isKept (positive : 0 < intervalOf limiter)
    (token : 0 < (asked limiter addr now.toNat).tokens) :
    Bucket.isKept limiter.config now ⟨(asked limiter addr now.toNat).tokens - 1,
      (asked limiter addr now.toNat).last⟩ = true := by
  have recent : now.toNat - (asked limiter addr now.toNat).last < intervalOf limiter :=
    TokenBucket.sub_refill_lt positive
  have capped : (asked limiter addr now.toNat).tokens ≤ limiter.config.burst.toNat :=
    TokenBucket.tokens_refill_le
  have missing : intervalOf limiter ≤ (limiter.config.burst.toNat -
      ((asked limiter addr now.toNat).tokens - 1)) * limiter.config.refillIntervalUs.toNat :=
    Nat.le_mul_of_pos_left _ (by omega)
  have word : intervalOf limiter < 2 ^ 64 := limiter.config.refillIntervalUs.toNat_lt
  rw [Bucket.isKept, decide_eq_true_eq]
  exact lt_of_lt_of_le recent (le_min missing (by omega))

theorem lookup_asked (positive : 0 < intervalOf limiter)
    (room : limiter.halfOpenCount < limiter.config.maxHalfOpen)
    (step : AdmitStep limiter addr now after ticket) :
    after.buckets.lookup addr = some ⟨(asked limiter addr now.toNat).tokens - 1,
      (asked limiter addr now.toNat).last⟩ := by
  cases step with
  | capped full => exact absurd room (not_lt.mpr full)
  | refused _ empty =>
    rw [AList.lookup_insert, empty]
  | granted _ token counter deadline =>
    rw [lookup_retain, AList.lookup_insert, Option.filter_some_pos (asked_isKept positive token)]

theorem isSome_iff (room : limiter.halfOpenCount < limiter.config.maxHalfOpen)
    (step : AdmitStep limiter addr now after ticket) :
    ticket.isSome = decide (0 < (asked limiter addr now.toNat).tokens) := by
  cases step with
  | capped full => exact absurd room (not_lt.mpr full)
  | refused _ empty => simp [empty]
  | granted _ token counter deadline => simp [token]

theorem tickets_step (fresh : ∀ ticket ∈ limiter.halfOpen, ticket.toNat < limiter.nextTicket.toNat)
    (step : AdmitStep limiter addr now after ticket) :
    after.halfOpenCount = limiter.halfOpenCount + (if ticket.isSome then 1 else 0) ∧
      after.nextTicket.toNat = limiter.nextTicket.toNat + (if ticket.isSome then 1 else 0) ∧
      ∀ ticket ∈ after.halfOpen, ticket.toNat < after.nextTicket.toNat := by
  cases step with
  | capped full => exact ⟨rfl, rfl, fresh⟩
  | refused _ empty => exact ⟨rfl, rfl, fresh⟩
  | granted _ token counter deadline =>
    have unused : limiter.nextTicket ∉ limiter.halfOpen.keys := fun mem =>
      absurd (fresh _ (AList.mem_keys.mpr mem)) (lt_irrefl _)
    have next : (UInt64.ofNat (limiter.nextTicket.toNat + 1)).toNat =
        limiter.nextTicket.toNat + 1 := UInt64.toNat_ofNat_of_lt' counter
    refine ⟨?_, next, fun t mem => ?_⟩
    · change (limiter.halfOpen.insert limiter.nextTicket deadline).keys.length = _
      rw [AList.keys_insert, List.length_cons, List.erase_of_not_mem unused]
      rfl
    · rw [next]
      rcases (AList.mem_insert _).mp mem with rfl | old
      · exact Nat.lt_succ_self _
      · exact Nat.lt_succ_of_lt (fresh t old)

theorem count_step_le (step : AdmitStep limiter addr now after ticket) :
    after.halfOpenCount ≤ limiter.halfOpenCount + (if ticket.isSome then 1 else 0) ∧
      after.nextTicket.toNat = limiter.nextTicket.toNat + (if ticket.isSome then 1 else 0) := by
  cases step with
  | capped full => exact ⟨le_rfl, rfl⟩
  | refused _ empty => exact ⟨le_rfl, rfl⟩
  | granted _ token counter deadline =>
    refine ⟨?_, UInt64.toNat_ofNat_of_lt' counter⟩
    change (limiter.halfOpen.insert limiter.nextTicket deadline).keys.length ≤ _
    rw [AList.keys_insert, List.length_cons]
    exact Nat.succ_le_succ List.length_erase_le

theorem Beside.later {earlier : Nat} (beside : Beside a limiter alone earlier first)
    (le : earlier ≤ now.toNat) : Beside a limiter alone now.toNat first where
  config := beside.config
  ok := fun addr b found => ⟨(beside.ok addr b found).tokens, (beside.ok addr b found).past.trans le⟩
  ok' := fun addr b found =>
    ⟨(beside.ok' addr b found).tokens, (beside.ok' addr b found).past.trans le⟩
  count := beside.count
  counter := beside.counter
  tickets := beside.tickets
  buckets := by
    cases beside.buckets with
    | fresh absent absent' => exact .fresh absent absent'
    | same start bucket found found' from_ phase => exact .same start bucket found found' from_ phase
    | dropped start bucket absent found' from_ phase full =>
      refine .dropped start bucket absent found' from_ phase (le_trans full ?_)
      exact Nat.sub_le_sub_right le _

theorem asked_eq (positive : 0 < intervalOf limiter)
    (beside : Beside a limiter alone now.toNat first)
    (aligned : limiter.buckets.lookup a = none →
      ∀ start ∈ first, (now.toNat - start.toNat) % intervalOf limiter = 0) :
    asked alone a now.toNat = asked limiter a now.toNat ∧
      (first.getD now).toNat ≤ (asked limiter a now.toNat).last ∧
      ((asked limiter a now.toNat).last - (first.getD now).toNat) % intervalOf limiter = 0 := by
  have burst : burstOf alone = burstOf limiter := by rw [burstOf, beside.config]; rfl
  have interval : intervalOf alone = intervalOf limiter := by rw [intervalOf, beside.config]; rfl
  have own : TokenBucket.refill (burstOf limiter) (intervalOf limiter) now.toNat
      ⟨burstOf limiter, now.toNat⟩ = ⟨burstOf limiter, now.toNat⟩ := by
    simp [TokenBucket.refill]
  rw [asked, asked, burst, interval]
  cases beside.buckets with
  | fresh absent absent' =>
    rw [held_of_absent absent, held_of_absent absent', burst, own]
    exact ⟨rfl, le_rfl, by simp⟩
  | same start bucket found found' from_ phase =>
    rw [held_of_lookup found, held_of_lookup found']
    refine ⟨rfl, from_.trans (Nat.le_add_right _ _), ?_⟩
    change (bucket.lastRefillUs + _ * intervalOf limiter - start.toNat) % intervalOf limiter = 0
    rw [Nat.sub_add_comm from_, Nat.add_mul_mod_self_right, phase]
  | dropped start bucket absent found' from_ phase full =>
    have past : bucket.lastRefillUs ≤ now.toNat := (beside.ok' a bucket found').past
    have whole := aligned absent start rfl
    have rest : (now.toNat - bucket.lastRefillUs) % intervalOf limiter = 0 := by
      have split : now.toNat - start.toNat =
          now.toNat - bucket.lastRefillUs + (bucket.lastRefillUs - start.toNat) := by omega
      rw [split] at whole
      exact Nat.mod_eq_zero_of_dvd ((Nat.dvd_add_left (Nat.dvd_of_mod_eq_zero phase)).mp
        (Nat.dvd_of_mod_eq_zero whole))
    rw [held_of_absent absent, held_of_lookup found', own,
      TokenBucket.refill_of_isFull positive full past le_rfl rest]
    exact ⟨rfl, from_.trans past, whole⟩

theorem Beside.own (positive : 0 < intervalOf limiter)
    (beside : Beside a limiter alone now.toNat first)
    (aligned : limiter.buckets.lookup a = none →
      ∀ start ∈ first, (now.toNat - start.toNat) % intervalOf limiter = 0)
    (room : limiter.halfOpenCount < limiter.config.maxHalfOpen)
    (step : AdmitStep limiter a now after ticket) :
    ∃ alone' ticket', alone.admitRemote a now = some (alone', ticket') ∧ ticket'.isSome = ticket.isSome ∧
      Beside a after alone' now.toNat (some (first.getD now)) := by
  obtain ⟨sameAsked, from_, phase⟩ := asked_eq positive beside aligned
  have roomAlone : alone.halfOpenCount < alone.config.maxHalfOpen := by
    rw [beside.config]
    exact lt_of_le_of_lt beside.count room
  have positiveAlone : 0 < intervalOf alone := by rw [intervalOf, beside.config]; exact positive
  obtain ⟨count, counter, tickets⟩ := tickets_step beside.tickets step
  have config := config_step step
  rcases @admit_spec alone a now beside.ok' with
    ⟨alone', ticket', ran, step'⟩ | ⟨exhausted, token, -⟩
  · have decided : ticket'.isSome = ticket.isSome := by
      rw [isSome_iff room step, isSome_iff roomAlone step', sameAsked]
    obtain ⟨count', counter'⟩ := count_step_le step'
    rw [decided] at count' counter'
    refine ⟨alone', ticket', ran, decided, ?_⟩
    exact {
      config := by rw [config_step step', config, beside.config]
      ok := beside.ok.step step
      ok' := beside.ok'.step step'
      count := by rw [count]; exact count'.trans (Nat.add_le_add_right beside.count _)
      counter := by rw [counter, counter']; exact Nat.add_le_add_right beside.counter _
      tickets := tickets
      buckets := .same _ _ (lookup_asked positive room step)
        (sameAsked ▸ lookup_asked positiveAlone roomAlone step') from_
        (by rw [intervalOf, config]; exact phase) }
  · rw [sameAsked] at token
    cases step with
    | capped full => exact absurd room (not_lt.mpr full)
    | refused _ empty => exact absurd token (by rw [empty]; exact lt_irrefl 0)
    | granted _ _ small deadline =>
      exact absurd (exhausted.trans (Nat.succ_le_succ beside.counter)) (not_le.mpr small)

theorem Beside.other (beside : Beside a limiter alone now.toNat first)
    (timely : Timely limiter.config now) (ne : a ≠ addr)
    (step : AdmitStep limiter addr now after ticket) : Beside a after alone now.toNat first := by
  obtain ⟨count, counter, tickets⟩ := tickets_step beside.tickets step
  have config := config_step step
  have interval : intervalOf after = intervalOf limiter := by rw [intervalOf, config]; rfl
  have burst : burstOf after = burstOf limiter := by rw [burstOf, config]; rfl
  refine ⟨beside.config.trans config.symm, beside.ok.step step, beside.ok',
    beside.count.trans (by rw [count]; exact Nat.le_add_right _ _),
    beside.counter.trans (by rw [counter]; exact Nat.le_add_right _ _), tickets, ?_⟩
  -- What became of the bucket of `a`.
  have fate : after.buckets.lookup a = limiter.buckets.lookup a ∨
      ∃ b, limiter.buckets.lookup a = some b ∧ after.buckets.lookup a = none ∧
        (tokensOf b).IsFull (burstOf limiter) (intervalOf limiter) now.toNat := by
    cases step with
    | capped full => exact Or.inl rfl
    | refused _ empty => exact Or.inl (AList.lookup_insert_ne ne)
    | granted _ token small deadline =>
      rw [lookup_retain, AList.lookup_insert_ne ne]
      cases found : limiter.buckets.lookup a with
      | none => exact Or.inl rfl
      | some b =>
        cases keep : b.isKept limiter.config now with
        | true => exact Or.inl (Option.filter_some_pos keep)
        | false =>
          exact Or.inr ⟨b, rfl, Option.filter_some_neg (by simp [keep]),
            isFull_of_dropped timely keep⟩
  cases beside.buckets with
  | fresh absent absent' =>
    rcases fate with same | ⟨b, found, -⟩
    · exact .fresh (same.trans absent) absent'
    · exact absurd (found.symm.trans absent) (by simp)
  | same start bucket found found' from_ phase =>
    rw [← interval] at phase
    rcases fate with same | ⟨b, foundB, gone, full⟩
    · exact .same start bucket (same.trans found) found' from_ phase
    · obtain rfl := Option.some.inj (found.symm.trans foundB)
      exact .dropped start bucket gone found' from_ phase (by rw [burst, interval]; exact full)
  | dropped start bucket absent found' from_ phase full =>
    rw [← interval] at phase
    rcases fate with same | ⟨b, found, -⟩
    · exact .dropped start bucket (same.trans absent) found' from_ phase
        (by rw [burst, interval]; exact full)
    · exact absurd (found.symm.trans absent) (by simp)

/-! ## Runs -/

theorem beside_run {requests : List Request} {results : List Bool} {earlier : Nat}
    (positive : 0 < intervalOf limiter) (beside : Beside a limiter alone earlier first)
    (order : InOrder earlier (admits requests)) (uncapped : Uncapped limiter requests)
    (timely : AllTimely limiter.config (admits requests)) (aligned : Aligned a first limiter requests)
    (ran : performAll limiter (admits requests) = some (after, results)) :
    ∃ alone', performAll alone (admits (requestsOf a requests)) =
      some (alone', decisionsOf a requests results) := by
  induction requests generalizing limiter alone results earlier first with
  | nil => exact ⟨alone, rfl⟩
  | cons request requests ih =>
    obtain ⟨addr, now⟩ := request
    obtain ⟨middle, result, rest, head, tail, rfl⟩ := performAll_cons ran
    obtain ⟨ticket, admitted, rfl⟩ := perform_admit head
    have beside := beside.later order.1
    have step := admit_step beside.ok admitted
    have config := config_step step
    have positiveMiddle : 0 < intervalOf middle := by rw [intervalOf, config]; exact positive
    have timelyRest : AllTimely middle.config (admits requests) := fun b time mem =>
      config ▸ timely b time (List.mem_cons_of_mem _ mem)
    have alignedRest := aligned.2
    have uncappedRest := uncapped.2
    rw [show limiter.admitRemote addr now = some (middle, ticket) from admitted] at alignedRest uncappedRest
    dsimp only at alignedRest uncappedRest
    by_cases mine : addr = a
    · subst mine
      rw [if_pos rfl] at alignedRest
      obtain ⟨alone', ticket', ran', decided, beside'⟩ :=
        beside.own positive (aligned.1 rfl) uncapped.1 step
      obtain ⟨last, rest'⟩ := ih positiveMiddle beside' order.2 uncappedRest timelyRest alignedRest
        tail
      refine ⟨last, ?_⟩
      simp only [requestsOf, admits, decisionsOf] at rest' ⊢
      simp [performAll, perform, ran', rest', decided]
    · rw [if_neg mine] at alignedRest
      have beside' := beside.other (timely addr now List.mem_cons_self) (Ne.symm mine) step
      obtain ⟨last, rest'⟩ := ih positiveMiddle beside' order.2 uncappedRest timelyRest alignedRest
        tail
      refine ⟨last, ?_⟩
      simp only [requestsOf, admits, decisionsOf] at rest' ⊢
      simp [mine, rest']

theorem beside_new (a : Address) (config : LimiterConfig) :
    Beside a (HandshakeLimiter.new config) (HandshakeLimiter.new config) 0 none where
  config := rfl
  ok := bucketsOk_new config
  ok' := bucketsOk_new config
  count := le_rfl
  counter := le_rfl
  tickets := fun ticket mem => absurd mem (AList.notMem_empty ticket)
  buckets := .fresh (AList.lookup_empty a) (AList.lookup_empty a)

/-- The answers to `a` are those of a limiter that only `a` uses, if every bucket of `a` that was dropped
starts again in phase. -/
theorem addresses_independent {config : LimiterConfig}
    (interval : 1 ≤ config.refillIntervalUs.toNat) (a : Address) {requests : List Request}
    (order : InOrder 0 (admits requests)) (uncapped : Uncapped (HandshakeLimiter.new config) requests)
    (timely : AllTimely config (admits requests))
    (aligned : Aligned a none (HandshakeLimiter.new config) requests)
    {limiter : HandshakeLimiter} {results : List Bool}
    (ran : performAll (HandshakeLimiter.new config) (admits requests) = some (limiter, results)) :
    ∃ alone, performAll (HandshakeLimiter.new config) (admits (requestsOf a requests)) =
      some (alone, decisionsOf a requests results) :=
  @beside_run (HandshakeLimiter.new config) _ limiter a none requests results 0 interval
    (beside_new a config) order uncapped timely aligned ran

/-- One handshake at a time, and a new one every ten microseconds. -/
def briskConfig : LimiterConfig := ⟨1, 10, 32, 0⟩

theorem addresses_independent_brisk :
    ∃ alone, performAll (HandshakeLimiter.new briskConfig) (admits [([0], 0), ([0], 10)]) =
      some (alone, [true, true]) := by
  have evaluated : ((performAll (HandshakeLimiter.new briskConfig)
      (admits [([0], 0), ([1], 10), ([0], 10)])).map Prod.snd) = some [true, true, true] := by
    decide
  obtain ⟨⟨limiter, results⟩, ran, rfl⟩ := Option.map_eq_some_iff.mp evaluated
  refine @addresses_independent briskConfig (by decide) [0] [([0], 0), ([1], 10), ([0], 10)] ?_ ?_ ?_ ?_
    limiter _ ran
  · simp [admits, InOrder, Call.moment, Call.time]
  · exact ⟨by decide, by decide, by decide, trivial⟩
  · exact fun _ _ _ => Or.inl (by decide)
  · refine ⟨fun _ _ start mem => absurd mem (by simp), fun other => absurd other (by decide), ?_⟩
    exact ⟨fun _ _ start mem => by obtain rfl := Option.some.inj mem; decide, trivial⟩

/-- The calls of another address change the answers. -/
theorem brisk_addresses_interfere :
    InOrder 0 (admits [([0], 0), ([1], 15), ([0], 16), ([0], 20)]) ∧
    Uncapped (HandshakeLimiter.new briskConfig) [([0], 0), ([1], 15), ([0], 16), ([0], 20)] ∧
    ((performAll (HandshakeLimiter.new briskConfig)
      (admits [([0], 0), ([1], 15), ([0], 16), ([0], 20)])).map Prod.snd).map
        (decisionsOf [0] [([0], 0), ([1], 15), ([0], 16), ([0], 20)]) = some [true, true, false] ∧
    (performAll (HandshakeLimiter.new briskConfig)
      (admits (requestsOf [0] [([0], 0), ([1], 15), ([0], 16), ([0], 20)]))).map Prod.snd =
        some [true, true, true] := by
  refine ⟨?_, ?_, by decide, by decide⟩
  · simp [admits, InOrder, Call.moment, Call.time]
  · exact ⟨by decide, by decide, by decide, by decide, trivial⟩

end Racnet.Proof.Limiter
