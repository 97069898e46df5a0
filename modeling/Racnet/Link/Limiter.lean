import Racnet.Lib.Exec
import Racnet.Lib.Table

namespace Racnet.Link
open Lib

structure LimiterConfig where
  burst : UInt32
  refillIntervalUs : UInt64
  maxHalfOpen : Nat
  halfOpenTimeoutUs : UInt64
  deriving DecidableEq

namespace LimiterConfig

def default : LimiterConfig where
  burst := 3
  refillIntervalUs := 5000000
  maxHalfOpen := 32
  halfOpenTimeoutUs := 30000000

end LimiterConfig

/-- The tokens are a `u32` and the time is a `u64`. -/
structure Bucket where
  tokens : Nat
  lastRefillUs : Nat
  deriving DecidableEq

/-- A transport address, which the limiter only compares. -/
abbrev Address := List UInt8

/-- The gate of an acceptor. Its functions return `none` where the program panics. -/
structure HandshakeLimiter where
  config : LimiterConfig
  buckets : AList fun _ : Address => Bucket
  /-- The deadline of every ticket. -/
  halfOpen : AList fun _ : UInt64 => UInt64
  nextTicket : UInt64

/-- Arithmetic of `u64`s: an overflow is a panic. -/
def checked64 (n : Nat) : Option Nat := if n < 2 ^ 64 then some n else none

theorem checked64_of_lt {n : Nat} (fits : n < 2 ^ 64) : checked64 n = some n := if_pos fits

/-- The lazy refill. A division by an interval of zero gives nothing, as `Nat` division does. -/
def Bucket.refill (config : LimiterConfig) (nowUs : UInt64) (bucket : Bucket) : Option Bucket := do
  let elapsed := nowUs.toNat - bucket.lastRefillUs
  let refilled := elapsed / config.refillIntervalUs.toNat
  if 1 ≤ refilled then
    let gained ← checked64 (refilled * config.refillIntervalUs.toNat)
    let lastRefillUs ← checked64 (bucket.lastRefillUs + gained)
    return {
      tokens := min (min (bucket.tokens + min refilled config.burst.toNat) (2 ^ 32 - 1))
        config.burst.toNat
      lastRefillUs }
  else return bucket

/-- Whether a bucket is kept: it would not be full after a refill. The product saturates. -/
def Bucket.isKept (config : LimiterConfig) (nowUs : UInt64) (bucket : Bucket) : Bool :=
  nowUs.toNat - bucket.lastRefillUs <
    min ((config.burst.toNat - bucket.tokens) * config.refillIntervalUs.toNat) (2 ^ 64 - 1)

namespace HandshakeLimiter

def new (config : LimiterConfig) : HandshakeLimiter := ⟨config, ∅, ∅, 0⟩

def halfOpenCount (limiter : HandshakeLimiter) : Nat := limiter.halfOpen.keys.length

/-- The buckets that are kept; one with more tokens than the capacity makes the subtraction panic. -/
def collect (limiter : HandshakeLimiter) (nowUs : UInt64) (buckets : AList fun _ : Address => Bucket) :
    Option (AList fun _ : Address => Bucket) :=
  if buckets.entries.any fun e => limiter.config.burst.toNat < e.2.tokens then none
  else some (retain (fun _ bucket => bucket.isKept limiter.config nowUs) buckets)

/-- A remote address wants to start a handshake: a ticket, or a refusal. -/
def admitRemote (limiter : HandshakeLimiter) (remoteAddr : Address) (nowUs : UInt64) :
    Option (HandshakeLimiter × Option UInt64) :=
  if limiter.halfOpenCount ≥ limiter.config.maxHalfOpen then some (limiter, none)
  else do
    let entry := (limiter.buckets.lookup remoteAddr).getD
      ⟨limiter.config.burst.toNat, nowUs.toNat⟩
    let bucket ← entry.refill limiter.config nowUs
    if bucket.tokens = 0 then
      return ({ limiter with buckets := limiter.buckets.insert remoteAddr bucket }, none)
    else
      let bucket := { bucket with tokens := bucket.tokens - 1 }
      let buckets ← limiter.collect nowUs (limiter.buckets.insert remoteAddr bucket)
      let ticket := limiter.nextTicket
      let nextTicket ← checked64 (ticket.toNat + 1)
      let deadline := min (nowUs.toNat + limiter.config.halfOpenTimeoutUs.toNat) (2 ^ 64 - 1)
      return ({ limiter with
        buckets
        halfOpen := limiter.halfOpen.insert ticket (UInt64.ofNat deadline)
        nextTicket := UInt64.ofNat nextTicket }, some ticket)

/-- The handshake completed. -/
def established (limiter : HandshakeLimiter) (ticket : UInt64) : HandshakeLimiter :=
  { limiter with halfOpen := limiter.halfOpen.erase ticket }

/-- The link closed before the handshake completed. -/
def closed (limiter : HandshakeLimiter) (ticket : UInt64) : HandshakeLimiter :=
  { limiter with halfOpen := limiter.halfOpen.erase ticket }

/-- The tickets whose deadline has passed, which are removed. -/
def expire (limiter : HandshakeLimiter) (nowUs : UInt64) : HandshakeLimiter × List UInt64 :=
  let expired := (limiter.halfOpen.entries.filter fun e => e.2.toNat ≤ nowUs.toNat).map Sigma.fst
  ({ limiter with halfOpen := expired.foldl (fun table ticket => table.erase ticket) limiter.halfOpen },
    expired)

end HandshakeLimiter

end Racnet.Link
