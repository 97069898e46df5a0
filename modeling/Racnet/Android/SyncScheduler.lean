import Mathlib.Data.List.AList

namespace Racnet.Android

/-- The links that are to be synchronised, in the order of the requests, and the session that is running on
a link. -/
structure SyncScheduler where
  pending : List UInt64
  active : AList fun _ : UInt64 => UInt64

namespace SyncScheduler

def new : SyncScheduler := ⟨[], ∅⟩

def request (scheduler : SyncScheduler) (linkId : UInt64) : SyncScheduler :=
  if linkId ∈ scheduler.pending then scheduler
  else { scheduler with pending := scheduler.pending ++ [linkId] }

def requestAll (scheduler : SyncScheduler) (linkIds : List UInt64) : SyncScheduler :=
  linkIds.foldl request scheduler

def completed (scheduler : SyncScheduler) (linkId sessionId : UInt64) : SyncScheduler :=
  if scheduler.active.lookup linkId = some sessionId then
    { scheduler with active := scheduler.active.erase linkId }
  else scheduler

def remove (scheduler : SyncScheduler) (linkId : UInt64) : SyncScheduler :=
  { scheduler with pending := scheduler.pending.filter (· ≠ linkId) }

def closed (scheduler : SyncScheduler) (linkId : UInt64) : SyncScheduler :=
  { scheduler.remove linkId with active := scheduler.active.erase linkId }

def started (scheduler : SyncScheduler) (linkId sessionId : UInt64) : SyncScheduler :=
  { scheduler.remove linkId with active := scheduler.active.insert linkId sessionId }

variable {σ : Type}

/-- The loop of `drain`. The result is `none` where `start` panics. -/
def drainLoop (start : UInt64 → σ → Option (Option UInt64 × σ)) :
    List UInt64 → SyncScheduler → σ → Option (SyncScheduler × σ)
  | [], scheduler, state => some (scheduler, state)
  | linkId :: linkIds, scheduler, state =>
    if linkId ∈ scheduler.active then drainLoop start linkIds scheduler state
    else
      match start linkId state with
      | none => none
      | some (none, state) => drainLoop start linkIds scheduler state
      | some (some sessionId, state) =>
        drainLoop start linkIds (scheduler.started linkId sessionId) state

/-- Starts what is pending and not running. What is not started stays pending. -/
def drain (scheduler : SyncScheduler) (start : UInt64 → σ → Option (Option UInt64 × σ)) (state : σ) :
    Option (SyncScheduler × σ) :=
  drainLoop start scheduler.pending scheduler state

end SyncScheduler

end Racnet.Android
