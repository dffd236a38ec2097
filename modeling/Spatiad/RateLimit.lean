import Spatiad.Types

/-! # Rate limiting

The sliding windows over the requests of each caller and the connections of each driver.
-/

namespace Spatiad

open Foundation

structure RateLimitSnapshot where
  allowed : Bool
  limit : Nat
  remaining : Nat
  retryAfterSeconds : Nat
  resetSeconds : Nat
  deriving DecidableEq, Repr

structure SlidingWindowRateLimiter where
  limitPerWindow : Nat
  windowSeconds : Int
  entries : HashMap String (List DateTime)
  limit_pos : 1 ≤ limitPerWindow
  window_pos : 1 ≤ windowSeconds

namespace SlidingWindowRateLimiter

def new (limitPerWindow : Nat) (windowSeconds : Int) : SlidingWindowRateLimiter where
  limitPerWindow := max limitPerWindow 1
  windowSeconds := max windowSeconds 1
  entries := ∅
  limit_pos := le_max_right _ _
  window_pos := le_max_right _ _

/-- Whole seconds until the oldest entry leaves the window, and at least one. -/
def resetSeconds (limiter : SlidingWindowRateLimiter) (queue : List DateTime) (now : DateTime) :
    Nat :=
  match queue.head? with
  | none => limiter.windowSeconds.toNat
  | some ts =>
      (max ((ts + seconds limiter.windowSeconds - now).tdiv 1000000000) 1).toNat

def check (limiter : SlidingWindowRateLimiter) (key : String) (now : DateTime) :
    RateLimitSnapshot × SlidingWindowRateLimiter :=
  let cutoff := now - seconds limiter.windowSeconds
  let queue := ((limiter.entries.lookup key).getD []).dropWhile fun ts => decide (ts ≤ cutoff)
  if limiter.limitPerWindow ≤ queue.length then
    let reset := limiter.resetSeconds queue now
    ({ allowed := false
       limit := limiter.limitPerWindow
       remaining := 0
       retryAfterSeconds := reset
       resetSeconds := reset },
      { limiter with entries := limiter.entries.insert key queue })
  else
    let queue := queue ++ [now]
    ({ allowed := true
       limit := limiter.limitPerWindow
       remaining := limiter.limitPerWindow - queue.length
       retryAfterSeconds := 0
       resetSeconds := limiter.resetSeconds queue now },
      { limiter with entries := limiter.entries.insert key queue })

end SlidingWindowRateLimiter

structure WsReconnectGuard where
  maxReconnectsPerWindow : Nat
  windowSeconds : Int
  attempts : HashMap Uuid (List DateTime)
  limit_pos : 1 ≤ maxReconnectsPerWindow
  window_pos : 1 ≤ windowSeconds

namespace WsReconnectGuard

def new (maxReconnectsPerWindow : Nat) (windowSeconds : Int) : WsReconnectGuard where
  maxReconnectsPerWindow := max maxReconnectsPerWindow 1
  windowSeconds := max windowSeconds 1
  attempts := ∅
  limit_pos := le_max_right _ _
  window_pos := le_max_right _ _

def allow (guard : WsReconnectGuard) (driverId : Uuid) (now : DateTime) :
    Bool × WsReconnectGuard :=
  let cutoff := now - seconds guard.windowSeconds
  let queue := ((guard.attempts.lookup driverId).getD []).dropWhile fun ts => decide (ts ≤ cutoff)
  if guard.maxReconnectsPerWindow ≤ queue.length then
    (false, { guard with attempts := guard.attempts.insert driverId queue })
  else (true, { guard with attempts := guard.attempts.insert driverId (queue ++ [now]) })

end WsReconnectGuard

end Spatiad
