import Spatiad.Foundation.HashMap
import Mathlib.Data.Rat.Floor
import Mathlib.Algebra.Order.Ring.Rat
import Mathlib.Data.Finset.Basic

/-! # Domain types and the host

The records every crate shares, and `Host`: whatever the process takes from
outside its own code.  Identifiers come from an unbounded supply, so `Uuid` is
`Nat`; an instant is its count of nanoseconds since the Unix epoch; radii,
distances and coordinates are exact rationals.
-/

namespace Spatiad

open Foundation

abbrev Uuid := Nat

/-- `DateTime<Utc>`, in nanoseconds since the epoch. -/
abbrev DateTime := Int

/-- `chrono::Duration::seconds`. -/
def seconds (n : Int) : Int := n * 1000000000

/-- The cast `as i64` of a `u64`. -/
def asI64 (n : Nat) : Int := (n : Int).bmod (2 ^ 64)

theorem asI64_small {n : Nat} (small : n < 2 ^ 63) : asI64 n = n := by
  unfold asI64
  rw [Int.bmod_eq_of_le] <;> omega

structure Coordinates where
  latitude : ℚ
  longitude : ℚ
  deriving DecidableEq, Repr

inductive DriverStatus where
  | offline
  | available
  | busy
  deriving DecidableEq, Repr

structure DriverSnapshot where
  driverId : Uuid
  category : String
  status : DriverStatus
  position : Coordinates
  lastSeenAt : DateTime
  deriving DecidableEq, Repr

structure JobRequest where
  jobId : Uuid
  category : String
  pickup : Coordinates
  dropoff : Option Coordinates
  initialRadiusKm : ℚ
  maxRadiusKm : ℚ
  timeoutSeconds : Nat
  createdAt : DateTime
  deriving DecidableEq, Repr

inductive OfferStatus where
  | pending
  | accepted
  | rejected
  | expired
  | cancelled
  deriving DecidableEq, Repr

structure OfferRecord where
  offerId : Uuid
  jobId : Uuid
  driverId : Uuid
  status : OfferStatus
  expiresAt : DateTime
  deriving DecidableEq, Repr

structure MatchResult where
  jobId : Uuid
  driverId : Uuid
  offerId : Uuid
  matchedAt : DateTime
  deriving DecidableEq, Repr

/-- Everything the process draws from its surroundings.  Each draw is made at a
    tick of the process's life, so `clock n` and `newV4 n` are what the `n`-th
    draw yields; the laws say that generated ids are never repeated and that a
    hash map hands out every entry once, in an order of its own choosing. -/
structure Host where
  /-- `Utc::now()` -/
  clock : Nat → DateTime
  /-- `Uuid::new_v4()` -/
  newV4 : Nat → Uuid
  /-- Iteration order of a `HashMap` with the given keys. -/
  order : Nat → List Uuid → List Uuid
  /-- `haversine_km`, whose floating point is not modelled. -/
  haversineKm : Coordinates → Coordinates → ℚ
  /-- H3 cell of a point at a resolution. -/
  cellKey : Nat → Coordinates → String
  /-- `f64` as `Display` shows it. -/
  displayF64 : ℚ → String
  /-- `char::is_alphanumeric`, whose Unicode tables are not repeated. -/
  isAlphanumeric : Char → Bool
  newV4_injective : Function.Injective newV4
  order_perm : ∀ n ks, (order n ks).Perm ks
  haversineKm_nonneg : ∀ a b, 0 ≤ haversineKm a b

end Spatiad
