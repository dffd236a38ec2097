import Spatiad.Types
import Mathlib.Tactic.Linarith

/-! # Request validation

Numbers come from JSON, which has no NaN and no infinity, so the checks for these
never fire and are left out.
-/

namespace Spatiad

inductive ValidationError where
  | invalidRadius (message : String)
  | invalidCategory (message : String)
  | invalidCoordinates (message : String)
  | emptyCategory
  deriving DecidableEq, Repr

def ValidationError.message : ValidationError → String
  | .invalidRadius message | .invalidCategory message | .invalidCoordinates message => message
  | .emptyCategory => "category cannot be empty"

def validateRadius (initialKm maxKm : ℚ) : Except ValidationError Unit :=
  if initialKm < 0 then .error (.invalidRadius "initial_radius_km must be >= 0")
  else if maxKm < 0 then .error (.invalidRadius "max_radius_km must be >= 0")
  else if initialKm > maxKm then
    .error (.invalidRadius "initial_radius_km must be <= max_radius_km")
  else if maxKm > 1000 then .error (.invalidRadius "max_radius_km must be <= 1000 km")
  else .ok ()

def validateCategory (host : Host) (category : String) : Except ValidationError Unit :=
  if category.isEmpty then .error .emptyCategory
  else if category.utf8ByteSize > 50 then
    .error (.invalidCategory "category must be <= 50 characters")
  else if !category.toList.all fun c => host.isAlphanumeric c || c == '_' || c == '-' then
    .error (.invalidCategory
      "category can only contain alphanumeric characters, hyphens, and underscores")
  else .ok ()

def validateCoordinates (host : Host) (coords : Coordinates) : Except ValidationError Unit :=
  if ¬(-90 ≤ coords.latitude ∧ coords.latitude ≤ 90) then
    .error (.invalidCoordinates
      ("latitude must be between -90 and 90, got " ++ host.displayF64 coords.latitude))
  else if ¬(-180 ≤ coords.longitude ∧ coords.longitude ≤ 180) then
    .error (.invalidCoordinates
      ("longitude must be between -180 and 180, got " ++ host.displayF64 coords.longitude))
  else .ok ()

/-- Out-of-range timeouts are reported as a radius. -/
def validateTimeoutSeconds (timeout : Nat) : Except ValidationError Unit :=
  if timeout = 0 then .error (.invalidRadius "timeout_seconds must be > 0")
  else if timeout > 3600 then
    .error (.invalidRadius "timeout_seconds must be <= 3600 (1 hour)")
  else .ok ()

theorem validateRadius_ok {initialKm maxKm : ℚ} :
    validateRadius initialKm maxKm = .ok () ↔
      0 ≤ initialKm ∧ initialKm ≤ maxKm ∧ maxKm ≤ 1000 := by
  unfold validateRadius
  constructor
  · intro ok
    split at ok
    · cases ok
    · split at ok
      · cases ok
      · split at ok
        · cases ok
        · split at ok
          · cases ok
          · rename_i notNegative _ ordered bounded
            exact ⟨not_lt.mp notNegative, not_lt.mp ordered, not_lt.mp bounded⟩
  · rintro ⟨notNegative, ordered, bounded⟩
    rw [if_neg (not_lt.mpr notNegative), if_neg (not_lt.mpr (notNegative.trans ordered)),
      if_neg (not_lt.mpr ordered), if_neg (not_lt.mpr bounded)]

theorem validateTimeoutSeconds_ok {timeout : Nat} :
    validateTimeoutSeconds timeout = .ok () ↔ 0 < timeout ∧ timeout ≤ 3600 := by
  unfold validateTimeoutSeconds
  split
  · rename_i zero
    simp [zero]
  · split
    · rename_i large
      simp
      omega
    · simp
      omega

end Spatiad
