import Mathlib.Data.Rat.Floor
import Mathlib.Algebra.Order.Archimedean.Basic
import Mathlib.Algebra.Order.Field.Rat
import Mathlib.Tactic.Linarith
import Mathlib.Tactic.FieldSimp
import Mathlib.Tactic.Ring

/-! # The widening search

Dispatch and re-dispatch both look for a driver in rings that grow by 2 km.
`find` stands for what is looked up in one ring.  Radii are exact, so the loop
ends after a number of rounds that can be told beforehand.
-/

namespace Spatiad

/-- `f64::EPSILON` -/
def epsilon : ℚ := 1 / 2 ^ 52

def expandRadiusKm (currentRadiusKm maxRadiusKm : ℚ) : ℚ :=
  min (currentRadiusKm + 2) (maxRadiusKm + 1)

variable {α : Type} (find : ℚ → Option α)

def wideningLoop (maxRadiusKm : ℚ) : Nat → ℚ → Option α
  | 0, _ => none
  | rounds + 1, radiusKm =>
      if radiusKm ≤ maxRadiusKm + epsilon then
        match find radiusKm with
        | some found => some found
        | none =>
            let radiusKm := expandRadiusKm radiusKm maxRadiusKm
            if maxRadiusKm < radiusKm then none else wideningLoop maxRadiusKm rounds radiusKm
      else none

/-- Rounds the loop makes at most before a ring exceeds the maximum. -/
def wideningRounds (radiusKm maxRadiusKm : ℚ) : Nat := ⌊(maxRadiusKm - radiusKm) / 2⌋.toNat + 1

def wideningSearch (initialRadiusKm maxRadiusKm : ℚ) : Option α :=
  let radiusKm := max initialRadiusKm (1 / 10)
  let maxRadiusKm := max maxRadiusKm radiusKm
  wideningLoop find maxRadiusKm (wideningRounds radiusKm maxRadiusKm) radiusKm

theorem expandRadiusKm_within {radius limit : ℚ} (inside : ¬ limit < expandRadiusKm radius limit) :
    expandRadiusKm radius limit = radius + 2 := by
  unfold expandRadiusKm at inside ⊢
  rcases le_total (radius + 2) (limit + 1) with step | capped
  · exact min_eq_left step
  · rw [min_eq_right capped] at inside
    exact absurd (lt_add_one limit) inside

theorem wideningRounds_step {radius limit : ℚ} (inside : radius + 2 ≤ limit) :
    wideningRounds radius limit = wideningRounds (radius + 2) limit + 1 := by
  have shifted : (limit - radius) / 2 = (limit - (radius + 2)) / 2 + 1 := by ring
  have nonneg : 0 ≤ ⌊(limit - (radius + 2)) / 2⌋ :=
    Int.floor_nonneg.mpr (by linarith)
  unfold wideningRounds
  rw [shifted, Int.floor_add_one]
  omega

/-- The bound on the rounds never cuts the loop short: with it, the loop obeys
    the source's own unbounded equation. -/
theorem wideningLoop_rounds {radius limit : ℚ} (inside : radius ≤ limit) :
    wideningLoop find limit (wideningRounds radius limit) radius =
      match find radius with
      | some found => some found
      | none =>
          if limit < expandRadiusKm radius limit then none
          else wideningLoop find limit
            (wideningRounds (expandRadiusKm radius limit) limit) (expandRadiusKm radius limit) := by
  have tested : radius ≤ limit + epsilon := by
    have positive : (0 : ℚ) ≤ epsilon := by unfold epsilon; positivity
    linarith
  rw [show wideningRounds radius limit = ⌊(limit - radius) / 2⌋.toNat + 1 from rfl]
  simp only [wideningLoop, if_pos tested]
  cases find radius with
  | some found => rfl
  | none =>
      simp only
      split
      · rfl
      · rename_i below
        have next := expandRadiusKm_within below
        have stillInside : radius + 2 ≤ limit := by rw [next] at below; linarith
        have rounds := wideningRounds_step stillInside
        rw [next]
        congr 1
        unfold wideningRounds at rounds ⊢
        omega

/-! ## How far the search reaches -/

theorem wideningLoop_last {radius limit : ℚ} (inside : radius ≤ limit)
    (beyond : limit < radius + 2) :
    wideningLoop find limit (wideningRounds radius limit) radius = find radius := by
  have exceeds : limit < expandRadiusKm radius limit := by
    by_contra below
    rw [expandRadiusKm_within below] at below
    exact below beyond
  rw [wideningLoop_rounds find inside]
  cases find radius with
  | some found => rfl
  | none => exact if_pos exceeds

theorem wideningLoop_next {radius limit : ℚ} (further : radius + 2 ≤ limit) :
    wideningLoop find limit (wideningRounds radius limit) radius =
      (find radius).or
        (wideningLoop find limit (wideningRounds (radius + 2) limit) (radius + 2)) := by
  have next : expandRadiusKm radius limit = radius + 2 := min_eq_left (by linarith)
  rw [wideningLoop_rounds find (by linarith), next, if_neg (not_lt.mpr further)]
  cases find radius <;> rfl

def lastRadius (radiusKm maxRadiusKm : ℚ) : ℚ := radiusKm + 2 * ⌊(maxRadiusKm - radiusKm) / 2⌋

def searchReach (initialRadiusKm maxRadiusKm : ℚ) : ℚ :=
  let radiusKm := max initialRadiusKm (1 / 10)
  lastRadius radiusKm (max maxRadiusKm radiusKm)

theorem lastRadius_le (radius limit : ℚ) : lastRadius radius limit ≤ limit := by
  have floor := Int.floor_le ((limit - radius) / 2)
  unfold lastRadius
  linarith

theorem le_lastRadius {radius limit : ℚ} (inside : radius ≤ limit) :
    radius ≤ lastRadius radius limit := by
  have nonneg : (0 : ℚ) ≤ ⌊(limit - radius) / 2⌋ := by
    exact_mod_cast Int.floor_nonneg.mpr (by linarith : (0 : ℚ) ≤ (limit - radius) / 2)
  unfold lastRadius
  linarith

theorem lastRadius_next (radius limit : ℚ) :
    lastRadius (radius + 2) limit = lastRadius radius limit := by
  have shifted : (limit - radius) / 2 = (limit - (radius + 2)) / 2 + 1 := by ring
  unfold lastRadius
  rw [shifted, Int.floor_add_one]
  push_cast
  ring

theorem lastRadius_of_beyond {radius limit : ℚ} (inside : radius ≤ limit)
    (beyond : limit < radius + 2) : lastRadius radius limit = radius := by
  have none : ⌊(limit - radius) / 2⌋ = 0 := by
    refine Int.floor_eq_zero_iff.mpr ⟨?_, ?_⟩ <;> linarith
  simp [lastRadius, none]

section fixedTarget

variable {find} {γ : Type} {distance : γ → ℚ} {answer : γ → α} {nearest : Option γ}
  (ring : ∀ radius, find radius =
    (nearest.filter fun target => distance target ≤ radius).map answer)

include ring

/-- A target that is in a ring is in every wider one, so rings that differ only in
    whether they reach it find it exactly if the last of them does. -/
theorem wideningLoop_reaches {radius limit : ℚ} (inside : radius ≤ limit) :
    wideningLoop find limit (wideningRounds radius limit) radius =
      (nearest.filter fun target => distance target ≤ lastRadius radius limit).map answer := by
  obtain ⟨rounds, enough⟩ := exists_nat_gt ((limit - radius) / 2)
  induction rounds generalizing radius with
  | zero =>
      have negative : (limit - radius) / 2 < 0 := by exact_mod_cast enough
      linarith
  | succ rounds ih =>
      push_cast at enough
      rcases lt_or_ge limit (radius + 2) with beyond | further
      · rw [wideningLoop_last find inside beyond, lastRadius_of_beyond inside beyond, ring]
      · rw [wideningLoop_next find further, ih further (by linarith), lastRadius_next, ring]
        cases nearest with
        | none => rfl
        | some target =>
            by_cases near : distance target ≤ radius
            · have reached : distance target ≤ lastRadius radius limit :=
                near.trans (le_lastRadius inside)
              simp [Option.filter, near, reached]
            · simp [Option.filter, near]

theorem wideningSearch_reaches (initialRadiusKm maxRadiusKm : ℚ) :
    wideningSearch find initialRadiusKm maxRadiusKm =
      (nearest.filter fun target =>
        distance target ≤ searchReach initialRadiusKm maxRadiusKm).map answer :=
  wideningLoop_reaches ring (le_max_right _ _)

end fixedTarget

theorem searchReach_le (initialRadiusKm maxRadiusKm : ℚ) :
    searchReach initialRadiusKm maxRadiusKm ≤
      max maxRadiusKm (max initialRadiusKm (1 / 10)) :=
  lastRadius_le _ _

theorem le_searchReach (initialRadiusKm maxRadiusKm : ℚ) :
    max initialRadiusKm (1 / 10) ≤ searchReach initialRadiusKm maxRadiusKm :=
  le_lastRadius (le_max_right _ _)

end Spatiad
