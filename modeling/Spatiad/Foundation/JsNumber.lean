import Mathlib.Data.ENat.Basic
import Mathlib.Data.Rat.Floor
import Mathlib.Tactic.Linarith

/-! # JavaScript numbers

A number is a rational, an infinity or no number at all, and every comparison with the
last is false.  A loop `for (i = 0; i < x; i += 1)` makes as many turns as there are whole
numbers from 0 on below `x`.
-/

namespace Foundation

inductive JsNumber where
  | nan
  | negInfinity
  | posInfinity
  | finite (value : ℚ)
  deriving DecidableEq

namespace JsNumber

def ofInt (n : Int) : JsNumber := .finite n

def lt : JsNumber → JsNumber → Bool
  | .finite a, .finite b => decide (a < b)
  | .negInfinity, .finite _ => true
  | .negInfinity, .posInfinity => true
  | .finite _, .posInfinity => true
  | _, _ => false

def le : JsNumber → JsNumber → Bool
  | .nan, _ => false
  | _, .nan => false
  | x, y => !y.lt x

/-- `Math.max` -/
def max : JsNumber → JsNumber → JsNumber
  | .nan, _ => .nan
  | _, .nan => .nan
  | x, y => if x.le y then y else x

/-- `xs.slice(0, end)`: the end is rounded towards zero, and counted from the back if negative. -/
def slice {α : Type*} (xs : List α) : JsNumber → List α
  | .nan => []
  | .negInfinity => []
  | .posInfinity => xs
  | .finite value =>
      let whole := value.num.tdiv value.den
      if whole < 0 then xs.take (xs.length + whole).toNat else xs.take whole.toNat

@[simp] theorem le_ofInt {m n : Int} : (ofInt m).le (ofInt n) = true ↔ m ≤ n := by
  simp [ofInt, le, lt]

@[simp] theorem slice_ofInt {α : Type*} (xs : List α) (n : Nat) : slice xs (ofInt n) = xs.take n := by
  simp [ofInt, slice]

/-- How many of 0, 1, 2, … are below a number. -/
def countsBelow : JsNumber → ℕ∞
  | .nan => 0
  | .negInfinity => 0
  | .posInfinity => ⊤
  | .finite value => ⌈value⌉₊

@[simp] theorem countsBelow_ofInt (n : Nat) : (ofInt n).countsBelow = n := by
  simp [ofInt, countsBelow]

theorem lt_iff_countsBelow {n : Nat} {x : JsNumber} :
    (ofInt n).lt x = true ↔ (n : ℕ∞) < x.countsBelow := by
  cases x with
  | nan | negInfinity => simp [ofInt, lt, countsBelow]
  | posInfinity => simp [ofInt, lt, countsBelow]
  | finite value => simp [ofInt, lt, countsBelow, Nat.lt_ceil]

/-- Counting up, only infinity is never reached. -/
theorem exists_not_lt {x : JsNumber} (bounded : x ≠ .posInfinity) :
    ∃ n : Nat, ∀ m : Int, n ≤ m → (ofInt m).lt x = false := by
  cases x with
  | nan | negInfinity => exact ⟨0, fun _ _ => rfl⟩
  | posInfinity => exact absurd rfl bounded
  | finite value =>
      refine ⟨⌈value⌉₊, fun m above => ?_⟩
      have bound : value ≤ m := (Nat.le_ceil value).trans (by exact_mod_cast above)
      simp [ofInt, lt, bound]

end JsNumber

end Foundation
