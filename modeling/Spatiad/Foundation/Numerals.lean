import Mathlib.Tactic.Common
import Mathlib.Data.List.TakeWhile

/-! # Decimal numerals

What a parser finds in a text of decimal digits, and that it finds the number a
printer wrote.
-/

namespace Foundation.Numeral

/-- The number that the leading digits of a text spell, if it has any. -/
def leading (text : List Char) : Option Nat :=
  let digits := text.takeWhile Char.isDigit
  if digits.isEmpty then none else some (Nat.ofDigitChars 10 digits 0)

/-- The number that a text of nothing but digits spells. -/
def whole (text : List Char) : Option Nat :=
  if text.isEmpty || !text.all Char.isDigit then none else some (Nat.ofDigitChars 10 text 0)

theorem all_isDigit_toDigits (n : Nat) : (Nat.toDigits 10 n).all Char.isDigit = true := by
  rw [List.all_eq_true]
  intro c member
  exact Nat.isDigit_of_mem_toDigits (by omega) (by omega) member

theorem leading_toDigits (n : Nat) : leading (Nat.toDigits 10 n) = some n := by
  have all : (Nat.toDigits 10 n).takeWhile Char.isDigit = Nat.toDigits 10 n := by
    rw [List.takeWhile_eq_self_iff]
    exact fun c member => List.all_eq_true.mp (all_isDigit_toDigits n) c member
  simp [leading, all]

theorem whole_toDigits (n : Nat) : whole (Nat.toDigits 10 n) = some n := by
  simp [whole, all_isDigit_toDigits]

theorem head_toDigits (n : Nat) : ∃ d rest, Nat.toDigits 10 n = d :: rest ∧ d.isDigit = true := by
  cases digits : Nat.toDigits 10 n with
  | nil => exact absurd digits Nat.toDigits_ne_nil
  | cons d rest =>
      have isDigit := all_isDigit_toDigits n
      rw [digits, List.all_cons, Bool.and_eq_true] at isDigit
      exact ⟨d, rest, rfl, isDigit.1⟩

end Foundation.Numeral
