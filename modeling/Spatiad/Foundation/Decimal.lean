import Mathlib.Tactic.Common
import Mathlib.Data.List.Basic
import Mathlib.Tactic.IntervalCases

/-! # Fixed-width decimals and the order of texts

Texts made of fields of fixed width compare like the tuples of their fields, and
a decimal padded to a fixed width compares like its number.
-/

namespace Foundation

/-! ## Texts field by field -/

theorem lt_append_of_lt {a b : List Char} (same : a.length = b.length) (less : a < b)
    (x y : List Char) : a ++ x < b ++ y := by
  induction a generalizing b with
  | nil =>
      cases b with
      | nil => exact absurd less (List.lt_irrefl [])
      | cons => cases same
  | cons c a ih =>
      cases b with
      | nil => cases same
      | cons d b =>
          simp only [List.cons_append, List.cons_lt_cons_iff] at less ⊢
          rcases less with head | ⟨rfl, tail⟩
          · exact .inl head
          · exact .inr ⟨rfl, ih (Nat.succ.inj same) tail⟩

theorem cons_lt_cons_same (c : Char) {x y : List Char} (less : x < y) : c :: x < c :: y :=
  List.cons_lt_cons_iff.mpr (.inr ⟨rfl, less⟩)

namespace Decimal

def digit (d : Nat) : Char := Char.ofNat (48 + d)

theorem digit_lt {d e : Nat} (less : d < e) (small : e < 10) : digit d < digit e := by
  interval_cases e <;> interval_cases d <;> decide

/-- The last `width` decimal digits of `n`. -/
def fixed : (width n : Nat) → List Char
  | 0, _ => []
  | width + 1, n => digit (n / 10 ^ width % 10) :: fixed width n

@[simp] theorem length_fixed (width n : Nat) : (fixed width n).length = width := by
  induction width with
  | zero => rfl
  | succ width ih => simp only [fixed, List.length_cons, ih]

theorem fixed_mod (width n : Nat) : ∀ more, fixed width (n % 10 ^ (width + more)) = fixed width n := by
  induction width with
  | zero => intro more; rfl
  | succ width ih =>
      intro more
      have tail := ih (more + 1)
      rw [Nat.add_right_comm, Nat.add_assoc width more 1] at *
      simp only [fixed, tail]
      congr 2
      have split : 10 ^ (width + (more + 1)) = 10 ^ width * (10 * 10 ^ more) := by
        rw [pow_add, pow_succ']
      rw [split, Nat.mod_mul_right_div_self, Nat.mod_mul_right_mod]

theorem fixed_add (width more n : Nat) :
    fixed (width + more) n = fixed width (n / 10 ^ more) ++ fixed more n := by
  induction width with
  | zero => simp [fixed]
  | succ width ih =>
      rw [Nat.add_right_comm, fixed, fixed, ih, Nat.div_div_eq_div_mul, ← pow_add, Nat.add_comm more]
      rfl

theorem fixed_lt {width a b : Nat} (less : a < b) (fits : b < 10 ^ width) :
    fixed width a < fixed width b := by
  induction width generalizing a b with
  | zero =>
      simp only [pow_zero] at fits
      omega
  | succ width ih =>
      have positive : 0 < 10 ^ width := Nat.pow_pos (by decide)
      rw [pow_succ] at fits
      have small : b / 10 ^ width < 10 := Nat.div_lt_of_lt_mul fits
      have ordered : a / 10 ^ width ≤ b / 10 ^ width := Nat.div_le_div_right (Nat.le_of_lt less)
      simp only [fixed, List.cons_lt_cons_iff]
      rw [Nat.mod_eq_of_lt small, Nat.mod_eq_of_lt (Nat.lt_of_le_of_lt ordered small)]
      rcases Nat.lt_or_eq_of_le ordered with leading | leading
      · exact .inl (digit_lt leading small)
      · refine .inr ⟨congrArg digit leading, ?_⟩
        have rest : a % 10 ^ width < b % 10 ^ width := by
          have ha := Nat.div_add_mod a (10 ^ width)
          have hb := Nat.div_add_mod b (10 ^ width)
          rw [leading] at ha
          omega
        have step := ih rest (Nat.mod_lt _ positive)
        have drop_a := fixed_mod width a 0
        have drop_b := fixed_mod width b 0
        rw [Nat.add_zero] at drop_a drop_b
        rwa [drop_a, drop_b] at step

/-! Fractions of a unit of `10 ^ places`, written with as many leading digits as
make them exact. -/

theorem fixed_places {width more places : Nat} (fits : width + more ≤ places) (n : Nat) :
    fixed (width + more) (n / 10 ^ (places - (width + more))) =
      fixed width (n / 10 ^ (places - width)) ++
        fixed more (n / 10 ^ (places - (width + more))) := by
  rw [fixed_add, Nat.div_div_eq_div_mul, ← pow_add]
  congr 4
  omega

/-- Exact fractions of any widths compare like their numbers when what ends them sorts
    before every digit. -/
theorem fraction_lt {places widthA widthB a b : Nat} (less : a < b) (fits : b < 10 ^ places)
    (shortA : widthA ≤ places) (shortB : widthB ≤ places)
    (exactA : a / 10 ^ (places - widthA) * 10 ^ (places - widthA) = a)
    (exactB : b / 10 ^ (places - widthB) * 10 ^ (places - widthB) = b)
    {stop : Char} (before : ∀ d < 10, stop < digit d) (x y : List Char) :
    fixed widthA (a / 10 ^ (places - widthA)) ++ stop :: x <
      fixed widthB (b / 10 ^ (places - widthB)) ++ stop :: y := by
  have room : ∀ width ≤ places, b / 10 ^ (places - width) < 10 ^ width := by
    intro width short
    apply Nat.div_lt_of_lt_mul
    rwa [← pow_add, Nat.sub_add_cancel short]
  have ordered : ∀ width, a / 10 ^ (places - width) ≤ b / 10 ^ (places - width) :=
    fun width => Nat.div_le_div_right (Nat.le_of_lt less)
  rcases Nat.le_total widthA widthB with longer | shorter
  · obtain ⟨more, rfl⟩ := Nat.exists_eq_add_of_le longer
    rw [fixed_places shortB, List.append_assoc]
    rcases Nat.lt_or_eq_of_le (ordered widthA) with leading | leading
    · exact lt_append_of_lt (by simp) (fixed_lt leading (room widthA shortA)) _ _
    · -- the longer one goes on with a digit
      rw [leading]
      apply List.append_left_lt
      cases more with
      | zero =>
          rw [Nat.add_zero, ← leading, exactA] at exactB
          omega
      | succ more =>
          rw [fixed, List.cons_append, List.cons_lt_cons_iff]
          exact .inl (before _ (Nat.mod_lt _ (by decide)))
  · obtain ⟨more, rfl⟩ := Nat.exists_eq_add_of_le shorter
    rw [fixed_places shortA, List.append_assoc]
    rcases Nat.lt_or_eq_of_le (ordered widthB) with leading | leading
    · exact lt_append_of_lt (by simp) (fixed_lt leading (room widthB shortB)) _ _
    · have atMost : b ≤ a := by
        rw [← exactB, ← leading]
        exact Nat.div_mul_le_self _ _
      omega

end Decimal

end Foundation
