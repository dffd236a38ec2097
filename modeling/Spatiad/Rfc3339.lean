import Spatiad.Types
import Spatiad.Foundation.Decimal
import Mathlib.Order.Monotone.Basic
import Mathlib.Data.Int.ConditionallyCompleteOrder

/-! # Timestamps as text

`DateTime::to_rfc3339` for UTC, in the proleptic Gregorian calendar.  The number
of fraction digits varies, yet within four-digit years the texts are ordered as
the instants are.
-/

namespace Spatiad

open Foundation Decimal

/-! ## Calendar -/

/-- Days from 0000-01-01 to the first day of a year. -/
def daysBeforeYear (y : Int) : Int := 365 * y + (y + 3) / 4 - (y + 99) / 100 + (y + 399) / 400

theorem daysBeforeYear_strictMono : StrictMono daysBeforeYear := by
  apply strictMono_int_of_lt_succ
  intro y
  simp only [daysBeforeYear]
  omega

/-- The year of a day counted from 0000-01-01: an estimate and its neighbours. -/
def yearOf (days : Int) : Int :=
  let y := days * 400 / 146097
  if days < daysBeforeYear y then y - 1
  else if daysBeforeYear (y + 1) ≤ days then y + 1
  else y

theorem yearOf_spec (days : Int) :
    daysBeforeYear (yearOf days) ≤ days ∧ days < daysBeforeYear (yearOf days + 1) := by
  have lower : daysBeforeYear (days * 400 / 146097 - 1) ≤ days := by
    simp only [daysBeforeYear]
    omega
  have upper : days < daysBeforeYear (days * 400 / 146097 + 1 + 1) := by
    simp only [daysBeforeYear]
    omega
  unfold yearOf
  by_cases before : days < daysBeforeYear (days * 400 / 146097)
  · simp only [before, if_true, sub_add_cancel]
    exact ⟨lower, trivial⟩
  · by_cases after : daysBeforeYear (days * 400 / 146097 + 1) ≤ days
    · simp only [before, after, if_true, if_false, upper, and_self]
    · simp only [before, after, if_false]
      exact ⟨not_lt.mp before, not_le.mp after⟩

def monthLengths (y : Int) : List Nat :=
  let leap := y % 4 = 0 ∧ (y % 100 ≠ 0 ∨ y % 400 = 0)
  [31, if leap then 29 else 28, 31, 30, 31, 30, 31, 31, 30, 31, 30, 31]

/-- Which of the consecutive spans a position falls in, and how far into it. -/
def locate : List Nat → Nat → Nat × Nat
  | [], n => (0, n)
  | span :: rest, n =>
      if n < span then (0, n)
      else
        let (i, offset) := locate rest (n - span)
        (i + 1, offset)

theorem locate_lt {spans : List Nat} {a b : Nat} (less : a < b) :
    (locate spans a).1 < (locate spans b).1 ∨
      (locate spans a).1 = (locate spans b).1 ∧ (locate spans a).2 < (locate spans b).2 := by
  induction spans generalizing a b with
  | nil => exact .inr ⟨rfl, less⟩
  | cons span rest ih =>
      simp only [locate]
      by_cases inA : a < span
      · by_cases inB : b < span
        · simp only [inA, inB, if_true]
          exact .inr ⟨trivial, less⟩
        · simp only [inA, inB, if_true, if_false]
          exact .inl (Nat.succ_pos _)
      · have pastB : ¬ b < span := by omega
        simp only [inA, pastB, if_false]
        rcases @ih (a - span) (b - span) (by omega) with month | ⟨month, day⟩
        · exact .inl (Nat.succ_lt_succ month)
        · exact .inr ⟨congrArg Nat.succ month, day⟩

theorem locate_bounds {spans : List Nat} {n longest : Nat} (inside : n < spans.sum)
    (short : ∀ span ∈ spans, span ≤ longest) :
    (locate spans n).1 < spans.length ∧ (locate spans n).2 < longest := by
  induction spans generalizing n with
  | nil => cases inside
  | cons span rest ih =>
      simp only [locate]
      split
      · rename_i here
        exact ⟨Nat.succ_pos _, Nat.lt_of_lt_of_le here (short span List.mem_cons_self)⟩
      · have later : n - span < rest.sum := by
          rw [List.sum_cons] at inside
          omega
        obtain ⟨index, offset⟩ := ih later fun span member => short span (List.mem_cons_of_mem _ member)
        exact ⟨Nat.succ_lt_succ index, offset⟩

theorem sum_monthLengths (y : Int) :
    ((monthLengths y).sum : Int) = daysBeforeYear (y + 1) - daysBeforeYear y := by
  simp only [monthLengths, daysBeforeYear]
  split <;> simp <;> omega

theorem monthLengths_le (y : Int) : ∀ span ∈ monthLengths y, span ≤ 31 := by
  intro span member
  simp only [monthLengths, List.mem_cons, List.not_mem_nil, or_false] at member
  split at member <;> omega

theorem length_monthLengths (y : Int) : (monthLengths y).length = 12 := rfl

/-! ## Text -/

/-- Four digits, or a sign and at least four outside the years 0 to 9999. -/
def yearText (y : Int) : List Char :=
  if 0 ≤ y ∧ y ≤ 9999 then fixed 4 y.toNat
  else
    let digits := (Nat.repr y.natAbs).toList
    (if y < 0 then '-' else '+') :: List.replicate (4 - digits.length) '0' ++ digits

def dateText (days : Int) : List Char :=
  let y := yearOf days
  let (month, day) := locate (monthLengths y) (days - daysBeforeYear y).toNat
  yearText y ++ '-' :: fixed 2 (month + 1) ++ '-' :: fixed 2 (day + 1)

def timeText (second : Nat) : List Char :=
  fixed 2 (second / 3600) ++ ':' :: fixed 2 (second / 60 % 60) ++ ':' :: fixed 2 (second % 60)

/-- The shortest of no, three, six and nine digits that is exact, and the offset. -/
def fractionText (nanos : Nat) : List Char :=
  (if nanos = 0 then []
    else if nanos % 1000000 = 0 then '.' :: fixed 3 (nanos / 1000000)
    else if nanos % 1000 = 0 then '.' :: fixed 6 (nanos / 1000)
    else '.' :: fixed 9 nanos) ++ ['+', '0', '0', ':', '0', '0']

def epochDays : Int := daysBeforeYear 1970

/-- `DateTime::to_rfc3339` -/
def toRfc3339 (t : DateTime) : String :=
  let seconds := t / 1000000000
  String.ofList (dateText (seconds / 86400 + epochDays) ++
    'T' :: timeText (seconds % 86400).toNat ++ fractionText (t % 1000000000).toNat)

example : toRfc3339 1709210096123456000 = "2024-02-29T12:34:56.123456+00:00" := by decide +kernel

/-! ## Parsing -/

def readNumber (width : Nat) (text : List Char) : Option (Nat × List Char) :=
  let digits := text.take width
  if digits.length = width ∧ digits.all Char.isDigit then
    some (digits.foldl (fun n c => 10 * n + (c.toNat - 48)) 0, text.drop width)
  else none

def readChar (c : Char) : List Char → Option (List Char)
  | [] => none
  | d :: rest => if c = d then some rest else none

/-- Nanoseconds of an optional fraction; digits past the ninth are dropped. -/
def readFraction (text : List Char) : Option (Nat × List Char) :=
  match text with
  | '.' :: rest =>
      let digits := rest.takeWhile Char.isDigit
      if digits.isEmpty then none
      else
        let nine := (digits ++ List.replicate 9 '0').take 9
        some (nine.foldl (fun n c => 10 * n + (c.toNat - 48)) 0, rest.drop digits.length)
  | _ => some (0, text)

def readOffset : List Char → Option Int
  | ['Z'] => some 0
  | sign :: rest => do
      let (hours, rest) ← readNumber 2 rest
      let rest ← readChar ':' rest
      let (minutes, rest) ← readNumber 2 rest
      guard (rest = [] ∧ hours < 24 ∧ minutes < 60)
      if sign = '+' then some (hours * 3600 + minutes * 60)
      else if sign = '-' then some (-(hours * 3600 + minutes * 60))
      else none
  | [] => none

/-- `DateTime::parse_from_rfc3339`, in UTC. -/
def parseFromRfc3339 (text : String) : Option DateTime := do
  let (y, rest) ← readNumber 4 text.toList
  let rest ← readChar '-' rest
  let (month, rest) ← readNumber 2 rest
  let rest ← readChar '-' rest
  let (day, rest) ← readNumber 2 rest
  guard (1 ≤ month ∧ month ≤ 12 ∧ 1 ≤ day ∧ day ≤ (monthLengths y).getD (month - 1) 0)
  let rest ← readChar 'T' rest
  let (hour, rest) ← readNumber 2 rest
  let rest ← readChar ':' rest
  let (minute, rest) ← readNumber 2 rest
  let rest ← readChar ':' rest
  let (second, rest) ← readNumber 2 rest
  guard (hour < 24 ∧ minute < 60 ∧ second < 60)
  let (nanos, rest) ← readFraction rest
  let offset ← readOffset rest
  let days := daysBeforeYear y + ((monthLengths y).take (month - 1)).sum + (day - 1) - epochDays
  some ((days * 86400 + hour * 3600 + minute * 60 + second - offset) * 1000000000 + nanos)

example : parseFromRfc3339 "2024-02-29T15:34:56.5+03:00" = some 1709210096500000000 := by
  decide +kernel

def FourDigitYear (t : DateTime) : Prop :=
  daysBeforeYear 0 ≤ t / 1000000000 / 86400 + epochDays ∧
    t / 1000000000 / 86400 + epochDays < daysBeforeYear 10000

/-! ## Order -/

theorem yearOf_fourDigits {days : Int} (first : daysBeforeYear 0 ≤ days)
    (last : days < daysBeforeYear 10000) : 0 ≤ yearOf days ∧ yearOf days ≤ 9999 := by
  have year := yearOf_spec days
  have lowest : 0 < yearOf days + 1 :=
    daysBeforeYear_strictMono.lt_iff_lt.mp (lt_of_le_of_lt first year.2)
  have highest : yearOf days < 10000 :=
    daysBeforeYear_strictMono.lt_iff_lt.mp (lt_of_le_of_lt year.1 last)
  omega

theorem length_dateText {days : Int} (first : daysBeforeYear 0 ≤ days)
    (last : days < daysBeforeYear 10000) : (dateText days).length = 10 := by
  have four := yearOf_fourDigits first last
  simp only [dateText, yearText, four, and_self, if_true, List.length_append, List.length_cons,
    length_fixed]

theorem dateText_lt {a b : Int} (first : daysBeforeYear 0 ≤ a) (less : a < b)
    (last : b < daysBeforeYear 10000) : dateText a < dateText b := by
  have yearA := yearOf_spec a
  have yearB := yearOf_spec b
  have ordered : yearOf a < yearOf b + 1 :=
    daysBeforeYear_strictMono.lt_iff_lt.mp (lt_of_le_of_lt yearA.1 (lt_trans less yearB.2))
  have fourA := yearOf_fourDigits first (lt_trans less last)
  have fourB := yearOf_fourDigits (le_of_lt (lt_of_le_of_lt first less)) last
  simp only [dateText, yearText, fourA, fourB, and_self, if_true, List.append_assoc,
    List.cons_append]
  rcases lt_or_eq_of_le (Int.lt_add_one_iff.mp ordered) with earlier | same
  · exact lt_append_of_lt (by simp) (@fixed_lt 4 _ _ (by omega) (by omega)) _ _
  · have dayBefore : (a - daysBeforeYear (yearOf b)).toNat < (b - daysBeforeYear (yearOf b)).toNat := by
      rw [same] at yearA
      omega
    have inside : (b - daysBeforeYear (yearOf b)).toNat < (monthLengths (yearOf b)).sum := by
      have total := sum_monthLengths (yearOf b)
      omega
    obtain ⟨month, day⟩ := locate_bounds inside (monthLengths_le (yearOf b))
    rw [length_monthLengths] at month
    rw [same]
    refine List.append_left_lt (cons_lt_cons_same _ ?_)
    rcases @locate_lt (monthLengths (yearOf b)) _ _ dayBefore with monthLess | ⟨sameMonth, dayLess⟩
    · exact lt_append_of_lt (by simp) (@fixed_lt 2 _ _ (by omega) (by omega)) _ _
    · rw [sameMonth]
      exact List.append_left_lt (cons_lt_cons_same _ (@fixed_lt 2 _ _ (by omega) (by omega)))

theorem timeText_lt {a b : Nat} (less : a < b) (last : b < 86400) : timeText a < timeText b := by
  simp only [timeText, List.append_assoc, List.cons_append]
  have hours : a / 3600 ≤ b / 3600 := Nat.div_le_div_right (Nat.le_of_lt less)
  rcases Nat.lt_or_eq_of_le hours with earlier | same
  · exact lt_append_of_lt (by simp) (@fixed_lt 2 _ _ earlier (by omega)) _ _
  · rw [same]
    refine List.append_left_lt (cons_lt_cons_same _ ?_)
    have minutes : a / 60 % 60 ≤ b / 60 % 60 := by omega
    rcases Nat.lt_or_eq_of_le minutes with earlier | same
    · exact lt_append_of_lt (by simp) (@fixed_lt 2 _ _ earlier (by omega)) _ _
    · rw [same]
      exact List.append_left_lt (cons_lt_cons_same _ (@fixed_lt 2 _ _ (by omega) (by omega)))

@[simp] theorem length_timeText (second : Nat) : (timeText second).length = 8 := by
  simp [timeText]

/-- A fraction of `width` digits, exact for `nanos`. -/
structure Fraction (nanos width : Nat) : Prop where
  text : fractionText nanos =
    '.' :: fixed width (nanos / 10 ^ (9 - width)) ++ ['+', '0', '0', ':', '0', '0']
  exact : nanos / 10 ^ (9 - width) * 10 ^ (9 - width) = nanos
  width : width ≤ 9

theorem fraction_cases {nanos : Nat} (some_nanos : nanos ≠ 0) : ∃ width, Fraction nanos width := by
  by_cases millis : nanos % 1000000 = 0
  · refine ⟨3, ?_, ?_, by decide⟩
    · simp [fractionText, some_nanos, millis]
    · omega
  · by_cases micros : nanos % 1000 = 0
    · refine ⟨6, ?_, ?_, by decide⟩
      · simp [fractionText, some_nanos, millis, micros]
      · omega
    · refine ⟨9, ?_, ?_, by decide⟩
      · simp [fractionText, some_nanos, millis, micros]
      · simp

/-- Where a longer fraction goes on, a shorter one has its offset sign. -/
theorem plus_lt_digit {d : Nat} (small : d < 10) : '+' < digit d := by
  interval_cases d <;> decide

theorem fractionText_lt {a b : Nat} (less : a < b) (last : b < 1000000000) :
    fractionText a < fractionText b := by
  have positive : b ≠ 0 := Nat.ne_of_gt (Nat.lt_of_le_of_lt (Nat.zero_le a) less)
  obtain ⟨widthB, textB, exactB, shortB⟩ := fraction_cases positive
  by_cases whole : a = 0
  · subst whole
    rw [textB]
    simp only [fractionText, if_true, List.nil_append, List.cons_append, List.cons_lt_cons_iff]
    exact .inl (by decide)
  · obtain ⟨widthA, textA, exactA, shortA⟩ := fraction_cases whole
    rw [textA, textB]
    exact cons_lt_cons_same _
      (fraction_lt less last shortA shortB exactA exactB (fun _ => plus_lt_digit) _ _)

theorem toRfc3339_lt {a b : Int} (less : a < b) (first : FourDigitYear a)
    (last : FourDigitYear b) : toRfc3339 a < toRfc3339 b := by
  have seconds : a / 1000000000 ≤ b / 1000000000 := by omega
  rw [String.lt_iff]
  simp only [toRfc3339, String.toList_ofList, List.append_assoc, List.cons_append]
  rcases lt_or_eq_of_le seconds with earlier | same
  · have days : a / 1000000000 / 86400 ≤ b / 1000000000 / 86400 := by omega
    rcases lt_or_eq_of_le days with earlierDay | sameDay
    · refine lt_append_of_lt ?_ (dateText_lt first.1 (by omega) last.2) _ _
      rw [length_dateText first.1 first.2, length_dateText last.1 last.2]
    · rw [sameDay]
      refine List.append_left_lt (cons_lt_cons_same _ (lt_append_of_lt (by simp) ?_ _ _))
      exact timeText_lt (by omega) (by omega)
  · rw [same]
    refine List.append_left_lt (cons_lt_cons_same _ (List.append_left_lt ?_))
    exact fractionText_lt (by omega) (by omega)

theorem toRfc3339_injective {a b : Int} (first : FourDigitYear a) (last : FourDigitYear b)
    (same : toRfc3339 a = toRfc3339 b) : a = b := by
  rcases lt_trichotomy a b with less | equal | more
  · exact absurd (same ▸ toRfc3339_lt less first last) (String.lt_irrefl _)
  · exact equal
  · exact absurd (same ▸ toRfc3339_lt more last first) (String.lt_irrefl _)

end Spatiad
