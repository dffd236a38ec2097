import Spatiad.Rfc3339

/-! # Timestamps are read back

What is printed for an instant of a four-digit year is parsed as that instant: each
field is read off the text that the one before it left.
-/

namespace Spatiad

open Foundation Decimal

/-! ## Numbers -/

theorem digit_value {d : Nat} (small : d < 10) : (digit d).toNat - 48 = d := by
  interval_cases d <;> rfl

theorem isDigit_digit {d : Nat} (small : d < 10) : (digit d).isDigit = true := by
  interval_cases d <;> rfl

theorem all_isDigit_fixed (width n : Nat) : (fixed width n).all Char.isDigit = true := by
  induction width with
  | zero => rfl
  | succ width ih =>
      rw [fixed, List.all_cons, ih, isDigit_digit (Nat.mod_lt _ (by decide))]
      rfl

theorem foldl_fixed (width n before : Nat) :
    (fixed width n).foldl (fun n c => 10 * n + (c.toNat - 48)) before =
      before * 10 ^ width + n % 10 ^ width := by
  induction width generalizing before with
  | zero => simp [fixed, Nat.mod_one]
  | succ width ih =>
      have leading : n % (10 ^ width * 10) = n / 10 ^ width % 10 * 10 ^ width + n % 10 ^ width := by
        rw [Nat.mod_mul]
        ring
      rw [fixed, List.foldl_cons, ih, digit_value (Nat.mod_lt _ (by decide)), pow_succ, leading]
      ring

theorem readNumber_fixed {width n : Nat} (fits : n < 10 ^ width) (rest : List Char) :
    readNumber width (fixed width n ++ rest) = some (n, rest) := by
  have digits : (fixed width n ++ rest).take width = fixed width n :=
    List.take_left' (length_fixed width n)
  have after : (fixed width n ++ rest).drop width = rest := List.drop_left' (length_fixed width n)
  unfold readNumber
  simp only [digits, after, length_fixed, all_isDigit_fixed, and_self, if_true, foldl_fixed,
    Nat.zero_mul, Nat.zero_add, Nat.mod_eq_of_lt fits]

theorem readChar_cons (c : Char) (rest : List Char) : readChar c (c :: rest) = some rest :=
  if_pos rfl

/-! ## Fractions -/

theorem takeWhile_fixed (width n : Nat) {stop : Char} (ends : stop.isDigit = false)
    (rest : List Char) : (fixed width n ++ stop :: rest).takeWhile Char.isDigit = fixed width n := by
  rw [List.takeWhile_append_of_pos fun c member => List.all_eq_true.mp (all_isDigit_fixed width n) c member,
    List.takeWhile_cons_of_neg (by rw [ends]; decide), List.append_nil]

/-- A fraction of nanoseconds that its first digits make exact. -/
theorem readFraction_fixed {width nanos : Nat} (positive : 0 < width) (short : width ≤ 9)
    (exact : nanos / 10 ^ (9 - width) * 10 ^ (9 - width) = nanos) (fits : nanos < 10 ^ 9)
    {stop : Char} (ends : stop.isDigit = false) (rest : List Char) :
    readFraction ('.' :: fixed width (nanos / 10 ^ (9 - width)) ++ stop :: rest) =
      some (nanos, stop :: rest) := by
  have zeros : List.replicate 9 '0' = List.replicate (9 - width) '0' ++ List.replicate width '0' := by
    rw [List.replicate_append_replicate]
    congr 1
    omega
  have nine : (fixed width (nanos / 10 ^ (9 - width)) ++ List.replicate 9 '0').take 9 =
      fixed width (nanos / 10 ^ (9 - width)) ++ List.replicate (9 - width) '0' := by
    rw [zeros, ← List.append_assoc]
    apply List.take_left'
    rw [List.length_append, length_fixed, List.length_replicate]
    omega
  have padded : ∀ count before : Nat, (List.replicate count '0').foldl
      (fun n c => 10 * n + (c.toNat - 48)) before = before * 10 ^ count := by
    intro count
    induction count with
    | zero => simp
    | succ count ih =>
        intro before
        rw [List.replicate_succ, List.foldl_cons, ih, pow_succ]
        simp only [show '0'.toNat - 48 = 0 from rfl, Nat.add_zero]
        ring
  have small : nanos / 10 ^ (9 - width) < 10 ^ width := by
    apply Nat.div_lt_of_lt_mul
    rwa [← pow_add, Nat.sub_add_cancel short]
  have nonempty : (fixed width (nanos / 10 ^ (9 - width))).isEmpty = false := by
    rw [← Bool.not_eq_true, List.isEmpty_iff_length_eq_zero, length_fixed]
    omega
  simp only [readFraction, List.cons_append, takeWhile_fixed _ _ ends, nonempty, Bool.false_eq_true,
    if_false, nine, List.foldl_append, foldl_fixed, padded, Nat.zero_mul, Nat.zero_add,
    Nat.mod_eq_of_lt small, exact, length_fixed]
  rw [List.drop_left' (length_fixed _ _)]

theorem readFraction_fractionText {nanos : Nat} (fits : nanos < 1000000000) :
    readFraction (fractionText nanos) = some (nanos, ['+', '0', '0', ':', '0', '0']) := by
  by_cases whole : nanos = 0
  · subst whole
    rfl
  · obtain ⟨width, text, exact, short⟩ := fraction_cases whole
    rw [text]
    refine readFraction_fixed ?_ short exact fits rfl _
    rcases Nat.eq_zero_or_pos width with rfl | positive
    · omega
    · exact positive

/-! ## Dates -/

theorem locate_spec {spans : List Nat} {n : Nat} (inside : n < spans.sum) :
    (spans.take (locate spans n).1).sum + (locate spans n).2 = n ∧
      (locate spans n).2 < spans.getD (locate spans n).1 0 := by
  induction spans generalizing n with
  | nil => cases inside
  | cons span rest ih =>
      simp only [locate]
      split
      · rename_i here
        exact ⟨Nat.zero_add n, here⟩
      · have later : n - span < rest.sum := by
          rw [List.sum_cons] at inside
          omega
        obtain ⟨sum, within⟩ := ih later
        refine ⟨?_, within⟩
        rw [List.take_succ_cons, List.sum_cons]
        omega

/-- The fields of a day, and that they give it back. -/
structure Date (days : Int) (y month day : Nat) : Prop where
  text : dateText days = fixed 4 y ++ '-' :: fixed 2 (month + 1) ++ '-' :: fixed 2 (day + 1)
  yearFits : y < 10000
  monthFits : month < 12
  inMonth : day < (monthLengths y).getD month 0
  dayFits : day < 31
  sum : daysBeforeYear y + ((monthLengths y).take month).sum + day = days

theorem date_cases {days : Int} (first : daysBeforeYear 0 ≤ days) (last : days < daysBeforeYear 10000) :
    ∃ y month day, Date days y month day := by
  have year := yearOf_spec days
  have four := yearOf_fourDigits first last
  have same : ((yearOf days).toNat : Int) = yearOf days := Int.toNat_of_nonneg four.1
  have inside : (days - daysBeforeYear (yearOf days)).toNat < (monthLengths (yearOf days)).sum := by
    have total := sum_monthLengths (yearOf days)
    omega
  obtain ⟨sum, within⟩ := locate_spec inside
  obtain ⟨index, short⟩ := locate_bounds inside (monthLengths_le (yearOf days))
  refine ⟨(yearOf days).toNat, (locate (monthLengths (yearOf days))
    (days - daysBeforeYear (yearOf days)).toNat).1, (locate (monthLengths (yearOf days))
    (days - daysBeforeYear (yearOf days)).toNat).2, ?_, ?_, index, ?_, short, ?_⟩
  · simp only [dateText, yearText, four, and_self, if_true]
  · omega
  · rw [same]
    exact within
  · rw [same]
    omega

/-! ## The whole text -/

theorem read_next {α γ : Type} {read : Option α} {a : α} {f : α → Option γ} {c : γ}
    (reads : read = some a) (rest : f a = some c) : (read >>= f) = some c := by
  rw [reads]
  exact rest

theorem parseFromRfc3339_toRfc3339 {t : Int} (year : FourDigitYear t) :
    parseFromRfc3339 (toRfc3339 t) = some t := by
  obtain ⟨y, month, day, date⟩ := date_cases year.1 year.2
  have monthFits := date.monthFits
  have dayFits := date.dayFits
  have inMonth := date.inMonth
  have sum := date.sum
  obtain ⟨second, secondEq⟩ : ∃ second : Nat, (t / 1000000000 % 86400).toNat = second := ⟨_, rfl⟩
  obtain ⟨nanos, nanosEq⟩ : ∃ nanos : Nat, (t % 1000000000).toNat = nanos := ⟨_, rfl⟩
  have yearRead := @readNumber_fixed 4 y date.yearFits
  have monthRead := @readNumber_fixed 2 (month + 1) (by omega)
  have dayRead := @readNumber_fixed 2 (day + 1) (by omega)
  have hourRead := @readNumber_fixed 2 (second / 3600) (by omega)
  have minuteRead := @readNumber_fixed 2 (second / 60 % 60) (by omega)
  have secondRead := @readNumber_fixed 2 (second % 60) (by omega)
  have fractionRead := @readFraction_fractionText nanos (by omega)
  have dateValid : 1 ≤ month + 1 ∧ month + 1 ≤ 12 ∧ 1 ≤ day + 1 ∧
      day + 1 ≤ (monthLengths y).getD month 0 := by omega
  have timeValid : second / 3600 < 24 ∧ second / 60 % 60 < 60 ∧ second % 60 < 60 := by omega
  have value : ((daysBeforeYear y + ((monthLengths y).take month).sum + ((day + 1 : Nat) - 1) -
      epochDays) * 86400 + (second / 3600 : Nat) * 3600 + (second / 60 % 60 : Nat) * 60 +
        (second % 60 : Nat) - 0) * 1000000000 + nanos = t := by omega
  have utc : readOffset ['+', '0', '0', ':', '0', '0'] = some 0 := rfl
  have text : (toRfc3339 t).toList = fixed 4 y ++ '-' :: (fixed 2 (month + 1) ++ '-' ::
      (fixed 2 (day + 1) ++ 'T' :: (fixed 2 (second / 3600) ++ ':' :: (fixed 2 (second / 60 % 60) ++
        ':' :: (fixed 2 (second % 60) ++ fractionText nanos))))) := by
    simp only [toRfc3339, String.toList_ofList, date.text, timeText, secondEq, nanosEq,
      List.append_assoc, List.cons_append]
  rw [parseFromRfc3339, text]
  apply read_next (yearRead _)
  apply read_next (readChar_cons _ _)
  apply read_next (monthRead _)
  apply read_next (readChar_cons _ _)
  apply read_next (dayRead _)
  apply read_next (if_pos dateValid)
  apply read_next (readChar_cons _ _)
  apply read_next (hourRead _)
  apply read_next (readChar_cons _ _)
  apply read_next (minuteRead _)
  apply read_next (readChar_cons _ _)
  apply read_next (secondRead _)
  apply read_next (if_pos timeValid)
  apply read_next fractionRead
  apply read_next utc
  exact congrArg some value

end Spatiad
