import Mathlib.Data.List.Sort

/-! # Rankings

Values in ascending order of a key, those with equal keys in the order in which they
came.  As the order is stable, selecting and ranking commute, and what lies within a
bound is a front part of the ranking: searches with growing bounds look at the same
values from the same end.
-/

namespace Foundation

variable {α κ : Type*} [LinearOrder κ] (key : α → κ)

def ranked (values : List α) : List α := values.insertionSort fun a b => key a ≤ key b

theorem mem_ranked {values : List α} {a : α} : a ∈ ranked key values ↔ a ∈ values :=
  List.mem_insertionSort _

theorem ranked_ascending (values : List α) :
    (ranked key values).Pairwise fun a b => key a ≤ key b := by
  have total : Std.Total fun a b : α => key a ≤ key b := ⟨fun a b => le_total (key a) (key b)⟩
  have transitive : IsTrans α fun a b => key a ≤ key b := ⟨fun _ _ _ => le_trans⟩
  exact List.pairwise_insertionSort _ values

/-! ## Selecting and ranking -/

theorem orderedInsert_front {a : α} {values : List α} (least : ∀ b ∈ values, key a ≤ key b) :
    values.orderedInsert (fun a b => key a ≤ key b) a = a :: values := by
  cases values with
  | nil => rfl
  | cons b rest => exact List.orderedInsert_cons_of_le _ rest (least b List.mem_cons_self)

variable (p : α → Bool)

/-- Inserting a value shows in a selection exactly if the value is selected. -/
theorem filter_orderedInsert (a : α) {values : List α}
    (ascending : values.Pairwise fun a b => key a ≤ key b) :
    (values.orderedInsert (fun a b => key a ≤ key b) a).filter p =
      if p a then (values.filter p).orderedInsert (fun a b => key a ≤ key b) a
      else values.filter p := by
  induction values with
  | nil =>
      by_cases selected : p a <;> simp [selected]
  | cons b rest ih =>
      obtain ⟨above, ascending'⟩ := List.pairwise_cons.mp ascending
      have tail := ih ascending'
      by_cases before : key a ≤ key b
      · -- everything that follows `b` comes after `a` as well
        rw [List.orderedInsert_cons_of_le _ rest before]
        have least : ∀ c ∈ (b :: rest).filter p, key a ≤ key c := by
          intro c member
          rcases List.mem_cons.mp (List.mem_filter.mp member).1 with rfl | later
          · exact before
          · exact before.trans (above c later)
        rw [orderedInsert_front key least, List.filter_cons]
      · rw [List.orderedInsert_of_not_le _ rest before]
        by_cases selected : p b
        · rw [List.filter_cons_of_pos selected, List.filter_cons_of_pos selected, tail]
          split
          · exact (List.orderedInsert_of_not_le (fun a b => key a ≤ key b) _ before).symm
          · rfl
        · rw [List.filter_cons_of_neg selected, List.filter_cons_of_neg selected, tail]

theorem filter_ranked (values : List α) :
    (ranked key values).filter p = ranked key (values.filter p) := by
  induction values with
  | nil => rfl
  | cons a rest ih =>
      have ascending := ranked_ascending key rest
      unfold ranked at ih ascending ⊢
      rw [List.insertionSort_cons, filter_orderedInsert key p a ascending, ih]
      by_cases selected : p a <;> simp [selected]

/-! ## Bounds -/

variable {key} {values : List α} (ascending : values.Pairwise fun a b => key a ≤ key b)

include ascending

theorem filter_within (bound : κ) :
    values.filter (fun a => key a ≤ bound) = values.takeWhile fun a => key a ≤ bound := by
  induction values with
  | nil => rfl
  | cons a rest ih =>
      obtain ⟨above, ascending'⟩ := List.pairwise_cons.mp ascending
      by_cases within : key a ≤ bound
      · simp [within, ih ascending']
      · have beyond : rest.filter (fun a => key a ≤ bound) = [] := by
          refine List.filter_eq_nil_iff.mpr fun b member reached => ?_
          exact within ((above b member).trans (of_decide_eq_true reached))
        simp [within, beyond]

theorem find_least {a : α} (found : values.find? p = some a) {b : α} (member : b ∈ values)
    (meets : p b = true) : key a ≤ key b := by
  obtain ⟨_, before, after, rfl, fails⟩ := List.find?_eq_some_iff_append.mp found
  obtain ⟨_, later, _⟩ := List.pairwise_append.mp ascending
  rcases List.mem_append.mp member with early | late
  · have refused := fails b early
    rw [meets] at refused
    cases refused
  · rcases List.mem_cons.mp late with rfl | late
    · exact le_refl _
    · exact (List.pairwise_cons.mp later).1 b late

/-- The first fit within a bound is the first fit of all, if that is within the bound. -/
theorem find_takeWhile_within (bound : κ) :
    (values.takeWhile fun a => key a ≤ bound).find? p =
      (values.find? p).filter fun a => key a ≤ bound := by
  induction values with
  | nil => rfl
  | cons a rest ih =>
      have tail := ih (List.pairwise_cons.mp ascending).2
      by_cases within : key a ≤ bound
      · by_cases meets : p a
        · simp [within, meets, Option.filter]
        · simp [within, meets, tail]
      · cases found : (a :: rest).find? p with
        | none => simp [within]
        | some b =>
            have nearest : key a ≤ key b := by
              rcases List.mem_cons.mp (List.mem_of_find?_eq_some found) with rfl | later
              · exact le_refl _
              · exact (List.pairwise_cons.mp ascending).1 b later
            have beyond : ¬ key b ≤ bound := fun reached => within (nearest.trans reached)
            simp [within, beyond, Option.filter]

/-- The same for the first fit among so many nearest ones. -/
theorem find_take_within (n : Nat) (bound : κ) :
    ((values.filter fun a => key a ≤ bound).take n).find? p =
      ((values.take n).find? p).filter fun a => key a ≤ bound := by
  have front : (values.take n).Pairwise fun a b => key a ≤ key b := ascending.take
  rw [filter_within ascending, List.take_takeWhile, find_takeWhile_within p front]

omit ascending

theorem find_of_take {n : Nat} {a : α} (found : (values.take n).find? p = some a) :
    values.find? p = some a := by
  rw [← List.take_append_drop n values, List.find?_append, found, Option.some_or]

/-- One of the first `n` meets `p` exactly if fewer than `n` come before the first that does. -/
theorem find_take_isSome (n : Nat) (some_meets : ∃ a ∈ values, p a = true) :
    ((values.take n).find? p).isSome ↔ (values.takeWhile fun a => !p a).length < n := by
  induction values generalizing n with
  | nil =>
      obtain ⟨_, member, _⟩ := some_meets
      cases member
  | cons a rest ih =>
      cases n with
      | zero => simp
      | succ n =>
          by_cases meets : p a
          · simp [meets]
          · have later : ∃ b ∈ rest, p b = true := by
              obtain ⟨b, member, fits⟩ := some_meets
              rcases List.mem_cons.mp member with rfl | inRest
              · exact absurd fits meets
              · exact ⟨b, inRest, fits⟩
            simpa [meets] using ih n later

end Foundation
