import Mathlib.Data.List.Sort

/-! # Pages of a log, newest first

A log that is kept oldest first is read newest first, up to a limit.  Sorting it the
other way round turns it over; filtering before or after the limit is the same iff
the page loses nothing.
-/

namespace Foundation

namespace Pages

variable {α : Type} {l : List α}

theorem orderedInsert_last {r : α → α → Prop} [DecidableRel r] {a : α} (last : ∀ b ∈ l, ¬ r a b) :
    l.orderedInsert r a = l ++ [a] := by
  induction l with
  | nil => rfl
  | cons b rest ih =>
      rw [List.orderedInsert, if_neg (last b List.mem_cons_self),
        ih fun b member => last b (List.mem_cons_of_mem _ member), List.cons_append]

theorem insertionSort_reverse {r : α → α → Prop} [DecidableRel r]
    (ascending : l.Pairwise fun a b => ¬ r a b) : l.insertionSort r = l.reverse := by
  induction l with
  | nil => rfl
  | cons a rest ih =>
      obtain ⟨first, ascending⟩ := List.pairwise_cons.mp ascending
      rw [List.insertionSort_cons, ih ascending, List.reverse_cons]
      exact orderedInsert_last fun b member => first b (List.mem_reverse.mp member)

/-- Sorting any arrangement of a sorted list gives that list, where no two different
    elements may stand either way. -/
theorem insertionSort_of_perm {m : List α} {r : α → α → Prop} [DecidableRel r] [Std.Total r]
    [IsTrans α r] (arranged : l.Perm m) (sorted : m.Pairwise r)
    (antisymm : ∀ a ∈ m, ∀ b ∈ m, r a b → r b a → a = b) : l.insertionSort r = m := by
  have perm : (l.insertionSort r).Perm m := (l.perm_insertionSort r).trans arranged
  refine perm.eq_of_pairwise ?_ (l.pairwise_insertionSort r) sorted
  intro a b inSorted inList
  exact antisymm a (perm.mem_iff.mp inSorted) b inList

/-- A page of the filtered log is the page itself iff the whole page passes the filter. -/
theorem take_filter_eq_iff (p : α → Bool) (n : Nat) (l : List α) :
    (l.filter p).take n = l.take n ↔ ∀ a ∈ l.take n, p a = true := by
  constructor
  · intro same a member
    rw [← same] at member
    exact (List.mem_filter.mp (List.mem_of_mem_take member)).2
  · intro all
    induction l generalizing n with
    | nil => rfl
    | cons a rest ih =>
        cases n with
        | zero => rfl
        | succ n =>
            have passes : p a = true := all a List.mem_cons_self
            have later := ih n fun b member => all b (List.mem_cons_of_mem _ member)
            rw [List.filter_cons_of_pos passes, List.take_succ_cons, List.take_succ_cons, later]

end Pages

end Foundation
