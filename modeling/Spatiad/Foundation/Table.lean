import Mathlib.Order.Lattice
import Mathlib.Data.List.Basic

/-! # Tables with a primary key

Rows are kept in the order of their keys, so no two share one.  Inserting fails
on a key in use, upserting replaces its row.
-/

namespace Foundation

/-- Rows in strictly ascending order of their keys. -/
structure Table (κ ρ : Type) [LinearOrder κ] where
  rows : List (κ × ρ)
  sorted : rows.Pairwise fun a b => a.1 < b.1

namespace Table

variable {κ ρ : Type} [LinearOrder κ] {t : Table κ ρ} {k : κ} {r : ρ}

def empty : Table κ ρ := ⟨[], List.Pairwise.nil⟩

def keys (t : Table κ ρ) : List κ := t.rows.map Prod.fst

/-- `INSERT OR REPLACE` -/
def upsert (t : Table κ ρ) (k : κ) (r : ρ) : Table κ ρ where
  rows := t.rows.filter (fun row => row.1 < k) ++ (k, r) :: t.rows.filter (fun row => k < row.1)
  sorted := by
    refine List.pairwise_append.mpr ⟨t.sorted.filter _, List.Pairwise.cons ?_ (t.sorted.filter _), ?_⟩
    · intro row member
      exact of_decide_eq_true (List.mem_filter.mp member).2
    · intro a before b after
      have below : a.1 < k := of_decide_eq_true (List.mem_filter.mp before).2
      rcases List.mem_cons.mp after with rfl | after
      · exact below
      · exact lt_trans below (of_decide_eq_true (List.mem_filter.mp after).2)

/-- `INSERT`, which a unique key can refuse. -/
def insert (t : Table κ ρ) (k : κ) (r : ρ) : Option (Table κ ρ) :=
  if k ∈ t.keys then none else some (t.upsert k r)

/-- The rows a `WHERE` clause keeps. -/
def restrict (t : Table κ ρ) (p : κ → Bool) : Table κ ρ where
  rows := t.rows.filter fun row => p row.1
  sorted := t.sorted.filter _

/-- The last `n` rows. -/
def newest (t : Table κ ρ) (n : Nat) : Table κ ρ where
  rows := t.rows.drop (t.rows.length - n)
  sorted := t.sorted.drop

theorem rows_split (t : Table κ ρ) (k : κ) :
    t.rows.filter (fun row => row.1 < k) ++ t.rows.filter (fun row => row.1 = k) ++
      t.rows.filter (fun row => k < row.1) = t.rows := by
  obtain ⟨rows, sorted⟩ := t
  induction rows with
  | nil => rfl
  | cons row rest ih =>
      obtain ⟨above, sorted⟩ := List.pairwise_cons.mp sorted
      have tail := ih sorted
      have noneUpTo : (∀ other ∈ rest, k < other.1) →
          rest.filter (fun row => row.1 < k) = [] ∧ rest.filter (fun row => row.1 = k) = [] := by
        intro restAbove
        simp only [List.filter_eq_nil_iff, decide_eq_true_eq]
        exact ⟨fun other member => not_lt_of_gt (restAbove other member),
          fun other member => ne_of_gt (restAbove other member)⟩
      rcases lt_trichotomy row.1 k with below | same | beyond
      · have notSame : row.1 ≠ k := ne_of_lt below
        have notAbove : ¬ k < row.1 := not_lt_of_gt below
        simpa [below, notSame, notAbove] using tail
      · obtain ⟨noneBelow, noneSame⟩ := noneUpTo fun other member => same ▸ above other member
        simpa [same, noneBelow, noneSame] using tail
      · obtain ⟨noneBelow, noneSame⟩ := noneUpTo fun other member =>
          lt_trans beyond (above other member)
        have notBelow : ¬ row.1 < k := not_lt_of_gt beyond
        have notSame : row.1 ≠ k := ne_of_gt beyond
        simpa [beyond, notBelow, notSame, noneBelow, noneSame] using tail

theorem upsert_perm (unused : k ∉ t.keys) : (t.upsert k r).rows.Perm ((k, r) :: t.rows) := by
  have at_key : t.rows.filter (fun row => row.1 = k) = [] := by
    refine List.filter_eq_nil_iff.mpr fun row member same => ?_
    exact unused (List.mem_map.mpr ⟨row, member, of_decide_eq_true same⟩)
  have all := rows_split t k
  rw [at_key, List.append_nil] at all
  conv_rhs => rw [← all]
  exact List.perm_middle

theorem restrict_upsert_other (p : κ → Bool) (out : p k = false) :
    ((t.upsert k r).restrict p).rows = (t.restrict p).rows := by
  have at_key : (t.rows.filter fun row => row.1 = k).filter (fun row => p row.1) = [] := by
    refine List.filter_eq_nil_iff.mpr fun row member => ?_
    have same := of_decide_eq_true (List.mem_filter.mp member).2
    simp [same, out]
  simp only [restrict]
  conv_rhs => rw [← rows_split t k]
  simp only [upsert, List.filter_append, List.filter_cons, out, at_key, List.append_nil,
    Bool.false_eq_true, if_false]

theorem restrict_upsert_top (p : κ → Bool) (inside : p k = true)
    (above : ∀ row ∈ t.rows, p row.1 = true → row.1 < k) :
    ((t.upsert k r).restrict p).rows = (t.restrict p).rows ++ [(k, r)] := by
  have at_key : (t.rows.filter fun row => row.1 = k).filter (fun row => p row.1) = [] := by
    refine List.filter_eq_nil_iff.mpr fun row member selected => ?_
    obtain ⟨member, same⟩ := List.mem_filter.mp member
    exact ne_of_lt (above row member selected) (of_decide_eq_true same)
  have beyond : (t.rows.filter fun row => k < row.1).filter (fun row => p row.1) = [] := by
    refine List.filter_eq_nil_iff.mpr fun row member selected => ?_
    obtain ⟨member, more⟩ := List.mem_filter.mp member
    exact lt_asymm (above row member selected) (of_decide_eq_true more)
  simp only [restrict]
  conv_rhs => rw [← rows_split t k]
  simp only [upsert, List.filter_append, List.filter_cons, inside, at_key, beyond, List.append_nil,
    if_true]

theorem rows_upsert_above (above : ∀ row ∈ t.rows, row.1 < k) :
    (t.upsert k r).rows = t.rows ++ [(k, r)] := by
  have kept : t.rows.filter (fun row => row.1 < k) = t.rows :=
    List.filter_eq_self.mpr fun row member => decide_eq_true (above row member)
  have none_above : t.rows.filter (fun row => k < row.1) = [] :=
    List.filter_eq_nil_iff.mpr fun row member => by
      have := not_lt_of_gt (above row member)
      simpa using this
  simp only [upsert, kept, none_above]

theorem insert_above (above : ∀ row ∈ t.rows, row.1 < k) :
    t.insert k r = some (t.upsert k r) := by
  unfold insert
  rw [if_neg]
  intro used
  obtain ⟨row, member, rfl⟩ := List.mem_map.mp used
  exact lt_irrefl _ (above row member)

theorem getLast_upsert (top : ∀ row ∈ t.rows, row.1 ≤ k) :
    (t.upsert k r).rows.getLast? = some (k, r) := by
  have none_above : t.rows.filter (fun row => k < row.1) = [] :=
    List.filter_eq_nil_iff.mpr fun row member => by
      have := not_lt_of_ge (top row member)
      simpa using this
  simp only [upsert, none_above, List.getLast?_concat]

theorem mem_upsert {row : κ × ρ} (member : row ∈ (t.upsert k r).rows) :
    row = (k, r) ∨ row ∈ t.rows := by
  rcases List.mem_append.mp member with before | after
  · exact .inr (List.mem_filter.mp before).1
  · rcases List.mem_cons.mp after with rfl | after
    · exact .inl rfl
    · exact .inr (List.mem_filter.mp after).1

theorem mem_newest {n : Nat} {row : κ × ρ} (member : row ∈ (t.newest n).rows) : row ∈ t.rows :=
  List.mem_of_mem_drop member

theorem le_getLast {last : κ × ρ} (isLast : t.rows.getLast? = some last) :
    ∀ row ∈ t.rows, row.1 ≤ last.1 := by
  intro row member
  obtain ⟨front, split⟩ := List.getLast?_eq_some_iff.mp isLast
  have sorted := t.sorted
  rw [split] at sorted member
  rcases List.mem_append.mp member with before | here
  · exact le_of_lt ((List.pairwise_append.mp sorted).2.2 row before last List.mem_cons_self)
  · exact le_of_eq (congrArg Prod.fst (List.mem_singleton.mp here))

theorem getLast_newest {n : Nat} (some_kept : 0 < n) :
    (t.newest n).rows.getLast? = t.rows.getLast? := by
  simp only [newest, List.getLast?_drop]
  split
  · rename_i short
    have nil : t.rows = [] := List.length_eq_zero_iff.mp (by omega)
    simp [nil]
  · rfl

end Table

end Foundation
