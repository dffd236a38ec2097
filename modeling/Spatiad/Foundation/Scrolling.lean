import Spatiad.Foundation.Paging

/-! # Reading down a log that moves

A log, newest first, gains elements at its top and loses some at its bottom.  A reader who
always asks for the page below the last element it has never sees what is gained, and what
it has is the top of the log as it first was.
-/

namespace Foundation.Scrolling

open Foundation.Paging

variable {α κ : Type*} [LinearOrder κ] {key : α → κ} {first later : List α}

/-- What became of the first log: newer elements above what is left of it. -/
def Scrolled (key : α → κ) (first later : List α) : Prop :=
  ∃ gained left, later = gained ++ first.take left ∧ ∀ a ∈ gained, ∀ b ∈ first, key b < key a

/-- The place of a reader who has the first `n` elements. -/
def place (key : α → κ) (first : List α) (n : Nat) : Option κ := (first.take n).getLast?.map key

omit [LinearOrder κ] in
theorem place_eq_some {n : Nat} {c : κ} (at_ : place key first n = some c) :
    ∃ b, (first.take n).getLast? = some b ∧ key b = c :=
  Option.map_eq_some_iff.mp at_

/-! ## One page -/

variable (descending : first.Pairwise fun a b => key b < key a)
include descending

theorem below_place {n : Nat} {b : α} (last : (first.take n).getLast? = some b) (left : Nat) :
    ((first.take left).filter fun a => decide (∀ c ∈ some (key b), key a < c)) =
      (first.take left).drop n := by
  obtain ⟨front, split⟩ := List.getLast?_eq_some_iff.mp last
  have top : ∀ a ∈ first.take n, ¬ key a < key b := fun a member =>
    not_lt_of_ge (le_of_getLast (descending.take) last member)
  have rest : ∀ a ∈ first.drop n, key a < key b := by
    intro a member
    have apart := descending
    rw [← List.take_append_drop n first] at apart
    exact (List.pairwise_append.mp apart).2.2 b (List.mem_of_getLast? last) a member
  conv_lhs => rw [← List.take_append_drop n (first.take left)]
  rw [List.filter_append, List.filter_eq_nil_iff.mpr, List.filter_eq_self.mpr, List.nil_append]
  · intro a member
    rw [List.drop_take] at member
    simpa using rest a (List.mem_of_mem_take member)
  · intro a member
    rw [List.take_take] at member
    have inTop : a ∈ first.take n :=
      List.take_subset_take_left first (Nat.min_le_left n left) member
    simpa using top a inTop

/-- The next page, below a place the reader has reached. -/
theorem page_below {n size : Nat} {b : α} (last : (first.take n).getLast? = some b)
    {gained : List α} (above : ∀ a ∈ gained, ∀ b ∈ first, key b < key a) (left : Nat) :
    page key size (some (key b)) (gained ++ first.take left) =
      ((first.take left).drop n).take size := by
  have member : b ∈ first := List.mem_of_mem_take (List.mem_of_getLast? last)
  have unseen : gained.filter (fun a => decide (∀ c ∈ some (key b), key a < c)) = [] := by
    refine List.filter_eq_nil_iff.mpr fun a new => ?_
    simpa using le_of_lt (above a new b member)
  rw [page, List.filter_append, unseen, below_place descending last, List.nil_append]

/-- What the reader has after one more page. -/
structure NextPage (key : α → κ) (first later : List α) (size n : Nat) (next : List α) (n' : Nat) :
    Prop where
  further : n ≤ n'
  within : n' ≤ first.length
  taken : first.take n' = first.take n ++ next
  count : next.length = n' - n
  most : n' ≤ n + size
  /-- A page that is not full is the end of what is left. -/
  rest : next.length < size → ∀ a ∈ first, a ∈ later → a ∈ first.take n'

/-- Every page, the first as well as those of a log that moved on, is the next part of the
    first log. -/
theorem next_page {size n : Nat} (within : n ≤ first.length) (scrolled : Scrolled key first later)
    (opening : n = 0 → later = first) :
    ∃ n', NextPage key first later size n (page key size (place key first n) later) n' := by
  obtain ⟨gained, left, rfl, above⟩ := scrolled
  have old : ∀ a ∈ first, a ∈ gained ++ first.take left → a ∈ first.take left := by
    intro a member inLater
    cases List.mem_append.mp inLater with
    | inl new => exact absurd (above a new a member) (lt_irrefl _)
    | inr kept => exact kept
  have pages : ∃ left', page key size (place key first n) (gained ++ first.take left) =
      ((first.take left').drop n).take size ∧
        ∀ a ∈ first, a ∈ gained ++ first.take left → a ∈ first.take left' := by
    cases at_ : place key first n with
    | none =>
        have none_ : first.take n = [] := by
          have none_ := at_
          rwa [place, Option.map_eq_none_iff, List.getLast?_eq_none_iff] at none_
        have zero : n = 0 ∨ first = [] := List.take_eq_nil_iff.mp none_
        have start : n = 0 := by
          cases zero with
          | inl zero => exact zero
          | inr empty =>
              rw [empty] at within
              exact Nat.le_zero.mp within
        rw [opening start, start]
        exact ⟨first.length, by simp [page], fun a member _ => by rwa [List.take_length]⟩
    | some c =>
        obtain ⟨b, last, rfl⟩ := place_eq_some at_
        exact ⟨left, page_below descending last above left, old⟩
  obtain ⟨left', isPage, covers⟩ := pages
  rw [isPage]
  refine ⟨max n (min (min left' first.length) (n + size)), ?_, ?_, ?_, ?_, ?_, ?_⟩
  · exact Nat.le_max_left _ _
  · omega
  · rw [List.drop_take, List.take_take, ← List.take_add, List.take_eq_take_iff]
    omega
  · rw [List.length_take, List.length_drop, List.length_take]
    omega
  · omega
  · intro short a member inLater
    rw [List.length_take, List.length_drop, List.length_take] at short
    have clipped : first.take left' = first.take (min left' first.length) := by
      rw [List.take_eq_take_iff]
      omega
    have inTop := covers a member inLater
    rw [clipped] at inTop
    exact List.take_subset_take_left first (by omega) inTop

omit [LinearOrder κ] descending in
theorem NextPage.part {size n n' k : Nat} {next : List α}
    (reading : NextPage key first later size n next n') (within : n ≤ first.length)
    (few : k ≤ n' - n) : first.take (n + k) = first.take n ++ next.take k := by
  have further := reading.further
  have clipped : (first.take n').take (n + k) = first.take (n + k) := by
    rw [List.take_take, Nat.min_eq_left (by omega)]
  have all : (first.take n).length = n := by rw [List.length_take, Nat.min_eq_left within]
  rw [← clipped, reading.taken, List.take_append, all, Nat.add_sub_cancel_left,
    List.take_of_length_le (by omega)]

end Foundation.Scrolling
