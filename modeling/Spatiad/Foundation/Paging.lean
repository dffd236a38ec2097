import Mathlib.Data.List.Sort

/-! # Paging through a log that changes

A reader takes page after page, newest first, and goes on below the last element it was
given.  Between two requests the log may gain elements above all it had at the first
request, and lose any for good.
-/

namespace Foundation.Paging

variable {α κ : Type*} [LinearOrder κ] (key : α → κ)

/-- The first elements of a log that lie below the cursor, if there is one. -/
def page (size : Nat) (cursor : Option κ) (log : List α) : List α :=
  (log.filter fun a => decide (∀ c ∈ cursor, key a < c)).take size

/-- A page with enough elements is followed by what lies below its last one. -/
def following (enough : Nat) (page : List α) : Option κ :=
  if enough ≤ page.length then page.getLast?.map key else none

/-- The pages that were read so far, where `logs n` is the log at the `n`-th request, and
    the cursor of the next request, unless the walk has ended. -/
inductive Walk (size enough : Nat) (logs : Nat → List α) :
    List (List α) → Option (Option κ) → Prop where
  | start : Walk size enough logs [] (some none)
  | next {pages cursor} : Walk size enough logs pages (some cursor) →
      Walk size enough logs (pages ++ [page key size cursor (logs pages.length)])
        ((following key enough (page key size cursor (logs pages.length))).map some)

/-- Every log is newest first; what is new is above all of the first one, and what is lost
    stays lost. -/
structure Growing (logs : Nat → List α) : Prop where
  descending : ∀ n, (logs n).Pairwise fun a b => key b < key a
  fresh : ∀ n, ∀ a ∈ logs n, a ∈ logs 0 ∨ ∀ b ∈ logs 0, key b < key a
  lost : ∀ m n, m ≤ n → ∀ a ∈ logs 0, a ∈ logs n → a ∈ logs m

theorem growing_const {log : List α} (descending : log.Pairwise fun a b => key b < key a) :
    Growing key fun _ => log where
  descending _ := descending
  fresh _ _ member := .inl member
  lost _ _ _ _ member _ := member

variable {key} {size enough : Nat} {logs : Nat → List α} {log : List α}

theorem nodup_of_descending (descending : log.Pairwise fun a b => key b < key a) : log.Nodup := by
  refine descending.imp ?_
  rintro a _ lower rfl
  exact lt_irrefl _ lower

/-! ## One page -/

theorem mem_page {cursor : Option κ} {a : α} (member : a ∈ page key size cursor log) :
    a ∈ log ∧ ∀ c ∈ cursor, key a < c := by
  obtain ⟨inLog, below⟩ := List.mem_filter.mp (List.mem_of_mem_take member)
  exact ⟨inLog, of_decide_eq_true below⟩

theorem page_descending (descending : log.Pairwise fun a b => key b < key a) (cursor : Option κ) :
    (page key size cursor log).Pairwise fun a b => key b < key a :=
  (descending.filter _).take

omit [LinearOrder κ] in
theorem following_some {page : List α} {c : κ} (goesOn : following key enough page = some c) :
    ∃ last, page.getLast? = some last ∧ key last = c ∧ enough ≤ page.length := by
  unfold following at goesOn
  split at goesOn
  · rename_i full
    obtain ⟨last, isLast, same⟩ := Option.map_eq_some_iff.mp goesOn
    exact ⟨last, isLast, same, full⟩
  · cases goesOn

theorem le_of_getLast {page : List α} (descending : page.Pairwise fun a b => key b < key a)
    {last : α} (isLast : page.getLast? = some last) {a : α} (member : a ∈ page) :
    key last ≤ key a := by
  obtain ⟨front, rfl⟩ := List.getLast?_eq_some_iff.mp isLast
  rcases List.mem_append.mp member with before | here
  · exact le_of_lt ((List.pairwise_append.mp descending).2.2 a before last List.mem_cons_self)
  · rw [List.mem_singleton.mp here]

/-- What a page leaves out lies below it, and then the walk goes on. -/
theorem mem_page_or_below (descending : log.Pairwise fun a b => key b < key a)
    (positive : 1 ≤ enough) (fits : enough ≤ size) {cursor : Option κ} {a : α} (member : a ∈ log)
    (below : ∀ c ∈ cursor, key a < c) :
    a ∈ page key size cursor log ∨
      ∃ c, following key enough (page key size cursor log) = some c ∧ key a < c := by
  have selected : a ∈ log.filter fun a => decide (∀ c ∈ cursor, key a < c) :=
    List.mem_filter.mpr ⟨member, decide_eq_true below⟩
  have sorted := descending.filter fun a => decide (∀ c ∈ cursor, key a < c)
  unfold page
  generalize log.filter (fun a => decide (∀ c ∈ cursor, key a < c)) = rest at selected sorted ⊢
  rw [← List.take_append_drop size rest] at selected sorted
  rcases List.mem_append.mp selected with taken | left
  · exact .inl taken
  · have nonempty : 0 < (rest.drop size).length := List.length_pos_of_mem left
    have full : (rest.take size).length = size := by
      rw [List.length_drop] at nonempty
      rw [List.length_take]
      omega
    have some_taken : rest.take size ≠ [] := by
      intro none
      rw [none, List.length_nil] at full
      omega
    have isLast := List.getLast?_eq_some_getLast some_taken
    refine .inr ⟨key ((rest.take size).getLast some_taken), ?_, ?_⟩
    · unfold following
      rw [full, if_pos fits, isLast]
      rfl
    · exact (List.pairwise_append.mp sorted).2.2 _ (List.getLast_mem some_taken) a left

/-! ## A whole walk -/

/-- What holds at every point of a walk over a growing log. -/
structure Sound (key : α → κ) (logs : Nat → List α) (pages : List (List α))
    (request : Option (Option κ)) : Prop where
  descending : pages.flatten.Pairwise fun a b => key b < key a
  origin : ∀ a ∈ pages.flatten, a ∈ logs 0
  untouched : request = some none → pages = []
  reached : ∀ c, request = some (some c) → (∃ b ∈ logs 0, key b = c) ∧ ∀ a ∈ pages.flatten, c ≤ key a
  covered : ∀ a ∈ logs 0, (∀ n < pages.length, a ∈ logs n) →
    a ∈ pages.flatten ∨ ∃ cursor, request = some cursor ∧ ∀ c ∈ cursor, key a < c
  nonempty : request ≠ none → pages.length ≤ pages.flatten.length

theorem Sound.start : Sound key logs [] (some none) where
  descending := List.Pairwise.nil
  origin _ member := by cases member
  untouched _ := rfl
  reached _ same := by cases same
  covered _ _ _ := .inr ⟨none, rfl, fun _ none => by cases none⟩
  nonempty _ := le_refl _

theorem Sound.next (growing : Growing key logs) (positive : 1 ≤ enough) (fits : enough ≤ size)
    {pages : List (List α)} {cursor : Option κ} (sound : Sound key logs pages (some cursor)) :
    Sound key logs (pages ++ [page key size cursor (logs pages.length)])
      ((following key enough (page key size cursor (logs pages.length))).map some) := by
  have descending := growing.descending pages.length
  have origin : ∀ a ∈ page key size cursor (logs pages.length), a ∈ logs 0 := by
    intro a member
    obtain ⟨inLog, below⟩ := mem_page member
    cases cursor with
    | none =>
        rw [sound.untouched rfl] at inLog
        exact inLog
    | some c =>
        obtain ⟨⟨b, first, rfl⟩, _⟩ := sound.reached c rfl
        rcases growing.fresh pages.length a inLog with old | above
        · exact old
        · exact absurd (above b first) (lt_asymm (below (key b) rfl))
  have apart : ∀ a ∈ pages.flatten, ∀ b ∈ page key size cursor (logs pages.length),
      key b < key a := by
    intro a early b late
    cases cursor with
    | none =>
        rw [sound.untouched rfl] at early
        cases early
    | some c => exact lt_of_lt_of_le ((mem_page late).2 c rfl) ((sound.reached c rfl).2 a early)
  refine ⟨?_, ?_, ?_, ?_, ?_, ?_⟩
  · rw [List.flatten_concat]
    exact List.pairwise_append.mpr ⟨sound.descending, page_descending descending cursor, apart⟩
  · intro a member
    rw [List.flatten_concat] at member
    rcases List.mem_append.mp member with early | late
    · exact sound.origin a early
    · exact origin a late
  · intro restarts
    obtain ⟨_, _, none⟩ := Option.map_eq_some_iff.mp restarts
    cases none
  · intro c goesOn
    obtain ⟨_, follows, same⟩ := Option.map_eq_some_iff.mp goesOn
    obtain rfl := Option.some.inj same
    obtain ⟨last, isLast, rfl, _⟩ := following_some follows
    refine ⟨⟨last, origin last (List.mem_of_getLast? isLast), rfl⟩, fun a member => ?_⟩
    rw [List.flatten_concat] at member
    rcases List.mem_append.mp member with early | late
    · exact le_of_lt (apart a early last (List.mem_of_getLast? isLast))
    · exact le_of_getLast (page_descending descending cursor) isLast late
  · intro a first present
    rw [List.length_append, List.length_singleton] at present
    rw [List.flatten_concat, List.mem_append]
    rcases sound.covered a first fun n early => present n (by omega) with found | ⟨_, same, below⟩
    · exact .inl (.inl found)
    · obtain rfl := Option.some.inj same
      have here : a ∈ logs pages.length := present pages.length (by omega)
      rcases mem_page_or_below descending positive fits here below with found | ⟨c, follows, lower⟩
      · exact .inl (.inr found)
      · refine .inr ⟨some c, by rw [follows]; rfl, ?_⟩
        rintro _ ⟨⟩
        exact lower
  · intro goesOn
    cases follows : following key enough (page key size cursor (logs pages.length)) with
    | none =>
        rw [follows] at goesOn
        exact absurd rfl goesOn
    | some c =>
        obtain ⟨_, _, _, full⟩ := following_some follows
        have before := sound.nonempty (Option.some_ne_none cursor)
        rw [List.flatten_concat, List.length_append, List.length_append, List.length_singleton]
        omega

theorem Walk.sound (growing : Growing key logs) (positive : 1 ≤ enough) (fits : enough ≤ size)
    {pages : List (List α)} {request : Option (Option κ)}
    (walk : Walk key size enough logs pages request) : Sound key logs pages request := by
  induction walk with
  | start => exact .start
  | next _ ih => exact ih.next growing positive fits

/-- A walk that has ended has every element of the first log that was there to its end. -/
theorem Walk.complete (growing : Growing key logs) (positive : 1 ≤ enough) (fits : enough ≤ size)
    {pages : List (List α)} (walk : Walk key size enough logs pages none) {a : α}
    (first : a ∈ logs 0) (last : a ∈ logs (pages.length - 1)) : a ∈ pages.flatten := by
  have present : ∀ n < pages.length, a ∈ logs n := fun n early =>
    growing.lost n (pages.length - 1) (by omega) a first last
  rcases (walk.sound growing positive fits).covered a first present with found | ⟨_, goesOn, _⟩
  · exact found
  · cases goesOn

theorem Walk.length_le (growing : Growing key logs) (positive : 1 ≤ enough) (fits : enough ≤ size)
    {pages : List (List α)} {request : Option (Option κ)}
    (walk : Walk key size enough logs pages request) : pages.length ≤ (logs 0).length + 1 := by
  cases walk with
  | start => exact Nat.zero_le _
  | @next pages cursor walk =>
      have sound := walk.sound growing positive fits
      have many := sound.nonempty (Option.some_ne_none cursor)
      have bounded :=
        (List.subperm_of_subset (nodup_of_descending sound.descending) sound.origin).length_le
      rw [List.length_append, List.length_singleton]
      omega

theorem exists_ended (growing : Growing key logs) (positive : 1 ≤ enough) (fits : enough ≤ size) :
    ∃ pages, Walk key size enough logs pages none := by
  by_contra endless
  have longer : ∀ n, ∃ pages cursor, Walk key size enough logs pages (some cursor) ∧
      pages.length = n := by
    intro n
    induction n with
    | zero => exact ⟨[], none, .start, rfl⟩
    | succ n ih =>
        obtain ⟨pages, cursor, walk, length⟩ := ih
        have onward := walk.next
        cases follows : following key enough (page key size cursor (logs pages.length)) with
        | none =>
            rw [follows] at onward
            exact absurd ⟨_, onward⟩ endless
        | some c =>
            rw [follows] at onward
            exact ⟨_, _, onward, by rw [List.length_append, length]; rfl⟩
  obtain ⟨pages, cursor, walk, length⟩ := longer ((logs 0).length + 2)
  have bounded := walk.length_le growing positive fits
  omega

theorem Walk.flatten_eq (descending : log.Pairwise fun a b => key b < key a)
    (positive : 1 ≤ enough) (fits : enough ≤ size) {pages : List (List α)}
    (walk : Walk key size enough (fun _ => log) pages none) : pages.flatten = log := by
  have growing := growing_const key descending
  have sound := walk.sound growing positive fits
  have antisymm : ∀ a b, a ∈ pages.flatten → b ∈ log → key b < key a → key a < key b → a = b := by
    intro a b _ _ lower higher
    exact absurd lower (lt_asymm higher)
  refine List.Perm.eq_of_pairwise antisymm sound.descending descending ?_
  rw [List.perm_ext_iff_of_nodup (nodup_of_descending sound.descending)
    (nodup_of_descending descending)]
  intro a
  exact ⟨sound.origin a, fun member => walk.complete growing positive fits member member⟩

end Foundation.Paging
