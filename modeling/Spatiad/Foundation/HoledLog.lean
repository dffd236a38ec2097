import Spatiad.Foundation.WriteAheadLog

/-! # A log with holes

A machine that goes on when an append fails applies commands its log does not hold.
`Holds` relates what it applied to the disk it leaves; recovery replays what is
left of the log over the snapshot, holes and all.
-/

namespace Foundation.HoledLog

open WriteAheadLog

variable {σ κ : Type*}

/-- A command that was applied, and whether the log holds it. -/
structure Applied (κ : Type*) where
  command : κ
  stored : Bool
  deriving DecidableEq, Repr

def commands (applied : List (Applied κ)) : List κ := applied.map Applied.command

theorem commands_append (applied more : List (Applied κ)) :
    commands (applied ++ more) = commands applied ++ commands more := List.map_append

/-- What is left of the commands after a snapshot that covers `saved` of them. -/
def survivors (saved : Nat) (applied : List (Applied κ)) : List (Applied κ) :=
  applied.take saved ++ (applied.drop saved).filter Applied.stored

/-- Nothing the log holds comes after something it lacks. -/
def Unbroken (saved : Nat) (applied : List (Applied κ)) : Prop :=
  (applied.drop saved).Pairwise fun earlier later => later.stored = true → earlier.stored = true

instance (saved : Nat) (applied : List (Applied κ)) : Decidable (Unbroken saved applied) :=
  inferInstanceAs (Decidable (List.Pairwise _ _))

theorem stored_first {applied : List (Applied κ)}
    (unbroken : applied.Pairwise fun earlier later => later.stored = true → earlier.stored = true) :
    applied.filter Applied.stored <+: applied := by
  induction applied with
  | nil => exact List.prefix_rfl
  | cons a rest ih =>
      obtain ⟨before, unbroken⟩ := List.pairwise_cons.mp unbroken
      cases here : a.stored with
      | true =>
          rw [List.filter_cons_of_pos here, List.prefix_cons_inj]
          exact ih unbroken
      | false =>
          have none : rest.filter Applied.stored = [] := by
            refine List.filter_eq_nil_iff.mpr fun b member stored => ?_
            have := before b member stored
            simp [here] at this
          rw [List.filter_cons_of_neg (by simp [here]), none]
          exact List.nil_prefix

/-- Without a gap, what survives is the first so many commands, the covered ones among them. -/
theorem survivors_first {saved : Nat} {applied : List (Applied κ)}
    (covered : saved ≤ applied.length) (unbroken : Unbroken saved applied) :
    ∃ n, saved ≤ n ∧ n ≤ applied.length ∧ survivors saved applied = applied.take n := by
  have front := (List.prefix_append_right_inj (applied.take saved)).mpr (stored_first unbroken)
  rw [List.take_append_drop] at front
  have whole := List.prefix_iff_eq_take.mp front
  refine ⟨_, ?_, front.length_le, whole⟩
  rw [List.length_append, List.length_take, Nat.min_eq_left covered]
  exact Nat.le_add_right _ _

/-- The disk holds the state after the first `saved` commands and, in order, those of
    the later ones that are marked so; `top` is the last number given out. -/
structure Holds (apply : σ → κ → σ) (init : σ) (applied : List (Applied κ)) (saved top : Nat)
    (d : Disk σ κ) : Prop where
  covered : saved ≤ applied.length
  snapshot : d.base init = (commands (applied.take saved)).foldl apply init
  tail : d.tail.map Prod.snd = commands ((applied.drop saved).filter Applied.stored)
  sorted : d.log.Pairwise fun earlier later => earlier.1 < later.1
  position_le : d.position ≤ top
  log_le : ∀ entry ∈ d.log, entry.1 ≤ top

variable {apply : σ → κ → σ} {init : σ} {applied : List (Applied κ)} {saved top : Nat}
variable {d : Disk σ κ}

theorem holds_empty : Holds apply init [] 0 0 (Disk.empty : Disk σ κ) where
  covered := Nat.le_refl 0
  snapshot := rfl
  tail := rfl
  sorted := .nil
  position_le := Nat.le_refl 0
  log_le := by
    intro entry member
    cases member

namespace Holds

theorem extended (holds : Holds apply init applied saved top d) (last : Applied κ) :
    saved ≤ (applied ++ [last]).length ∧
      d.base init = (commands ((applied ++ [last]).take saved)).foldl apply init := by
  rw [List.length_append, List.take_append_of_le_length holds.covered]
  exact ⟨Nat.le_add_right_of_le holds.covered, holds.snapshot⟩

theorem append (holds : Holds apply init applied saved top d) (c : κ) :
    Holds apply init (applied ++ [⟨c, true⟩]) saved (top + 1) (d.append (top + 1) c) where
  covered := (holds.extended _).1
  snapshot := (holds.extended _).2
  tail := by
    have tail : (d.append (top + 1) c).tail = d.tail ++ [(top + 1, c)] := by
      have above : d.position < top + 1 := Nat.lt_succ_of_le holds.position_le
      show (d.log ++ [(top + 1, c)]).filter (fun entry => d.position < entry.1) = _
      rw [List.filter_append, Disk.tail, List.append_right_inj]
      exact List.filter_cons_of_pos (decide_eq_true above)
    rw [tail, List.map_append, holds.tail, List.drop_append_of_le_length holds.covered,
      List.filter_append, commands_append]
    rfl
  sorted := by
    refine List.pairwise_append.mpr ⟨holds.sorted, List.pairwise_singleton _ _, ?_⟩
    intro earlier member later last
    rw [List.mem_singleton.mp last]
    exact Nat.lt_succ_of_le (holds.log_le earlier member)
  position_le := Nat.le_succ_of_le holds.position_le
  log_le := by
    intro entry member
    cases List.mem_append.mp member with
    | inl old => exact Nat.le_succ_of_le (holds.log_le entry old)
    | inr last =>
        obtain rfl := List.mem_singleton.mp last
        exact Nat.le_refl _

/-- An append that fails leaves the disk as it is; its number is not given out again. -/
theorem lose (holds : Holds apply init applied saved top d) (c : κ) :
    Holds apply init (applied ++ [⟨c, false⟩]) saved (top + 1) d where
  covered := (holds.extended _).1
  snapshot := (holds.extended _).2
  tail := by
    rw [holds.tail, List.drop_append_of_le_length holds.covered, List.filter_append,
      commands_append]
    exact (List.append_nil _).symm
  sorted := holds.sorted
  position_le := Nat.le_succ_of_le holds.position_le
  log_le := fun entry member => Nat.le_succ_of_le (holds.log_le entry member)

theorem writeSnapshot (holds : Holds apply init applied saved top d) :
    Holds apply init applied applied.length top
      (d.writeSnapshot top ((commands applied).foldl apply init)) where
  covered := Nat.le_refl _
  snapshot := by
    rw [List.take_length]
    rfl
  tail := by
    have none : (d.writeSnapshot top ((commands applied).foldl apply init)).tail = [] := by
      refine List.filter_eq_nil_iff.mpr fun entry member above => ?_
      exact Nat.not_lt_of_le (holds.log_le entry member) (of_decide_eq_true above)
    rw [none, List.drop_length]
    rfl
  sorted := holds.sorted
  position_le := Nat.le_refl top
  log_le := holds.log_le

theorem compact (holds : Holds apply init applied saved top d) {n : Nat} (safe : n ≤ d.position) :
    Holds apply init applied saved top (d.compact n) where
  covered := holds.covered
  snapshot := holds.snapshot
  tail := by
    have tail : (d.compact n).tail = d.tail := by
      show (d.log.filter _).filter (fun entry => d.position < entry.1) = d.tail
      rw [List.filter_filter]
      refine List.filter_congr fun entry _ => ?_
      by_cases above : d.position < entry.1
      · simp [above, Nat.lt_of_le_of_lt safe above]
      · simp [above]
    rw [tail]
    exact holds.tail
  sorted := holds.sorted.filter _
  position_le := holds.position_le
  log_le := fun entry member => holds.log_le entry (List.mem_of_mem_filter member)

end Holds

/-- Replaying ascending entries applies their commands and ends at a number that none
    of them exceeds. -/
theorem foldl_entries (f : σ → κ → σ) {entries : List (Nat × κ)}
    (sorted : entries.Pairwise fun earlier later => earlier.1 < later.1) {n : Nat}
    (above : ∀ entry ∈ entries, n < entry.1) (s : σ) :
    ∃ last, entries.foldl (fun (acc : Nat × σ) entry => (entry.1, f acc.2 entry.2)) (n, s) =
        (last, (entries.map Prod.snd).foldl f s) ∧
      n ≤ last ∧ ∀ entry ∈ entries, entry.1 ≤ last := by
  induction entries generalizing n s with
  | nil => exact ⟨n, rfl, Nat.le_refl n, fun entry member => by cases member⟩
  | cons first rest ih =>
      obtain ⟨before, sorted⟩ := List.pairwise_cons.mp sorted
      obtain ⟨last, replayed, reached, bounded⟩ := ih sorted before (f s first.2)
      refine ⟨last, replayed, ?_, ?_⟩
      · exact Nat.le_trans (Nat.le_of_lt (above first List.mem_cons_self)) reached
      · intro entry member
        rcases List.mem_cons.mp member with rfl | later
        · exact reached
        · exact bounded entry later

/-- Recovery applies the survivors to the initial state, and the disk then holds
    them without a gap. -/
theorem Holds.recover (holds : Holds apply init applied saved top d) :
    ∃ last, WriteAheadLog.recover apply init d =
        (last, (commands (survivors saved applied)).foldl apply init) ∧
      Holds apply init (survivors saved applied) saved last d := by
  have above : ∀ entry ∈ d.tail, d.position < entry.1 := by
    intro entry member
    exact of_decide_eq_true (List.mem_filter.mp member).2
  have sorted : d.tail.Pairwise fun earlier later => earlier.1 < later.1 := holds.sorted.filter _
  obtain ⟨last, replayed, reached, bounded⟩ :=
    foldl_entries apply sorted above (d.base init)
  have length : (applied.take saved).length = saved := by
    rw [List.length_take, Nat.min_eq_left holds.covered]
  have front : (survivors saved applied).take saved = applied.take saved :=
    List.take_left' length
  have back : (survivors saved applied).drop saved =
      (applied.drop saved).filter Applied.stored := List.drop_left' length
  refine ⟨last, ?_, ?_⟩
  · rw [WriteAheadLog.recover, replayed, holds.tail, holds.snapshot, survivors, commands_append,
      List.foldl_append]
  · constructor
    · rw [survivors, List.length_append, length]
      exact Nat.le_add_right _ _
    · rw [front]
      exact holds.snapshot
    · rw [back, List.filter_filter]
      simpa only [Bool.and_self] using holds.tail
    · exact holds.sorted
    · exact reached
    · intro entry member
      by_cases newer : d.position < entry.1
      · exact bounded entry (List.mem_filter.mpr ⟨member, decide_eq_true newer⟩)
      · exact Nat.le_trans (Nat.le_of_not_lt newer) reached

end Foundation.HoledLog
