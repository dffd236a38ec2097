import Spatiad.WindowLimits

/-! # Retry-After

A denied check is told the whole seconds until its oldest counted call leaves the window,
rounded down.  A retry after that time is denied again unless nothing was lost.
-/

namespace Spatiad

open Foundation Foundation.SlidingWindow

/-- A denied check for `key`, made again after the advertised delay, is allowed, unless there
    were other checks for `key` before. -/
def RetryHonest (limitPerWindow : Nat) (windowSeconds : Int) (past : List (String × DateTime))
    (key : String) (now : DateTime) : Prop :=
  let retryAt := now + seconds (limiterAnswer limitPerWindow windowSeconds past key now).retryAfterSeconds
  ∀ between : List (String × DateTime), (∀ call ∈ between, call.1 ≠ key) →
    (past ++ (key, now) :: between ++ [(key, retryAt)]).Pairwise (fun a b => a.2 ≤ b.2) →
    (limiterAnswer limitPerWindow windowSeconds (past ++ (key, now) :: between) key retryAt).allowed =
      true

/-- The time until the oldest of the counted calls leaves the window. -/
def timeLeft (limitPerWindow : Nat) (windowSeconds : Int) (past : List (String × DateTime))
    (key : String) (now : DateTime) : Option Int :=
  let counted := ((SlidingWindowRateLimiter.new limitPerWindow windowSeconds).allowedTimes key
    past).filter fun s => decide (now - seconds (max windowSeconds 1) < s ∧ s ≤ now)
  counted.head?.map fun oldest => oldest + seconds (max windowSeconds 1) - now

/-- Rounding down to seconds, but at least to one, loses nothing. -/
theorem rounding_exact_iff {left : Int} (positive : 0 < left) :
    left ≤ seconds (max (left.tdiv 1000000000) 1).toNat ↔ left ≤ seconds 1 ∨ seconds 1 ∣ left := by
  have cast : ((max (left.tdiv 1000000000) 1).toNat : Int) = max (left.tdiv 1000000000) 1 :=
    Int.toNat_of_nonneg (zero_le_one.trans (le_max_right _ _))
  rw [cast, Int.tdiv_eq_ediv_of_nonneg positive.le]
  unfold seconds
  omega

section retry

variable {limitPerWindow : Nat} {windowSeconds : Int} {past : List (String × DateTime)}
  {key : String} {now oldest : DateTime} {rest : List DateTime}
  (inOrder : (past ++ [(key, now)]).Pairwise fun a b => a.2 ≤ b.2)

include inOrder

theorem denied_counts
    (denied : (limiterAnswer limitPerWindow windowSeconds past key now).allowed = false) :
    ∃ oldest rest, inWindow (cutoff (max windowSeconds 1)) now
        (admittedTimes limitPerWindow windowSeconds key past) = oldest :: rest ∧
      (oldest :: rest).length = max limitPerWindow 1 := by
  obtain ⟨earlier, upTo⟩ := past_of_inOrder inOrder
  have allowed :=
    SlidingWindowRateLimiter.after_allowed limitPerWindow windowSeconds key earlier upTo
  have bounded := admittedTimes_bounded limitPerWindow windowSeconds earlier key now
  have full : max limitPerWindow 1 ≤ (inWindow (cutoff (max windowSeconds 1)) now
      (admittedTimes limitPerWindow windowSeconds key past)).length :=
    Nat.not_lt.mp fun room => by cases denied.symm.trans (allowed.mpr room)
  have count := Nat.le_antisymm bounded full
  cases counted : inWindow (cutoff (max windowSeconds 1)) now
      (admittedTimes limitPerWindow windowSeconds key past) with
  | nil =>
      rw [counted] at count
      exact absurd count (Nat.ne_of_lt (Nat.succ_le_iff.mp (le_max_right _ _)))
  | cons oldest rest =>
      rw [counted] at count
      exact ⟨oldest, rest, rfl, count⟩

theorem inOrder_snoc {later : DateTime} (onward : now ≤ later) :
    (past ++ [(key, now)] ++ [(key, later)]).Pairwise fun a b => a.2 ≤ b.2 := by
  obtain ⟨_, upTo⟩ := past_of_inOrder inOrder
  refine List.pairwise_append.mpr ⟨inOrder, List.pairwise_singleton _ _, fun call member last same => ?_⟩
  obtain rfl := List.mem_singleton.mp same
  rcases List.mem_append.mp member with before | here
  · exact (upTo call before).trans onward
  · exact List.mem_singleton.mp here ▸ onward

variable (counted : inWindow (cutoff (max windowSeconds 1)) now
    (admittedTimes limitPerWindow windowSeconds key past) = oldest :: rest)

include counted

theorem timeLeft_eq : timeLeft limitPerWindow windowSeconds past key now =
    some (oldest + seconds (max windowSeconds 1) - now) := by
  unfold timeLeft
  rw [SlidingWindowRateLimiter.allowedTimes_eq _ _ _ (past_of_inOrder inOrder).1]
  exact congrArg (fun q : List DateTime =>
    q.head?.map fun oldest => oldest + seconds (max windowSeconds 1) - now) counted

variable (count : (oldest :: rest).length = max limitPerWindow 1)

include count

theorem retryAfter_eq :
    (limiterAnswer limitPerWindow windowSeconds past key now).retryAfterSeconds =
      (max ((oldest + seconds (max windowSeconds 1) - now).tdiv 1000000000) 1).toNat := by
  obtain ⟨earlier, upTo⟩ := past_of_inOrder inOrder
  have visible := (SlidingWindowRateLimiter.visible_after limitPerWindow windowSeconds key earlier
    upTo).trans counted
  have limit := @SlidingWindowRateLimiter.after_limit limitPerWindow windowSeconds past
  have window := @SlidingWindowRateLimiter.after_window limitPerWindow windowSeconds past
  have full : max limitPerWindow 1 ≤ (oldest :: rest).length := count.ge
  rw [← limit, ← visible] at full
  unfold limiterAnswer
  rw [SlidingWindowRateLimiter.check_full full, visible]
  simp only [SlidingWindowRateLimiter.resetSeconds, List.head?_cons, window]

/-- With no other check for `key` in between, the next one is allowed once the oldest of
    the counted calls has left the window. -/
theorem retry_allowed_iff {between : List (String × DateTime)} {later : DateTime}
    (others : ∀ call ∈ between, call.1 ≠ key)
    (ordered : (past ++ (key, now) :: between ++ [(key, later)]).Pairwise fun a b => a.2 ≤ b.2) :
    (limiterAnswer limitPerWindow windowSeconds (past ++ (key, now) :: between) key later).allowed =
      true ↔ oldest ≤ cutoff (max windowSeconds 1) later := by
  obtain ⟨before, upTo⟩ := past_of_inOrder ordered
  have onward : now ≤ later := upTo (key, now) (List.mem_append_right _ List.mem_cons_self)
  obtain ⟨earlier, upToNow⟩ := past_of_inOrder inOrder
  have keeps := queues_keep limitPerWindow windowSeconds earlier upToNow key
  have silent : timesOf key between = [] := by
    unfold timesOf
    rw [List.map_eq_nil_iff, List.filter_eq_nil_iff]
    exact fun call member same => others call member (of_decide_eq_true same)
  have full : max limitPerWindow 1 ≤ (inWindow (cutoff (max windowSeconds 1)) now
      (admittedTimes limitPerWindow windowSeconds key past)).length := by rw [counted, count]
  -- the denied check leaves no trace, and the others are not for this key
  have same : admittedTimes limitPerWindow windowSeconds key (past ++ (key, now) :: between) =
      admittedTimes limitPerWindow windowSeconds key past := by
    unfold admittedTimes at full ⊢
    rw [timesOf_append, timesOf_cons, if_pos rfl, silent]
    exact (accepted_without full).trans (congrArg _ (List.append_nil _))
  unfold limiterAnswer
  rw [SlidingWindowRateLimiter.after_allowed _ _ _ before upTo, same,
    ← keeps.prune_eq (cutoff_monotone _) onward, counted, ← count]
  exact length_prune_lt

end retry

/-- A retry after the advertised delay is allowed exactly if the time left was whole seconds,
    or no more than one. -/
theorem retry_honest_iff (limitPerWindow : Nat) (windowSeconds : Int)
    (past : List (String × DateTime)) (key : String) (now : DateTime)
    (inOrder : (past ++ [(key, now)]).Pairwise fun a b => a.2 ≤ b.2)
    (denied : (limiterAnswer limitPerWindow windowSeconds past key now).allowed = false) :
    RetryHonest limitPerWindow windowSeconds past key now ↔
      ∃ left, timeLeft limitPerWindow windowSeconds past key now = some left ∧
        (left ≤ seconds 1 ∨ seconds 1 ∣ left) := by
  obtain ⟨oldest, rest, counted, count⟩ := denied_counts inOrder denied
  let left := oldest + seconds (max windowSeconds 1) - now
  have positive : 0 < left := by
    have inside : oldest ∈ inWindow (cutoff (max windowSeconds 1)) now _ :=
      counted ▸ List.mem_cons_self
    have later := (mem_inWindow.mp inside).2.1
    unfold cutoff at later
    exact sub_pos.mpr (sub_lt_iff_lt_add.mp later)
  have leaves : ∀ wait : Int,
      oldest ≤ cutoff (max windowSeconds 1) (now + wait) ↔ left ≤ wait := by
    intro wait
    unfold cutoff
    rw [le_sub_iff_add_le, ← sub_le_iff_le_add']
  rw [timeLeft_eq inOrder counted]
  unfold RetryHonest
  rw [retryAfter_eq inOrder counted count]
  constructor
  · intro honest
    have onward : now ≤ now + seconds (max (left.tdiv 1000000000) 1).toNat :=
      le_add_of_nonneg_right (mul_nonneg (Int.natCast_nonneg _) (by decide))
    have ordered := inOrder_snoc inOrder onward
    have none : ∀ call ∈ ([] : List (String × DateTime)), call.1 ≠ key :=
      fun _ member => absurd member List.not_mem_nil
    have allowed := (retry_allowed_iff inOrder counted count none ordered).mp
      (honest [] none ordered)
    exact ⟨left, rfl, (rounding_exact_iff positive).mp ((leaves _).mp allowed)⟩
  · rintro ⟨_, same, whole⟩ retryAt between others ordered
    obtain rfl := Option.some.inj same
    have allowed := (leaves _).mpr ((rounding_exact_iff positive).mpr whole)
    exact (retry_allowed_iff inOrder counted count others ordered).mpr allowed

/-- With one call allowed in two seconds, a check half a second after it is told to come back
    after one second, and denied again then. -/
theorem retry_denied_again :
    ¬ ∀ (limitPerWindow : Nat) (windowSeconds : Int) (past : List (String × DateTime))
      (key : String) (now : DateTime),
      (past ++ [(key, now)]).Pairwise (fun a b => a.2 ≤ b.2) →
      (limiterAnswer limitPerWindow windowSeconds past key now).allowed = false →
      RetryHonest limitPerWindow windowSeconds past key now := by
  intro honest
  have allowed := honest 1 2 [("a", 0)] "a" 500000000 (by decide) (by decide +kernel) []
    (fun _ member => absurd member List.not_mem_nil) (by decide +kernel)
  revert allowed
  decide +kernel

/-- After one whole second it is told the truth. -/
theorem whole_second_honest : RetryHonest 1 2 [("a", 0)] "a" (seconds 1) :=
  (retry_honest_iff 1 2 [("a", 0)] "a" (seconds 1) (by decide) (by decide +kernel)).mpr
    ⟨seconds 1, by decide +kernel, .inl (le_refl _)⟩

end Spatiad
