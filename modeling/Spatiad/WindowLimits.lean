import Spatiad.RateLimit
import Spatiad.Foundation.SlidingWindow
import Mathlib.Algebra.Order.Group.Unbundled.Int
import Mathlib.Algebra.Order.Ring.Int

/-! # The limiters as sliding windows

Both limiters keep a queue for each key and look at the front of it alone.  Over calls at
nondecreasing times they answer as a window over the allowed calls of that key does.
-/

namespace Spatiad

open Foundation Foundation.SlidingWindow

/-! ## Windows of seconds -/

def cutoff (windowSeconds : Int) (now : DateTime) : DateTime := now - seconds windowSeconds

theorem cutoff_monotone (windowSeconds : Int) :
    ∀ ⦃now later⦄, now ≤ later → cutoff windowSeconds now ≤ cutoff windowSeconds later :=
  fun _ _ later => Int.sub_le_sub_right later _

theorem cutoff_lt (windowSeconds : Int) (now : DateTime) :
    cutoff (max windowSeconds 1) now < now := by
  have window : 0 < seconds (max windowSeconds 1) :=
    mul_pos (zero_lt_one.trans_le (le_max_right windowSeconds 1)) (by decide)
  exact sub_lt_self now window

section windows

variable {κ : Type} [DecidableEq κ] (limitPerWindow : Nat) (windowSeconds : Int)

def admittedTimes (key : κ) (calls : List (κ × DateTime)) : List DateTime :=
  accepted (cutoff (max windowSeconds 1)) (max limitPerWindow 1) (timesOf key calls)

theorem admittedTimes_snoc (key : κ) (calls : List (κ × DateTime)) (call : κ × DateTime) :
    admittedTimes limitPerWindow windowSeconds key (calls ++ [call]) =
      if call.1 = key then
        accept (cutoff (max windowSeconds 1)) (max limitPerWindow 1)
          (admittedTimes limitPerWindow windowSeconds key calls) call.2
      else admittedTimes limitPerWindow windowSeconds key calls := by
  unfold admittedTimes
  rw [timesOf_snoc]
  split
  · rw [accepted_snoc]
  · rw [List.append_nil]

def queues (calls : List (κ × DateTime)) : HashMap κ (List DateTime) :=
  serve (cutoff (max windowSeconds 1)) (max limitPerWindow 1) ∅ calls

variable {calls : List (κ × DateTime)} {now : DateTime}
  (inOrder : calls.Pairwise fun a b => a.2 ≤ b.2)

include inOrder

theorem queues_keep (past : ∀ call ∈ calls, call.2 ≤ now) (key : κ) :
    Keeps (cutoff (max windowSeconds 1)) now
      (((queues limitPerWindow windowSeconds calls).lookup key).getD [])
      (admittedTimes limitPerWindow windowSeconds key calls) :=
  serve_keeps (cutoff_monotone _) inOrder past key

theorem admittedTimes_bounded (key : κ) (t : DateTime) :
    (inWindow (cutoff (max windowSeconds 1)) t
      (admittedTimes limitPerWindow windowSeconds key calls)).length ≤ max limitPerWindow 1 := by
  refine length_inWindow_accepted (cutoff_monotone _) ?_ t
  exact (inOrder.sublist List.filter_sublist).map _ fun _ _ le => le

end windows

theorem past_of_inOrder {κ : Type} {past : List (κ × DateTime)} {key : κ} {now : DateTime}
    (inOrder : (past ++ [(key, now)]).Pairwise fun a b => a.2 ≤ b.2) :
    (past.Pairwise fun a b => a.2 ≤ b.2) ∧ ∀ call ∈ past, call.2 ≤ now := by
  obtain ⟨earlier, _, ordered⟩ := List.pairwise_append.mp inOrder
  exact ⟨earlier, fun call member => ordered call member (key, now) List.mem_cons_self⟩

/-! ## The limiter -/

namespace SlidingWindowRateLimiter

def checkAll (limiter : SlidingWindowRateLimiter) (calls : List (String × DateTime)) :
    SlidingWindowRateLimiter :=
  calls.foldl (fun limiter call => (limiter.check call.1 call.2).2) limiter

def allowedTimes (limiter : SlidingWindowRateLimiter) (key : String) :
    List (String × DateTime) → List DateTime
  | [] => []
  | call :: calls =>
      let (snapshot, limiter) := limiter.check call.1 call.2
      let later := limiter.allowedTimes key calls
      if call.1 = key ∧ snapshot.allowed then call.2 :: later else later

/-- What a check looks at. -/
def visible (limiter : SlidingWindowRateLimiter) (key : String) (now : DateTime) : List DateTime :=
  prune (cutoff limiter.windowSeconds) ((limiter.entries.lookup key).getD []) now

section check

variable {limiter : SlidingWindowRateLimiter} {key : String} {now : DateTime}

theorem check_full (full : limiter.limitPerWindow ≤ (limiter.visible key now).length) :
    limiter.check key now =
      (⟨false, limiter.limitPerWindow, 0, limiter.resetSeconds (limiter.visible key now) now,
        limiter.resetSeconds (limiter.visible key now) now⟩,
      { limiter with entries := limiter.entries.insert key (limiter.visible key now) }) :=
  if_pos full

theorem check_room (room : (limiter.visible key now).length < limiter.limitPerWindow) :
    limiter.check key now =
      (⟨true, limiter.limitPerWindow,
        limiter.limitPerWindow - (limiter.visible key now ++ [now]).length, 0,
        limiter.resetSeconds (limiter.visible key now ++ [now]) now⟩,
      { limiter with
        entries := limiter.entries.insert key (limiter.visible key now ++ [now]) }) :=
  if_neg (Nat.not_le.mpr room)

theorem check_allowed :
    (limiter.check key now).1.allowed = true ↔
      (limiter.visible key now).length < limiter.limitPerWindow := by
  rcases Nat.lt_or_ge (limiter.visible key now).length limiter.limitPerWindow with room | full
  · rw [check_room room]
    exact iff_of_true rfl room
  · rw [check_full full]
    exact iff_of_false Bool.false_ne_true (Nat.not_lt.mpr full)

theorem check_snapshot {other : SlidingWindowRateLimiter}
    (limit : other.limitPerWindow = limiter.limitPerWindow)
    (window : other.windowSeconds = limiter.windowSeconds)
    (same : other.visible key now = limiter.visible key now) :
    (other.check key now).1 = (limiter.check key now).1 := by
  have reset : ∀ queue, other.resetSeconds queue now = limiter.resetSeconds queue now := by
    intro queue
    simp only [resetSeconds, window]
  rcases Nat.lt_or_ge (limiter.visible key now).length limiter.limitPerWindow with room | full
  · rw [check_room room, check_room (by rwa [same, limit])]
    simp only [same, limit, reset]
  · rw [check_full full, check_full (by rwa [same, limit])]
    simp only [same, limit, reset]

theorem check_limiter :
    (limiter.check key now).2 =
      { limiter with
        entries := serve (cutoff limiter.windowSeconds) limiter.limitPerWindow limiter.entries
          [(key, now)] } := by
  simp only [serve, List.foldl_cons, List.foldl_nil]
  rcases Nat.lt_or_ge (limiter.visible key now).length limiter.limitPerWindow with room | full
  · rw [check_room room, respond_room room]
    rfl
  · rw [check_full full, respond_full full]
    rfl

end check

theorem checkAll_eq (limiter : SlidingWindowRateLimiter) (calls : List (String × DateTime)) :
    limiter.checkAll calls =
      { limiter with
        entries := serve (cutoff limiter.windowSeconds) limiter.limitPerWindow limiter.entries
          calls } := by
  unfold checkAll
  induction calls generalizing limiter with
  | nil => rfl
  | cons call calls ih =>
      rw [List.foldl_cons, ih, check_limiter]
      rfl

theorem allowedTimes_snoc (limiter : SlidingWindowRateLimiter) (key : String)
    (calls : List (String × DateTime)) (call : String × DateTime) :
    limiter.allowedTimes key (calls ++ [call]) = limiter.allowedTimes key calls ++
      if call.1 = key ∧ ((limiter.checkAll calls).check call.1 call.2).1.allowed then [call.2]
      else [] := by
  induction calls generalizing limiter with
  | nil => rfl
  | cons first calls ih =>
      simp only [List.cons_append, allowedTimes, ih]
      split <;> rfl

def after (limitPerWindow : Nat) (windowSeconds : Int) (calls : List (String × DateTime)) :
    SlidingWindowRateLimiter :=
  (new limitPerWindow windowSeconds).checkAll calls

theorem after_eq (limitPerWindow : Nat) (windowSeconds : Int) (calls : List (String × DateTime)) :
    after limitPerWindow windowSeconds calls =
      { new limitPerWindow windowSeconds with
        entries := queues limitPerWindow windowSeconds calls } :=
  checkAll_eq (new limitPerWindow windowSeconds) calls

section past

variable (limitPerWindow : Nat) (windowSeconds : Int) (key : String)
  {calls : List (String × DateTime)} {now : DateTime}

theorem after_limit : (after limitPerWindow windowSeconds calls).limitPerWindow =
    max limitPerWindow 1 := by
  rw [after_eq]
  rfl

theorem after_window : (after limitPerWindow windowSeconds calls).windowSeconds =
    max windowSeconds 1 := by
  rw [after_eq]
  rfl

variable (inOrder : calls.Pairwise fun a b => a.2 ≤ b.2)

include inOrder

theorem visible_after (past : ∀ call ∈ calls, call.2 ≤ now) :
    (after limitPerWindow windowSeconds calls).visible key now =
      inWindow (cutoff (max windowSeconds 1)) now
        (admittedTimes limitPerWindow windowSeconds key calls) := by
  rw [after_eq]
  exact queues_keep limitPerWindow windowSeconds inOrder past key now (le_refl now)

theorem after_allowed (past : ∀ call ∈ calls, call.2 ≤ now) :
    ((after limitPerWindow windowSeconds calls).check key now).1.allowed = true ↔
      (inWindow (cutoff (max windowSeconds 1)) now
        (admittedTimes limitPerWindow windowSeconds key calls)).length < max limitPerWindow 1 := by
  rw [check_allowed, visible_after limitPerWindow windowSeconds key inOrder past, after_limit]

/-- A limiter allows what a window over the calls of the key admits. -/
theorem allowedTimes_eq :
    (new limitPerWindow windowSeconds).allowedTimes key calls =
      admittedTimes limitPerWindow windowSeconds key calls := by
  induction calls using List.reverseRecOn with
  | nil => rfl
  | append_singleton calls call ih =>
      obtain ⟨earlier, upTo⟩ := past_of_inOrder inOrder
      have allowed := after_allowed limitPerWindow windowSeconds call.1 earlier upTo
      rw [allowedTimes_snoc, ih earlier, admittedTimes_snoc]
      by_cases same : call.1 = key
      · rw [if_pos same, accept, ← same]
        split
        · rename_i both
          rw [if_pos (allowed.mp both.2)]
        · rename_i denied
          rw [if_neg fun room => denied ⟨rfl, allowed.mpr room⟩, List.append_nil]
      · rw [if_neg same, if_neg fun both => same both.1, List.append_nil]

end past

end SlidingWindowRateLimiter

/-! ## The guard -/

namespace WsReconnectGuard

def allowAll (guard : WsReconnectGuard) (attempts : List (Uuid × DateTime)) : WsReconnectGuard :=
  attempts.foldl (fun guard attempt => (guard.allow attempt.1 attempt.2).2) guard

theorem allow_eq (guard : WsReconnectGuard) (driverId : Uuid) (now : DateTime) :
    guard.allow driverId now =
      (let (allowed, queue) := respond (cutoff guard.windowSeconds) guard.maxReconnectsPerWindow
        ((guard.attempts.lookup driverId).getD []) now
      (allowed, { guard with attempts := guard.attempts.insert driverId queue })) := by
  rcases Nat.lt_or_ge (prune (cutoff guard.windowSeconds)
    ((guard.attempts.lookup driverId).getD []) now).length guard.maxReconnectsPerWindow with room | full
  · rw [respond_room room]
    exact if_neg (Nat.not_le.mpr room)
  · rw [respond_full full]
    exact if_pos full

theorem allowAll_eq (guard : WsReconnectGuard) (attempts : List (Uuid × DateTime)) :
    guard.allowAll attempts =
      { guard with
        attempts := serve (cutoff guard.windowSeconds) guard.maxReconnectsPerWindow guard.attempts
          attempts } := by
  unfold allowAll
  induction attempts generalizing guard with
  | nil => rfl
  | cons attempt attempts ih =>
      rw [List.foldl_cons, ih, allow_eq]
      rfl

theorem allowAll_allow (maxReconnectsPerWindow : Nat) (windowSeconds : Int) (driverId : Uuid)
    {attempts : List (Uuid × DateTime)} {now : DateTime}
    (inOrder : attempts.Pairwise fun a b => a.2 ≤ b.2) (past : ∀ attempt ∈ attempts, attempt.2 ≤ now) :
    (((new maxReconnectsPerWindow windowSeconds).allowAll attempts).allow driverId now).1 = true ↔
      (inWindow (cutoff (max windowSeconds 1)) now
        (admittedTimes maxReconnectsPerWindow windowSeconds driverId attempts)).length <
          max maxReconnectsPerWindow 1 := by
  have keeps := queues_keep maxReconnectsPerWindow windowSeconds inOrder past driverId
  rw [allow_eq, allowAll_eq]
  exact (Bool.eq_iff_iff.mp (keeps.respond_eq (le_refl now))).trans decide_eq_true_iff

end WsReconnectGuard

/-! ## Sliding windows -/

def limiterAnswer (limitPerWindow : Nat) (windowSeconds : Int) (past : List (String × DateTime))
    (key : String) (now : DateTime) : RateLimitSnapshot :=
  ((SlidingWindowRateLimiter.after limitPerWindow windowSeconds past).check key now).1

def allowedIn (limitPerWindow : Nat) (windowSeconds : Int) (calls : List (String × DateTime))
    (key : String) (t : DateTime) : Nat :=
  (((SlidingWindowRateLimiter.new limitPerWindow windowSeconds).allowedTimes key calls).filter
    fun s => decide (t - seconds (max windowSeconds 1) < s ∧ s ≤ t)).length

/-- A check for `key` that follows these calls is answered as a sliding window would. -/
structure Slides (limitPerWindow : Nat) (windowSeconds : Int) (past : List (String × DateTime))
    (key : String) (now : DateTime) : Prop where
  allowed_iff : (limiterAnswer limitPerWindow windowSeconds past key now).allowed = true ↔
    allowedIn limitPerWindow windowSeconds past key now < max limitPerWindow 1
  /-- This call is one of those in the window, if it is allowed. -/
  remaining : (limiterAnswer limitPerWindow windowSeconds past key now).remaining =
    max limitPerWindow 1 -
      allowedIn limitPerWindow windowSeconds (past ++ [(key, now)]) key now
  bounded : ∀ t, allowedIn limitPerWindow windowSeconds (past ++ [(key, now)]) key t ≤
    max limitPerWindow 1
  /-- A denied call, or one for another key, might as well not have been made. -/
  unaffected : ∀ before other at' after, past = before ++ (other, at') :: after →
    other ≠ key ∨ (limiterAnswer limitPerWindow windowSeconds before other at').allowed = false →
    limiterAnswer limitPerWindow windowSeconds (before ++ after) key now =
      limiterAnswer limitPerWindow windowSeconds past key now
  /-- A guard answers the same, if the driver's attempts were at the times of these calls. -/
  guarded : ∀ (driverId : Uuid) (attempts : List (Uuid × DateTime)),
    (attempts ++ [(driverId, now)]).Pairwise (fun a b => a.2 ≤ b.2) →
    timesOf driverId attempts = timesOf key past →
    (((WsReconnectGuard.new limitPerWindow windowSeconds).allowAll attempts).allow driverId now).1 =
      (limiterAnswer limitPerWindow windowSeconds past key now).allowed

section slides

variable {limitPerWindow : Nat} {windowSeconds : Int} {past : List (String × DateTime)}
  {key : String} {now : DateTime}

theorem allowedIn_eq (inOrder : past.Pairwise fun a b => a.2 ≤ b.2) (t : DateTime) :
    allowedIn limitPerWindow windowSeconds past key t =
      (inWindow (cutoff (max windowSeconds 1)) t
        (admittedTimes limitPerWindow windowSeconds key past)).length := by
  rw [allowedIn, SlidingWindowRateLimiter.allowedTimes_eq _ _ _ inOrder]
  rfl

theorem limiterAnswer_remaining (inOrder : (past ++ [(key, now)]).Pairwise fun a b => a.2 ≤ b.2) :
    (limiterAnswer limitPerWindow windowSeconds past key now).remaining =
      max limitPerWindow 1 -
        allowedIn limitPerWindow windowSeconds (past ++ [(key, now)]) key now := by
  obtain ⟨earlier, upTo⟩ := past_of_inOrder inOrder
  have visible := SlidingWindowRateLimiter.visible_after limitPerWindow windowSeconds key earlier upTo
  have limit := @SlidingWindowRateLimiter.after_limit limitPerWindow windowSeconds past
  unfold limiterAnswer
  rw [allowedIn_eq inOrder, admittedTimes_snoc, if_pos rfl, accept]
  split
  · rename_i room
    have inside : cutoff (max windowSeconds 1) now < now ∧ now ≤ now :=
      ⟨cutoff_lt windowSeconds now, le_refl now⟩
    rw [← visible, ← limit] at room
    rw [SlidingWindowRateLimiter.check_room room, inWindow_snoc, if_pos inside, ← visible]
    exact congrArg (· - _) limit
  · rename_i full
    have full := Nat.not_lt.mp full
    rw [Nat.sub_eq_zero_of_le full]
    rw [← visible, ← limit] at full
    rw [SlidingWindowRateLimiter.check_full full]

theorem limiterAnswer_congr {other : List (String × DateTime)}
    (inOrder : (past ++ [(key, now)]).Pairwise fun a b => a.2 ≤ b.2)
    (inOrder' : (other ++ [(key, now)]).Pairwise fun a b => a.2 ≤ b.2)
    (same : admittedTimes limitPerWindow windowSeconds key other =
      admittedTimes limitPerWindow windowSeconds key past) :
    limiterAnswer limitPerWindow windowSeconds other key now =
      limiterAnswer limitPerWindow windowSeconds past key now := by
  obtain ⟨earlier, upTo⟩ := past_of_inOrder inOrder
  obtain ⟨earlier', upTo'⟩ := past_of_inOrder inOrder'
  have visible := SlidingWindowRateLimiter.visible_after limitPerWindow windowSeconds key earlier upTo
  have visible' :=
    SlidingWindowRateLimiter.visible_after limitPerWindow windowSeconds key earlier' upTo'
  refine SlidingWindowRateLimiter.check_snapshot ?_ ?_ (visible'.trans (same ▸ visible.symm))
  · rw [SlidingWindowRateLimiter.after_limit, SlidingWindowRateLimiter.after_limit]
  · rw [SlidingWindowRateLimiter.after_window, SlidingWindowRateLimiter.after_window]

/-- Without a call that was denied, or was for another key, the window admits the same. -/
theorem admittedTimes_without {before after : List (String × DateTime)} {other : String}
    {at' : DateTime}
    (inOrder : (before ++ (other, at') :: after).Pairwise fun a b => a.2 ≤ b.2)
    (reason : other ≠ key ∨
      (limiterAnswer limitPerWindow windowSeconds before other at').allowed = false) :
    admittedTimes limitPerWindow windowSeconds key (before ++ after) =
      admittedTimes limitPerWindow windowSeconds key (before ++ (other, at') :: after) := by
  unfold admittedTimes
  rw [timesOf_append, timesOf_append, timesOf_cons]
  by_cases same : other = key
  · subst same
    obtain ⟨first, _, ordered⟩ := List.pairwise_append.mp inOrder
    have upTo : ∀ call ∈ before, call.2 ≤ at' := fun call member =>
      ordered call member _ List.mem_cons_self
    have denied := reason.resolve_left fun different => different rfl
    rw [if_pos rfl]
    refine (accepted_without (Nat.not_lt.mp fun room => ?_)).symm
    have allowed := (SlidingWindowRateLimiter.after_allowed limitPerWindow windowSeconds other first
      upTo).mpr room
    cases denied.symm.trans allowed
  · rw [if_neg same]
    rfl

end slides

/-- Over calls at nondecreasing times every check is answered as a sliding window would. -/
theorem limiters_slide (limitPerWindow : Nat) (windowSeconds : Int)
    (past : List (String × DateTime)) (key : String) (now : DateTime)
    (inOrder : (past ++ [(key, now)]).Pairwise fun a b => a.2 ≤ b.2) :
    Slides limitPerWindow windowSeconds past key now := by
  obtain ⟨earlier, upTo⟩ := past_of_inOrder inOrder
  have allowed :=
    SlidingWindowRateLimiter.after_allowed limitPerWindow windowSeconds key earlier upTo
  refine ⟨?_, limiterAnswer_remaining inOrder, fun t => ?_, ?_, ?_⟩
  · rw [allowedIn_eq earlier]
    exact allowed
  · rw [allowedIn_eq inOrder]
    exact admittedTimes_bounded limitPerWindow windowSeconds inOrder key t
  · rintro before other at' after rfl reason
    have fewer : (before ++ after).Sublist (before ++ (other, at') :: after) :=
      (List.sublist_cons_self _ _).append_left before
    have inOrder' : (before ++ after ++ [(key, now)]).Pairwise fun a b => a.2 ≤ b.2 :=
      inOrder.sublist (fewer.append_right _)
    exact limiterAnswer_congr inOrder inOrder' (admittedTimes_without earlier reason)
  · intro driverId attempts inOrder' same
    obtain ⟨earlier', upTo'⟩ := past_of_inOrder inOrder'
    have guarded := WsReconnectGuard.allowAll_allow limitPerWindow windowSeconds driverId earlier' upTo'
    rw [admittedTimes, same] at guarded
    exact Bool.eq_iff_iff.mpr (guarded.trans allowed.symm)

/-- After a burst of three, key "a" has room for two again when ten seconds are over. -/
theorem burst_slides :
    let past := [("a", 0), ("a", 0), ("a", 0), ("b", seconds 5)]
    (limiterAnswer 2 10 past "a" (seconds 9)).allowed = false ∧
      limiterAnswer 2 10 past "a" (seconds 10) = ⟨true, 2, 1, 0, 10⟩ ∧
      Slides 2 10 past "a" (seconds 10) := by
  intro past
  refine ⟨by decide +kernel, by decide +kernel, limiters_slide 2 10 past "a" (seconds 10) ?_⟩
  decide +kernel

end Spatiad
