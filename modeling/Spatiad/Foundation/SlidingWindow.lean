import Spatiad.Foundation.HashMap
import Mathlib.Data.List.Induction
import Mathlib.Data.List.TakeWhile
import Mathlib.Order.Monotone.Defs

/-! # Sliding windows

A queue of admitted times that is pruned from its front alone.  While time does not run
backwards it answers as a window over everything admitted would, and so does a map with a
queue for each key.
-/

namespace Foundation.SlidingWindow

variable {κ τ : Type} [DecidableEq κ] [LinearOrder τ] (cutoff : τ → τ) (limit : Nat)

def inWindow (t : τ) (times : List τ) : List τ :=
  times.filter fun s => decide (cutoff t < s ∧ s ≤ t)

/-- Admit a call while fewer than `limit` of those admitted before are in its window. -/
def accept (past : List τ) (t : τ) : List τ :=
  if (inWindow cutoff t past).length < limit then past ++ [t] else past

def accepted (calls : List τ) : List τ := calls.foldl (accept cutoff limit) []

def prune (queue : List τ) (t : τ) : List τ := queue.dropWhile fun s => decide (s ≤ cutoff t)

/-- Prune the queue, then take the call in if there is room. -/
def respond (queue : List τ) (t : τ) : Bool × List τ :=
  let queue := prune cutoff queue t
  if limit ≤ queue.length then (false, queue) else (true, queue ++ [t])

/-! ## Windows -/

section windows

variable {cutoff limit} {now t s : τ} {past calls queue : List τ}

theorem mem_inWindow : s ∈ inWindow cutoff t past ↔ s ∈ past ∧ cutoff t < s ∧ s ≤ t := by
  simp only [inWindow, List.mem_filter, decide_eq_true_eq]

theorem inWindow_snoc : inWindow cutoff t (past ++ [s]) =
    inWindow cutoff t past ++ if cutoff t < s ∧ s ≤ t then [s] else [] := by
  rw [inWindow, List.filter_append, ← inWindow]
  by_cases inside : cutoff t < s ∧ s ≤ t
  · rw [if_pos inside, List.filter_cons_of_pos (by simpa using inside), List.filter_nil]
  · rw [if_neg inside, List.filter_cons_of_neg (by simpa using inside), List.filter_nil]

theorem accepted_snoc (calls : List τ) (t : τ) :
    accepted cutoff limit (calls ++ [t]) = accept cutoff limit (accepted cutoff limit calls) t := by
  simp only [accepted, List.foldl_append, List.foldl_cons, List.foldl_nil]

theorem accepted_without {before after : List τ}
    (full : limit ≤ (inWindow cutoff t (accepted cutoff limit before)).length) :
    accepted cutoff limit (before ++ t :: after) = accepted cutoff limit (before ++ after) := by
  have same : accept cutoff limit (accepted cutoff limit before) t = accepted cutoff limit before :=
    if_neg (Nat.not_lt.mpr full)
  unfold accepted at same ⊢
  rw [List.foldl_append, List.foldl_cons, List.foldl_append, same]

theorem accepted_subset : accepted cutoff limit calls ⊆ calls := by
  induction calls using List.reverseRecOn with
  | nil => exact List.Subset.refl _
  | append_singleton calls t ih =>
      rw [accepted_snoc]
      unfold accept
      split
      · exact List.append_subset.mpr ⟨List.subset_append_of_subset_left _ ih, List.subset_append_right _ _⟩
      · exact List.subset_append_of_subset_left _ ih

/-- The window that ends at the last time holds what any later one does. -/
theorem length_inWindow_le (monotone : Monotone cutoff) (upTo : ∀ s ∈ past, s ≤ now)
    (later : now ≤ t) :
    (inWindow cutoff t past).length ≤ (inWindow cutoff now past).length := by
  simp only [inWindow, ← List.countP_eq_length_filter]
  refine List.countP_mono_left fun s member inside => ?_
  simp only [decide_eq_true_eq] at inside ⊢
  exact ⟨(monotone later).trans_lt inside.1, upTo s member⟩

theorem length_inWindow_accepted (monotone : Monotone cutoff) (inOrder : calls.Pairwise (· ≤ ·))
    (t : τ) : (inWindow cutoff t (accepted cutoff limit calls)).length ≤ limit := by
  induction calls using List.reverseRecOn generalizing t with
  | nil => exact Nat.zero_le _
  | append_singleton calls last ih =>
      obtain ⟨earlier, _, ordered⟩ := List.pairwise_append.mp inOrder
      have upTo : ∀ s ∈ accepted cutoff limit calls, s ≤ last := fun s member =>
        ordered s (accepted_subset member) last List.mem_cons_self
      rw [accepted_snoc]
      unfold accept
      split
      · rename_i room
        rw [inWindow_snoc, List.length_append]
        by_cases inside : cutoff t < last ∧ last ≤ t
        · have shared := length_inWindow_le monotone upTo inside.2
          rw [if_pos inside, List.length_singleton]
          exact Nat.succ_le_of_lt (shared.trans_lt room)
        · rw [if_neg inside, List.length_nil]
          exact ih earlier t
      · exact ih earlier t

end windows

/-! ## Queues -/

section queues

variable {cutoff limit} {now t s : τ} {past queue : List τ}

theorem prune_prune (monotone : Monotone cutoff) (later : now ≤ t) (queue : List τ) :
    prune cutoff (prune cutoff queue now) t = prune cutoff queue t := by
  unfold prune
  induction queue with
  | nil => rfl
  | cons s queue ih =>
      simp only [List.dropWhile_cons, decide_eq_true_eq]
      by_cases old : s ≤ cutoff now
      · rw [if_pos old, if_pos (old.trans (monotone later)), ih]
      · rw [if_neg old, List.dropWhile_cons]
        simp only [decide_eq_true_eq]

theorem prune_snoc (inTime : cutoff t < s) :
    prune cutoff (queue ++ [s]) t = prune cutoff queue t ++ [s] := by
  unfold prune
  induction queue with
  | nil => simp [inTime]
  | cons first queue ih =>
      simp only [List.cons_append, List.dropWhile_cons]
      split
      · exact ih
      · rfl

theorem prune_eq_nil (old : ∀ s ∈ queue, s ≤ cutoff t) : prune cutoff queue t = [] :=
  List.dropWhile_eq_nil_iff.mpr fun s member => decide_eq_true (old s member)

theorem respond_full (full : limit ≤ (prune cutoff queue t).length) :
    respond cutoff limit queue t = (false, prune cutoff queue t) := if_pos full

theorem respond_room (room : (prune cutoff queue t).length < limit) :
    respond cutoff limit queue t = (true, prune cutoff queue t ++ [t]) := if_neg (Nat.not_le.mpr room)

/-- From `now` on, pruning the queue leaves what the window holds of `past`. -/
def Keeps (cutoff : τ → τ) (now : τ) (queue past : List τ) : Prop :=
  ∀ t, now ≤ t → prune cutoff queue t = inWindow cutoff t past

theorem Keeps.later (keeps : Keeps cutoff now queue past) (later : now ≤ t) :
    Keeps cutoff t queue past :=
  fun t' after => keeps t' (later.trans after)

/-- What a window has left a later one can still be read off. -/
theorem Keeps.prune_eq (monotone : Monotone cutoff) (keeps : Keeps cutoff now queue past)
    (later : now ≤ t) : prune cutoff (inWindow cutoff now past) t = inWindow cutoff t past := by
  rw [← keeps now (le_refl now), prune_prune monotone later, keeps t later]

theorem length_prune_lt {first : τ} {rest : List τ} :
    (prune cutoff (first :: rest) t).length < (first :: rest).length ↔ first ≤ cutoff t := by
  unfold prune
  rw [List.dropWhile_cons, List.length_cons]
  constructor
  · intro shorter
    by_contra stays
    rw [if_neg (by simpa using stays), List.length_cons] at shorter
    exact Nat.lt_irrefl _ shorter
  · intro leaves
    rw [if_pos (decide_eq_true leaves)]
    exact Nat.lt_succ_of_le (List.length_dropWhile_le _ _)

theorem Keeps.respond_eq (keeps : Keeps cutoff now queue past) (later : now ≤ t) :
    (respond cutoff limit queue t).1 = decide ((inWindow cutoff t past).length < limit) := by
  rw [← keeps t later]
  rcases Nat.lt_or_ge (prune cutoff queue t).length limit with room | full
  · rw [respond_room room, decide_eq_true room]
  · rw [respond_full full, decide_eq_false (Nat.not_lt.mpr full)]

theorem Keeps.respond (monotone : Monotone cutoff) (keeps : Keeps cutoff now queue past)
    (later : now ≤ t) :
    Keeps cutoff t (respond cutoff limit queue t).2 (accept cutoff limit past t) := by
  intro t' after
  have pruned : prune cutoff (prune cutoff queue t) t' = inWindow cutoff t' past :=
    (prune_prune monotone after queue).trans (keeps t' (later.trans after))
  rw [accept, ← keeps t later]
  rcases Nat.lt_or_ge (prune cutoff queue t).length limit with room | full
  · rw [respond_room room, if_pos room, inWindow_snoc]
    by_cases inTime : cutoff t' < t
    · rw [prune_snoc inTime, pruned, if_pos ⟨inTime, after⟩]
    · -- whatever the queue holds is no later than `t`, and has left the window too
      have gone : t ≤ cutoff t' := not_lt.mp inTime
      have upTo : ∀ s ∈ prune cutoff queue t, s ≤ cutoff t' := by
        intro s held
        rw [keeps t later] at held
        exact (mem_inWindow.mp held).2.2.trans gone
      rw [if_neg fun inside => inTime inside.1, List.append_nil, ← pruned, prune_eq_nil upTo]
      refine prune_eq_nil fun s member => ?_
      rcases List.mem_append.mp member with held | last
      · exact upTo s held
      · exact (List.mem_singleton.mp last).le.trans gone
  · rw [respond_full full, if_neg (Nat.not_lt.mpr full)]
    exact pruned

end queues

/-! ## A queue for each key -/

def serve (queues : HashMap κ (List τ)) (calls : List (κ × τ)) : HashMap κ (List τ) :=
  calls.foldl (fun queues call =>
    queues.insert call.1 (respond cutoff limit ((queues.lookup call.1).getD []) call.2).2) queues

def timesOf (key : κ) (calls : List (κ × τ)) : List τ :=
  (calls.filter fun call => call.1 = key).map Prod.snd

section keyed

variable {cutoff limit} {key : κ} {now : τ} {calls : List (κ × τ)}

omit [LinearOrder τ] in
theorem timesOf_append (before after : List (κ × τ)) :
    timesOf key (before ++ after) = timesOf key before ++ timesOf key after := by
  simp only [timesOf, List.filter_append, List.map_append]

omit [LinearOrder τ] in
theorem timesOf_cons (call : κ × τ) (calls : List (κ × τ)) :
    timesOf key (call :: calls) =
      (if call.1 = key then [call.2] else []) ++ timesOf key calls := by
  unfold timesOf
  by_cases same : call.1 = key
  · rw [if_pos same, List.filter_cons_of_pos (by simpa using same)]
    rfl
  · rw [if_neg same, List.filter_cons_of_neg (by simpa using same)]
    rfl

omit [LinearOrder τ] in
theorem timesOf_snoc (calls : List (κ × τ)) (call : κ × τ) :
    timesOf key (calls ++ [call]) =
      timesOf key calls ++ if call.1 = key then [call.2] else [] := by
  rw [timesOf_append, timesOf_cons]
  exact congrArg _ (List.append_nil _)

theorem serve_keeps (monotone : Monotone cutoff) (inOrder : calls.Pairwise fun a b => a.2 ≤ b.2)
    (past : ∀ call ∈ calls, call.2 ≤ now) (key : κ) :
    Keeps cutoff now (((serve cutoff limit ∅ calls).lookup key).getD [])
      (accepted cutoff limit (timesOf key calls)) := by
  induction calls using List.reverseRecOn generalizing now with
  | nil => exact fun _ _ => rfl
  | append_singleton calls call ih =>
      obtain ⟨earlier, _, ordered⟩ := List.pairwise_append.mp inOrder
      have upTo : ∀ c ∈ calls, c.2 ≤ call.2 := fun c member =>
        ordered c member call List.mem_cons_self
      have last : call.2 ≤ now := past call (List.mem_append_right _ List.mem_cons_self)
      have keeps := ih earlier upTo
      have served : serve cutoff limit ∅ (calls ++ [call]) =
          (serve cutoff limit ∅ calls).insert call.1
            (respond cutoff limit (((serve cutoff limit ∅ calls).lookup call.1).getD []) call.2).2 :=
        List.foldl_append
      rw [served, HashMap.lookup_insert_if, timesOf_snoc]
      by_cases same : key = call.1
      · rw [if_pos same, if_pos same.symm, accepted_snoc, ← same]
        exact (keeps.respond monotone (le_refl _)).later last
      · rw [if_neg same, if_neg (Ne.symm same), List.append_nil]
        exact keeps.later last

end keyed

end Foundation.SlidingWindow
