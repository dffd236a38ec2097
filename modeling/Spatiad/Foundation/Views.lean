import Mathlib.Data.List.Induction

/-! # Views of a machine

A view shows part of a machine's state and follows a machine of its own: what a
command does to the part depends on the part alone.  Commands that are not the
part's own can then be left out of any log.
-/

namespace Foundation.Views

variable {σ ι ν : Type*}

section follow

variable {apply : σ → ι → σ} {act : ν → ι → ν} (view : σ → ν)

/-- A view that follows the commands a log permits follows the log. -/
theorem view_foldl (permits : List ι → ι → Prop) {start : σ}
    (follows : ∀ past c, permits past c →
      view (apply (past.foldl apply start) c) = act (view (past.foldl apply start)) c)
    {log : List ι} (permitted : ∀ past c rest, log = past ++ c :: rest → permits past c) :
    view (log.foldl apply start) = log.foldl act (view start) := by
  induction log using List.reverseRecOn with
  | nil => rfl
  | append_singleton log c ih =>
      have earlier : ∀ past d rest, log = past ++ d :: rest → permits past d := by
        intro past d rest same
        exact permitted past d (rest ++ [c]) (by simp [same])
      rw [List.foldl_append, List.foldl_append, ← ih earlier]
      exact follows log c (permitted log c [] rfl)

end follow

section skip

variable {act : ν → ι → ν} {own : ι → Bool}

/-- Where only its own commands change a part, the others can be left out. -/
theorem foldl_filter_own (inv : List ι → ν → Prop) {start : ν} (initial : inv [] start)
    (keeps : ∀ past v c, inv past v → inv (past ++ [c]) (act v c))
    {log : List ι} (skips : ∀ past v c rest, log = past ++ c :: rest → inv past v →
      own c = false → act v c = v) :
    log.foldl act start = (log.filter own).foldl act start := by
  have both : inv log (log.foldl act start) ∧
      log.foldl act start = (log.filter own).foldl act start := by
    induction log using List.reverseRecOn with
    | nil => exact ⟨initial, rfl⟩
    | append_singleton log c ih =>
        have earlier : ∀ past v d rest, log = past ++ d :: rest → inv past v →
            own d = false → act v d = v := by
          intro past v d rest same
          exact skips past v d (rest ++ [c]) (by simp [same])
        obtain ⟨held, same⟩ := ih earlier
        rw [List.foldl_append, List.filter_append, List.foldl_append, ← same]
        refine ⟨keeps _ _ _ held, ?_⟩
        cases mine : own c with
        | true => simp [mine]
        | false => simp [mine, skips log _ c [] rfl held mine]
  exact both.2

end skip

end Foundation.Views
