import Mathlib.Tactic.Common

/-! # Runs of a labelled system

A run is a finite sequence of labelled steps together with the labels it left
behind.  `allow` restricts the steps a run may take, and may look at the past:
a property of every allowed run is proved by one step lemma, and a statement
about a run continued from a state it reached is a statement about two runs.
-/

namespace Foundation

variable {σ ℓ : Type*}

/-- Finite runs from `start` whose every step was allowed when it was taken. -/
inductive Run (step : σ → ℓ → σ → Prop) (allow : List ℓ → σ → ℓ → Prop) (start : σ) :
    List ℓ → σ → Prop where
  | start : Run step allow start [] start
  | next {past s label s'} : Run step allow start past s → allow past s label →
      step s label s' → Run step allow start (past ++ [label]) s'

def anyStep : List ℓ → σ → ℓ → Prop := fun _ _ _ => True

namespace Run

variable {step : σ → ℓ → σ → Prop} {allow allow' : List ℓ → σ → ℓ → Prop} {start : σ}
variable {past : List ℓ} {s : σ}

/-- What holds at the start and survives every allowed step holds after the run. -/
theorem invariant (P : List ℓ → σ → Prop) (initial : P [] start)
    (preserved : ∀ past s label s', P past s → allow past s label → step s label s' →
      P (past ++ [label]) s')
    (run : Run step allow start past s) : P past s := by
  induction run with
  | start => exact initial
  | next _ allowed taken ih => exact preserved _ _ _ _ ih allowed taken

/-- The rule for properties of the state alone. -/
theorem state_invariant (P : σ → Prop) (initial : P start)
    (preserved : ∀ s label s', P s → step s label s' → P s')
    (run : Run step allow start past s) : P s :=
  run.invariant (fun _ s => P s) initial fun _ s label s' held _ taken =>
    preserved s label s' held taken

/-- Carry an invariant of every run along while proving one of the allowed runs. -/
theorem invariant_under (I : σ → Prop) (P : List ℓ → σ → Prop) (start_ok : I start)
    (keeps : ∀ s label s', I s → step s label s' → I s') (initial : P [] start)
    (preserved : ∀ past s label s', I s → P past s → allow past s label → step s label s' →
      P (past ++ [label]) s')
    (run : Run step allow start past s) : P past s := by
  have both : I s ∧ P past s := by
    refine run.invariant (fun past s => I s ∧ P past s) ⟨start_ok, initial⟩ ?_
    rintro past s label s' ⟨inv, held⟩ allowed taken
    exact ⟨keeps s label s' inv taken, preserved past s label s' inv held allowed taken⟩
  exact both.2

theorem relax (weaker : ∀ past s label, allow past s label → allow' past s label)
    (run : Run step allow start past s) : Run step allow' start past s := by
  induction run with
  | start => exact .start
  | next _ allowed taken ih => exact .next ih (weaker _ _ _ allowed) taken

theorem append {later : List ℓ} {s' : σ} (first : Run step anyStep start past s)
    (second : Run step anyStep s later s') : Run step anyStep start (past ++ later) s' := by
  induction second with
  | start =>
      rw [List.append_nil]
      exact first
  | next _ _ taken ih =>
      rw [← List.append_assoc]
      exact ih.next trivial taken

end Run

end Foundation
