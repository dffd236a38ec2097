import Spatiad.Foundation.Runs
import Mathlib.Logic.Function.Basic

/-! # Agendas

Workers share a state, and each has an agenda of actions it has yet to take.  An action
is taken in one go; it may put further actions on its worker's agenda, or drop what is
left of it.  An idle worker may be given a new agenda.  Between two actions of a worker
the others take any number of theirs, so whatever an action relies on must be stable.
-/

namespace Foundation.Agendas

/-- The shared state, and what each worker has yet to do. -/
structure Pool (σ ι α : Type*) where
  shared : σ
  agenda : ι → List α

/-- What workers do: how an idle one is given an agenda, and what the first action of an
    agenda makes of the state and of the agenda, whose rest it sees. -/
structure Workers (σ ι α : Type*) where
  begins : ι → σ → σ → List α → Prop
  takes : ι → α → List α → σ → σ → List α → Prop

variable {σ ι α κ : Type*} [DecidableEq ι]

namespace Pool

def after (p : Pool σ ι α) (i : ι) (shared : σ) (agenda : List α) : Pool σ ι α where
  shared := shared
  agenda := Function.update p.agenda i agenda

variable {p : Pool σ ι α} {i j : ι} {shared : σ} {agenda : List α} {a : α}

@[simp] theorem after_shared : (p.after i shared agenda).shared = shared := rfl

@[simp] theorem after_agenda : (p.after i shared agenda).agenda i = agenda := by
  simp [after]

theorem after_other (other : j ≠ i) : (p.after i shared agenda).agenda j = p.agenda j := by
  simp [after, other]

/-- An action on some agenda is on the new one, or was on another worker's before. -/
theorem mem_after (member : a ∈ (p.after i shared agenda).agenda j) :
    j = i ∧ a ∈ agenda ∨ j ≠ i ∧ a ∈ p.agenda j := by
  by_cases same : j = i
  · subst same
    rw [after_agenda] at member
    exact .inl ⟨rfl, member⟩
  · rw [after_other same] at member
    exact .inr ⟨same, member⟩

end Pool

namespace Workers

variable (w : Workers σ ι α)

/-- Some worker begins, or takes its next action. -/
inductive step : Pool σ ι α → ι → Pool σ ι α → Prop where
  | begins {p i shared agenda} (idle : p.agenda i = [])
      (begun : w.begins i p.shared shared agenda) : step p i (p.after i shared agenda)
  | takes {p i a rest shared agenda} (next : p.agenda i = a :: rest)
      (taken : w.takes i a rest p.shared shared agenda) : step p i (p.after i shared agenda)

/-! ## What every action may rely on -/

/-- Each worker keeps the invariant and moves the state only to later ones, relying on
    what holds of the actions of its own agenda; that is stable as the state grows later. -/
structure Upholds (later : σ → σ → Prop) (Inv : σ → Prop) (Ok : ι → α → σ → Prop) : Prop where
  stable : ∀ i a s s', later s s' → Ok i a s → Ok i a s'
  begins : ∀ i s s' agenda, Inv s → w.begins i s s' agenda →
    later s s' ∧ Inv s' ∧ ∀ a ∈ agenda, Ok i a s'
  takes : ∀ i a rest s s' agenda, Inv s → Ok i a s → w.takes i a rest s s' agenda →
    later s s' ∧ Inv s' ∧ ∀ b ∈ agenda, b ∈ rest ∨ Ok i b s'

/-- The invariant holds, and what every action of every agenda relies on. -/
structure Upheld (Inv : σ → Prop) (Ok : ι → α → σ → Prop) (p : Pool σ ι α) : Prop where
  shared : Inv p.shared
  agenda : ∀ i, ∀ a ∈ p.agenda i, Ok i a p.shared

variable {w} {later : σ → σ → Prop} {Inv : σ → Prop} {Ok : ι → α → σ → Prop}

namespace Upholds

variable (upholds : w.Upholds later Inv Ok)

include upholds

theorem step {p p' : Pool σ ι α} {i : ι} (held : Upheld Inv Ok p) (moved : w.step p i p') :
    later p.shared p'.shared ∧ Upheld Inv Ok p' := by
  cases moved with
  | @begins shared agenda idle begun =>
      obtain ⟨goesOn, inv, ok⟩ := upholds.begins i p.shared shared agenda held.shared begun
      refine ⟨goesOn, inv, fun j a member => ?_⟩
      cases Pool.mem_after member with
      | inl own =>
          obtain ⟨rfl, new⟩ := own
          exact ok a new
      | inr other => exact upholds.stable j a _ _ goesOn (held.agenda j a other.2)
  | @takes a rest shared agenda next taken =>
      have own : ∀ b ∈ a :: rest, Ok i b p.shared := fun b member =>
        held.agenda i b (next ▸ member)
      obtain ⟨goesOn, inv, ok⟩ := upholds.takes i a rest p.shared shared agenda held.shared
        (own a List.mem_cons_self) taken
      refine ⟨goesOn, inv, fun j b member => ?_⟩
      cases Pool.mem_after member with
      | inr other => exact upholds.stable j b _ _ goesOn (held.agenda j b other.2)
      | inl mine =>
          obtain ⟨rfl, new⟩ := mine
          cases ok b new with
          | inl left => exact upholds.stable j b _ _ goesOn (own b (List.mem_cons_of_mem a left))
          | inr now => exact now

theorem run {allow : List ι → Pool σ ι α → ι → Prop} {start p : Pool σ ι α} {past : List ι}
    (held : Upheld Inv Ok start) (run : Run w.step allow start past p) : Upheld Inv Ok p :=
  run.state_invariant (Upheld Inv Ok) held fun _ _ _ held moved => (upholds.step held moved).2

end Upholds

/-! ## What must not be forgotten -/

/-- What is owed is settled, or some action of an agenda will see to it. -/
def Accounted (Owed Settled : κ → σ → Prop) (SeesTo : α → κ → Prop) (p : Pool σ ι α) : Prop :=
  ∀ x, Owed x p.shared → Settled x p.shared ∨ ∃ i, ∃ a ∈ p.agenda i, SeesTo a x

/-- No worker forgets: what is owed after its move it settled or put on its agenda, or it
    was owed and not settled before and none of this worker's actions saw to it. -/
structure Remembers (w : Workers σ ι α) (Inv : σ → Prop) (Ok : ι → α → σ → Prop)
    (Owed Settled : κ → σ → Prop) (SeesTo : α → κ → Prop) : Prop where
  begins : ∀ i s s' agenda x, Inv s → w.begins i s s' agenda → Owed x s' →
    Settled x s' ∨ (∃ a ∈ agenda, SeesTo a x) ∨ Owed x s ∧ ¬ Settled x s
  takes : ∀ i a rest s s' agenda x, Inv s → (∀ b ∈ a :: rest, Ok i b s) →
    w.takes i a rest s s' agenda → Owed x s' →
      Settled x s' ∨ (∃ b ∈ agenda, SeesTo b x) ∨
        Owed x s ∧ ¬ Settled x s ∧ ∀ b ∈ a :: rest, ¬ SeesTo b x

namespace Remembers

variable {Owed Settled : κ → σ → Prop} {SeesTo : α → κ → Prop}
variable (remembers : w.Remembers Inv Ok Owed Settled SeesTo)

include remembers

theorem step {p p' : Pool σ ι α} {i : ι} (held : Upheld Inv Ok p)
    (accounted : Accounted Owed Settled SeesTo p) (moved : w.step p i p') :
    Accounted Owed Settled SeesTo p' := by
  intro x owed
  -- an action of another worker that sees to it still does
  have elsewhere : ∀ {j b shared agenda}, j ≠ i → b ∈ p.agenda j → SeesTo b x →
      ∃ j, ∃ b ∈ (p.after i shared agenda).agenda j, SeesTo b x := by
    intro j b shared agenda other member sees
    exact ⟨j, b, by rwa [Pool.after_other other], sees⟩
  cases moved with
  | @begins shared agenda idle begun =>
      rcases remembers.begins i p.shared shared agenda x held.shared begun owed with
        settled | ⟨a, new, sees⟩ | ⟨before, unsettled⟩
      · exact .inl settled
      · exact .inr ⟨i, a, by rwa [Pool.after_agenda], sees⟩
      · obtain ⟨j, b, member, sees⟩ := (accounted x before).resolve_left unsettled
        have other : j ≠ i := by
          rintro rfl
          rw [idle] at member
          cases member
        exact .inr (elsewhere other member sees)
  | @takes a rest shared agenda next taken =>
      have own : ∀ b ∈ a :: rest, Ok i b p.shared := fun b member =>
        held.agenda i b (next ▸ member)
      rcases remembers.takes i a rest p.shared shared agenda x held.shared own taken owed with
        settled | ⟨b, new, sees⟩ | ⟨before, unsettled, none⟩
      · exact .inl settled
      · exact .inr ⟨i, b, by rwa [Pool.after_agenda], sees⟩
      · obtain ⟨j, b, member, sees⟩ := (accounted x before).resolve_left unsettled
        have other : j ≠ i := by
          rintro rfl
          exact none b (next ▸ member) sees
        exact .inr (elsewhere other member sees)

theorem run (upholds : w.Upholds later Inv Ok) {allow : List ι → Pool σ ι α → ι → Prop}
    {start p : Pool σ ι α} {past : List ι} (held : Upheld Inv Ok start)
    (accounted : Accounted Owed Settled SeesTo start) (run : Run w.step allow start past p) :
    Accounted Owed Settled SeesTo p :=
  run.invariant_under (Upheld Inv Ok) (fun _ p => Accounted Owed Settled SeesTo p) held
    (fun _ _ _ held moved => (upholds.step held moved).2) accounted
    fun _ _ _ _ held accounted _ moved => remembers.step held accounted moved

end Remembers

end Workers

end Foundation.Agendas
