import Mathlib.Data.Option.Basic
import Mathlib.Tactic.Common

/-! # Reading a state off an event log

An event may answer a question, and the last event that does has the final word.
-/

namespace Foundation

variable {ε α : Type*}

/-- What the last event that answers says. -/
def latest (answer : ε → Option α) (log : List ε) : Option α := (log.filterMap answer).getLast?

variable (answer : ε → Option α) (log more : List ε)

@[simp] theorem latest_nil : latest answer [] = none := rfl

theorem latest_append :
    latest answer (log ++ more) = (latest answer more).or (latest answer log) := by
  simp only [latest, List.filterMap_append, List.getLast?_append]

@[simp] theorem latest_singleton (event : ε) : latest answer [event] = answer event := by
  cases said : answer event with
  | none => simp [latest, said]
  | some value => simp [latest, said]

@[simp] theorem latest_cons (event : ε) :
    latest answer (event :: log) = (latest answer log).or (answer event) := by
  have split := latest_append answer [event] log
  simpa only [List.singleton_append, latest_singleton] using split

variable {answer log}

theorem latest_of_silent (silent : ∀ event ∈ log, answer event = none) :
    latest answer log = none := by
  induction log with
  | nil => rfl
  | cons event rest ih =>
      rw [latest_cons, silent event List.mem_cons_self,
        ih fun event member => silent event (List.mem_cons_of_mem _ member)]
      rfl

/-- Where all that answer agree, one of them is enough. -/
theorem latest_of_agree {value : α}
    (agree : ∀ event ∈ log, answer event = none ∨ answer event = some value)
    (spoken : ∃ event ∈ log, answer event = some value) : latest answer log = some value := by
  induction log with
  | nil =>
      obtain ⟨event, member, _⟩ := spoken
      cases member
  | cons event rest ih =>
      have agreeRest : ∀ event ∈ rest, answer event = none ∨ answer event = some value :=
        fun event member => agree event (List.mem_cons_of_mem _ member)
      rw [latest_cons]
      by_cases later : ∃ event ∈ rest, answer event = some value
      · rw [ih agreeRest later]
        rfl
      · have silent : ∀ event ∈ rest, answer event = none := by
          intro event member
          rcases agreeRest event member with none | some
          · exact none
          · exact absurd ⟨event, member, some⟩ later
        rw [latest_of_silent silent, Option.none_or]
        obtain ⟨speaker, member, said⟩ := spoken
        rcases List.mem_cons.mp member with rfl | inRest
        · exact said
        · exact absurd ⟨speaker, inRest, said⟩ later

end Foundation
