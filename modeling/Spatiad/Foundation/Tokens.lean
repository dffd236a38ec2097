import Spatiad.Foundation.Agendas

/-! # Tokens

Some actions hold tokens that may be used once.  A token is handed out to one worker under
a name that was not in use; it goes with the action that holds it, used or lost, and names
never come back.  So whatever the workers do, none is used twice.
-/

namespace Foundation.Agendas

variable {σ ι α κ ν : Type*} [DecidableEq ι]

def tokens (holds : α → List κ) (agenda : List α) : List κ := agenda.flatMap holds

section tokens

variable {holds : α → List κ}

theorem tokens_append (first second : List α) :
    tokens holds (first ++ second) = tokens holds first ++ tokens holds second :=
  List.flatMap_append

theorem tokens_cons (a : α) (rest : List α) :
    tokens holds (a :: rest) = holds a ++ tokens holds rest :=
  List.flatMap_cons

end tokens

/-- Tokens that were used and tokens that are held were handed out, and no two have one
    name. -/
structure Exclusive (holds : α → List κ) (name : κ → ν) (Issued : κ → σ → Prop) (p : Pool σ ι α)
    (used : List κ) : Prop where
  issued : ∀ k ∈ used, Issued k p.shared
  held : ∀ i, ∀ k ∈ tokens holds (p.agenda i), Issued k p.shared
  once : used.Pairwise fun k l => name k ≠ name l
  apart : ∀ i, (used ++ tokens holds (p.agenda i)).Pairwise fun k l => name k ≠ name l
  unshared : ∀ i j, i ≠ j → ∀ k ∈ tokens holds (p.agenda i), ∀ l ∈ tokens holds (p.agenda j),
    name k ≠ name l

namespace Exclusive

variable {holds : α → List κ} {name : κ → ν} {Issued : κ → σ → Prop} {p : Pool σ ι α}
  {used : List κ}

omit [DecidableEq ι] in
theorem idle (issued : ∀ k ∈ used, Issued k p.shared)
    (once : used.Pairwise fun k l => name k ≠ name l)
    (none_ : ∀ i, tokens holds (p.agenda i) = []) : Exclusive holds name Issued p used where
  issued := issued
  held i k member := by
    rw [none_ i] at member
    cases member
  once := once
  apart i := by
    rw [none_ i, List.append_nil]
    exact once
  unshared i _ _ k member := by
    rw [none_ i] at member
    cases member

/-- A worker uses some of its tokens, loses some, and is handed new ones. -/
theorem moved (exclusive : Exclusive holds name Issued p used) {i : ι} {shared : σ}
    {agenda : List α} {consumed new left : List κ}
    (stable : ∀ k, Issued k p.shared → Issued k shared)
    (given : tokens holds agenda = new ++ left)
    (kept : (consumed ++ left).Sublist (tokens holds (p.agenda i)))
    (issued : ∀ k ∈ new, Issued k shared)
    (fresh : ∀ k ∈ new, ∀ l, name l = name k → ¬ Issued l p.shared)
    (distinct : new.Pairwise fun k l => name k ≠ name l) :
    Exclusive holds name Issued (p.after i shared agenda) (used ++ consumed) := by
  have own : ∀ k ∈ consumed ++ left, k ∈ tokens holds (p.agenda i) := fun k member =>
    kept.subset member
  have before : (used ++ (consumed ++ left)).Pairwise fun k l => name k ≠ name l :=
    (exclusive.apart i).sublist (List.Sublist.append_left kept used)
  have old : ∀ k ∈ used ++ (consumed ++ left), Issued k p.shared := by
    intro k member
    cases List.mem_append.mp member with
    | inl used_ => exact exclusive.issued k used_
    | inr mine => exact exclusive.held i k (own k mine)
  have usedBefore : (used ++ consumed).Pairwise fun k l => name k ≠ name l := by
    refine before.sublist (List.Sublist.append_left ?_ used)
    exact List.sublist_append_left consumed left
  have others : ∀ j, j ≠ i → ∀ k ∈ new ++ left, ∀ l ∈ tokens holds (p.agenda j),
      name k ≠ name l := by
    intro j other k member l theirs same
    cases List.mem_append.mp member with
    | inl new_ => exact fresh k new_ l same.symm (exclusive.held j l theirs)
    | inr mine =>
        exact exclusive.unshared i j (Ne.symm other) k (own k (List.mem_append_right _ mine)) l
          theirs same
  constructor
  case issued =>
    intro k member
    cases List.mem_append.mp member with
    | inl used_ => exact stable k (exclusive.issued k used_)
    | inr mine => exact stable k (exclusive.held i k (own k (List.mem_append_left _ mine)))
  case held =>
    intro j k member
    by_cases same : j = i
    · subst same
      rw [Pool.after_agenda, given] at member
      cases List.mem_append.mp member with
      | inl new_ => exact issued k new_
      | inr mine => exact stable k (exclusive.held j k (own k (List.mem_append_right _ mine)))
    · rw [Pool.after_other same] at member
      exact stable k (exclusive.held j k member)
  case once => exact usedBefore
  case apart =>
    intro j
    by_cases same : j = i
    · subst same
      rw [Pool.after_agenda, given]
      have arranged :
          (new ++ (used ++ (consumed ++ left))).Perm (used ++ consumed ++ (new ++ left)) := by
        rw [← List.append_assoc used, ← List.append_assoc (used ++ consumed),
          ← List.append_assoc new]
        exact List.Perm.append_right left List.perm_append_comm
      refine (arranged.pairwise_iff fun different => different.symm).mp ?_
      refine List.pairwise_append.mpr ⟨distinct, before, fun k new_ l there same => ?_⟩
      exact fresh k new_ l same.symm (old l there)
    · rw [Pool.after_other same]
      have theirs := List.pairwise_append.mp (exclusive.apart j)
      refine List.pairwise_append.mpr ⟨usedBefore, theirs.2.1, fun k member l there => ?_⟩
      cases List.mem_append.mp member with
      | inl used_ => exact theirs.2.2 k used_ l there
      | inr mine =>
          exact exclusive.unshared i j (Ne.symm same) k (own k (List.mem_append_left _ mine)) l
            there
  case unshared =>
    intro j j' different k member l member'
    by_cases same : j = i
    · subst same
      rw [Pool.after_agenda, given] at member
      rw [Pool.after_other (Ne.symm different)] at member'
      exact others j' (Ne.symm different) k member l member'
    · rw [Pool.after_other same] at member
      by_cases same' : j' = i
      · subst same'
        rw [Pool.after_agenda, given] at member'
        exact (others j same l member' k member).symm
      · rw [Pool.after_other same'] at member'
        exact exclusive.unshared j j' different k member l member'

theorem emptied (exclusive : Exclusive holds name Issued p used) {i : ι} {shared : σ}
    {agenda : List α} (stable : ∀ k, Issued k p.shared → Issued k shared)
    (given : tokens holds agenda = []) :
    Exclusive holds name Issued (p.after i shared agenda) used := by
  have kept : List.Sublist ([] ++ []) (tokens holds (p.agenda i)) := List.nil_sublist _
  have fresh : ∀ k ∈ ([] : List κ), ∀ l, name l = name k → ¬ Issued l p.shared :=
    fun k member => by cases member
  have moved := exclusive.moved stable (given.trans (List.nil_append []).symm) kept
    (fun k member => by cases member) fresh .nil
  rwa [List.append_nil] at moved

end Exclusive

end Foundation.Agendas
