import Spatiad.Foundation.Agendas
import Mathlib.Data.Multiset.DershowitzManna
import Mathlib.Data.Nat.Find

/-! # Agendas that finish

If what an action puts on the agenda ranks below the action, a worker that keeps moving is
through with its agenda after finitely many moves, whatever the others do in between.  So
where no worker with something to do is passed over for ever, and none forgets, what is owed
long enough is settled.
-/

namespace Foundation.Agendas

variable {σ ι α κ ρ : Type*} [DecidableEq ι]

namespace Workers

/-! ## Endless runs -/

/-- The workers move for ever, one after the other. -/
structure Endless (w : Workers σ ι α) where
  state : Nat → Pool σ ι α
  mover : Nat → ι
  moves : ∀ k, w.step (state k) (mover k) (state (k + 1))

namespace Endless

variable {w : Workers σ ι α} (run : w.Endless)

/-- A worker with something to do gets to move. -/
def Fair : Prop := ∀ i k, (run.state k).agenda i ≠ [] → ∃ m, k ≤ m ∧ run.mover m = i

theorem invariant (P : Pool σ ι α → Prop) (initial : P (run.state 0))
    (preserved : ∀ p i p', P p → w.step p i p' → P p') (k : Nat) : P (run.state k) := by
  induction k with
  | zero => exact initial
  | succ k held => exact preserved _ _ _ held (run.moves k)

omit run in
theorem agenda_step {p p' : Pool σ ι α} {i j : ι} (moved : w.step p i p') (other : j ≠ i) :
    p'.agenda j = p.agenda j := by
  cases moved with
  | begins | takes => exact Pool.after_other other

theorem agenda_kept {i : ι} {k m : Nat} (later : k ≤ m)
    (others : ∀ l, k ≤ l → l < m → run.mover l ≠ i) :
    (run.state m).agenda i = (run.state k).agenda i := by
  induction m, later using Nat.le_induction with
  | base => rfl
  | succ m later ih =>
      rw [agenda_step (run.moves m) (others m later (Nat.lt_succ_self m)).symm]
      exact ih fun l after before => others l after (Nat.lt_succ_of_lt before)

theorem Fair.of_rest {run : w.Endless} (last : Nat)
    (rest : ∀ k, last ≤ k → ∀ i, (run.state k).agenda i = []) : run.Fair := by
  intro i k busy
  by_contra passed
  push Not at passed
  have kept := run.agenda_kept (Nat.le_max_left k last) fun l later _ => passed l later
  rw [rest _ (Nat.le_max_right k last) i] at kept
  exact busy kept.symm

theorem next_move {i : ι} {k m : Nat} (later : k ≤ m) (mover : run.mover m = i) :
    ∃ l, k ≤ l ∧ run.mover l = i ∧ (run.state l).agenda i = (run.state k).agenda i := by
  classical
  have some_move : ∃ l, k ≤ l ∧ run.mover l = i := ⟨m, later, mover⟩
  obtain ⟨after, moves⟩ := Nat.find_spec some_move
  refine ⟨Nat.find some_move, after, moves, run.agenda_kept after fun l from_ before same => ?_⟩
  exact Nat.find_min some_move before ⟨from_, same⟩

end Endless

/-! ## Finishing -/

variable [Preorder ρ]

/-- An action drops some of the rest of the agenda, and what it adds ranks below it. -/
def Finishes (w : Workers σ ι α) (rank : α → ρ) : Prop :=
  ∀ i a rest s s' agenda, w.takes i a rest s s' agenda →
    ∃ new kept, agenda = new ++ kept ∧ kept.Sublist rest ∧ ∀ b ∈ new, rank b < rank a

namespace Finishes

variable {w : Workers σ ι α} {rank : α → ρ}

def ranks (rank : α → ρ) (agenda : List α) : Multiset ρ := agenda.map rank

theorem ranks_lt {a : α} {rest agenda new kept : List α} (same : agenda = new ++ kept)
    (left : kept.Sublist rest) (below : ∀ b ∈ new, rank b < rank a) :
    (ranks rank agenda).IsDershowitzMannaLT (ranks rank (a :: rest)) := by
  classical
  have le : ranks rank kept ≤ ranks rank rest := (left.map rank).subperm
  obtain ⟨dropped, split⟩ := Multiset.le_iff_exists_add.mp le
  refine ⟨ranks rank kept, ranks rank new, rank a ::ₘ dropped, Multiset.cons_ne_zero, ?_, ?_, ?_⟩
  · rw [same, add_comm]
    simp [ranks]
  · rw [Multiset.add_cons, ← split]
    simp [ranks]
  · intro r member
    obtain ⟨b, new_, rfl⟩ := List.mem_map.mp (Multiset.mem_coe.mp member)
    exact ⟨rank a, Multiset.mem_cons_self _ _, below b new_⟩

variable [WellFoundedLT ρ] (finishes : w.Finishes rank) (run : w.Endless)

include finishes

/-- A worker becomes idle again, or moves no more. -/
theorem idle_or_still (i : ι) (k : Nat) :
    ∃ m, k ≤ m ∧ ((run.state m).agenda i = [] ∨ ∀ l, m ≤ l → run.mover l ≠ i) := by
  have falls : WellFounded fun fewer more : Multiset ρ => fewer.IsDershowitzMannaLT more :=
    Multiset.wellFounded_isDershowitzMannaLT
  generalize size : ranks rank ((run.state k).agenda i) = weight
  induction weight using falls.induction generalizing k with
  | _ weight ih =>
      by_cases still : ∀ l, k ≤ l → run.mover l ≠ i
      · exact ⟨k, Nat.le_refl k, .inr still⟩
      · push Not at still
        obtain ⟨m, later, mover⟩ := still
        obtain ⟨l, after, moves, same⟩ := run.next_move later mover
        have step := run.moves l
        rw [moves] at step
        generalize next : run.state (l + 1) = p' at step
        cases step with
        | begins idle => exact ⟨l, after, .inl idle⟩
        | @takes a rest shared agenda first taken =>
            obtain ⟨new, kept, split, left, below⟩ := finishes i a rest _ _ _ taken
            have lower := ranks_lt split left below
            rw [← first, same, size] at lower
            have now : (run.state (l + 1)).agenda i = agenda := by rw [next, Pool.after_agenda]
            obtain ⟨m, from_, rests⟩ := ih _ lower (l + 1) (by rw [now])
            exact ⟨m, by omega, rests⟩

theorem idle_again (fair : run.Fair) (i : ι) (k : Nat) :
    ∃ m, k ≤ m ∧ (run.state m).agenda i = [] := by
  obtain ⟨m, later, idle | still⟩ := finishes.idle_or_still run i k
  · exact ⟨m, later, idle⟩
  · by_cases idle : (run.state m).agenda i = []
    · exact ⟨m, later, idle⟩
    · obtain ⟨l, after, moves⟩ := fair i m idle
      exact absurd moves (still l after)

end Finishes

/-! ## What is owed is settled -/

variable {w : Workers σ ι α} {rank : α → ρ} {later : σ → σ → Prop} {Inv : σ → Prop}
  {Ok : ι → α → σ → Prop} {Owed Settled : κ → σ → Prop} {SeesTo : α → κ → Prop}

omit [Preorder ρ] in
theorem Upholds.endless (upholds : w.Upholds later Inv Ok) (run : w.Endless)
    (held : Upheld Inv Ok (run.state 0)) (k : Nat) : Upheld Inv Ok (run.state k) :=
  run.invariant (Upheld Inv Ok) held (fun _ _ _ held moved => (upholds.step held moved).2) k

namespace Remembers

variable (remembers : w.Remembers Inv Ok Owed Settled SeesTo) (run : w.Endless)

include remembers

omit [Preorder ρ] in
theorem endless (upholds : w.Upholds later Inv Ok) (held : Upheld Inv Ok (run.state 0))
    (accounted : Accounted Owed Settled SeesTo (run.state 0)) (k : Nat) :
    Accounted Owed Settled SeesTo (run.state k) := by
  induction k with
  | zero => exact accounted
  | succ k ih => exact remembers.step (upholds.endless run held k) ih (run.moves k)

omit [Preorder ρ] in
/-- A worker that sees to something does so until it is settled, or no longer owed. -/
theorem sees_on (upheld : ∀ k, Upheld Inv Ok (run.state k)) {i : ι} {x : κ} {k m : Nat}
    (from_ : k ≤ m) (owed : ∀ l, k ≤ l → Owed x (run.state l).shared)
    (unsettled : ∀ l, k ≤ l → ¬ Settled x (run.state l).shared)
    (sees : ∃ a ∈ (run.state k).agenda i, SeesTo a x) :
    ∃ a ∈ (run.state m).agenda i, SeesTo a x := by
  induction m, from_ using Nat.le_induction with
  | base => exact sees
  | succ m from_ ih =>
      obtain ⟨a, member, seesTo⟩ := ih
      by_cases mover : run.mover m = i
      · have step := run.moves m
        have owes := owed (m + 1) (by omega)
        have open_ := unsettled (m + 1) (by omega)
        rw [mover] at step
        generalize run.state (m + 1) = p' at step owes open_ ⊢
        cases step with
        | begins idle =>
            rw [idle] at member
            cases member
        | @takes b rest shared agenda next taken =>
            have own : ∀ c ∈ b :: rest, Ok i c (run.state m).shared := fun c listed =>
              (upheld m).agenda i c (next ▸ listed)
            rcases remembers.takes i b rest _ shared agenda x (upheld m).shared own taken owes with
              settled | ⟨c, listed, seesTo'⟩ | ⟨_, _, none_⟩
            · exact absurd settled open_
            · exact ⟨c, by rwa [Pool.after_agenda], seesTo'⟩
            · exact absurd seesTo (none_ a (next ▸ member))
      · rw [Endless.agenda_step (run.moves m) (Ne.symm mover)]
        exact ⟨a, member, seesTo⟩

variable [WellFoundedLT ρ]

/-- Whatever is owed is settled some time, if it stays owed. -/
theorem settles (upholds : w.Upholds later Inv Ok) (finishes : w.Finishes rank) (fair : run.Fair)
    (held : Upheld Inv Ok (run.state 0))
    (accounted : Accounted Owed Settled SeesTo (run.state 0)) (x : κ) (k : Nat) :
    ∃ m, k ≤ m ∧ (Settled x (run.state m).shared ∨ ¬ Owed x (run.state m).shared) := by
  by_contra never
  push Not at never
  have unsettled : ∀ l, k ≤ l → ¬ Settled x (run.state l).shared := fun l from_ =>
    (never l from_).1
  have owed : ∀ l, k ≤ l → Owed x (run.state l).shared := fun l from_ => (never l from_).2
  have upheld := upholds.endless run held
  obtain ⟨i, sees⟩ := (remembers.endless run upholds held accounted k x (owed k (Nat.le_refl k))
    ).resolve_left (unsettled k (Nat.le_refl k))
  obtain ⟨m, from_, idle⟩ := finishes.idle_again run fair i k
  obtain ⟨a, member, _⟩ := remembers.sees_on run upheld from_ owed unsettled sees
  rw [idle] at member
  cases member

end Remembers

end Workers

end Foundation.Agendas
