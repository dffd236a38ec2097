import Mathlib.Data.List.Infix
import Mathlib.Tactic.Common

/-! # Loops that hand out values

A round of a loop hands out values, leaves a state behind and, if it was the last, gives
the result.  A loop that hands out nothing while it falls behind another, and otherwise
does what the other does, hands out a prefix of what the other does; if it never falls
behind for good, it hands out the same.
-/

namespace Foundation

/-- What one round, or several in a row, came to. -/
structure Round (σ α ω : Type*) where
  handedOut : List α
  state : σ
  result : Option ω

namespace Round

variable {σ τ α ω : Type*}

def andThen (first second : Round σ α ω) : Round σ α ω :=
  ⟨first.handedOut ++ second.handedOut, second.state, second.result⟩

def run (round : σ → Round σ α ω) : Nat → σ → Round σ α ω
  | 0, s => ⟨[], s, none⟩
  | fuel + 1, s =>
      match (round s).result with
      | some _ => round s
      | none => (round s).andThen (run round fuel (round s).state)

variable {round : σ → Round σ α ω} {s : σ} {fuel : Nat}

theorem run_last {r : ω} (last : (round s).result = some r) : run round (fuel + 1) s = round s := by
  rw [run, last]

theorem run_goOn (goesOn : (round s).result = none) :
    run round (fuel + 1) s = (round s).andThen (run round fuel (round s).state) := by
  rw [run, goesOn]

theorem run_add (n m : Nat) (goesOn : (run round n s).result = none) :
    run round (n + m) s = (run round n s).andThen (run round m (run round n s).state) := by
  induction n generalizing s with
  | zero => simp only [Nat.zero_add, run, andThen, List.nil_append]
  | succ n ih =>
      rw [Nat.succ_add]
      cases result : (round s).result with
      | some r =>
          rw [run_last result, result] at goesOn
          cases goesOn
      | none =>
          rw [run_goOn result] at goesOn ⊢
          rw [run_goOn result, ih goesOn]
          simp only [andThen, List.append_assoc]

theorem handedOut_mono (round : σ → Round σ α ω) {n m : Nat} (le : n ≤ m) (s : σ) :
    (run round n s).handedOut <+: (run round m s).handedOut := by
  induction m generalizing n s with
  | zero =>
      cases Nat.le_zero.mp le
      exact List.prefix_rfl
  | succ m ih =>
      cases n with
      | zero => exact List.nil_prefix
      | succ n =>
          cases result : (round s).result with
          | some r => rw [run_last result, run_last result]
          | none =>
              rw [run_goOn result, run_goOn result]
              exact (List.prefix_append_right_inj _).mpr (ih (Nat.le_of_succ_le_succ le) _)

theorem run_done {r : ω} {n m : Nat} (le : n ≤ m) (done : (run round n s).result = some r) :
    run round m s = run round n s := by
  induction m generalizing n s with
  | zero => rw [Nat.le_zero.mp le]
  | succ m ih =>
      cases n with
      | zero => cases done
      | succ n =>
          cases result : (round s).result with
          | some r => rw [run_last result, run_last result]
          | none =>
              rw [run_goOn result] at done ⊢
              rw [run_goOn result, ih (Nat.le_of_succ_le_succ le) done]

theorem exists_last {r : ω} (done : (run round fuel s).result = some r) :
    ∃ s, (round s).result = some r := by
  induction fuel generalizing s with
  | zero => cases done
  | succ fuel ih =>
      cases result : (round s).result with
      | some last =>
          rw [run_last result] at done
          exact ⟨s, done⟩
      | none =>
          rw [run_goOn result] at done
          exact ih done

/-- A loop gets through if something decreases with each round that is not the last. -/
theorem run_finishes (round : σ → Round σ α ω) (measure : σ → Nat)
    (decreases : ∀ s, (round s).result = none → measure (round s).state < measure s) (s : σ) :
    ∃ fuel r, (run round fuel s).result = some r := by
  cases result : (round s).result with
  | some r => exact ⟨1, r, by rw [run_last result, result]⟩
  | none =>
      obtain ⟨fuel, r, through⟩ := run_finishes round measure decreases (round s).state
      exact ⟨fuel + 1, r, by rw [run_goOn result]; exact through⟩
termination_by measure s
decreasing_by exact decreases s result

/-- What every round keeps holds before the round a loop is at, or before its last. -/
theorem run_reaches {I : σ → List α → Prop}
    (keeps : ∀ s before, I s before → (round s).result = none →
      I (round s).state (before ++ (round s).handedOut))
    {before : List α} (start : I s before) (fuel : Nat) :
    ((run round fuel s).result = none ∧
      I (run round fuel s).state (before ++ (run round fuel s).handedOut)) ∨
    ∃ last earlier r, I last earlier ∧ (round last).result = some r ∧
      (run round fuel s).result = some r ∧ (run round fuel s).state = (round last).state ∧
      before ++ (run round fuel s).handedOut = earlier ++ (round last).handedOut := by
  induction fuel generalizing s before with
  | zero => exact .inl ⟨rfl, by simpa only [run, List.append_nil] using start⟩
  | succ fuel ih =>
      cases result : (round s).result with
      | some r =>
          rw [run_last result]
          exact .inr ⟨s, before, r, start, result, result, rfl, rfl⟩
      | none =>
          rw [run_goOn result]
          simp only [andThen, ← List.append_assoc]
          exact ih (keeps s before start result)

/-! ## What a loop ends with -/

/-- The loop gets through, having handed out these values in all. -/
def Ends (round : σ → Round σ α ω) (s : σ) (handedOut : List α) (r : ω) : Prop :=
  ∃ fuel, (run round fuel s).handedOut = handedOut ∧ (run round fuel s).result = some r

theorem ends_last {r r' : ω} {handedOut : List α} (last : (round s).result = some r) :
    Ends round s handedOut r' ↔ (round s).handedOut = handedOut ∧ r = r' := by
  constructor
  · rintro ⟨fuel, all, result⟩
    cases fuel with
    | zero => cases result
    | succ fuel =>
        rw [run_last last] at all result
        exact ⟨all, Option.some.inj (last.symm.trans result)⟩
  · rintro ⟨all, rfl⟩
    exact ⟨1, by rw [run_last last, all], by rw [run_last last, last]⟩

theorem ends_goOn {r : ω} {handedOut : List α} (goesOn : (round s).result = none) :
    Ends round s handedOut r ↔
      ∃ rest, handedOut = (round s).handedOut ++ rest ∧ Ends round (round s).state rest r := by
  constructor
  · rintro ⟨fuel, all, result⟩
    cases fuel with
    | zero => cases result
    | succ fuel =>
        rw [run_goOn goesOn] at all result
        exact ⟨_, all.symm, fuel, rfl, result⟩
  · rintro ⟨rest, rfl, fuel, later, result⟩
    exact ⟨fuel + 1, by rw [run_goOn goesOn, andThen, later], by rw [run_goOn goesOn]; exact result⟩

theorem Ends.unique {r r' : ω} {handedOut handedOut' : List α}
    (one : Ends round s handedOut r) (other : Ends round s handedOut' r') : handedOut = handedOut' := by
  obtain ⟨n, rfl, done⟩ := one
  obtain ⟨m, rfl, done'⟩ := other
  cases Nat.le_total n m with
  | inl le => rw [run_done le done]
  | inr le => rw [run_done le done']

/-- A round keeps in its state, after what was there, what another round hands out; at the
    end `f` says what it makes of all that. -/
structure Collects {τ β υ : Type*} (R : τ → σ → Prop) (kept : τ → List α) (f : ω → List α → υ)
    (before : List α) (mine : Round σ α ω) (keeper : Round τ β υ) : Prop where
  result : keeper.result = mine.result.map (f · (before ++ mine.handedOut))
  related : mine.result = none → R keeper.state mine.state
  keeps : mine.result = none → kept keeper.state = before ++ mine.handedOut

theorem run_collects {τ β υ : Type*} {keeper : τ → Round τ β υ} {R : τ → σ → Prop}
    {kept : τ → List α} {f : ω → List α → υ}
    (follows : ∀ t s, R t s → Collects R kept f (kept t) (round s) (keeper t)) {t : τ}
    (related : R t s) (fuel : Nat) :
    (run keeper fuel t).result =
      (run round fuel s).result.map (f · (kept t ++ (run round fuel s).handedOut)) := by
  induction fuel generalizing t s with
  | zero => rfl
  | succ fuel ih =>
      have step := follows t s related
      have same := step.result
      cases result : (round s).result with
      | some r =>
          rw [result] at same
          rw [run_last result, run_last same, same, result]
      | none =>
          rw [result] at same
          rw [run_goOn result, run_goOn same]
          simp only [andThen, ih (step.related result), step.keeps result, List.append_assoc]

/-! ## Following another loop -/

/-- Two rounds that hand out the same and end alike, or go on from related states. -/
structure Alike (R : σ → τ → Prop) (mine : Round σ α ω) (yours : Round τ α ω) : Prop where
  handedOut : mine.handedOut = yours.handedOut
  result : mine.result = yours.result
  related : mine.result = none → R mine.state yours.state

variable {other : τ → Round τ α ω} {t : τ}

/-- A loop that falls behind or gives up hands out a prefix of what the other does. -/
theorem run_follows {R : σ → τ → Prop}
    (follows : ∀ s t, R s t → Alike R (round s) (other t) ∨
      (round s).handedOut = [] ∧ ((round s).result = none → R (round s).state t))
    (related : R s t) (fuel : Nat) :
    (run round fuel s).handedOut <+: (run other fuel t).handedOut := by
  induction fuel generalizing s t with
  | zero => exact List.prefix_rfl
  | succ fuel ih =>
      cases result : (round s).result with
      | some r =>
          rw [run_last result]
          cases follows s t related with
          | inl alike => rw [run_last (alike.result ▸ result), alike.handedOut]
          | inr behind => rw [behind.1]; exact List.nil_prefix
      | none =>
          rw [run_goOn result, andThen]
          cases follows s t related with
          | inl alike =>
              rw [run_goOn (alike.result ▸ result), andThen, alike.handedOut]
              exact (List.prefix_append_right_inj _).mpr (ih (alike.related result))
          | inr behind =>
              rw [behind.1, List.nil_append]
              exact (ih (behind.2 result)).trans (handedOut_mono other (Nat.le_succ fuel) t)

/-- What a loop comes to at last when it hands out as much as another with some fuel. -/
def ComesTo (round : σ → Round σ α ω) (s : σ) (reached : Round τ α ω) : Prop :=
  ∃ enough, (run round enough s).handedOut = reached.handedOut ∧
    (run round enough s).result = reached.result

theorem ComesTo.alike {R : σ → τ → Prop} (alike : Alike R (round s) (other t))
    (later : R (round s).state (other t).state →
      ComesTo round (round s).state (run other fuel (other t).state)) :
    ComesTo round s (run other (fuel + 1) t) := by
  cases result : (round s).result with
  | some r =>
      have last : run other (fuel + 1) t = other t := run_last (alike.result ▸ result)
      exact ⟨1, by rw [run_last result, last, alike.handedOut], by rw [run_last result, last, alike.result]⟩
  | none =>
      obtain ⟨enough, handedOut, same⟩ := later (alike.related result)
      have goesOn : run other (fuel + 1) t = (other t).andThen (run other fuel (other t).state) :=
        run_goOn (alike.result ▸ result)
      refine ⟨enough + 1, ?_, ?_⟩
      · rw [run_goOn result, goesOn, andThen, andThen, alike.handedOut, handedOut]
      · rw [run_goOn result, goesOn]
        exact same

/-- A loop that falls behind by no more than `n` rounds at a time comes to the same. -/
theorem run_same {R : Nat → σ → τ → Prop}
    (follows : ∀ n s t, R n s t → Alike (fun s t => ∃ n, R n s t) (round s) (other t) ∨
      ∃ m s', n = m + 1 ∧ round s = ⟨[], s', none⟩ ∧ R m s' t)
    {n : Nat} (related : R n s t) (fuel : Nat) : ComesTo round s (run other fuel t) := by
  induction fuel generalizing n s t with
  | zero => exact ⟨0, rfl, rfl⟩
  | succ fuel ih =>
      induction n generalizing s with
      | zero =>
          cases follows 0 s t related with
          | inl alike => exact .alike alike fun ⟨_, related⟩ => ih related
          | inr behind => cases behind.choose_spec.choose_spec.1
      | succ n catchUp =>
          cases follows (n + 1) s t related with
          | inl alike => exact .alike alike fun ⟨_, related⟩ => ih related
          | inr behind =>
              obtain ⟨m, s', eq, went, related⟩ := behind
              cases eq
              obtain ⟨enough, handedOut, same⟩ := catchUp related
              have goesOn : (round s).result = none := by rw [went]
              refine ⟨enough + 1, ?_, ?_⟩
              · rw [run_goOn goesOn, went, andThen, List.nil_append, handedOut]
              · rw [run_goOn goesOn, went]
                exact same

end Round

end Foundation
