import Mathlib.Data.Finset.Card
import Mathlib.Data.Finset.SDiff
import Mathlib.Tactic.Common

/-! # Attempts run out

A search that stays open only by trying something new, out of a finite stock, closes:
it survives no more rounds than the stock had left when they began.
-/

namespace Foundation

variable {σ α : Type*} [DecidableEq α]

/-- From `start`, by steps of either kind, of which so many were rounds. -/
inductive Attempts (step round : σ → σ → Prop) (start : σ) : Nat → σ → Prop where
  | start : Attempts step round start 0 start
  | step {n s s'} : Attempts step round start n s → step s s' → Attempts step round start n s'
  | round {n s s'} : Attempts step round start n s → round s s' →
      Attempts step round start (n + 1) s'

/-- What any step does: it forgets no attempt, takes new ones from the stock, and opens
    no search. -/
structure Attempts.Progress (tried : σ → Finset α) (isOpen : σ → Prop) (stock : Finset α)
    (s s' : σ) : Prop where
  kept : tried s ⊆ tried s'
  fromStock : tried s' ⊆ tried s ∪ stock
  opened : isOpen s' → isOpen s

namespace Attempts

variable {step round : σ → σ → Prop} {start s : σ} {n : Nat}
variable {tried : σ → Finset α} {isOpen : σ → Prop} {stock : Finset α}

theorem rule (P : Nat → σ → Prop) (initial : P 0 start)
    (steps : ∀ n s s', P n s → step s s' → P n s')
    (rounds : ∀ n s s', P n s → round s s' → P (n + 1) s')
    (attempts : Attempts step round start n s) : P n s := by
  induction attempts with
  | start => exact initial
  | step _ taken ih => exact steps _ _ _ ih taken
  | round _ taken ih => exact rounds _ _ _ ih taken

variable (tried isOpen stock) in
/-- Whatever has been tried since the start comes from the stock, and as long as the
    search is open every round has tried something new. -/
theorem bounded (inv : σ → Prop) (initial : inv start)
    (steps : ∀ s s', inv s → step s s' → inv s' ∧ Progress tried isOpen stock s s')
    (rounds : ∀ s s', inv s → round s s' → inv s' ∧ Progress tried isOpen stock s s' ∧
      (isOpen s' → ∃ a ∈ tried s', a ∉ tried s))
    (attempts : Attempts step round start n s) :
    inv s ∧ tried start ⊆ tried s ∧ tried s \ tried start ⊆ stock \ tried start ∧
      (isOpen s → n ≤ (tried s \ tried start).card) := by
  have further : ∀ {s s'}, Progress tried isOpen stock s s' →
      tried s \ tried start ⊆ stock \ tried start →
        tried s' \ tried start ⊆ stock \ tried start := by
    intro s s' progress within a member
    obtain ⟨inTried, isNew⟩ := Finset.mem_sdiff.mp member
    rcases Finset.mem_union.mp (progress.fromStock inTried) with before | fresh
    · exact within (Finset.mem_sdiff.mpr ⟨before, isNew⟩)
    · exact Finset.mem_sdiff.mpr ⟨fresh, isNew⟩
  refine attempts.rule (fun n s => inv s ∧ tried start ⊆ tried s ∧
    tried s \ tried start ⊆ stock \ tried start ∧ (isOpen s → n ≤ (tried s \ tried start).card))
    ?_ ?_ ?_
  · exact ⟨initial, Finset.Subset.refl _, by simp, fun _ => Nat.zero_le _⟩
  · rintro n s s' ⟨held, since, within, counted⟩ taken
    obtain ⟨held', progress⟩ := steps s s' held taken
    refine ⟨held', since.trans progress.kept, further progress within, fun stillOpen => ?_⟩
    exact (counted (progress.opened stillOpen)).trans
      (Finset.card_le_card (Finset.sdiff_subset_sdiff progress.kept (Finset.Subset.refl _)))
  · rintro n s s' ⟨held, since, within, counted⟩ taken
    obtain ⟨held', progress, tries⟩ := rounds s s' held taken
    refine ⟨held', since.trans progress.kept, further progress within, fun stillOpen => ?_⟩
    obtain ⟨a, here, isNew⟩ := tries stillOpen
    have grown : tried s \ tried start ⊂ tried s' \ tried start := by
      refine (Finset.ssubset_iff_of_subset
        (Finset.sdiff_subset_sdiff progress.kept (Finset.Subset.refl _))).mpr ⟨a, ?_, ?_⟩
      · exact Finset.mem_sdiff.mpr ⟨here, fun old => isNew (since old)⟩
      · exact fun old => isNew (Finset.mem_sdiff.mp old).1
    have before := counted (progress.opened stillOpen)
    have more := Finset.card_lt_card grown
    omega

end Attempts

end Foundation
