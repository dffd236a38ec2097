import Mathlib.Data.List.Forall2
import Mathlib.Data.List.Perm.Basic
import Mathlib.Tactic.Common

/-! # A log that keeps the first write

Entries are written under consecutive positions, and a position that is in use
keeps what it has.  Writing a sequence again changes nothing; writing it again
after a part of it was lost completes it, as long as both writers agree on which
entries come before the point of the loss.
-/

namespace Foundation

variable {α : Type*}

/-- Write after the first `n` entries, unless there are more already. -/
def firstWrite (log : List α) (n : Nat) (x : α) : List α := if n < log.length then log else log ++ [x]

def firstWrites (log : List α) (n : Nat) : List α → List α
  | [] => log
  | x :: xs => firstWrites (firstWrite log n x) (n + 1) xs

theorem length_firstWrite {log : List α} {n : Nat} (reached : n ≤ log.length) (x : α) :
    n + 1 ≤ (firstWrite log n x).length := by
  unfold firstWrite
  split
  · assumption
  · rw [List.length_append]
    exact Nat.add_le_add_right reached 1

theorem firstWrites_eq {log : List α} {n : Nat} (reached : n ≤ log.length) (xs : List α) :
    firstWrites log n xs = log ++ xs.drop (log.length - n) := by
  induction xs generalizing log n with
  | nil => simp [firstWrites]
  | cons x xs ih =>
      rw [firstWrites, ih (length_firstWrite reached x), firstWrite]
      by_cases used : n < log.length
      · have next : log.length - n = log.length - (n + 1) + 1 := by omega
        rw [if_pos used, next, List.drop_succ_cons]
      · have here : log.length = n := by omega
        rw [if_neg used, List.length_append, here]
        simp

theorem firstWrites_covered {log : List α} {n : Nat} {xs : List α}
    (covered : n + xs.length ≤ log.length) : firstWrites log n xs = log := by
  have beyond : xs.length ≤ log.length - n := by omega
  rw [firstWrites_eq (by omega), List.drop_eq_nil_of_le beyond, List.append_nil]

/-- Two writers differ in how they arrange the front of a sequence.  The second
    resumes what the first left, unless the break is inside the front: then the log
    goes on as one of the two would write it. -/
theorem firstWrites_resume {front front' rest : List α} (same : front.length = front'.length)
    (log : List α) (k q : Nat)
    (unbroken : ((front ++ rest).take k).length = 0 ∨
      front.length ≤ ((front ++ rest).take k).length) :
    ∃ first, (first = front ∨ first = front') ∧ ∃ k',
      firstWrites (log ++ (front ++ rest).take k) log.length ((front' ++ rest).take q) =
        log ++ (first ++ rest).take k' ∧
      ((front' ++ rest).length ≤ q → (first ++ rest).length ≤ k') := by
  have reached : log.length ≤ (log ++ (front ++ rest).take k).length := by
    rw [List.length_append]
    exact Nat.le_add_right _ _
  have behind : (log ++ (front ++ rest).take k).length - log.length =
      ((front ++ rest).take k).length := by
    rw [List.length_append, Nat.add_sub_cancel_left]
  rw [firstWrites_eq reached, behind]
  generalize count : ((front ++ rest).take k).length = t at unbroken
  have written : (front ++ rest).take k = (front ++ rest).take t := by
    rw [← count, List.length_take, List.take_eq_take_iff]
    omega
  rw [written]
  cases unbroken with
  | inl nothing =>
      refine ⟨front', .inr rfl, q, ?_, id⟩
      rw [nothing, List.take_zero, List.append_nil, List.drop_zero]
  | inr past =>
      refine ⟨front, .inl rfl, t + (q - t), ?_, ?_⟩
      · have onward : (front' ++ rest).drop t = (front ++ rest).drop t := by
          rw [List.drop_append, List.drop_append, List.drop_eq_nil_of_le past,
            List.drop_eq_nil_of_le (same ▸ past), same]
        rw [List.drop_take, onward, List.append_assoc, List.take_add]
      · intro all
        rw [List.length_append] at all ⊢
        omega

/-- A sequence written over a part of another has all its entries in the log just when
    that part is what it would have begun with, in some order. -/
theorem firstWrites_perm_iff {log part xs : List α} :
    (firstWrites (log ++ part) log.length xs).Perm (log ++ xs) ↔
      part.Perm (xs.take part.length) := by
  have reached : log.length ≤ (log ++ part).length := by
    rw [List.length_append]
    exact Nat.le_add_right _ _
  rw [firstWrites_eq reached, List.length_append, Nat.add_sub_cancel_left, List.append_assoc,
    List.perm_append_left_iff]
  constructor
  · intro perm
    rw [← List.perm_append_right_iff (xs.drop part.length), List.take_append_drop]
    exact perm
  · intro perm
    have both := perm.append_right (xs.drop part.length)
    rw [List.take_append_drop] at both
    exact both

theorem not_perm_next {front rest : List α} {k : Nat} (distinct : front.Nodup) (some : 0 < k)
    (part : k < front.length) (more : List α) :
    ¬ ((front ++ rest).take k).Perm ((front[k] :: more).take k) := by
  intro perm
  obtain ⟨n, rfl⟩ := Nat.exists_eq_succ_of_ne_zero (Nat.ne_of_gt some)
  have written : front[n.succ] ∈ front.take n.succ := by
    rw [← List.take_append_of_le_length (Nat.le_of_lt part), perm.mem_iff, List.take_succ_cons]
    exact List.mem_cons_self
  have ahead : front[n.succ] ∈ front.drop n.succ := by
    rw [List.drop_eq_getElem_cons part]
    exact List.mem_cons_self
  rw [← List.take_append_drop n.succ front] at distinct
  exact (List.nodup_append.mp distinct).2.2 _ written _ ahead rfl

/-! ## Arrangements -/

/-- The log consists of one part for each block, with the entries of the block in some
    order. -/
def Arranges (blocks : List (List α)) (log : List α) : Prop :=
  ∃ parts, log = parts.flatten ∧ List.Forall₂ List.Perm parts blocks

theorem arranges_nil : Arranges [] ([] : List α) := ⟨[], rfl, .nil⟩

theorem Arranges.snoc {blocks : List (List α)} {log block part : List α}
    (arranges : Arranges blocks log) (perm : part.Perm block) :
    Arranges (blocks ++ [block]) (log ++ part) := by
  obtain ⟨parts, rfl, perms⟩ := arranges
  refine ⟨parts ++ [part], ?_, ?_⟩
  · rw [List.flatten_append, List.flatten_singleton]
  · exact List.rel_append perms (.cons perm .nil)

theorem Arranges.perm {blocks : List (List α)} {log : List α} (arranges : Arranges blocks log) :
    log.Perm blocks.flatten := by
  obtain ⟨parts, rfl, perms⟩ := arranges
  exact List.Perm.flatten_congr perms

end Foundation
