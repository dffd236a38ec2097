import Mathlib.Data.Finset.Basic
import Spatiad.Foundation.HashMap

/-! # Groups by a key

Elements filed in groups under a key, where no group is kept empty: the groups are the
inverse of the map from an element to its key.
-/

namespace Foundation

variable {κ α : Type} [DecidableEq κ] [DecidableEq α]

namespace Groups

/-- An element leaves its group; a group left empty is dropped. -/
def leave (groups : HashMap κ (Finset α)) (k : κ) (a : α) : HashMap κ (Finset α) :=
  match groups.lookup k with
  | none => groups
  | some members =>
      let rest := members.erase a
      if rest = ∅ then groups.erase k else groups.insert k rest

def join (groups : HashMap κ (Finset α)) (k : κ) (a : α) : HashMap κ (Finset α) :=
  groups.insert k (insert a ((groups.lookup k).getD ∅))

theorem members_leave (groups : HashMap κ (Finset α)) (k j : κ) (a : α) :
    ((leave groups k a).lookup j).getD ∅ =
      if j = k then ((groups.lookup k).getD ∅).erase a else (groups.lookup j).getD ∅ := by
  unfold leave
  cases present : groups.lookup k with
  | none =>
      by_cases same : j = k
      · subst same
        simp [present]
      · simp [same]
  | some members =>
      by_cases emptied : members.erase a = ∅
      · simp only [emptied, if_true, HashMap.lookup_erase_if, Option.getD_some]
        split <;> rfl
      · simp only [emptied, if_false, HashMap.lookup_insert_if, Option.getD_some]
        split <;> rfl

theorem members_join (groups : HashMap κ (Finset α)) (k j : κ) (a : α) :
    ((join groups k a).lookup j).getD ∅ =
      if j = k then insert a ((groups.lookup k).getD ∅) else (groups.lookup j).getD ∅ := by
  rw [join, HashMap.lookup_insert_if]
  split <;> rfl

/-- The groups hold exactly the elements that have their key. -/
structure Inverts (groups : HashMap κ (Finset α)) (keyOf : α → Option κ) : Prop where
  mem_iff : ∀ k a, a ∈ (groups.lookup k).getD ∅ ↔ keyOf a = some k
  inhabited : ∀ k, groups.lookup k ≠ some ∅

namespace Inverts

variable {groups : HashMap κ (Finset α)} {keyOf : α → Option κ}

omit [DecidableEq α] in
theorem empty : Inverts (∅ : HashMap κ (Finset α)) (fun _ : α => none) where
  mem_iff k a := by simp
  inhabited k := by simp

theorem leave (inverts : Inverts groups keyOf) {k : κ} {a : α} (filed : keyOf a = some k) :
    Inverts (leave groups k a) (Function.update keyOf a none) where
  mem_iff j b := by
    rw [members_leave, Function.update_apply]
    by_cases moved : b = a
    · subst moved
      rw [if_pos rfl]
      split
      · simp
      · rename_i other
        rw [inverts.mem_iff, filed]
        simp [Ne.symm other]
    · rw [if_neg moved]
      split
      · rename_i same
        rw [Finset.mem_erase, inverts.mem_iff, same]
        exact and_iff_right moved
      · exact inverts.mem_iff j b
  inhabited j := by
    unfold Groups.leave
    cases groups.lookup k with
    | none => exact inverts.inhabited j
    | some members =>
        by_cases emptied : members.erase a = ∅
        · simp only [emptied, if_true, HashMap.lookup_erase_if]
          split
          · exact nofun
          · exact inverts.inhabited j
        · simp only [emptied, if_false, HashMap.lookup_insert_if]
          split
          · exact fun same => emptied (Option.some.inj same)
          · exact inverts.inhabited j

theorem join (inverts : Inverts groups keyOf) {a : α} (free : keyOf a = none) (k : κ) :
    Inverts (join groups k a) (Function.update keyOf a (some k)) where
  mem_iff j b := by
    rw [members_join, Function.update_apply]
    by_cases moved : b = a
    · subst moved
      rw [if_pos rfl]
      split
      · rename_i same
        simp [same]
      · rename_i other
        rw [inverts.mem_iff, free]
        simp [Ne.symm other]
    · rw [if_neg moved]
      split
      · rename_i same
        rw [Finset.mem_insert, inverts.mem_iff, same]
        exact or_iff_right moved
      · exact inverts.mem_iff j b
  inhabited j := by
    rw [Groups.join, HashMap.lookup_insert_if]
    split
    · exact fun same => Finset.insert_ne_empty _ _ (Option.some.inj same)
    · exact inverts.inhabited j

omit [DecidableEq α] in
theorem group_iff (inverts : Inverts groups keyOf) {a : α} {k : κ} :
    (∃ members, groups.lookup k = some members ∧ a ∈ members) ↔ keyOf a = some k := by
  rw [← inverts.mem_iff]
  cases groups.lookup k <;> simp

end Inverts

end Groups

end Foundation
