import Mathlib.Data.List.AList
import Mathlib.Data.List.Sort
import Mathlib.Tactic.Common

/-! # Hash maps with an unspecified iteration order

A map is Mathlib's `AList`, so keys are unique by construction.  A hash map
promises nothing about the order in which it hands out its entries: whoever
iterates supplies that order as a rearrangement of the keys, and lemmas about
an iteration may use only that it is one.
-/

namespace Foundation

abbrev HashMap (κ ν : Type) := AList fun _ : κ => ν

namespace HashMap

variable {κ ν : Type} [DecidableEq κ]

theorem lookup_insert_if (m : HashMap κ ν) (k a : κ) (v : ν) :
    (m.insert k v).lookup a = if a = k then some v else m.lookup a := by
  split
  · rename_i same
    subst same
    exact AList.lookup_insert m
  · rename_i different
    exact AList.lookup_insert_ne different

theorem lookup_erase_if (m : HashMap κ ν) (k a : κ) :
    (m.erase k).lookup a = if a = k then none else m.lookup a := by
  split
  · rename_i same
    subst same
    exact AList.lookup_erase a m
  · rename_i different
    exact AList.lookup_erase_ne different

theorem insert_ne_none {m : HashMap κ ν} {k a : κ} {v : ν} (present : m.lookup a ≠ none) :
    (m.insert k v).lookup a ≠ none := by
  rw [lookup_insert_if]
  split
  · exact Option.some_ne_none v
  · exact present

/-- Rewrite every value in place, as a loop over `values_mut` does. -/
def mapValues (f : ν → ν) (m : HashMap κ ν) : HashMap κ ν where
  entries := m.entries.map (Sigma.map id fun _ => f)
  nodupKeys := by
    rw [List.NodupKeys, List.map₂_keys]
    exact m.nodupKeys

@[simp] theorem lookup_mapValues (f : ν → ν) (m : HashMap κ ν) (k : κ) :
    (mapValues f m).lookup k = (m.lookup k).map f := by
  have mapped := @List.dlookup_map κ κ (fun _ => ν) (fun _ => ν) _ _ m.entries id
    Function.injective_id (fun _ => f) k
  exact mapped

/-- The values a map hands out when its keys come out as `order` arranges them. -/
def iter (order : List κ → List κ) (m : HashMap κ ν) : List ν :=
  (order m.keys).filterMap m.lookup

/-- The values in storage order, for folds that do not depend on the order. -/
def values (m : HashMap κ ν) : List ν := m.iter id

variable {order : List κ → List κ} (arranged : ∀ ks, (order ks).Perm ks)

include arranged in
theorem mem_iter {m : HashMap κ ν} {v : ν} :
    v ∈ m.iter order ↔ ∃ k, m.lookup k = some v := by
  simp only [iter, List.mem_filterMap, (arranged m.keys).mem_iff]
  constructor
  · rintro ⟨k, _, found⟩
    exact ⟨k, found⟩
  · rintro ⟨k, found⟩
    refine ⟨k, ?_, found⟩
    exact AList.mem_keys.mp (AList.lookup_isSome.mp (found ▸ rfl))

theorem mem_values {m : HashMap κ ν} {v : ν} :
    v ∈ m.values ↔ ∃ k, m.lookup k = some v :=
  mem_iter fun ks => List.Perm.refl ks

theorem any_values_iff {m : HashMap κ ν} {p : ν → Bool} :
    m.values.any p = true ↔ ∃ k v, m.lookup k = some v ∧ p v = true := by
  simp only [List.any_eq_true, mem_values]
  constructor
  · rintro ⟨v, ⟨k, found⟩, holds⟩
    exact ⟨k, v, found, holds⟩
  · rintro ⟨k, v, found, holds⟩
    exact ⟨v, ⟨k, found⟩, holds⟩

include arranged in
theorem iter_perm_values (m : HashMap κ ν) : (m.iter order).Perm m.values :=
  (arranged m.keys).filterMap m.lookup

include arranged in
/-- Values that determine the key they are stored under come out once each. -/
theorem nodup_iter {m : HashMap κ ν} (key : ν → κ)
    (keyed : ∀ k v, m.lookup k = some v → key v = k) :
    ((m.iter order).map key).Nodup := by
  have distinct : (order m.keys).Nodup := (arranged m.keys).nodup_iff.mpr m.keys_nodup
  have same : (m.iter order).map key = (order m.keys).filter fun k => (m.lookup k).isSome := by
    unfold iter
    generalize order m.keys = ks
    induction ks with
    | nil => rfl
    | cons k ks ih =>
        cases found : m.lookup k with
        | none => simp [found, ih]
        | some v => simp [found, ih, keyed k v found]
  rw [same]
  exact distinct.filter _

end HashMap

end Foundation
