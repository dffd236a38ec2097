import Spatiad.Foundation.HashMap

/-! # Part of a map

The entries of a map whose values meet a predicate, and what becomes of them when
the map changes.
-/

namespace Foundation.HashMap

variable {κ ν : Type}

/-- The entries whose values meet `p`. -/
def restrict (p : ν → Bool) (m : HashMap κ ν) : HashMap κ ν where
  entries := m.entries.filter fun entry => p entry.2
  nodupKeys := m.nodupKeys.sublist List.filter_sublist

variable [DecidableEq κ] {p : ν → Bool} {m : HashMap κ ν} {k : κ} {v : ν}

theorem mem_entries : ⟨k, v⟩ ∈ m.entries ↔ m.lookup k = some v :=
  (List.mem_dlookup_iff m.nodupKeys).symm

theorem lookup_restrict (p : ν → Bool) (m : HashMap κ ν) (k : κ) :
    (restrict p m).lookup k = (m.lookup k).filter p := by
  ext v
  rw [← mem_entries, Option.filter_eq_some_iff, ← mem_entries]
  exact List.mem_filter

theorem restrict_erase (p : ν → Bool) (m : HashMap κ ν) (k : κ) :
    restrict p (m.erase k) = (restrict p m).erase k := by
  apply AList.ext
  obtain ⟨entries, distinct⟩ := m
  show (entries.kerase k).filter (fun entry => p entry.2) =
    (entries.filter fun entry => p entry.2).kerase k
  induction entries with
  | nil => rfl
  | cons entry rest ih =>
      obtain ⟨absent, distinct⟩ := List.nodupKeys_cons.mp distinct
      by_cases here : k = entry.1
      · have gone : k ∉ (rest.filter fun entry => p entry.2).keys := fun listed =>
          absent (here ▸ (List.filter_sublist.map Sigma.fst).subset listed)
        rw [List.kerase_cons_eq here, List.filter_cons]
        split
        · rw [List.kerase_cons_eq here]
        · rw [List.kerase_of_notMem_keys gone]
      · rw [List.kerase_cons_ne here, List.filter_cons, List.filter_cons, ih distinct]
        split
        · rw [List.kerase_cons_ne here]
        · rfl

theorem restrict_insert (p : ν → Bool) (m : HashMap κ ν) (k : κ) (v : ν) :
    restrict p (m.insert k v) =
      if p v then (restrict p m).insert k v else (restrict p m).erase k := by
  have erased : (m.entries.kerase k).filter (fun entry => p entry.2) =
      ((restrict p m).erase k).entries := congrArg AList.entries (restrict_erase p m k)
  apply AList.ext
  simp only [restrict, AList.insert, List.kinsert_def, List.filter_cons]
  split
  · rw [erased]
    rfl
  · exact erased

theorem erase_eq_self (absent : m.lookup k = none) : m.erase k = m := by
  apply AList.ext
  exact List.kerase_of_notMem_keys (List.dlookup_eq_none.mp absent)

theorem restrict_insert_other (outside : p v = false) (apart : (restrict p m).lookup k = none) :
    restrict p (m.insert k v) = restrict p m := by
  rw [restrict_insert, outside, if_neg Bool.false_ne_true, erase_eq_self apart]

omit [DecidableEq κ] in
theorem restrict_mapValues {f : ν → ν} (same : ∀ v, p (f v) = p v) (m : HashMap κ ν) :
    restrict p (mapValues f m) = mapValues f (restrict p m) := by
  apply AList.ext
  simp only [restrict, mapValues, List.filter_map]
  congr 1
  exact List.filter_congr fun entry _ => same entry.2

theorem mapValues_eq_self {f : ν → ν} (fixed : ∀ k v, m.lookup k = some v → f v = v) :
    mapValues f m = m := by
  apply AList.ext
  refine (List.map_congr_left fun entry member => ?_).trans (List.map_id _)
  have same := fixed entry.1 entry.2 (mem_entries.mp member)
  exact congrArg (Sigma.mk entry.1) same

theorem values_eq (m : HashMap κ ν) : m.values = m.entries.map Sigma.snd := by
  have stored : ∀ entry ∈ m.entries, (m.lookup ∘ Sigma.fst) entry = (some ∘ Sigma.snd) entry :=
    fun entry member => mem_entries.mp member
  unfold values iter AList.keys List.keys
  rw [id, List.filterMap_map, List.filterMap_congr stored, List.filterMap_eq_map]

theorem values_restrict (p : ν → Bool) (m : HashMap κ ν) :
    (restrict p m).values = m.values.filter p := by
  rw [values_eq, values_eq, List.filter_map]
  rfl

end Foundation.HashMap
