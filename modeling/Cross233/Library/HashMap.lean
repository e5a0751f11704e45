import Mathlib.Data.List.AList
import Mathlib.Tactic.SplitIfs

abbrev HashMap (K V : Type) := AList (fun _ : K => V)

namespace AList

variable {K V : Type}

def len (m : HashMap K V) : Nat := m.entries.length

@[simp] theorem len_empty : len (∅ : HashMap K V) = 0 := rfl

theorem len_eq_keys (m : HashMap K V) : m.len = m.keys.length := by
  simp [len, keys, List.keys]

variable [DecidableEq K]

def orInsert (m : HashMap K V) (k : K) (v : V) : HashMap K V :=
  if k ∈ m then m else m.insert k v

theorem mem_iff_lookup {m : HashMap K V} {k : K} : k ∈ m ↔ ∃ v, m.lookup k = some v := by
  rw [← lookup_isSome, Option.isSome_iff_exists]

theorem mem_of_lookup {m : HashMap K V} {k : K} {v : V} (h : m.lookup k = some v) : k ∈ m :=
  mem_iff_lookup.mpr ⟨v, h⟩

theorem lookup_insert_eq (m : HashMap K V) (k j : K) (v : V) :
    (m.insert k v).lookup j = if j = k then some v else m.lookup j := by
  split_ifs with h
  · subst h
    exact lookup_insert m
  · exact lookup_insert_ne h

theorem lookup_erase_eq (m : HashMap K V) (k j : K) :
    (m.erase k).lookup j = if j = k then none else m.lookup j := by
  split_ifs with h
  · subst h
    exact lookup_erase j m
  · exact lookup_erase_ne h

theorem lookup_orInsert (m : HashMap K V) (k j : K) (v : V) :
    (m.orInsert k v).lookup j = if j = k then some ((m.lookup k).getD v) else m.lookup j := by
  unfold orInsert
  split_ifs with hk hj hj
  · obtain ⟨w, hw⟩ := mem_iff_lookup.mp hk
    rw [hj, hw]
    rfl
  · rfl
  · rw [hj, lookup_insert, lookup_eq_none.mpr hk]
    rfl
  · exact lookup_insert_ne hj

theorem len_insert_of_notMem {m : HashMap K V} {k : K} (v : V) (h : k ∉ m) :
    (m.insert k v).len = m.len + 1 := by
  rw [len, entries_insert_of_notMem h]
  rfl

theorem len_erase_of_mem {m : HashMap K V} {k : K} (h : k ∈ m) :
    (m.erase k).len + 1 = m.len := by
  have hkeys : (m.erase k).keys = m.keys.erase k := List.keys_kerase
  have hmem : k ∈ m.keys := h
  rw [len_eq_keys, len_eq_keys, hkeys, List.length_erase_of_mem hmem]
  exact Nat.sub_add_cancel (List.length_pos_of_mem hmem)

theorem len_insert (m : HashMap K V) (k : K) (v : V) : (m.insert k v).len = (m.erase k).len + 1 :=
  rfl

theorem len_insert_of_mem {m : HashMap K V} {k : K} (v : V) (h : k ∈ m) :
    (m.insert k v).len = m.len := by
  rw [len_insert, len_erase_of_mem h]

theorem len_insert_le (m : HashMap K V) (k : K) (v : V) : (m.insert k v).len ≤ m.len + 1 := by
  by_cases h : k ∈ m
  · rw [len_insert_of_mem v h]
    exact Nat.le_succ _
  · exact Nat.le_of_eq (len_insert_of_notMem v h)

theorem len_le_insert (m : HashMap K V) (k : K) (v : V) : m.len ≤ (m.insert k v).len := by
  by_cases h : k ∈ m
  · exact Nat.le_of_eq (len_insert_of_mem v h).symm
  · rw [len_insert_of_notMem v h]
    exact Nat.le_succ _

theorem erase_of_notMem {m : HashMap K V} {k : K} (h : k ∉ m) : m.erase k = m :=
  ext (List.kerase_of_notMem_keys h)

theorem erase_insert_same (m : HashMap K V) (k : K) (v : V) :
    (m.insert k v).erase k = m.erase k :=
  ext (List.kerase_cons_eq rfl)

theorem erase_insert {m : HashMap K V} {k : K} (v : V) (h : k ∉ m) :
    (m.insert k v).erase k = m := by
  rw [erase_insert_same, erase_of_notMem h]

theorem lookup_of_mem_entries {m : HashMap K V} {k : K} {v : V}
    (h : (⟨k, v⟩ : Sigma fun _ : K => V) ∈ m.entries) : m.lookup k = some v :=
  mem_lookup_iff.mpr h

def retain (m : HashMap K V) (p : V → Bool) : HashMap K V :=
  ⟨m.entries.filter (fun e => p e.2), m.nodupKeys.sublist List.filter_sublist⟩

omit [DecidableEq K] in
theorem len_retain (m : HashMap K V) (p : V → Bool) :
    (m.retain p).len + (m.entries.filter (fun e => !p e.2)).length = m.len :=
  (List.length_eq_length_filter_add _).symm

theorem lookup_retain (m : HashMap K V) (p : V → Bool) (k : K) :
    (m.retain p).lookup k = (m.lookup k).filter p := by
  refine Option.ext (fun v => ?_)
  have hmem : (m.retain p).lookup k = some v ↔ m.lookup k = some v ∧ p v = true :=
    calc (m.retain p).lookup k = some v
        ↔ (⟨k, v⟩ : Sigma fun _ : K => V) ∈ (m.retain p).entries := mem_lookup_iff
      _ ↔ (⟨k, v⟩ : Sigma fun _ : K => V) ∈ m.entries ∧ p v = true := List.mem_filter
      _ ↔ m.lookup k = some v ∧ p v = true := and_congr_left' mem_lookup_iff.symm
  rw [hmem, Option.filter_eq_some_iff]

end AList
