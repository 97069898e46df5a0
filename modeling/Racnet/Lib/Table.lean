import Mathlib.Data.List.AList

/-!
# Hash maps

A hash map is an association list with distinct keys. Here is what Mathlib's lacks.
-/

namespace Racnet.Lib

variable {α β : Type} [DecidableEq α]

/-- `HashMap::retain`. -/
def retain (keep : α → β → Bool) (table : AList fun _ : α => β) : AList fun _ : α => β :=
  ⟨table.entries.filter fun e => keep e.1 e.2,
    table.nodupKeys.sublist List.filter_sublist⟩

theorem lookup_retain (keep : α → β → Bool) (table : AList fun _ : α => β) (a : α) :
    (retain keep table).lookup a = (table.lookup a).filter (keep a) := by
  ext b
  rw [← Option.mem_def, ← Option.mem_def, AList.mem_lookup_iff, retain, List.mem_filter,
    ← AList.mem_lookup_iff]
  simp

theorem length_keys_insert (table : AList fun _ : α => β) (key : α) (value : β) :
    (table.insert key value).keys.length =
      if key ∈ table then table.keys.length else table.keys.length + 1 := by
  rw [AList.keys_insert, List.length_cons]
  split_ifs with held
  · have mem := AList.mem_keys.mp held
    rw [List.length_erase_of_mem mem]
    have := List.length_pos_of_mem mem
    omega
  · rw [List.erase_of_not_mem fun mem => held (AList.mem_keys.mpr mem)]

theorem length_keys_erase_le (table : AList fun _ : α => β) (key : α) :
    (table.erase key).keys.length ≤ table.keys.length := by
  rw [AList.keys_erase]
  exact List.length_erase_le

theorem lookup_insert_eq (table : AList fun _ : α => β) (key : α) (value : β) (other : α) :
    (table.insert key value).lookup other = if other = key then some value else table.lookup other := by
  split_ifs with same
  · rw [same, AList.lookup_insert]
  · exact AList.lookup_insert_ne same

theorem lookup_erase_eq (table : AList fun _ : α => β) (key other : α) :
    (table.erase key).lookup other = if other = key then none else table.lookup other := by
  split_ifs with same
  · rw [same, AList.lookup_erase]
  · exact AList.lookup_erase_ne same

theorem lookup_erase_some {table : AList fun _ : α => β} {key other : α} {value : β}
    (found : (table.erase key).lookup other = some value) : table.lookup other = some value := by
  by_cases same : other = key
  · subst same
    rw [AList.lookup_erase] at found
    cases found
  · rwa [AList.lookup_erase_ne same] at found

end Racnet.Lib
