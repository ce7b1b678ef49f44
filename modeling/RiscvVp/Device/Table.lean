import Mathlib.Data.Fintype.Card
import Mathlib.Data.List.AList

/-!
# Tables that keep their first entry

`std::unordered_map`: `emplace` adds an entry unless its key has one.
-/

namespace RiscvVp

namespace Keyed

variable {κ ν : Type}

abbrev Table (κ ν : Type) : Type :=
  AList fun _ : κ => ν

def size (table : Table κ ν) : ℕ :=
  table.entries.length

theorem length_keys (table : Table κ ν) : table.keys.length = size table := by
  simp [AList.keys, List.keys, size]

/-- A table that lacks a key has fewer entries than there are keys. -/
theorem size_lt_card [Fintype κ] {table : Table κ ν} {key : κ}
    (absent : key ∉ table) : size table < Fintype.card κ := by
  have distinct : (key :: table.keys).Nodup :=
    List.nodup_cons.mpr ⟨absent, table.keys_nodup⟩
  have bound := distinct.length_le_card
  rw [List.length_cons, length_keys] at bound
  exact bound

variable [DecidableEq κ]

def emplace (table : Table κ ν) (key : κ) (value : ν) : Table κ ν :=
  if key ∈ table then table else table.insert key value

variable {table : Table κ ν} {key other : κ} {value : ν}

theorem emplace_of_mem (present : key ∈ table) :
    emplace table key value = table :=
  if_pos present

theorem emplace_of_notMem (absent : key ∉ table) :
    emplace table key value = table.insert key value :=
  if_neg absent

theorem mem_emplace_iff :
    other ∈ emplace table key value ↔ other = key ∨ other ∈ table := by
  by_cases present : key ∈ table
  · rw [emplace_of_mem present]
    constructor
    · exact .inr
    · rintro (rfl | member)
      · exact present
      · exact member
  · rw [emplace_of_notMem present, AList.mem_insert]

theorem lookup_emplace_self (absent : key ∉ table) :
    (emplace table key value).lookup key = some value := by
  rw [emplace_of_notMem absent]
  exact AList.lookup_insert table

theorem lookup_emplace_of_ne (different : other ≠ key) :
    (emplace table key value).lookup other = table.lookup other := by
  unfold emplace
  split
  · rfl
  · exact AList.lookup_insert_ne different

/-- An entry after `emplace` is the new one or an old one. -/
theorem lookup_emplace_eq_some {found : ν}
    (lookup : (emplace table key value).lookup other = some found) :
    (other = key ∧ found = value) ∨ table.lookup other = some found := by
  by_cases present : key ∈ table
  · rw [emplace_of_mem present] at lookup
    exact .inr lookup
  · by_cases same : other = key
    · subst same
      rw [lookup_emplace_self present] at lookup
      exact .inl ⟨rfl, (Option.some.inj lookup).symm⟩
    · rw [lookup_emplace_of_ne same] at lookup
      exact .inr lookup

theorem size_emplace (absent : key ∉ table) :
    size (emplace table key value) = size table + 1 := by
  rw [emplace_of_notMem absent, size, size,
    AList.entries_insert_of_notMem absent, List.length_cons]

end Keyed

end RiscvVp
