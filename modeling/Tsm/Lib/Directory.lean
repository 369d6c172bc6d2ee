import Mathlib.Data.List.Dedup
import Mathlib.Data.List.Range
import Mathlib.Data.List.Perm.Subperm

/-! A list of entries under distinct keys, all of them below a bound. It holds no
more entries than there are keys, so one that is missing finds room. -/

structure Directory {α : Type*} (key : α → Nat) (bound : Nat) (entries : List α) : Prop where
  distinct : (entries.map key).Nodup
  below : ∀ entry ∈ entries, key entry < bound

namespace Directory

variable {α : Type*} {key : α → Nat} {bound : Nat} {entries : List α} {entry : α}

theorem nil : Directory key bound [] := ⟨List.nodup_nil, by simp⟩

theorem cons (directory : Directory key bound entries) (inside : key entry < bound)
    (absent : ∀ other ∈ entries, key other ≠ key entry) : Directory key bound (entry :: entries) := by
  refine ⟨List.nodup_cons.mpr ⟨?_, directory.distinct⟩, ?_⟩
  · intro member
    obtain ⟨other, listed, same⟩ := List.mem_map.mp member
    exact absent other listed same
  · intro other member
    rcases List.mem_cons.mp member with rfl | member
    · exact inside
    · exact directory.below other member

/-- The keys in use are among the keys there are. -/
theorem length_le (directory : Directory key bound entries) : entries.length ≤ bound := by
  have among : (entries.map key) ⊆ List.range bound := fun used member => by
    obtain ⟨entry, listed, rfl⟩ := List.mem_map.mp member
    exact List.mem_range.mpr (directory.below entry listed)
  simpa using (List.subperm_of_subset directory.distinct among).length_le

/-- A key that no entry has leaves room for one more. -/
theorem length_lt (directory : Directory key bound entries) {wanted : Nat} (inside : wanted < bound)
    (absent : ∀ entry ∈ entries, key entry ≠ wanted) : entries.length < bound := by
  have among : (entries.map key) ⊆ (List.range bound).erase wanted := fun used member => by
    obtain ⟨entry, listed, rfl⟩ := List.mem_map.mp member
    exact (List.mem_erase_of_ne (absent entry listed)).mpr (List.mem_range.mpr (directory.below entry listed))
  have fewer := (List.subperm_of_subset directory.distinct among).length_le
  rw [List.length_erase_of_mem (List.mem_range.mpr inside), List.length_range, List.length_map] at fewer
  omega

theorem nodup (directory : Directory key bound entries) : entries.Nodup := .of_map key directory.distinct

end Directory
