import Mathlib.Data.List.Basic

/-! NUL-terminated strings in a buffer of bytes. -/

namespace CString

/-- The index of the first NUL. A buffer without one is read past its end. -/
def strlen (buffer : List UInt8) : Option Nat := buffer.findIdx? (· = 0)

/-- The buffer starts with this string and its terminator. -/
structure Holds (buffer str : List UInt8) : Prop where
  stored : str ++ [0] <+: buffer
  plain : 0 ∉ str

variable {buffer str : List UInt8} {index : Nat}

theorem strlen_append {front rest : List UInt8} (plain : 0 ∉ front) : strlen (front ++ 0 :: rest) = some front.length := by
  induction front with
  | nil => rfl
  | cons first front ih =>
    obtain ⟨other, plain⟩ := not_or.mp (mt List.mem_cons.mpr plain)
    have shifted := ih plain
    simp only [strlen] at shifted ⊢
    simp [List.findIdx?_cons, Ne.symm other, shifted]

theorem Holds.strlen (holds : Holds buffer str) : strlen buffer = some str.length := by
  obtain ⟨rest, rfl⟩ := holds.stored
  rw [List.append_assoc]
  exact strlen_append holds.plain

theorem Holds.length_lt (holds : Holds buffer str) : str.length < buffer.length := by
  have fits := holds.stored.length_le
  rwa [List.length_append, List.length_singleton] at fits

theorem Holds.take (holds : Holds buffer str) {count : Nat} (inside : count ≤ str.length) :
    buffer.take count = str.take count := by
  obtain ⟨rest, rfl⟩ := holds.stored
  rw [List.append_assoc, List.take_append_of_le_length inside]

/-- A terminator written at `index` ends the string there, unless it ends before. -/
theorem Holds.strlen_set (holds : Holds buffer str) (inside : index < buffer.length) :
    CString.strlen (buffer.set index 0) = some (min str.length index) := by
  rcases Nat.le_total str.length index with ends | cut
  · have still : Holds (buffer.set index 0) str := by
      obtain ⟨rest, rfl⟩ := holds.stored
      refine ⟨?_, holds.plain⟩
      rw [List.append_assoc, List.set_append_right _ _ ends]
      cases index - str.length with
      | zero => exact ⟨rest, by simp⟩
      | succ beyond => exact ⟨rest.set beyond 0, by simp⟩
    rw [still.strlen, Nat.min_eq_left ends]
  · rw [List.set_eq_take_append_cons_drop, if_pos inside, holds.take cut, strlen_append, List.length_take,
      Nat.min_comm]
    exact fun member => holds.plain (List.mem_of_mem_take member)

end CString
