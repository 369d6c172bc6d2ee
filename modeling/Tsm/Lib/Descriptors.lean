import Mathlib.Data.List.Basic

/-! The descriptors of a process. An open takes the lowest number that is free. -/

namespace Descriptors

variable {α : Type*} {table : List (Option α)} {fd : Nat} {file : α}

def lookup (table : List (Option α)) (fd : Nat) : Option α := table[fd]?.join

def lowest (table : List (Option α)) : Nat := table.findIdx Option.isNone

def install (table : List (Option α)) (file : α) : List (Option α) :=
  if lowest table < table.length then table.set (lowest table) (some file) else table ++ [some file]

def close (table : List (Option α)) (fd : Nat) : List (Option α) := table.set fd none

theorem lookup_lowest (table : List (Option α)) : lookup table (lowest table) = none := by
  unfold lookup
  by_cases inside : lowest table < table.length
  · have free := List.findIdx_getElem (w := inside)
    rw [List.getElem?_eq_getElem inside]
    exact Option.isNone_iff_eq_none.mp free
  · rw [List.getElem?_eq_none (Nat.le_of_not_lt inside)]
    rfl

/-- A table without a free entry grows by one. -/
theorem lowest_full (full : ¬ lowest table < table.length) : lowest table = table.length :=
  Nat.le_antisymm List.findIdx_le_length (Nat.le_of_not_lt full)

@[simp] theorem lookup_install_self : lookup (install table file) (lowest table) = some file := by
  unfold install
  split
  next inside => simp [lookup, inside]
  next full => simp [lookup, lowest_full full]

theorem lookup_install_of_ne (other : fd ≠ lowest table) : lookup (install table file) fd = lookup table fd := by
  unfold install
  split
  next inside => rw [lookup, lookup, List.getElem?_set_ne (Ne.symm other)]
  next full =>
    rw [lowest_full full] at other
    by_cases inside : fd < table.length
    · rw [lookup, lookup, List.getElem?_append_left inside]
    · rw [lookup, lookup, List.getElem?_eq_none (Nat.le_of_not_lt inside), List.getElem?_eq_none]
      rw [List.length_append, List.length_singleton]
      omega

@[simp] theorem lookup_close_self : lookup (close table fd) fd = none := by
  unfold lookup close
  by_cases inside : fd < table.length
  · simp [inside]
  · simp [Nat.le_of_not_lt inside]

theorem lookup_close_of_ne {other : Nat} (apart : other ≠ fd) : lookup (close table fd) other = lookup table other := by
  rw [lookup, lookup, close, List.getElem?_set_ne (Ne.symm apart)]

end Descriptors
