import Mathlib.Data.List.Basic

/-! Circular kernel lists as sequences. A list stands for its entries from
`head->next` on, so the last entry is `head->prev`. -/

namespace KernelList

variable {α : Type*}

/-- `list_add`: right after the head. -/
def listAdd (entry : α) (list : List α) : List α := entry :: list

/-- `list_last_entry` with the `list_del` of the entry it returns. -/
def listTakeLast (list : List α) : Option (α × List α) :=
  match list.getLast? with
  | none => none
  | some entry => some (entry, list.dropLast)

/-- `list_splice_tail_init(list, head)`: `list` is joined before the head of `head`. -/
def listSpliceTail (list head : List α) : List α := head ++ list

/-- `list_del` of an entry that may stand anywhere. -/
def listDel [DecidableEq α] (entry : α) (list : List α) : List α := list.erase entry

/-- `entry->prev`, where `none` is the head. An entry that is not linked has no link to
follow: a thread that stands on one goes through a poisoned pointer. -/
def listPrev [DecidableEq α] (entry : α) : List α → Option α
  | first :: second :: rest => if second = entry then some first else listPrev entry (second :: rest)
  | _ => none

@[simp] theorem listTakeLast_append (rest : List α) (entry : α) :
    listTakeLast (rest ++ [entry]) = some (entry, rest) := by
  simp [listTakeLast]

theorem listTakeLast_eq_none {list : List α} (empty : listTakeLast list = none) : list = [] := by
  rcases List.eq_nil_or_concat list with rfl | ⟨rest, entry, rfl⟩
  · rfl
  · simp at empty

theorem listTakeLast_eq_some {list rest : List α} {entry : α}
    (taken : listTakeLast list = some (entry, rest)) : list = rest ++ [entry] := by
  rcases List.eq_nil_or_concat list with rfl | ⟨front, last, rfl⟩
  · cases taken
  · rw [List.concat_eq_append, listTakeLast_append] at taken
    cases taken
    simp

theorem listPrev_mem [DecidableEq α] {entry previous : α} :
    ∀ {list : List α}, listPrev entry list = some previous → previous ∈ list
  | [], found | [_], found => by cases found
  | first :: second :: rest, found => by
    simp only [listPrev] at found
    split at found
    · cases found
      exact List.mem_cons_self
    · exact List.mem_cons_of_mem _ (listPrev_mem found)

theorem listPrev_ne [DecidableEq α] {entry previous : α} :
    ∀ {list : List α}, list.Nodup → listPrev entry list = some previous → previous ≠ entry
  | [], _, found | [_], _, found => by cases found
  | first :: second :: rest, distinct, found => by
    simp only [listPrev] at found
    split at found
    next same =>
      cases found
      subst same
      intro equal
      subst equal
      simp at distinct
    · exact listPrev_ne (List.nodup_cons.mp distinct).2 found

theorem listPrev_first [DecidableEq α] {entry first : α} :
    ∀ {rest : List α}, entry ∉ rest → listPrev entry (first :: rest) = none
  | [], _ => rfl
  | second :: rest, absent => by
    have other : second ≠ entry := fun same => absent (by simp [same])
    simp only [listPrev, if_neg other]
    exact listPrev_first fun member => absent (List.mem_cons_of_mem _ member)

theorem listPrev_absent [DecidableEq α] {entry : α} : ∀ {list : List α}, entry ∉ list → listPrev entry list = none
  | [], _ => rfl
  | _ :: _, absent => listPrev_first fun member => absent (List.mem_cons_of_mem _ member)

theorem listPrev_append [DecidableEq α] {entry : α} {rest : List α} (after : entry ∉ rest) :
    ∀ {front : List α}, entry ∉ front → listPrev entry (front ++ entry :: rest) = front.getLast?
  | [], _ => listPrev_first after
  | [first], _ => by simp [listPrev]
  | first :: second :: others, before => by
    have other : second ≠ entry := fun same => before (by simp [same])
    have later : entry ∉ second :: others := fun member => before (List.mem_cons_of_mem _ member)
    rw [List.getLast?_cons_cons, ← listPrev_append after later]
    simp [listPrev, other]

/-- Unlinking the last entry leaves the one that precedes it last. -/
theorem getLast?_listDel_last [DecidableEq α] {list : List α} {entry : α} (distinct : list.Nodup)
    (last : list.getLast? = some entry) : (listDel entry list).getLast? = listPrev entry list := by
  obtain ⟨front, rfl⟩ := List.getLast?_eq_some_iff.mp last
  have before : entry ∉ front := fun member =>
    (List.nodup_append.mp distinct).2.2 entry member entry (List.mem_singleton_self entry) rfl
  rw [listPrev_append List.not_mem_nil before, listDel, List.erase_append_right _ before, List.erase_cons_head, List.append_nil]

/-- Unlinking any other entry leaves the last one where it is. -/
theorem getLast?_listDel_of_ne [DecidableEq α] {list : List α} {entry : α} (other : list.getLast? ≠ some entry) :
    (listDel entry list).getLast? = list.getLast? := by
  rcases List.eq_nil_or_concat list with rfl | ⟨front, last, rfl⟩
  · rfl
  · rw [List.concat_eq_append] at other ⊢
    have apart : last ≠ entry := by simpa using other
    rw [listDel, List.erase_append]
    split
    · simp
    · rw [List.erase_of_not_mem (by simp [apart.symm])]

end KernelList
