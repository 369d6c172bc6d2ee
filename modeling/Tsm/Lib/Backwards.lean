import Tsm.Lib.KernelList

/-! How far a traversal from the last entry to the first still has to go, while others
add, remove and join entries. -/

namespace KernelList

variable {α : Type*} [DecidableEq α] {entry other previous : α} {list : List α}

/-- How many entries stand before this one. An entry that is not linked leads nowhere. -/
def ahead (entry : α) (list : List α) : Nat := if entry ∈ list then list.idxOf entry else 0

theorem ahead_of_absent (absent : entry ∉ list) : ahead entry list = 0 := if_neg absent

theorem ahead_split {front rest : List α} (before : entry ∉ front) : ahead entry (front ++ entry :: rest) = front.length := by
  rw [ahead, if_pos (List.mem_append_right _ List.mem_cons_self), List.idxOf_append_of_notMem before, List.idxOf_cons_self,
    Nat.add_zero]

theorem ahead_lt (linked : entry ∈ list) : ahead entry list < list.length := by
  rw [ahead, if_pos linked]
  exact List.idxOf_lt_length_of_mem linked

theorem ahead_prev (distinct : list.Nodup) (found : listPrev entry list = some previous) :
    ahead previous list + 1 = ahead entry list := by
  have linked : entry ∈ list := by
    by_contra absent
    rw [listPrev_absent absent] at found
    cases found
  obtain ⟨front, rest, rfl⟩ := List.append_of_mem linked
  have apart := List.nodup_append.mp distinct
  have before : entry ∉ front := fun member => apart.2.2 entry member entry List.mem_cons_self rfl
  have after : entry ∉ rest := (List.nodup_cons.mp apart.2.1).1
  rw [listPrev_append after before] at found
  obtain ⟨earlier, rfl⟩ := List.getLast?_eq_some_iff.mp found
  have once : previous ∉ earlier := fun member =>
    (List.nodup_append.mp apart.1).2.2 previous member previous (List.mem_singleton_self previous) rfl
  rw [ahead_split before, List.append_assoc, List.singleton_append, ahead_split once, List.length_append,
    List.length_singleton]

theorem ahead_listAdd : ahead entry (listAdd other list) ≤ ahead entry list + 1 := by
  rw [listAdd]
  by_cases linked : entry ∈ list
  · rw [ahead, ahead, if_pos linked, if_pos (List.mem_cons_of_mem _ linked)]
    rw [List.idxOf_cons]
    cases other == entry with
    | true => exact Nat.zero_le _
    | false => exact Nat.le_refl _
  · by_cases same : entry = other
    · subst same
      simp [ahead]
    · rw [ahead_of_absent (by simp [linked, same])]
      exact Nat.zero_le _

theorem ahead_append_of_mem (rest : List α) (linked : entry ∈ list) : ahead entry (list ++ rest) = ahead entry list := by
  rw [ahead, ahead, if_pos linked, if_pos (List.mem_append_left _ linked), List.idxOf_append_of_mem linked]

theorem ahead_listSpliceTail {joined : List α} (apart : entry ∉ joined) :
    ahead entry (listSpliceTail joined list) = ahead entry list := by
  rw [listSpliceTail]
  by_cases linked : entry ∈ list
  · exact ahead_append_of_mem joined linked
  · rw [ahead_of_absent linked, ahead_of_absent (by simp [linked, apart])]

theorem ahead_takeLast (list : List α) (last : α) : ahead entry list ≤ ahead entry (list ++ [last]) := by
  by_cases linked : entry ∈ list
  · exact Nat.le_of_eq (ahead_append_of_mem [last] linked).symm
  · rw [ahead_of_absent linked]
    exact Nat.zero_le _

theorem ahead_listDel (distinct : list.Nodup) : ahead entry (listDel other list) ≤ ahead entry list := by
  by_cases linked : entry ∈ listDel other list
  · obtain ⟨apart, member⟩ := (distinct.mem_erase_iff).mp linked
    obtain ⟨front, rest, rfl⟩ := List.append_of_mem member
    have before : entry ∉ front := fun present =>
      (List.nodup_append.mp distinct).2.2 entry present entry List.mem_cons_self rfl
    rw [ahead_split before, listDel, List.erase_append]
    split
    · rw [ahead_split fun present => before (List.mem_of_mem_erase present)]
      exact List.length_erase_le
    · apply Nat.le_of_eq
      rw [List.erase_cons_tail (by simpa using apart), ahead_split before]
  · rw [ahead_of_absent linked]
    exact Nat.zero_le _

end KernelList
