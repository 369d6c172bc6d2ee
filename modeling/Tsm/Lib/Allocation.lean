import Mathlib.Data.Multiset.AddSub
import Mathlib.Data.Multiset.UnionInter

/-! Objects made one after the other. Each takes the next number, several may
share one, and the objects in use are all different. -/

namespace Allocation

variable {α : Type*} {number : α → Nat} {fresh : Nat} {items : Multiset α}

/-- The items in use: each of them once, and each numbered below the next number. -/
structure Tracked (number : α → Nat) (fresh : Nat) (items : Multiset α) : Prop where
  distinct : items.Nodup
  numbered : ∀ item ∈ items, number item < fresh

theorem Tracked.empty : Tracked number fresh 0 := ⟨Multiset.nodup_zero, by simp⟩

theorem Tracked.of_le {fewer : Multiset α} (tracked : Tracked number fresh items) (less : fewer ≤ items) :
    Tracked number fresh fewer :=
  ⟨Multiset.nodup_of_le less tracked.distinct,
    fun item member => tracked.numbered item (Multiset.mem_of_le less member)⟩

theorem Tracked.of_count [DecidableEq α] {fewer : Multiset α} (tracked : Tracked number fresh items)
    (less : ∀ item, fewer.count item ≤ items.count item) : Tracked number fresh fewer :=
  tracked.of_le (Multiset.le_iff_count.mpr less)

theorem Tracked.skip (tracked : Tracked number fresh items) : Tracked number (fresh + 1) items :=
  ⟨tracked.distinct, fun item member => Nat.lt_succ_of_lt (tracked.numbered item member)⟩

/-- New items take the next number. -/
theorem Tracked.alloc (new : Multiset α) (tracked : Tracked number fresh items) (distinct : new.Nodup)
    (numbers : ∀ item ∈ new, number item = fresh) : Tracked number (fresh + 1) (new + items) := by
  have unknown : Disjoint new items := by
    refine Multiset.disjoint_left.mpr fun {item} member old => ?_
    have less := tracked.numbered item old
    rw [numbers item member] at less
    exact Nat.lt_irrefl _ less
  refine ⟨Multiset.nodup_add.mpr ⟨distinct, tracked.distinct, unknown⟩, ?_⟩
  intro item member
  rcases Multiset.mem_add.mp member with member | member
  · rw [numbers item member]
    exact Nat.lt_succ_self _
  · exact Nat.lt_succ_of_lt (tracked.numbered item member)

/-- What one owner has, no other has. -/
theorem Tracked.apart {mine others : Multiset α} (tracked : Tracked number fresh (mine + others)) {item : α}
    (member : item ∈ mine) : item ∉ others :=
  Multiset.disjoint_left.mp (Multiset.nodup_add.mp tracked.distinct).2.2 member

end Allocation
