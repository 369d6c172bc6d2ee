import Mathlib.Algebra.Order.Floor.Div
import Tsm.Device.State

/-! The kernel's conversion of milliseconds to jiffies, which a device takes as it
is. It rounds up, and makes a delay without end of a negative `int`. -/

namespace Tsm

/-- Jiffies in a second. The kernel does not build with any other number. -/
structure TickRate where
  hz : Nat
  least : 12 ≤ hz
  most : hz < 12288

/-- `(LONG_MAX >> 1) - 1`. -/
def MAX_JIFFY_OFFSET : Nat := 2 ^ 62 - 2

def msecsToJiffies (rate : TickRate) (m : UInt32) : Nat :=
  if m.toInt32 < 0 then MAX_JIFFY_OFFSET else (m.toNat * rate.hz) ⌈/⌉ 1000

variable {rate : TickRate} {m : UInt32}

theorem toInt32_neg : m.toInt32 < 0 ↔ 2 ^ 31 ≤ m.toNat := by
  have bound := m.toNat_lt
  have zero : (0 : Int32).toInt = 0 := rfl
  rw [Int32.lt_iff_toInt_lt, zero, ← Int32.toInt_toBitVec, UInt32.toBitVec_toInt32, BitVec.toInt_eq_toNat_cond,
    UInt32.toNat_toBitVec]
  split <;> omega

theorem msecsToJiffies_negative (negative : 2 ^ 31 ≤ m.toNat) : msecsToJiffies rate m = MAX_JIFFY_OFFSET := by
  rw [msecsToJiffies, if_pos (toInt32_neg.mpr negative)]

/-- The least number of jiffies that last long enough. -/
theorem msecsToJiffies_bounds (rate : TickRate) (positive : m.toNat < 2 ^ 31) :
    m.toNat * rate.hz ≤ msecsToJiffies rate m * 1000 ∧ msecsToJiffies rate m * 1000 < m.toNat * rate.hz + 1000 := by
  have notNegative : ¬ m.toInt32 < 0 := fun negative => Nat.not_le.mpr positive (toInt32_neg.mp negative)
  rw [msecsToJiffies, if_neg notNegative, Nat.ceilDiv_eq_add_pred_div]
  omega

theorem msecsToJiffies_lt_max (positive : m.toNat < 2 ^ 31) : msecsToJiffies rate m < MAX_JIFFY_OFFSET := by
  have bounds := (msecsToJiffies_bounds rate positive).2
  have product : m.toNat * rate.hz < 2 ^ 31 * 12288 := Nat.mul_lt_mul'' positive rate.most
  rw [MAX_JIFFY_OFFSET]
  omega

end Tsm
