import Tsm.Device.Jiffies
import Tsm.Library.Messages

/-! The delay that is asked for and the delay that is set. A `long` of milliseconds
goes through the `unsigned int` of the kernel's conversion: what it loses there the
device loses. -/

namespace Tsm

/-- The command returns 0. -/
def Accepts (s : State) (delay : Int64) (s' : State) : Prop := setSendDelay s (.entry delay.toUInt64) = some (s', .done 0)

/-- No delay is none, and any other lasts long enough, up to the cap. -/
structure Lasts (rate : TickRate) (delay : Int64) (jiffies : Nat) : Prop where
  zero : jiffies = 0 ↔ delay = 0
  enough : delay.toInt * rate.hz ≤ jiffies * 1000 ∨ MAX_JIFFY_OFFSET ≤ jiffies

/-- Truncated to 32 bits the delay is the same, or negative. -/
def SurvivesTruncation (delay : Int64) : Prop := delay.toInt < 2 ^ 32 ∨ 2 ^ 31 ≤ delay.toInt % 2 ^ 32

instance (delay : Int64) : Decidable (SurvivesTruncation delay) := inferInstanceAs (Decidable (_ ∨ _))

section Conversion
variable {s s' : State} {rate : TickRate} {delay delay' : Int64}

theorem accepts_iff : Accepts s delay s' ↔ 0 ≤ delay ∧ s' = setDelay s delay.toUInt64 := by
  simp only [Accepts, setSendDelay, Int64.toInt64_toUInt64]
  split
  next negative => simp [Int64.not_le.mpr negative]
  next accepted => simp [Int64.not_lt.mp accepted, eq_comm]

/-- What the library lets through the driver accepts. -/
theorem library_accepts {fd : Int} {pc : DelayPc} (issued : Library.setSendDelay fd delay = some pc) :
    pc = .entry delay.toUInt64 ∧ Accepts s delay (setDelay s delay.toUInt64) := by
  unfold Library.setSendDelay at issued
  split at issued
  · cases issued
  · split at issued
    · cases issued
    next positive =>
      cases issued
      exact ⟨rfl, accepts_iff.mpr ⟨Int64.not_lt.mp positive, rfl⟩⟩

/-- The number that reaches the conversion. -/
theorem toNat_truncated (delay : Int64) : (delay.toUInt64.toUInt32.toNat : Int) = delay.toInt % 2 ^ 32 := by
  have same : delay.toBitVec.toNat = delay.toUInt64.toNat := rfl
  rw [← Int64.toInt_toBitVec, BitVec.toInt_eq_toNat_cond, same, UInt64.toNat_toUInt32]
  split <;> omega

theorem zero_iff : delay = 0 ↔ delay.toInt = 0 := Int64.toInt_inj.symm

/-- A delay that survives is converted as it is, or without end. -/
theorem converted_cases (rate : TickRate) (positive : 0 ≤ delay) (survives : SurvivesTruncation delay) :
    (delay.toInt < 2 ^ 31 ∧ (delay.toUInt64.toUInt32.toNat : Int) = delay.toInt) ∨
      2 ^ 31 ≤ delay.toInt ∧ msecsToJiffies rate delay.toUInt64.toUInt32 = MAX_JIFFY_OFFSET := by
  have truncated := toNat_truncated delay
  have zero : (0 : Int64).toInt = 0 := rfl
  rw [Int64.le_iff_toInt_le, zero] at positive
  unfold SurvivesTruncation at survives
  by_cases small : delay.toInt < 2 ^ 31
  · exact .inl ⟨small, by omega⟩
  · exact .inr ⟨by omega, msecsToJiffies_negative (by omega)⟩

theorem lasts_iff (positive : 0 ≤ delay) :
    Lasts rate delay (msecsToJiffies rate delay.toUInt64.toUInt32) ↔ SurvivesTruncation delay := by
  have least := rate.least
  constructor
  · -- what is lost is at least 2 ^ 32 milliseconds, more than rounding up adds
    intro lasts
    by_contra lost
    have truncated := toNat_truncated delay
    simp only [SurvivesTruncation, not_or, not_lt, not_le] at lost
    have small : delay.toUInt64.toUInt32.toNat < 2 ^ 31 := by omega
    have bounds := (msecsToJiffies_bounds rate small).2
    have longer : (delay.toUInt64.toUInt32.toNat + 2 ^ 32 : Int) * rate.hz ≤ delay.toInt * rate.hz :=
      Int.mul_le_mul_of_nonneg_right (by omega) (by omega)
    rw [Int.add_mul, ← Int.natCast_mul] at longer
    have enough := lasts.enough.resolve_right (Nat.not_le.mpr (msecsToJiffies_lt_max small))
    omega
  · intro survives
    rcases converted_cases rate positive survives with ⟨small, same⟩ | ⟨large, endless⟩
    · have bounds := msecsToJiffies_bounds rate (m := delay.toUInt64.toUInt32) (by omega)
      refine ⟨?_, .inl (by rw [← same]; exact_mod_cast bounds.1)⟩
      rw [zero_iff, ← same]
      constructor
      · intro none
        have product : delay.toUInt64.toUInt32.toNat * rate.hz = 0 := by omega
        have nothing := (Nat.mul_eq_zero.mp product).resolve_right (by omega)
        omega
      · intro none
        have nothing : delay.toUInt64.toUInt32.toNat = 0 := by omega
        rw [nothing, Nat.zero_mul] at bounds
        omega
    · rw [endless]
      refine ⟨?_, .inr (Nat.le_refl _)⟩
      rw [zero_iff, MAX_JIFFY_OFFSET]
      omega

/-- Delays that survive keep their order. -/
theorem converted_mono (positive : 0 ≤ delay) (ordered : delay ≤ delay') (survives : SurvivesTruncation delay)
    (survives' : SurvivesTruncation delay') :
    msecsToJiffies rate delay.toUInt64.toUInt32 ≤ msecsToJiffies rate delay'.toUInt64.toUInt32 := by
  have positive' : 0 ≤ delay' := Int64.le_trans positive ordered
  rw [Int64.le_iff_toInt_le] at ordered
  rcases converted_cases rate positive survives with ⟨small, same⟩ | ⟨large, endless⟩
  · rcases converted_cases rate positive' survives' with ⟨small', same'⟩ | ⟨large', endless'⟩
    · have product : delay.toUInt64.toUInt32.toNat * rate.hz ≤ delay'.toUInt64.toUInt32.toNat * rate.hz :=
        Nat.mul_le_mul_right _ (by omega)
      have bounds := msecsToJiffies_bounds rate (m := delay.toUInt64.toUInt32) (by omega)
      have bounds' := msecsToJiffies_bounds rate (m := delay'.toUInt64.toUInt32) (by omega)
      omega
    · rw [endless']
      exact Nat.le_of_lt (msecsToJiffies_lt_max (by omega))
  · rcases converted_cases rate positive' survives' with ⟨small', same'⟩ | ⟨large', endless'⟩
    · omega
    · rw [endless, endless']

end Conversion

/-- Two accepted delays are set in order, and for as long as they were asked for,
exactly when both survive the truncation. -/
theorem delay_set_iff {rate : TickRate} {s₁ s₁' s₂ s₂' : State} {delay₁ delay₂ : Int64}
    (conversion₁ : s₁.msecsToJiffies = msecsToJiffies rate) (conversion₂ : s₂.msecsToJiffies = msecsToJiffies rate)
    (ordered : delay₁ ≤ delay₂) (accepts₁ : Accepts s₁ delay₁ s₁') (accepts₂ : Accepts s₂ delay₂ s₂') :
    Lasts rate delay₁ s₁'.dev.delay ∧ Lasts rate delay₂ s₂'.dev.delay ∧ s₁'.dev.delay ≤ s₂'.dev.delay ↔
      SurvivesTruncation delay₁ ∧ SurvivesTruncation delay₂ := by
  obtain ⟨positive₁, rfl⟩ := accepts_iff.mp accepts₁
  obtain ⟨positive₂, rfl⟩ := accepts_iff.mp accepts₂
  simp only [setDelay, conversion₁, conversion₂]
  rw [lasts_iff positive₁, ← and_assoc, lasts_iff positive₂, and_iff_left_iff_imp]
  exact fun survive => converted_mono positive₁ ordered survive.1 survive.2

def quarterTicks : TickRate := ⟨250, by decide, by decide⟩

def timedDevice : State := .installed 32 64 (msecsToJiffies quarterTicks) true

theorem delay_set_iff_tenMilliseconds :
    (setDelay timedDevice 10).dev.delay = 3 ∧ Lasts quarterTicks 1 (setDelay timedDevice 1).dev.delay ∧
      Lasts quarterTicks 10 (setDelay timedDevice 10).dev.delay := by
  have accepts₁ : Accepts timedDevice 1 (setDelay timedDevice 1) := accepts_iff.mpr ⟨by decide, rfl⟩
  have accepts₂ : Accepts timedDevice 10 (setDelay timedDevice 10) := accepts_iff.mpr ⟨by decide, rfl⟩
  have applied := (delay_set_iff rfl rfl (by decide) accepts₁ accepts₂).mpr ⟨by decide, by decide⟩
  exact ⟨by decide, applied.1, applied.2.1⟩

/-- Nearly fifty days are no delay at all. -/
theorem delay_lost :
    ¬ ∀ (rate : TickRate) (s₁ s₁' s₂ s₂' : State) (delay₁ delay₂ : Int64),
      s₁.msecsToJiffies = msecsToJiffies rate → s₂.msecsToJiffies = msecsToJiffies rate → delay₁ ≤ delay₂ →
      Accepts s₁ delay₁ s₁' → Accepts s₂ delay₂ s₂' →
        Lasts rate delay₁ s₁'.dev.delay ∧ Lasts rate delay₂ s₂'.dev.delay ∧ s₁'.dev.delay ≤ s₂'.dev.delay := by
  intro lasts
  have accepts₁ : Accepts timedDevice 1 (setDelay timedDevice 1) := accepts_iff.mpr ⟨by decide, rfl⟩
  have accepts₂ : Accepts timedDevice 4294967296 (setDelay timedDevice 0) := accepts_iff.mpr ⟨by decide, rfl⟩
  have applied := lasts quarterTicks _ _ _ _ _ _ rfl rfl (by decide) accepts₁ accepts₂
  exact absurd applied.2.2 (by decide)

end Tsm
