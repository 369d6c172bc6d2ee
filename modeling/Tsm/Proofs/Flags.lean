import Mathlib.Algebra.Group.Prod
import Tsm.Device.Flags
import Tsm.Device.Transitions

/-! The two bits in one byte. A store writes back the other bit as it was loaded; no
bit is disturbed as long as a store of one finds the other as its load has. -/

namespace Tsm
open Interleaving LoadStore

/-- Between the store of `set_flushing` and that of `clear_flushing`. -/
def Call.flushing : Call → Nat
  | .revoke .testEmpty | .revoke (.visit _ _) | .revoke (.flush _ _) | .revoke (.wait _ _) | .revoke (.next _)
  | .revoke .drain | .revoke .clearFlushing => 1
  | _ => 0

def FlagCall.flushing : FlagCall → Nat
  | .device call => call.flushing
  | _ => 0

/-- Past `wait_event`. -/
def SleepPc.Passed : SleepPc → Prop
  | .finishWait _ | .done _ => True
  | _ => False

instance : (pc : SleepPc) → Decidable pc.Passed
  | .finishWait _ | .done _ => isTrue trivial
  | .setBarrier | .waitEvent | .prepareToWait _ _ | .test _ _ | .schedule _ _ | .asleep _ _ => isFalse id

/-- If it has passed, an AWAKE has cleared the barrier since it has set it. -/
def FlagCall.Awakened (s : FlagState) : FlagCall → Prop
  | .sleep pc since => pc.Passed → since < s.clears
  | _ => True

instance (s : FlagState) : (call : FlagCall) → Decidable (call.Awakened s)
  | .sleep pc since => inferInstanceAs (Decidable (pc.Passed → since < s.clears))
  | .device _ | .awake _ => isTrue trivial

/-- Neither bit is disturbed by an update of the other one. -/
def FlagsApart (config : FlagConfig) : Prop :=
  (∀ process ∈ config.calls, process.state.state.Awakened config.shared) ∧
    (checkBit config.shared.flags FLUSHING_BIT = true ↔ ∃ process ∈ config.calls, 0 < process.state.state.flushing)

instance (config : FlagConfig) : Decidable (FlagsApart config) :=
  inferInstanceAs (Decidable ((∀ process ∈ config.calls, _) ∧ (_ ↔ ∃ process ∈ config.calls, _)))

/-- What the store of an update finds of the bit it should leave alone. A flush may
raise a barrier that an AWAKE has cleared meanwhile, but not drop one. -/
def SeesOther (s : FlagState) (call : FlagCall) (value : BitVec 8) : Prop :=
  (call.updatesFlushing → checkBit s.flags BARRIER_BIT = true → checkBit value BARRIER_BIT = true) ∧
    (call.updatesBarrier → checkBit value FLUSHING_BIT = checkBit s.flags FLUSHING_BIT)

instance (s : FlagState) (call : FlagCall) (value : BitVec 8) : Decidable (SeesOther s call value) :=
  inferInstanceAs (Decidable (_ ∧ _))

/-! The account of `wq_sem`: who holds it, apart from the call that flushes. -/

def FlagCall.holding : FlagCall → Nat × Nat
  | .device call => (call.inside - call.flushing, call.flushing)
  | _ => (0, 0)

theorem FlagCall.snd_holding (call : FlagCall) : call.holding.2 = call.flushing := by cases call <;> rfl

def Balanced (s : FlagState) (held : Nat × Nat) : Prop :=
  s.device.dev.wqSem + held.1 + held.2 = 1 ∧ (checkBit s.flags FLUSHING_BIT = true ↔ held.2 = 1)

/-- A thread that sleeps on the barrier has found it up ever since it set it, unless an
AWAKE has cleared it. -/
def FlagCall.Sleeps (s : FlagState) : FlagCall → Prop
  | .sleep .setBarrier _ => True
  | .sleep pc since => since ≤ s.clears ∧ (s.clears = since → ¬ pc.Passed ∧ checkBit s.flags BARRIER_BIT = true)
  | _ => True

section Steps
variable {s s' : FlagState} {value : BitVec 8} {call call' other : FlagCall} {rest : Nat × Nat} {outcome : Outcome}

theorem Call.flushing_le_inside (call : Call) : call.flushing ≤ call.inside := by
  cases call with
  | revoke pc => cases pc <;> simp [Call.flushing, Call.inside]
  | _ => simp [Call.flushing]

theorem FlagCall.Sleeps.mono (sleeps : other.Sleeps s) (later : s.clears ≤ s'.clears)
    (up : s'.clears = s.clears → checkBit s.flags BARRIER_BIT = true → checkBit s'.flags BARRIER_BIT = true) :
    other.Sleeps s' := by
  unfold FlagCall.Sleeps at sleeps ⊢
  split at sleeps
  · trivial
  next pc since _ =>
    refine ⟨sleeps.1.trans later, fun same => ?_⟩
    have unchanged : s.clears = since := by omega
    obtain ⟨waits, raised⟩ := sleeps.2 unchanged
    exact ⟨waits, up (by omega) raised⟩
  · trivial

/-- A step of a call on the device leaves the flags alone, or is one of a flush. -/
theorem move_flags {d d' : State} {call call' : Call} (step : MoveStep outcome d call d' call') :
    (call = .revoke .setFlushing ∧ call' = .revoke .testEmpty ∧ d'.dev.flags = setBit d.dev.flags FLUSHING_BIT) ∨
      (call = .revoke .clearFlushing ∧ call' = .revoke .upWq ∧ d'.dev.flags = clearBit d.dev.flags FLUSHING_BIT) ∨
      (FlagCall.updates (.device call) = false ∧ call'.flushing = call.flushing ∧ d'.dev.flags = d.dev.flags) := by
  cases step with
  | write step => cases step <;> exact .inr (.inr ⟨rfl, rfl, rfl⟩)
  | read step => cases step <;> exact .inr (.inr ⟨rfl, rfl, rfl⟩)
  | setSendDelay step => cases step <;> exact .inr (.inr ⟨rfl, rfl, rfl⟩)
  | revoke step =>
    cases step with
    | setFlushing => exact .inl ⟨rfl, rfl, rfl⟩
    | clearFlushing => exact .inr (.inl ⟨rfl, rfl, rfl⟩)
    | _ => exact .inr (.inr ⟨rfl, rfl, rfl⟩)

theorem device_step {d' : State} {call call' : Call} (sees : SeesOther s (.device call) value)
    (keeps : FlagCall.updates (.device call) = false → value = s.flags)
    (balanced : Balanced s (FlagCall.holding (.device call) + rest))
    (step : MoveStep outcome (s.withFlags value).device call d' call') :
    Balanced { s with device := d' } (FlagCall.holding (.device call') + rest) ∧
      ∀ other : FlagCall, other.Sleeps s → other.Sleeps { s with device := d' } := by
  have sem := move_keeps_wqSem step
  simp only [FlagState.withFlags] at sem
  have before := call.flushing_le_inside
  have after := call'.flushing_le_inside
  obtain ⟨one, bit⟩ := balanced
  simp only [FlagCall.holding, Prod.fst_add, Prod.snd_add] at one bit
  rcases move_flags step with ⟨rfl, rfl, set⟩ | ⟨rfl, rfl, cleared⟩ | ⟨keeper, same, kept⟩
  · simp only [Call.inside, Call.flushing] at sem one bit
    have raised : checkBit d'.dev.flags FLUSHING_BIT = true := by
      rw [set]
      exact checkBit_setBit _ (by decide)
    refine ⟨⟨?_, ?_⟩, fun other sleeps => sleeps.mono (Nat.le_refl _) fun _ up => ?_⟩
    · simp only [FlagCall.holding, Call.inside, Call.flushing, Prod.fst_add, Prod.snd_add]
      omega
    · apply iff_of_true raised
      simp only [FlagCall.holding, Call.flushing, Prod.snd_add]
      omega
    · rw [FlagState.flags, set, checkBit_setBit_of_ne _ (by decide)]
      exact sees.1 rfl up
  · simp only [Call.inside, Call.flushing] at sem one bit
    have lowered : checkBit d'.dev.flags FLUSHING_BIT = false := by
      rw [cleared]
      exact checkBit_clearBit _ _
    refine ⟨⟨?_, ?_⟩, fun other sleeps => sleeps.mono (Nat.le_refl _) fun _ up => ?_⟩
    · simp only [FlagCall.holding, Call.inside, Call.flushing, Prod.fst_add, Prod.snd_add]
      omega
    · apply iff_of_false (Bool.eq_false_iff.mp lowered)
      simp only [FlagCall.holding, Call.flushing, Prod.snd_add]
      omega
    · rw [FlagState.flags, cleared, checkBit_clearBit_of_ne _ (by decide)]
      exact sees.1 rfl up
  · have unchanged : d'.dev.flags = s.flags := kept.trans (keeps keeper)
    refine ⟨⟨?_, ?_⟩, fun other sleeps => sleeps.mono (Nat.le_refl _) fun _ up => ?_⟩
    · simp only [FlagCall.holding, Prod.fst_add, Prod.snd_add]
      omega
    · rw [FlagState.flags, unchanged, bit]
      simp only [FlagCall.holding, Prod.snd_add, same]
    · rwa [FlagState.flags, unchanged]

/-- A sleeper raises the barrier, and from then on waits for it to come down. -/
theorem sleep_step {pc pc' : SleepPc} {since : Nat} {b' : Barrier} (sees : SeesOther s (.sleep pc since) value)
    (keeps : FlagCall.updates (.sleep pc since) = false → value = s.flags) (sleeps : FlagCall.Sleeps s (.sleep pc since))
    (step : SleepStep (s.withFlags value).barrier pc b' pc') :
    checkBit b'.flags FLUSHING_BIT = checkBit s.flags FLUSHING_BIT ∧
      (checkBit s.flags BARRIER_BIT = true → checkBit b'.flags BARRIER_BIT = true) ∧
      FlagCall.Sleeps (s.withBarrier b') (.sleep pc' (pc.since s.clears since)) := by
  cases step with
  | setBarrier =>
    have up : checkBit (setBit value BARRIER_BIT) BARRIER_BIT = true := checkBit_setBit _ (by decide)
    exact ⟨(checkBit_setBit_of_ne _ (by decide)).trans (sees.2 rfl), fun _ => up, Nat.le_refl _, fun _ => ⟨id, up⟩⟩
  | pass down | leave down =>
    cases keeps rfl
    refine ⟨rfl, id, sleeps.1, fun same => ?_⟩
    have up := (sleeps.2 same).2
    exact absurd (up.symm.trans down) Bool.false_ne_true.symm
  | finishWait =>
    cases keeps rfl
    exact ⟨rfl, id, sleeps.1, fun same => absurd trivial (sleeps.2 same).1⟩
  | _ =>
    cases keeps rfl
    exact ⟨rfl, id, sleeps.1, fun same => ⟨id, (sleeps.2 same).2⟩⟩

/-- An AWAKE lowers the barrier only where it counts. -/
theorem awake_step {pc pc' : AwakePc} {b' : Barrier} (sees : SeesOther s (.awake pc) value)
    (keeps : FlagCall.updates (.awake pc) = false → value = s.flags)
    (step : AwakeStep (s.withFlags value).barrier pc b' pc') :
    checkBit b'.flags FLUSHING_BIT = checkBit s.flags FLUSHING_BIT ∧
      (b'.flags = s.flags ∧ pc.clears s.clears = s.clears ∨ pc.clears s.clears = s.clears + 1) := by
  cases step with
  | clearBarrier => exact ⟨(checkBit_clearBit_of_ne _ (by decide)).trans (sees.2 rfl), .inr rfl⟩
  | _ =>
    cases keeps rfl
    exact ⟨rfl, .inl ⟨rfl, rfl⟩⟩

theorem environment_keeps_flags {d d' : State} {event : Event} (step : EventStep d event d') :
    d'.dev.flags = d.dev.flags ∧ d'.dev.wqSem = d.dev.wqSem := by
  cases step with
  | worker step => cases step <;> exact ⟨rfl, rfl⟩
  | _ => exact ⟨rfl, rfl⟩

theorem flags_step (sees : SeesOther s call value) (keeps : call.updates = false → value = s.flags)
    (balanced : Balanced s (call.holding + rest)) (sleeps : call.Sleeps s)
    (moved : flagCommands.move outcome (s.withFlags value) call = some (s', call')) :
    Balanced s' (call'.holding + rest) ∧ call'.Sleeps s' ∧ ∀ other : FlagCall, other.Sleeps s → other.Sleeps s' := by
  cases call with
  | device call =>
    obtain ⟨⟨d', call'⟩, stepped, equal⟩ := Option.map_eq_some_iff.mp moved
    cases equal
    obtain ⟨balanced', others⟩ := device_step sees keeps balanced (move_cases stepped)
    exact ⟨balanced', trivial, others⟩
  | sleep pc since =>
    obtain ⟨⟨b', pc'⟩, stepped, equal⟩ := Option.map_eq_some_iff.mp moved
    cases equal
    obtain ⟨bit, up, sleeps'⟩ := sleep_step sees keeps sleeps (sleepOnBarrier_cases stepped)
    refine ⟨⟨balanced.1, ?_⟩, sleeps', fun other waits => waits.mono (Nat.le_refl _) fun _ => up⟩
    exact bit ▸ balanced.2
  | awake pc =>
    obtain ⟨⟨b', pc'⟩, stepped, equal⟩ := Option.map_eq_some_iff.mp moved
    cases equal
    obtain ⟨bit, cleared⟩ := awake_step sees keeps (awakeBarrier_cases stepped)
    refine ⟨⟨balanced.1, bit ▸ balanced.2⟩, trivial, fun other waits => ?_⟩
    rcases cleared with ⟨same, unchanged⟩ | later
    · exact waits.mono (Nat.le_of_eq unchanged.symm) fun _ up => (congrArg (checkBit · BARRIER_BIT) same).trans up
    · exact waits.mono (Nat.le_of_lt (Nat.lt_of_succ_le later.ge)) fun same => absurd (later.symm.trans same) (Nat.succ_ne_self _)

end Steps

theorem flags_balanced {limit storage msecs wq} {config : FlagConfig}
    (reached : Reaches unlockedFlags (StoresSee SeesOther) (installedFlags limit storage msecs wq) config) :
    Balanced config.shared (total (fun call => call.state.holding) config.calls) ∧
      ∀ process ∈ config.calls, process.state.state.Sleeps config.shared := by
  refine outline reached FlagCall.holding Balanced FlagCall.Sleeps ?_ ?_ ?_ flags_step ?_
  · exact ⟨⟨rfl, by simp [installedFlags, State.installed, FlagState.flags, checkBit_eq]⟩, rfl⟩
  · exact fun s call => ⟨fun _ => id, fun _ => rfl⟩
  · intro s request
    rcases request with request | request
    · cases request <;> exact ⟨rfl, trivial⟩
    · cases request <;> exact ⟨rfl, trivial⟩
  · intro s event s' rest balanced happened
    obtain ⟨d', stepped, equal⟩ := Option.map_eq_some_iff.mp happened
    cases equal
    obtain ⟨same, sem⟩ := environment_keeps_flags (environment_cases stepped)
    refine ⟨⟨by rw [sem]; exact balanced.1, by rw [FlagState.flags, same]; exact balanced.2⟩, fun other waits => ?_⟩
    exact waits.mono (Nat.le_refl _) fun _ up => by rwa [FlagState.flags, same]

/-- The threads that sleep on the barrier wait for an AWAKE, and the flag tells whether
somebody flushes, if no store overwrites the other bit with one that has changed. -/
theorem flags_apart {limit storage msecs wq} {config : FlagConfig}
    (reached : Reaches unlockedFlags (StoresSee SeesOther) (installedFlags limit storage msecs wq) config) :
    FlagsApart config := by
  obtain ⟨⟨one, bit⟩, sleeps⟩ := flags_balanced reached
  have flushers := total_hom (AddMonoidHom.snd Nat Nat)
    (fun call : Updating FlagCall (BitVec 8) => call.state.holding) config.calls
  simp only [AddMonoidHom.coe_snd, FlagCall.snd_holding] at flushers
  rw [flushers] at one bit
  refine ⟨fun process member => ?_, ?_⟩
  · have waits := sleeps process member
    revert waits
    cases process.state.state with
    | sleep pc since =>
      intro waits passed
      cases pc with
      | finishWait | done =>
        exact Nat.lt_of_le_of_ne waits.1 fun same => (waits.2 same.symm).1 trivial
      | _ => exact False.elim passed
    | _ => exact fun _ => trivial
  · have flushing : 0 < total (fun call : Updating FlagCall (BitVec 8) => call.state.flushing) config.calls ↔
        ∃ process ∈ config.calls, 0 < process.state.state.flushing := total_pos
    rw [bit, ← flushing]
    omega

/-! A flush and threads at the barrier, on a device just installed. -/

def sampleFlags : FlagConfig := installedFlags 32 64 UInt32.toNat true

def flagSteps (call count : Nat) : List FlagAct := List.replicate count (.move call ⟨true, true⟩)

/-- A thread sleeps, an AWAKE comes while a REVOKE flushes, and the thread passes. -/
def awakeInFlushRun : List FlagAct :=
  [.enter (.barrier .sleepOnBarrier)] ++ flagSteps 0 6 ++
    [.enter (.device .revokeDelayedMessages)] ++ flagSteps 1 5 ++
    [.enter (.barrier .awakeBarrier)] ++ flagSteps 2 5 ++ flagSteps 0 4

theorem flags_apart_awakeInFlushRun :
    ∃ config, run unlockedFlags (StoresSee SeesOther) sampleFlags awakeInFlushRun = some config ∧ FlagsApart config ∧
      config.shared.flags = 2 ∧ config.shared.clears = 1 := by
  have enabled : (run unlockedFlags (StoresSee SeesOther) sampleFlags awakeInFlushRun).isSome := by decide
  exact ⟨_, (Option.some_get enabled).symm, flags_apart (reaches_get enabled), rfl, rfl⟩

/-- The flush loads the flags before the first thread raises the barrier and stores
after it, so that thread passes; a second one loads before the flush stores. -/
def lostUpdatesRun : List FlagAct :=
  [.enter (.device .revokeDelayedMessages)] ++ flagSteps 0 4 ++
    [.enter (.barrier .sleepOnBarrier), .enter (.barrier .sleepOnBarrier)] ++ flagSteps 2 1 ++ flagSteps 1 2 ++
    flagSteps 0 1 ++ flagSteps 1 1 ++ flagSteps 2 1

theorem updates_lost :
    ¬ ∀ config, Reaches unlockedFlags Anything sampleFlags config → FlagsApart config := by
  intro apart
  have enabled : (run unlockedFlags Anything sampleFlags lostUpdatesRun).isSome := by decide
  have wrong : ¬ FlagsApart ((run unlockedFlags Anything sampleFlags lostUpdatesRun).get enabled) := by decide +revert
  exact wrong (apart _ (reaches_get enabled))

end Tsm
