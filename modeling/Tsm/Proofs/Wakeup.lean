import Tsm.Device.Barrier
import Tsm.Lib.Allocation

/-! A thread that a `wake_up_all` finds asleep tests the barrier bit once more. It
goes back to sleep if a new SLEEP raises the bit in between, and only then. -/

namespace Tsm
open Interleaving KernelList Allocation

/-- Asleep again, after a `wake_up_all` found the thread asleep. -/
def BarrierCall.BackToSleep : BarrierCall → Prop
  | .sleep (.asleep _ woken) => woken = true
  | _ => False

instance : (call : BarrierCall) → Decidable call.BackToSleep
  | .sleep (.asleep _ woken) => inferInstanceAs (Decidable (woken = true))
  | .sleep .setBarrier | .sleep .waitEvent | .sleep (.prepareToWait _ _) | .sleep (.test _ _)
  | .sleep (.schedule _ _) | .sleep (.finishWait _) | .sleep (.done _) | .awake _ => isFalse id

def NeverBackToSleep (config : BarrierConfig) : Prop := ∀ process ∈ config.calls, ¬ process.state.BackToSleep

instance (config : BarrierConfig) : Decidable (NeverBackToSleep config) :=
  inferInstanceAs (Decidable (∀ process ∈ _, _))

/-- A woken thread before its test of the bit, or an AWAKE between its look at the
bit and its `wake_up_all`. -/
def BarrierCall.Waking (b : Barrier) : BarrierCall → Prop
  | .awake .waitqueueActive | .awake .wakeUpAll => True
  | .sleep (.asleep entry _) => entry ∉ b.waitQueue
  | .sleep (.prepareToWait _ woken) | .sleep (.test _ woken) => woken = true
  | _ => False

instance (b : Barrier) : (call : BarrierCall) → Decidable (call.Waking b)
  | .awake .waitqueueActive | .awake .wakeUpAll => isTrue trivial
  | .sleep (.asleep entry _) => inferInstanceAs (Decidable (entry ∉ b.waitQueue))
  | .sleep (.prepareToWait _ woken) | .sleep (.test _ woken) => inferInstanceAs (Decidable (woken = true))
  | .sleep .setBarrier | .sleep .waitEvent | .sleep (.schedule _ _) | .sleep (.finishWait _) | .sleep (.done _)
  | .awake .test | .awake .clearBarrier | .awake (.done _) => isFalse id

def BarrierCall.raises : BarrierCall → Bool
  | .sleep .setBarrier => true
  | _ => false

/-- The barrier is only raised while nobody is waking up. -/
def RaisedApart (config : BarrierConfig) (act : BarrierAct) : Prop :=
  ∀ moving ∈ mover config act, moving.1.raises →
    ∀ process ∈ config.calls, ¬ process.state.Waking config.shared

instance (config : BarrierConfig) (act : BarrierAct) : Decidable (RaisedApart config act) :=
  inferInstanceAs (Decidable (∀ moving ∈ mover config act, _ → ∀ process ∈ _, _))

/-! The entries of the wait queue. -/

def entryOf : BarrierCall → Multiset Nat
  | .sleep pc =>
    match pc with
    | .prepareToWait entry _ | .test entry _ | .schedule entry _ | .asleep entry _ | .finishWait entry => {entry}
    | .setBarrier | .waitEvent | .done _ => 0
  | .awake _ => 0

def Entries (b : Barrier) (entries : Multiset Nat) : Prop := Tracked id b.fresh entries

/-- The barrier is down while somebody wakes up, and no woken thread has found it up. -/
def BarrierCall.Wakes (b : Barrier) (call : BarrierCall) : Prop :=
  (call.Waking b → b.isBarrierUp = false) ∧
    match call with
    | .sleep (.schedule _ woken) | .sleep (.asleep _ woken) => woken = false
    | _ => True

section Steps
variable {b b' : Barrier} {call call' other : BarrierCall} {entries : Multiset Nat}

private theorem BarrierCall.Waking.of_queue
    (queue : ∀ entry ∈ entryOf other, entry ∈ b.waitQueue → entry ∈ b'.waitQueue) (waking : other.Waking b') :
    other.Waking b := by
  rcases other with pc | pc
  · cases pc with
    | asleep entry woken => exact fun linked => waking (queue entry (Multiset.mem_singleton_self entry) linked)
    | _ => exact waking
  · cases pc <;> exact waking

private theorem BarrierCall.Wakes.keep (wakes : other.Wakes b)
    (down : other.Waking b' → other.Waking b ∧ b'.isBarrierUp = b.isBarrierUp ∨ b'.isBarrierUp = false) :
    other.Wakes b' := by
  refine ⟨fun waking => ?_, wakes.2⟩
  rcases down waking with ⟨before, same⟩ | cleared
  · exact same.trans (wakes.1 before)
  · exact cleared

theorem entries_step (tracked : Entries b (entryOf call + entries)) (step : BarrierStep b call b' call') :
    Entries b' (entryOf call' + entries) := by
  cases step with
  | sleep step =>
    cases step with
    | initEntry up =>
      have tracked : Entries b entries := by simpa [entryOf] using tracked
      exact Tracked.alloc {b.fresh} tracked (Multiset.nodup_singleton _) (by simp)
    | finishWait => exact Tracked.of_le tracked (Multiset.add_le_add_right (Multiset.zero_le _))
    | _ => exact tracked
  | awake step => cases step <;> exact tracked

theorem wakes_step (wakes : call.Wakes b) (step : BarrierStep b call b' call') : call'.Wakes b' := by
  cases step with
  | sleep step =>
    cases step with
    | queued linked | queue unlinked => exact ⟨wakes.1, trivial⟩
    | retry unlinked => exact ⟨fun woken => absurd (wakes.2.symm.trans woken) Bool.false_ne_true, trivial⟩
    | @stay entry woken up =>
      refine ⟨False.elim, Bool.eq_false_iff.mpr fun woken => ?_⟩
      exact absurd (up.symm.trans (wakes.1 woken)) Bool.false_ne_true.symm
    | @fallAsleep entry woken linked => exact ⟨fun unlinked => absurd linked unlinked, wakes.2⟩
    | wakeUp unlinked => exact ⟨fun _ => wakes.1 unlinked, trivial⟩
    | initEntry up => exact ⟨fun woken => absurd woken Bool.false_ne_true, trivial⟩
    | _ => exact ⟨False.elim, trivial⟩
  | awake step =>
    cases step with
    | down down => exact ⟨fun _ => down, trivial⟩
    | clearBarrier => exact ⟨fun _ => b.isBarrierUp_clearBarrier, trivial⟩
    | active waiting => exact ⟨fun _ => wakes.1 trivial, trivial⟩
    | _ => exact ⟨False.elim, trivial⟩

/-- Others still wake up to a lowered barrier, if this call does not raise it. -/
theorem others_wake (wakes : other.Wakes b) (own : call.Wakes b) (tracked : Entries b (entryOf call + entries))
    (owned : ∀ entry ∈ entryOf other, entry ∈ entries) (step : BarrierStep b call b' call')
    (apart : call = .sleep .setBarrier → ¬ other.Waking b) : other.Wakes b' := by
  cases step with
  | sleep step =>
    cases step with
    | setBarrier => exact wakes.keep fun waking => absurd (waking.of_queue fun _ _ linked => linked) (apart rfl)
    | queue unlinked =>
      refine wakes.keep fun waking => .inl ⟨waking.of_queue ?_, rfl⟩
      exact fun entry _ linked => List.mem_cons_of_mem _ linked
    | @finishWait mine =>
      refine wakes.keep fun waking => .inl ⟨waking.of_queue ?_, rfl⟩
      intro entry theirs linked
      refine (List.mem_erase_of_ne ?_).mpr linked
      rintro rfl
      exact Tracked.apart tracked (Multiset.mem_singleton_self entry) (owned entry theirs)
    | _ => exact wakes
  | awake step =>
    cases step with
    | clearBarrier => exact wakes.keep fun _ => .inr b.isBarrierUp_clearBarrier
    | wakeUpAll => exact wakes.keep fun _ => .inr (own.1 trivial)
    | _ => exact wakes

end Steps

theorem barrier_wakes {config} (reached : Reaches barrier RaisedApart noBarrier config) :
    ∀ process ∈ config.calls, process.state.Wakes config.shared := by
  refine (reached.outline entryOf Entries (fun b process => process.state.Wakes b)
    ⟨Tracked.empty, by simp [noBarrier]⟩ ?_ ?_ ?_).2
  · intro _ request
    cases request <;> exact ⟨rfl, False.elim, trivial⟩
  · intro b left right request call outcome b' call' _ permitted tracked wakes others moved
    have step := barrier_cases moved
    refine ⟨entries_step tracked step, wakes_step wakes step, fun process member => ?_⟩
    refine others_wake (others process member) wakes tracked ?_ step ?_
    · exact fun entry theirs => mem_total.mpr ⟨process, member, theirs⟩
    · rintro rfl
      exact permitted _ (mover_move _ _ _ _ _) rfl process (mem_of_mem_others member)
  · intro b calls event
    cases event

/-- If the barrier is raised while nobody wakes up, whoever a `wake_up_all` finds
asleep never goes back to sleep. -/
theorem never_back_to_sleep {config} (reached : Reaches barrier RaisedApart noBarrier config) :
    NeverBackToSleep config := by
  intro process member again
  have wakes := barrier_wakes reached process member
  unfold BarrierCall.BackToSleep at again
  split at again
  next entry woken state =>
    rw [state] at wakes
    exact absurd (wakes.2.symm.trans again) Bool.false_ne_true
  · exact again

def barrierStep (call : Nat) : BarrierAct := .move call ()

/-- A thread sleeps and is woken, and a second one raises the barrier before the
first tests it. -/
def raisedRun : List BarrierAct :=
  [.enter .sleepOnBarrier] ++ List.replicate 5 (barrierStep 0) ++
    [.enter .awakeBarrier] ++ List.replicate 4 (barrierStep 1) ++
    [.enter .sleepOnBarrier, barrierStep 2] ++ List.replicate 4 (barrierStep 0)

theorem back_to_sleep : ¬ ∀ config, Reaches barrier Anything noBarrier config → NeverBackToSleep config := by
  intro never
  have enabled : (run barrier Anything noBarrier raisedRun).isSome := by decide
  have wrong : ¬ NeverBackToSleep ((run barrier Anything noBarrier raisedRun).get enabled) := by decide +revert
  exact wrong (never _ (reaches_get enabled))

/-- The second thread comes once the first has left. -/
def raisedLaterRun : List BarrierAct :=
  [.enter .sleepOnBarrier] ++ List.replicate 5 (barrierStep 0) ++
    [.enter .awakeBarrier] ++ List.replicate 4 (barrierStep 1) ++ List.replicate 4 (barrierStep 0) ++
    [.enter .sleepOnBarrier, barrierStep 2]

theorem never_back_to_sleep_raisedLaterRun :
    ∃ config, run barrier RaisedApart noBarrier raisedLaterRun = some config ∧ NeverBackToSleep config ∧
      config.calls.map Process.state = [.sleep (.done 0), .awake (.done 0), .sleep .waitEvent] := by
  have enabled : (run barrier RaisedApart noBarrier raisedLaterRun).isSome := by decide
  exact ⟨_, (Option.some_get enabled).symm, never_back_to_sleep (reaches_get enabled), rfl⟩

end Tsm
