import Tsm.Lib.Budget
import Tsm.Proofs.WaitQueue

/-! The calls at the barrier come to rest. A thread goes round the loop of `wait_event`
once for each `wake_up_all` at most, so without new calls there are only so many steps
left, and who has not returned after them sleeps at a barrier that is up. -/

namespace Tsm
open Interleaving KernelList LoadStore StoreBuffer Allocation

/-- The steps a SLEEP call can take if nobody empties the queue: once round the loop
if its entry is off the queue, and up to its sleep. -/
def SleepPc.steps (b : Barrier) : SleepPc → Nat
  | .setBarrier => 7
  | .waitEvent => 6
  | .prepareToWait _ _ => 5
  | .test entry _ => if entry ∈ b.waitQueue then 4 else 7
  | .schedule entry _ => if entry ∈ b.waitQueue then 3 else 6
  | .asleep entry _ => if entry ∈ b.waitQueue then 2 else 6
  | .finishWait _ => 1
  | .done _ => 0

/-- The steps of an AWAKE, with those that its `wake_up_all` gives to `calls` others. -/
def AwakePc.steps (calls : Nat) : AwakePc → Nat
  | .test => 4 * calls + 4
  | .clearBarrier => 4 * calls + 3
  | .waitqueueActive => 4 * calls + 2
  | .wakeUpAll => 4 * calls + 1
  | .done _ => 0

def BarrierCall.steps (b : Barrier) (calls : Nat) : BarrierCall → Nat
  | .sleep pc => pc.steps b
  | .awake pc => pc.steps calls

/-- A clear is stored in one step and drained in another. -/
def unfencedSteps (b : Barrier) (calls : Nat) (call : UnfencedCall) : Nat :=
  2 * call.state.steps b calls + if call.pending.isSome then 1 else 0

def BarrierCall.Returned : BarrierCall → Prop
  | .sleep (.done _) | .awake (.done _) => True
  | _ => False

/-- Asleep, with its entry on the queue. -/
def BarrierCall.Asleep (b : Barrier) : BarrierCall → Prop
  | .sleep (.asleep entry _) => entry ∈ b.waitQueue
  | _ => False

/-- Every call has returned, or sleeps at a barrier that is up. -/
def ReturnedOrWaiting (config : UnfencedConfig) : Prop :=
  ∀ process ∈ config.calls, process.state.state.Returned ∨
    config.shared.isBarrierUp = true ∧ process.state.state.Asleep config.shared

section Steps
variable {b b' : Barrier} {call call' : BarrierCall} {calls : Nat}

/-- Taking entries off the queue gives at most one more loop. -/
theorem steps_le_add (b b' : Barrier) (calls : Nat) (call : BarrierCall) :
    call.steps b' calls ≤ call.steps b calls + 4 := by
  rcases call with pc | pc
  · cases pc with
    | test entry woken | schedule entry woken | asleep entry woken =>
      simp only [BarrierCall.steps, SleepPc.steps]
      split <;> split <;> omega
    | _ => exact Nat.le_add_right _ _
  · exact Nat.le_add_right _ _

/-- A queue with the same entries of a call gives it no step. -/
theorem steps_le (kept : ∀ entry ∈ entryOf call, entry ∈ b.waitQueue → entry ∈ b'.waitQueue) :
    call.steps b' calls ≤ call.steps b calls := by
  rcases call with pc | pc
  · cases pc with
    | test entry woken | schedule entry woken | asleep entry woken =>
      have kept := kept entry (Multiset.mem_singleton_self entry)
      simp only [BarrierCall.steps, SleepPc.steps]
      by_cases linked : entry ∈ b.waitQueue
      · simp [linked, kept linked]
      · rw [if_neg linked]
        split <;> omega
    | _ => exact Nat.le_refl _
  · exact Nat.le_refl _

theorem sleep_steps {pc pc' : SleepPc} (step : SleepStep b pc b' pc') : pc'.steps b' < pc.steps b := by
  cases step with
  | queued linked | fallAsleep linked => simp [SleepPc.steps, linked]
  | queue unlinked => simp [SleepPc.steps, listAdd]
  | leave down =>
    simp only [SleepPc.steps]
    split <;> omega
  | stay up =>
    simp only [SleepPc.steps]
    split <;> omega
  | retry unlinked | wakeUp unlinked => simp [SleepPc.steps, unlinked]
  | _ => simp [SleepPc.steps]

/-- Nobody else is given a step but by a `wake_up_all`. -/
theorem others_steps {other : BarrierCall} {entries : Multiset Nat} (tracked : Entries b (entryOf call + entries))
    (owned : ∀ entry ∈ entryOf other, entry ∈ entries) (step : BarrierStep b call b' call')
    (quiet : call ≠ .awake .wakeUpAll) : other.steps b' calls ≤ other.steps b calls := by
  cases step with
  | sleep step =>
    cases step with
    | queue unlinked => exact steps_le fun _ _ linked => List.mem_cons_of_mem _ linked
    | @finishWait mine =>
      apply steps_le
      intro entry theirs linked
      refine (List.mem_erase_of_ne ?_).mpr linked
      rintro rfl
      exact Tracked.apart tracked (Multiset.mem_singleton_self entry) (owned entry theirs)
    | _ => exact steps_le fun _ _ linked => linked
  | awake step =>
    cases step with
    | wakeUpAll => exact absurd rfl quiet
    | _ => exact steps_le fun _ _ linked => linked

/-- A step of a call spends more than it gives to the others. -/
theorem barrier_spends {entries : Multiset Nat} (tracked : Entries b (entryOf call + entries))
    (step : BarrierStep b call b' call') {others : List (Process BarrierRequest UnfencedCall)} (fewer : others.length < calls)
    (owned : ∀ process ∈ others, ∀ entry ∈ entryOf process.state.state, entry ∈ entries) :
    2 * call'.steps b' calls + total (unfencedSteps b' calls) others <
      2 * call.steps b calls + total (unfencedSteps b calls) others := by
  by_cases wakes : call = .awake .wakeUpAll
  · subst wakes
    have given : total (unfencedSteps b' calls) others ≤ total (unfencedSteps b calls) others + 8 * others.length := by
      refine total_le_add fun process _ => ?_
      have own := steps_le_add b b' calls process.state.state
      simp only [unfencedSteps]
      omega
    cases step with
    | awake step =>
      cases step with
      | wakeUpAll =>
        simp only [BarrierCall.steps, AwakePc.steps]
        omega
  · have kept : total (unfencedSteps b' calls) others ≤ total (unfencedSteps b calls) others + 0 * others.length := by
      refine total_le_add fun process member => ?_
      have own : process.state.state.steps b' calls ≤ process.state.state.steps b calls :=
        others_steps tracked (owned process member) step wakes
      simp only [unfencedSteps]
      omega
    have own : call'.steps b' calls < call.steps b calls := by
      cases step with
      | sleep step => exact sleep_steps step
      | awake step =>
        cases step with
        | wakeUpAll => exact absurd rfl wakes
        | up _ | down _ | clearBarrier | active _ | inactive _ =>
          simp only [BarrierCall.steps, AwakePc.steps]
          omega
    omega

end Steps

theorem move_spends {b b' : Barrier} {turn : Turn Unit} {call call' : UnfencedCall}
    {others : List (Process BarrierRequest UnfencedCall)} {calls : Nat} (fewer : others.length < calls)
    (tracked : Entries b (entryOf call.state + total (fun call => entryOf call.state) others))
    (step : BufferStep barrier barrierFlags BarrierCall.clears BarrierCall.locks b turn call b' call') :
    unfencedSteps b' calls call' + total (unfencedSteps b' calls) others <
      unfencedSteps b calls call + total (unfencedSteps b calls) others := by
  have owned : ∀ process ∈ others, ∀ entry ∈ entryOf process.state.state,
      entry ∈ total (fun call : UnfencedCall => entryOf call.state) others :=
    fun process member entry theirs => mem_total.mpr ⟨process, member, theirs⟩
  cases step with
  | @drain state value =>
    -- the steps left do not depend on the flags
    have same : unfencedSteps (barrierFlags.put value b) calls = unfencedSteps b calls := rfl
    rw [same]
    simp [unfencedSteps]
  | @store _ state pending after state' stored stepped =>
    cases barrier_cases stepped with
    | sleep step => cases stored
    | awake step =>
      cases step with
      | clearBarrier =>
        have same : unfencedSteps (barrierFlags.put (barrierFlags.get b) b.clearBarrier) calls = unfencedSteps b calls := rfl
        rw [same]
        simp only [unfencedSteps, BarrierCall.steps, AwakePc.steps, Option.isSome_some, if_true]
        omega
      | _ => cases stored
  | @proceed _ state pending after state' keeps fenced stepped =>
    have spends := barrier_spends tracked (barrier_cases stepped) fewer owned
    simp only [unfencedSteps] at spends ⊢
    omega

def barrierBudget : Budget unfencedBarrier Visible Empty.elim fun config =>
    Reaches unfencedBarrier Visible noUnfencedBarrier config where
  left config := total (unfencedSteps config.shared config.calls.length) config.calls
  keeps reached closed taken := reached.step closed.1 taken.enabled
  spends := by
    intro before act after reached _ taken counts
    cases taken with
    | enter request => cases counts
    | @move b left right request call turn b' call' moved =>
      have tracked := (unfenced_queued (fun seen : True => fun _ _ visible => visible) reached).2.tracked
      have size : ∀ moving, (left ++ (⟨request, moving⟩ : Process BarrierRequest UnfencedCall) :: right).length =
          (left ++ right).length + 1 := fun _ => by simp [Nat.add_assoc]
      simp only [size, total_middle] at tracked ⊢
      exact move_spends (Nat.lt_succ_self _) tracked (storeBuffer_cases moved)
    | @environment b calls event b' happened => cases event
  idles := by
    intro before event
    cases event

/-- A call that cannot go on has returned, or sleeps. -/
theorem barrier_blocked {b : Barrier} {call : BarrierCall} (blocked : barrier.move () b call = none) :
    call.Returned ∨ call.Asleep b := by
  rcases call with pc | pc
  · have blocked := Option.map_eq_none_iff.mp blocked
    cases pc with
    | done ret => exact .inl trivial
    | asleep entry woken =>
      simp only [sleepOnBarrier] at blocked
      split at blocked
      next linked => exact .inr linked
      · cases blocked
    | _ =>
      simp only [sleepOnBarrier] at blocked
      repeat' split at blocked
      all_goals cases blocked
  · have blocked := Option.map_eq_none_iff.mp blocked
    cases pc with
    | done ret => exact .inl trivial
    | _ =>
      simp only [awakeBarrier] at blocked
      repeat' split at blocked
      all_goals cases blocked

section Rest
variable {config : UnfencedConfig}

/-- At rest every buffer is drained, and nobody can go on. -/
theorem rests_blocked (rests : Rests unfencedBarrier Visible Empty.elim config) {process}
    (member : process ∈ config.calls) :
    process.state.pending = none ∧ (process.state.state.Returned ∨ process.state.state.Asleep config.shared) := by
  have drained : process.state.pending = none := by
    have stuck : unfencedBarrier.move .drain config.shared process.state = none :=
      rests.blocked member fun _ found => visible_of_drained found (.inl rfl)
    exact Option.map_eq_none_iff.mp stuck
  have stuck : unfencedBarrier.move (.proceed ()) config.shared process.state = none :=
    rests.blocked member fun _ found => visible_of_drained found (.inr drained)
  obtain ⟨request, state, pending⟩ := process
  cases drained
  exact ⟨rfl, barrier_blocked (blocked_of_blocked stuck)⟩

theorem returned_or_waiting (reached : Reaches unfencedBarrier Visible noUnfencedBarrier config)
    (rests : Rests unfencedBarrier Visible Empty.elim config) : ReturnedOrWaiting config := by
  intro process member
  obtain ⟨-, returned | asleep⟩ := rests_blocked rests member
  · exact .inl returned
  · refine .inr ⟨?_, asleep⟩
    by_contra down
    -- who would wake it can go on
    have queued := (unfenced_queued (fun seen : True => fun _ _ visible => visible) reached).2
    have sleeps : ∃ entry ∈ sleepingOf process.state.state, entry ∈ config.shared.waitQueue := by
      unfold BarrierCall.Asleep at asleep
      split at asleep
      next entry woken same => exact ⟨entry, by simp [same, sleepingOf], asleep⟩
      · exact asleep.elim
    obtain ⟨entry, sleeping, linked⟩ := sleeps
    have none : total unfencedWakers config.calls = 0 := by
      apply total_eq_zero
      intro waker present
      obtain ⟨drained, stuck⟩ := rests_blocked rests present
      rcases waker with ⟨request, pc | pc, pending⟩
      · simp [unfencedWakers, BarrierCall.wakers]
      · cases pc with
        | waitqueueActive | wakeUpAll => rcases stuck with stuck | stuck <;> exact stuck.elim
        | _ => simp [unfencedWakers, BarrierCall.wakers]
    exact queued.woken trivial (Bool.eq_false_iff.mpr down) none entry (mem_total.mpr ⟨process, member, sleeping⟩) linked

/-- From every reachable state, without new calls, the calls at the barrier take a
bounded number of steps, and where none of them can go on each has returned or sleeps
at a barrier that is up: a lowered barrier lets everybody out. All of this where each AWAKE
looks at the queue only once the others see its clear. -/
theorem barrier_settles (reached : Reaches unfencedBarrier Visible noUnfencedBarrier config) :
    Settles unfencedBarrier Visible Empty.elim (total (unfencedSteps config.shared config.calls.length) config.calls)
      ReturnedOrWaiting config :=
  barrierBudget.settles reached returned_or_waiting

end Rest

/-- An AWAKE has lowered the barrier under a thread that sleeps. -/
theorem barrier_settles_loweredRun :
    ∃ config, run unfencedBarrier Visible noUnfencedBarrier loweredRun = some config ∧
      Settles unfencedBarrier Visible Empty.elim 24 ReturnedOrWaiting config := by
  have enabled : (run unfencedBarrier Visible noUnfencedBarrier loweredRun).isSome := by decide
  exact ⟨_, (Option.some_get enabled).symm, barrier_settles (reaches_get enabled)⟩

end Tsm
