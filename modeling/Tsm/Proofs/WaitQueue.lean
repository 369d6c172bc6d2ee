import Tsm.Proofs.Wakeup

/-! The wait queue holds entries of SLEEP calls that have not returned, each once. A
thread that sleeps while the barrier is down is about to be woken, if every AWAKE has made
its clear visible before it looks at the queue. -/

namespace Tsm
open Interleaving KernelList LoadStore StoreBuffer Allocation

/-- The entry of a thread that has found the barrier up and has not been woken since. -/
def sleepingOf : BarrierCall → Multiset Nat
  | .sleep (.schedule entry _) | .sleep (.asleep entry _) => {entry}
  | _ => 0

/-- An AWAKE that is about to look at the queue or to empty it. -/
def BarrierCall.wakers : BarrierCall → Nat
  | .awake .waitqueueActive | .awake .wakeUpAll => 1
  | _ => 0

/-- Somebody wakes the sleepers, where clears are `visible` in time. -/
structure Queued (visible : Prop) (b : Barrier) (entries sleeping : Multiset Nat) (wakers : Nat) : Prop where
  tracked : Entries b entries
  owned : (b.waitQueue : Multiset Nat) ≤ entries
  woken : visible → b.isBarrierUp = false → wakers = 0 → ∀ entry ∈ sleeping, entry ∉ b.waitQueue

section Steps
variable {visible : Prop} {b b' : Barrier} {call call' : BarrierCall} {entries sleeping : Multiset Nat} {wakers wakers' : Nat}

theorem sleepingOf_le_entryOf (call : BarrierCall) : sleepingOf call ≤ entryOf call := by
  rcases call with pc | pc
  · cases pc <;> first | exact le_refl _ | exact Multiset.zero_le _
  · exact Multiset.zero_le _

/-- A new entry is nobody else's. -/
theorem owned_listAdd {entry : Nat} (tracked : Entries b ({entry} + entries)) (unlinked : entry ∉ b.waitQueue)
    (owned : (b.waitQueue : Multiset Nat) ≤ {entry} + entries) :
    ((listAdd entry b.waitQueue : List Nat) : Multiset Nat) ≤ {entry} + entries := by
  have distinct : (b.waitQueue : Multiset Nat).Nodup := Multiset.nodup_of_le owned tracked.distinct
  have unknown : entry ∉ (b.waitQueue : Multiset Nat) := unlinked
  rw [listAdd, ← Multiset.cons_coe, ← Multiset.singleton_add]
  refine (Multiset.le_iff_subset ?_).mpr fun other member => ?_
  · rw [Multiset.singleton_add]
    exact Multiset.nodup_cons.mpr ⟨unknown, distinct⟩
  · rcases Multiset.mem_add.mp member with own | linked
    · exact Multiset.mem_add.mpr (.inl own)
    · exact Multiset.mem_of_le owned linked

theorem owned_listDel {entry : Nat} (owned : (b.waitQueue : Multiset Nat) ≤ {entry} + entries) :
    ((listDel entry b.waitQueue : List Nat) : Multiset Nat) ≤ entries := by
  rw [listDel, ← Multiset.coe_erase, Multiset.erase_le_iff_le_cons, ← Multiset.singleton_add]
  exact owned

theorem sleep_queued {pc pc' : SleepPc} (less : sleeping ≤ entries)
    (queued : Queued visible b (entryOf (.sleep pc) + entries) (sleepingOf (.sleep pc) + sleeping) wakers)
    (step : SleepStep b pc b' pc') :
    Queued visible b' (entryOf (.sleep pc') + entries) (sleepingOf (.sleep pc') + sleeping) wakers := by
  obtain ⟨tracked, owned, woken⟩ := queued
  have tracked' := entries_step tracked (.sleep step)
  cases step with
  | setBarrier =>
    have up : b.setBarrier.isBarrierUp = true := checkBit_setBit _ (by decide)
    exact ⟨tracked', owned, fun _ down => absurd (up.symm.trans down) Bool.false_ne_true.symm⟩
  | pass down => exact ⟨tracked', owned, woken⟩
  | initEntry up => exact ⟨tracked', le_trans owned (Multiset.add_le_add_right (Multiset.zero_le _)), woken⟩
  | queued linked => exact ⟨tracked', owned, woken⟩
  | @queue entry again unlinked =>
    refine ⟨tracked', owned_listAdd tracked unlinked owned, fun seen down none other sleeps linked => ?_⟩
    rcases List.mem_cons.mp linked with rfl | linked
    · exact Tracked.apart tracked (Multiset.mem_singleton_self other)
        (Multiset.mem_of_le less (by simpa [sleepingOf] using sleeps))
    · exact woken seen down none other (by simpa [sleepingOf] using sleeps) linked
  | leave down => exact ⟨tracked', owned, woken⟩
  | stay up => exact ⟨tracked', owned, fun _ down => absurd (up.symm.trans down) Bool.false_ne_true.symm⟩
  | fallAsleep linked => exact ⟨tracked', owned, woken⟩
  | retry unlinked | wakeUp unlinked =>
    exact ⟨tracked', owned, fun seen down none other sleeps => woken seen down none other (Multiset.mem_add.mpr (.inr (by
      simpa [sleepingOf] using sleeps)))⟩
  | @finishWait entry =>
    refine ⟨tracked', by simpa [entryOf] using owned_listDel owned, fun seen down none other sleeps linked => ?_⟩
    exact woken seen down none other sleeps (List.mem_of_mem_erase linked)

theorem awake_queued {pc pc' : AwakePc}
    (queued : Queued visible b entries sleeping (BarrierCall.wakers (.awake pc) + wakers)) (step : AwakeStep b pc b' pc') :
    Queued visible b' entries sleeping (BarrierCall.wakers (.awake pc') + wakers) := by
  obtain ⟨tracked, owned, woken⟩ := queued
  cases step with
  | up up => exact ⟨tracked, owned, woken⟩
  | down down => exact ⟨tracked, owned, fun _ _ none => absurd none (by simp [BarrierCall.wakers])⟩
  | clearBarrier => exact ⟨tracked, owned, fun _ _ none => absurd none (by simp [BarrierCall.wakers])⟩
  | active waiting => exact ⟨tracked, owned, fun _ _ none => absurd none (by simp [BarrierCall.wakers])⟩
  | inactive alone => exact ⟨tracked, owned, fun _ _ _ _ _ => by simp [alone]⟩
  | wakeUpAll => exact ⟨tracked, Multiset.zero_le _, fun _ _ _ _ _ => List.not_mem_nil⟩

theorem barrier_queued (less : sleeping ≤ entries)
    (queued : Queued visible b (entryOf call + entries) (sleepingOf call + sleeping) (call.wakers + wakers))
    (step : BarrierStep b call b' call') :
    Queued visible b' (entryOf call' + entries) (sleepingOf call' + sleeping) (call'.wakers + wakers) := by
  cases step with
  | sleep step => exact sleep_queued less queued step
  | awake step => exact awake_queued queued step

/-- Where clears are not visible in time it does not matter who wakes. -/
theorem Queued.hidden (queued : Queued visible b entries sleeping wakers) (hidden : ¬ visible) :
    Queued visible b entries sleeping wakers' :=
  ⟨queued.tracked, queued.owned, fun seen => absurd seen hidden⟩

end Steps

/-! With store buffers. -/

/-- An AWAKE whose clear is not visible yet wakes nobody for sure. -/
def unfencedWakers (call : UnfencedCall) : Nat := if call.pending.isSome then 0 else call.state.wakers

/-- Once clears are visible in time, only an AWAKE that is about to look has one pending. -/
def Looks (visible : Prop) (call : UnfencedCall) : Prop :=
  visible → call.pending.isSome → call.state = .awake .waitqueueActive

theorem unfenced_step {turn : Turn Unit} {call call' : UnfencedCall} (less : sleeping ≤ entries)
    (looks : Looks visible call) (seen : visible → turn ≠ .drain → call.pending = none)
    (queued : Queued visible b (entryOf call.state + entries) (sleepingOf call.state + sleeping) (unfencedWakers call + wakers))
    (step : BufferStep barrier barrierFlags BarrierCall.clears BarrierCall.locks b turn call b' call') :
    Looks visible call' ∧
      Queued visible b' (entryOf call'.state + entries) (sleepingOf call'.state + sleeping) (unfencedWakers call' + wakers) := by
  cases step with
  | @drain state value =>
    refine ⟨fun _ pends => (by cases pends), queued.tracked, queued.owned, fun visible _ none => ?_⟩
    -- it has become one of those who wake
    have waits : state = .awake .waitqueueActive := looks visible rfl
    subst waits
    simp [unfencedWakers, BarrierCall.wakers] at none
  | @store _ state pending after state' stored stepped =>
    cases barrier_cases stepped with
    | sleep step => cases stored
    | awake step =>
      cases step with
      | clearBarrier =>
        refine ⟨fun _ _ => rfl, queued.tracked, queued.owned, fun visible down none => ?_⟩
        exact queued.woken visible down (by simpa [unfencedWakers, BarrierCall.wakers] using none)
      | _ => cases stored
  | @proceed _ state pending after state' keeps fenced stepped =>
    have step := barrier_cases stepped
    by_cases visible
    next shown =>
      cases seen shown (by simp)
      exact ⟨fun _ pends => (by cases pends), barrier_queued less queued step⟩
    next hidden =>
      have unseen : Queued visible b _ _ (state.wakers + wakers) := queued.hidden hidden
      exact ⟨fun shown => absurd shown hidden, (barrier_queued less unseen step).hidden hidden⟩

theorem unfenced_queued {visible : Prop} {allowed : UnfencedConfig → UnfencedAct → Prop}
    (seen : visible → ∀ config act, allowed config act → Visible config act) {config : UnfencedConfig}
    (reached : Reaches unfencedBarrier allowed noUnfencedBarrier config) :
    (∀ process ∈ config.calls, Looks visible process.state) ∧
      Queued visible config.shared (total (fun call => entryOf call.state) config.calls)
        (total (fun call => sleepingOf call.state) config.calls) (total unfencedWakers config.calls) := by
  refine reached.induct ⟨fun _ none => (by cases none), Tracked.empty, Multiset.zero_le _, fun _ _ _ _ none => (by cases none)⟩ ?_
  intro before act after earlier ⟨looks, queued⟩ permitted taken
  cases taken with
  | @enter b calls request =>
    refine ⟨fun process member => ?_, ?_⟩
    · rcases List.mem_append.mp member with old | new
      · exact looks process old
      · rw [List.mem_singleton.mp new]
        exact fun _ pends => by cases pends
    · cases request <;>
        simpa [unfencedBarrier, storeBuffer, barrier, entryOf, sleepingOf, unfencedWakers, BarrierCall.wakers] using queued
  | @move b left right request call turn b' call' moved =>
    have own : (⟨request, call⟩ : Process BarrierRequest UnfencedCall) ∈ left ++ ⟨request, call⟩ :: right := by simp
    have seen : visible → turn ≠ .drain → call.pending = none := fun shown goes =>
      seen shown _ _ permitted (call, turn) (mover_move _ _ _ _ _) goes
    simp only [total_middle] at queued ⊢
    obtain ⟨looks', queued'⟩ := unfenced_step (total_le (fun call => sleepingOf_le_entryOf call.state) (left ++ right))
      (looks _ own) seen queued (storeBuffer_cases moved)
    refine ⟨fun process member => ?_, queued'⟩
    rcases List.mem_append.mp member with other | member
    · exact looks process (List.mem_append_left _ other)
    · rcases List.mem_cons.mp member with rfl | other
      · exact looks'
      · exact looks process (List.mem_append_right _ (List.mem_cons_of_mem _ other))
  | @environment b calls event b' happened => cases event

/-- An entry of the wait queue lies on the stack of a SLEEP call that has not returned:
it is queued once, one call has it, and a call that has returned has none. -/
def EntriesOwned (config : UnfencedConfig) : Prop :=
  config.shared.waitQueue.Nodup ∧ ∀ entry ∈ config.shared.waitQueue,
    config.calls.countP (fun process => entry ∈ entryOf process.state.state) = 1

/-- A thread that has found the barrier up and is still queued while the barrier is down
will be woken: an AWAKE whose clear everybody sees is about to look at the queue or to empty it. -/
def NoLostWakeUp (config : UnfencedConfig) : Prop :=
  config.shared.isBarrierUp = false → ∀ process ∈ config.calls, ∀ entry ∈ sleepingOf process.state.state,
    entry ∈ config.shared.waitQueue → ∃ waker ∈ config.calls, waker.state.pending = none ∧ 0 < waker.state.state.wakers

theorem count_entryOf (calls : List (Process BarrierRequest UnfencedCall)) (entry : Nat) :
    calls.countP (fun process => entry ∈ entryOf process.state.state) =
      (total (fun call : UnfencedCall => entryOf call.state) calls).count entry := by
  induction calls with
  | nil => rfl
  | cons process rest ih =>
    rw [List.countP_cons, ih, total_cons, Multiset.count_add, Nat.add_comm]
    congr 1
    rcases process with ⟨request, pc | pc, pending⟩
    · cases pc <;> simp [entryOf, Multiset.count_singleton]
    · simp [entryOf]

/-- No entry outlives its call, whatever the calls at the barrier are and however their
steps fall. And no wake-up is lost, if each AWAKE looks at the queue only once the others
see its clear. -/
theorem wait_queue_safe {config : UnfencedConfig} (reached : Reaches unfencedBarrier Anything noUnfencedBarrier config) :
    EntriesOwned config ∧ (Reaches unfencedBarrier Visible noUnfencedBarrier config → NoLostWakeUp config) := by
  constructor
  · have queued := (unfenced_queued (fun never : False => never.elim) reached).2
    refine ⟨Multiset.coe_nodup.mp (Multiset.nodup_of_le queued.owned queued.tracked.distinct), fun entry linked => ?_⟩
    rw [count_entryOf]
    exact Multiset.count_eq_one_of_mem queued.tracked.distinct (Multiset.mem_of_le queued.owned linked)
  · intro visible down process member entry sleeps linked
    have queued := (unfenced_queued (fun _ : True => fun _ _ seen => seen) visible).2
    have some : 0 < total unfencedWakers config.calls := by
      apply Nat.pos_of_ne_zero
      intro none
      exact queued.woken trivial down none entry (mem_total.mpr ⟨process, member, sleeps⟩) linked
    obtain ⟨waker, present, wakes⟩ := total_pos.mp some
    unfold unfencedWakers at wakes
    split at wakes
    · cases wakes
    next none => exact ⟨waker, present, by simpa using none, wakes⟩

def unfencedStep (call : Nat) : UnfencedAct := .move call (.proceed ())

/-- A thread sleeps and an AWAKE has lowered the barrier. -/
def loweredRun : List UnfencedAct :=
  [.enter .sleepOnBarrier] ++ List.replicate 5 (unfencedStep 0) ++
    [.enter .awakeBarrier] ++ List.replicate 2 (unfencedStep 1) ++ [.move 1 .drain]

theorem wait_queue_safe_loweredRun :
    ∃ config, run unfencedBarrier Visible noUnfencedBarrier loweredRun = some config ∧ EntriesOwned config ∧ NoLostWakeUp config ∧
      config.shared.isBarrierUp = false ∧ config.shared.waitQueue = [0] := by
  have enabled : (run unfencedBarrier Visible noUnfencedBarrier loweredRun).isSome := by decide
  have down : ((run unfencedBarrier Visible noUnfencedBarrier loweredRun).get enabled).shared.isBarrierUp = false := by
    decide +revert
  have reached := reaches_get enabled
  have safe := wait_queue_safe (reached.mono fun _ _ _ => trivial)
  exact ⟨_, (Option.some_get enabled).symm, safe.1, safe.2 reached, down, rfl⟩

/-- The AWAKE finds the queue empty while its clear is in the store buffer, and the
thread that has still seen the bit set goes to sleep. -/
def overlookedRun : List UnfencedAct :=
  [.enter .sleepOnBarrier] ++ List.replicate 2 (unfencedStep 0) ++ [.enter .awakeBarrier] ++
    List.replicate 3 (unfencedStep 1) ++ List.replicate 3 (unfencedStep 0) ++ [.move 1 .drain]

theorem wake_up_lost : ¬ ∀ config, Reaches unfencedBarrier Anything noUnfencedBarrier config → NoLostWakeUp config := by
  intro safe
  have enabled : (run unfencedBarrier Anything noUnfencedBarrier overlookedRun).isSome := by decide
  have down : ((run unfencedBarrier Anything noUnfencedBarrier overlookedRun).get enabled).shared.isBarrierUp = false := by
    decide +revert
  have wakers : ∀ process ∈ ((run unfencedBarrier Anything noUnfencedBarrier overlookedRun).get enabled).calls,
      process.state.state.wakers = 0 := by decide +revert
  have asleep := List.mem_of_getElem? (l := ((run unfencedBarrier Anything noUnfencedBarrier overlookedRun).get enabled).calls) (i := 0) rfl
  have linked : 0 ∈ ((run unfencedBarrier Anything noUnfencedBarrier overlookedRun).get enabled).shared.waitQueue := List.mem_singleton_self 0
  obtain ⟨waker, member, _, wakes⟩ := safe _ (reaches_get enabled) down _ asleep 0 (Multiset.mem_singleton_self 0) linked
  exact Nat.ne_of_gt wakes (wakers waker member)

end Tsm
