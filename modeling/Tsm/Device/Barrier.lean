import Tsm.Device.State
import Tsm.Lib.StoreBuffer

/-! The two barrier commands of a group device, as the steps between two points
where another thread can be scheduled. `wait_event` queues an entry of the thread,
tests its condition again and sleeps until the entry is taken off the queue. -/

namespace Tsm
open Interleaving KernelList LoadStore StoreBuffer

/-- What the barrier commands share: the flags of the device and its wait queue. -/
structure Barrier where
  flags : BitVec 8
  waitQueue : List Nat
  /-- The first number no wait queue entry has. -/
  fresh : Nat

namespace Barrier

def isBarrierUp (b : Barrier) : Bool := checkBit b.flags BARRIER_BIT

def setBarrier (b : Barrier) : Barrier := { b with flags := setBit b.flags BARRIER_BIT }

def clearBarrier (b : Barrier) : Barrier := { b with flags := clearBit b.flags BARRIER_BIT }

@[simp] theorem isBarrierUp_clearBarrier (b : Barrier) : b.clearBarrier.isBarrierUp = false :=
  checkBit_clearBit b.flags BARRIER_BIT

end Barrier

/-- IOCTL_SLEEP_ON_BARRIER. `woken` is not in the source: it records that a
`wake_up_all` has found the thread asleep. -/
inductive SleepPc where
  | setBarrier
  | waitEvent
  | prepareToWait (entry : Nat) (woken : Bool)
  | test (entry : Nat) (woken : Bool)
  | schedule (entry : Nat) (woken : Bool)
  | asleep (entry : Nat) (woken : Bool)
  | finishWait (entry : Nat)
  | done (ret : Int)
  deriving DecidableEq, Repr

def sleepOnBarrier (b : Barrier) : SleepPc → Option (Barrier × SleepPc)
  | .setBarrier => some (b.setBarrier, .waitEvent)
  | .waitEvent =>
    if !b.isBarrierUp then some (b, .done 0)
    else some ({ b with fresh := b.fresh + 1 }, .prepareToWait b.fresh false)
  | .prepareToWait entry woken =>
    if entry ∈ b.waitQueue then some (b, .test entry woken)
    else some ({ b with waitQueue := listAdd entry b.waitQueue }, .test entry woken)
  | .test entry woken =>
    if !b.isBarrierUp then some (b, .finishWait entry) else some (b, .schedule entry woken)
  -- a thread that was woken since it queued its entry does not go to sleep
  | .schedule entry woken =>
    if entry ∈ b.waitQueue then some (b, .asleep entry woken) else some (b, .prepareToWait entry woken)
  | .asleep entry _ => if entry ∈ b.waitQueue then none else some (b, .prepareToWait entry true)
  | .finishWait entry => some ({ b with waitQueue := listDel entry b.waitQueue }, .done 0)
  | .done _ => none

/-- IOCTL_AWAKE_BARRIER. -/
inductive AwakePc where
  | test
  | clearBarrier
  | waitqueueActive
  | wakeUpAll
  | done (ret : Int)
  deriving DecidableEq, Repr

def awakeBarrier (b : Barrier) : AwakePc → Option (Barrier × AwakePc)
  | .test => if b.isBarrierUp then some (b, .clearBarrier) else some (b, .waitqueueActive)
  | .clearBarrier => some (b.clearBarrier, .waitqueueActive)
  | .waitqueueActive => if b.waitQueue ≠ [] then some (b, .wakeUpAll) else some (b, .done 0)
  | .wakeUpAll => some ({ b with waitQueue := [] }, .done 0)
  | .done _ => none

inductive BarrierRequest where
  | sleepOnBarrier
  | awakeBarrier
  deriving DecidableEq, Repr

inductive BarrierCall where
  | sleep (pc : SleepPc)
  | awake (pc : AwakePc)
  deriving DecidableEq, Repr

def barrier : System Barrier BarrierRequest BarrierCall Unit Empty where
  enter
    | .sleepOnBarrier => .sleep .setBarrier
    | .awakeBarrier => .awake .test
  move _ b
    | .sleep pc => (sleepOnBarrier b pc).map fun (b, pc) => (b, .sleep pc)
    | .awake pc => (awakeBarrier b pc).map fun (b, pc) => (b, .awake pc)
  environment event := nomatch event

abbrev BarrierConfig := Config Barrier BarrierRequest BarrierCall
abbrev BarrierAct := Act BarrierRequest Unit Empty

/-- A device just installed: the flags are zero and nobody waits. -/
def noBarrier : BarrierConfig := ⟨⟨0, [], 0⟩, []⟩

/-! The commands on processors that buffer their stores. There is no `smp_mb()` between
`clear_barrier` and `waitqueue_active`, so an AWAKE can look at the wait queue while the
others still see the bit set. `wake_up_all` takes the lock of the queue, which drains the
buffer. A `set_barrier` is drained by the full barrier in `prepare_to_wait`; up to there its
thread does nothing that others see, so it is taken as visible at once. -/

def barrierFlags : Variable Barrier (BitVec 8) := ⟨Barrier.flags, fun flags b => { b with flags }, fun _ => rfl⟩

def BarrierCall.clears : BarrierCall → Bool
  | .awake .clearBarrier => true
  | _ => false

def BarrierCall.locks : BarrierCall → Bool
  | .awake .wakeUpAll => true
  | _ => false

abbrev UnfencedCall := Buffering BarrierCall (BitVec 8)
abbrev UnfencedConfig := Config Barrier BarrierRequest UnfencedCall
abbrev UnfencedAct := Act BarrierRequest (Turn Unit) Empty

def unfencedBarrier : System Barrier BarrierRequest UnfencedCall (Turn Unit) Empty :=
  storeBuffer barrier barrierFlags BarrierCall.clears BarrierCall.locks

def noUnfencedBarrier : UnfencedConfig := ⟨⟨0, [], 0⟩, []⟩

/-! What one step can do. -/

inductive SleepStep (b : Barrier) : SleepPc → Barrier → SleepPc → Prop where
  | setBarrier : SleepStep b .setBarrier b.setBarrier .waitEvent
  | pass (down : b.isBarrierUp = false) : SleepStep b .waitEvent b (.done 0)
  | initEntry (up : b.isBarrierUp = true) :
      SleepStep b .waitEvent { b with fresh := b.fresh + 1 } (.prepareToWait b.fresh false)
  | queued {entry woken} (linked : entry ∈ b.waitQueue) :
      SleepStep b (.prepareToWait entry woken) b (.test entry woken)
  | queue {entry woken} (unlinked : entry ∉ b.waitQueue) :
      SleepStep b (.prepareToWait entry woken) { b with waitQueue := listAdd entry b.waitQueue } (.test entry woken)
  | leave {entry woken} (down : b.isBarrierUp = false) : SleepStep b (.test entry woken) b (.finishWait entry)
  | stay {entry woken} (up : b.isBarrierUp = true) : SleepStep b (.test entry woken) b (.schedule entry woken)
  | fallAsleep {entry woken} (linked : entry ∈ b.waitQueue) :
      SleepStep b (.schedule entry woken) b (.asleep entry woken)
  | retry {entry woken} (unlinked : entry ∉ b.waitQueue) :
      SleepStep b (.schedule entry woken) b (.prepareToWait entry woken)
  | wakeUp {entry woken} (unlinked : entry ∉ b.waitQueue) :
      SleepStep b (.asleep entry woken) b (.prepareToWait entry true)
  | finishWait {entry} :
      SleepStep b (.finishWait entry) { b with waitQueue := listDel entry b.waitQueue } (.done 0)

theorem sleepOnBarrier_cases {b pc b' pc'} (moved : sleepOnBarrier b pc = some (b', pc')) :
    SleepStep b pc b' pc' := by
  cases pc with
  | setBarrier => cases moved; exact .setBarrier
  | waitEvent =>
    simp only [sleepOnBarrier] at moved
    split at moved
    next down => cases moved; exact .pass (by simpa using down)
    next up => cases moved; exact .initEntry (by simpa using up)
  | prepareToWait entry woken =>
    simp only [sleepOnBarrier] at moved
    split at moved
    next linked => cases moved; exact .queued linked
    next unlinked => cases moved; exact .queue unlinked
  | test entry woken =>
    simp only [sleepOnBarrier] at moved
    split at moved
    next down => cases moved; exact .leave (by simpa using down)
    next up => cases moved; exact .stay (by simpa using up)
  | schedule entry woken =>
    simp only [sleepOnBarrier] at moved
    split at moved
    next linked => cases moved; exact .fallAsleep linked
    next unlinked => cases moved; exact .retry unlinked
  | asleep entry woken =>
    simp only [sleepOnBarrier] at moved
    split at moved
    · cases moved
    next unlinked => cases moved; exact .wakeUp unlinked
  | finishWait entry => cases moved; exact .finishWait
  | done ret => cases moved

inductive AwakeStep (b : Barrier) : AwakePc → Barrier → AwakePc → Prop where
  | up (up : b.isBarrierUp = true) : AwakeStep b .test b .clearBarrier
  | down (down : b.isBarrierUp = false) : AwakeStep b .test b .waitqueueActive
  | clearBarrier : AwakeStep b .clearBarrier b.clearBarrier .waitqueueActive
  | active (waiting : b.waitQueue ≠ []) : AwakeStep b .waitqueueActive b .wakeUpAll
  | inactive (alone : b.waitQueue = []) : AwakeStep b .waitqueueActive b (.done 0)
  | wakeUpAll : AwakeStep b .wakeUpAll { b with waitQueue := [] } (.done 0)

theorem awakeBarrier_cases {b pc b' pc'} (moved : awakeBarrier b pc = some (b', pc')) :
    AwakeStep b pc b' pc' := by
  cases pc with
  | test =>
    simp only [awakeBarrier] at moved
    split at moved
    next up => cases moved; exact .up up
    next down => cases moved; exact .down (Bool.eq_false_iff.mpr down)
  | clearBarrier => cases moved; exact .clearBarrier
  | waitqueueActive =>
    simp only [awakeBarrier] at moved
    split at moved
    next waiting => cases moved; exact .active waiting
    next alone => cases moved; exact .inactive (Decidable.not_not.mp alone)
  | wakeUpAll => cases moved; exact .wakeUpAll
  | done ret => cases moved

inductive BarrierStep (b : Barrier) : BarrierCall → Barrier → BarrierCall → Prop where
  | sleep {pc b' pc'} (step : SleepStep b pc b' pc') : BarrierStep b (.sleep pc) b' (.sleep pc')
  | awake {pc b' pc'} (step : AwakeStep b pc b' pc') : BarrierStep b (.awake pc) b' (.awake pc')

theorem barrier_cases {outcome b call b' call'} (moved : barrier.move outcome b call = some (b', call')) :
    BarrierStep b call b' call' := by
  cases call with
  | sleep pc =>
    obtain ⟨⟨_, _⟩, stepped, equal⟩ := Option.map_eq_some_iff.mp moved
    cases equal
    exact .sleep (sleepOnBarrier_cases stepped)
  | awake pc =>
    obtain ⟨⟨_, _⟩, stepped, equal⟩ := Option.map_eq_some_iff.mp moved
    cases equal
    exact .awake (awakeBarrier_cases stepped)

end Tsm
