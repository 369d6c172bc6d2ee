import Tsm.Lib.Components
import Tsm.Proofs.Flags
import Tsm.Proofs.GroupMessages

/-! The two things a group device is used for at once. As long as no update of one flag
disturbs the other, the messages of the device behave as if it had no barrier, and the
barrier as if there were no messages. -/

namespace Tsm
open Interleaving LoadStore KernelList

/-! One flag, with the others clear. -/

def onlyBit (flags : BitVec 8) (pos : Nat) : BitVec 8 := if checkBit flags pos then setBit 0 pos else 0

section Bits
variable {flags flags' : BitVec 8} {pos : Nat}

theorem onlyBit_congr (same : checkBit flags pos = checkBit flags' pos) : onlyBit flags pos = onlyBit flags' pos := by
  rw [onlyBit, onlyBit, same]

@[simp] theorem onlyBit_zero (pos : Nat) : onlyBit 0#8 pos = 0#8 := by simp [onlyBit, checkBit_eq]

theorem checkBit_onlyBit (flags : BitVec 8) (inside : pos < 8) : checkBit (onlyBit flags pos) pos = checkBit flags pos := by
  unfold onlyBit
  split
  next up => rw [up, checkBit_setBit 0 inside]
  next down =>
    rw [Bool.eq_false_iff.mpr down, checkBit_eq]
    exact BitVec.getLsbD_zero

/-- What a set leaves of its own bit does not depend on what it finds. -/
theorem onlyBit_setBit (pos : Nat) (flags flags' : BitVec 8) (inside : pos < 8) :
    onlyBit (setBit flags pos) pos = setBit (onlyBit flags' pos) pos := by
  have set : onlyBit (setBit flags pos) pos = setBit 0 pos := by rw [onlyBit, checkBit_setBit flags inside, if_pos rfl]
  rw [set]
  unfold onlyBit
  split
  · rw [setBit, setBit, BitVec.or_assoc, BitVec.or_self]
  · rfl

theorem onlyBit_clearBit (pos : Nat) (flags flags' : BitVec 8) : onlyBit (clearBit flags pos) pos = clearBit (onlyBit flags' pos) pos := by
  have cleared : onlyBit (clearBit flags pos) pos = 0 := by rw [onlyBit, checkBit_clearBit, if_neg Bool.false_ne_true]
  rw [cleared]
  unfold onlyBit
  split
  · simp [clearBit, setBit]
  · simp [clearBit]

end Bits

/-! The device without its barrier. -/

def State.flushingOnly (s : State) : State := { s with dev.flags := onlyBit s.dev.flags FLUSHING_BIT }

section Device
variable {s s' : State} {outcome : Outcome}

theorem write_flushingOnly (outcome : Outcome) (s : State) (pc : WritePc) :
    groupWrite outcome s.flushingOnly pc = (groupWrite outcome s pc).map fun moved => (moved.1.flushingOnly, moved.2) := by
  cases pc with
  | traverse msg pos => cases pos <;> rfl
  | entry | allocData | allocMsg | critical | addDelayedWork | downWq =>
    simp only [groupWrite]
    repeat' split
    all_goals first | rfl | contradiction
  | _ => rfl

theorem read_flushingOnly (outcome : Outcome) (s : State) (pc : ReadPc) :
    groupRead outcome s.flushingOnly pc = (groupRead outcome s pc).map fun moved => (moved.1.flushingOnly, moved.2) := by
  cases pc with
  | entry length =>
    have same : s.flushingOnly.dev.messageList = s.dev.messageList := rfl
    simp only [groupRead, same]
    split <;> rfl
  | copyToUser msg length =>
    simp only [groupRead]
    split <;> rfl
  | _ => rfl

theorem setSendDelay_flushingOnly (s : State) (pc : DelayPc) :
    setSendDelay s.flushingOnly pc = (setSendDelay s pc).map fun moved => (moved.1.flushingOnly, moved.2) := by
  cases pc with
  | entry arg =>
    simp only [setSendDelay]
    split <;> rfl
  | done ret => rfl

theorem flush_flushingOnly (s : State) (pc : FlushPc) :
    fflushWorkqueue s.flushingOnly pc = (fflushWorkqueue s pc).map fun moved => (moved.1.flushingOnly, moved.2) := by
  cases pc with
  | setFlushing =>
    have set := onlyBit_setBit FLUSHING_BIT s.dev.flags s.dev.flags (by decide)
    simp [fflushWorkqueue, State.flushingOnly, set]
  | clearFlushing =>
    have cleared := onlyBit_clearBit FLUSHING_BIT s.dev.flags s.dev.flags
    simp [fflushWorkqueue, State.flushingOnly, cleared]
  | testEmpty =>
    have same : s.flushingOnly.dev.delayList = s.dev.delayList := rfl
    simp only [fflushWorkqueue, same]
    split <;> rfl
  | next q => cases q <;> rfl
  | checkWq | downWq | wait | drain =>
    simp only [fflushWorkqueue]
    repeat' split
    all_goals first | rfl | contradiction
  | _ => rfl

theorem move_flushingOnly (outcome : Outcome) (s : State) (call : Call) :
    device.move outcome s.flushingOnly call = (device.move outcome s call).map fun moved => (moved.1.flushingOnly, moved.2) := by
  cases call with
  | write pc =>
    simp only [device, move, write_flushingOnly, Option.map_map]
    rfl
  | read pc =>
    simp only [device, move, read_flushingOnly, Option.map_map]
    rfl
  | setSendDelay pc =>
    simp only [device, move, setSendDelay_flushingOnly, Option.map_map]
    rfl
  | revoke pc =>
    simp only [device, move, flush_flushingOnly, Option.map_map]
    rfl

theorem worker_flushingOnly (s : State) : worker s.flushingOnly = (worker s).map State.flushingOnly := by
  have same : s.flushingOnly.wq = s.wq := rfl
  simp only [worker, same]
  split
  next work pc running =>
    rw [Option.map_some, Option.some_inj]
    cases pc with
    | pop =>
      have list : s.flushingOnly.dev.pendingList = s.dev.pendingList := rfl
      simp only [delayedWorkFun, list]
      split <;> rfl
    | testFlag =>
      have bit : checkBit s.flushingOnly.dev.flags FLUSHING_BIT = checkBit s.dev.flags FLUSHING_BIT :=
        checkBit_onlyBit s.dev.flags (by decide)
      simp only [delayedWorkFun, bit]
      split <;> rfl
    | _ => rfl
  next idle => split <;> rfl

theorem event_flushingOnly (event : Event) (s : State) :
    device.environment event s.flushingOnly = (device.environment event s).map State.flushingOnly := by
  cases event with
  | worker => exact worker_flushingOnly s
  | expire work =>
    have workqueue : s.flushingOnly.wq = s.wq := rfl
    have now : s.flushingOnly.jiffies = s.jiffies := rfl
    simp only [device, environment, workqueue, now]
    split <;> rfl
  | _ => rfl

end Device

/-! The barrier without the device. -/

def Barrier.barrierOnly (b : Barrier) : Barrier := { b with flags := onlyBit b.flags BARRIER_BIT }

theorem isBarrierUp_barrierOnly (b : Barrier) : b.barrierOnly.isBarrierUp = b.isBarrierUp :=
  checkBit_onlyBit b.flags (by decide)

theorem sleep_barrierOnly (b : Barrier) (pc : SleepPc) :
    sleepOnBarrier b.barrierOnly pc = (sleepOnBarrier b pc).map fun moved => (moved.1.barrierOnly, moved.2) := by
  have queue : b.barrierOnly.waitQueue = b.waitQueue := rfl
  cases pc with
  | setBarrier =>
    have set := onlyBit_setBit BARRIER_BIT b.flags b.flags (by decide)
    simp [sleepOnBarrier, Barrier.setBarrier, Barrier.barrierOnly, set]
  | waitEvent | test _ _ | prepareToWait _ _ | schedule _ _ | asleep _ _ =>
    simp only [sleepOnBarrier, isBarrierUp_barrierOnly, queue]
    split <;> rfl
  | _ => rfl

theorem awake_barrierOnly (b : Barrier) (pc : AwakePc) :
    awakeBarrier b.barrierOnly pc = (awakeBarrier b pc).map fun moved => (moved.1.barrierOnly, moved.2) := by
  have queue : b.barrierOnly.waitQueue = b.waitQueue := rfl
  cases pc with
  | clearBarrier =>
    have cleared := onlyBit_clearBit BARRIER_BIT b.flags b.flags
    simp [awakeBarrier, Barrier.clearBarrier, Barrier.barrierOnly, cleared]
  | test | waitqueueActive =>
    simp only [awakeBarrier, isBarrierUp_barrierOnly, queue]
    split <;> rfl
  | _ => rfl

/-! The calls of each side. -/

def FlagRequest.onDevice : FlagRequest → Option Request
  | .device request => some request
  | .barrier _ => none

def FlagRequest.onBarrier : FlagRequest → Option BarrierRequest
  | .barrier request => some request
  | .device _ => none

def FlagCall.onBarrier : FlagCall → Option BarrierCall
  | .sleep pc _ => some (.sleep pc)
  | .awake pc => some (.awake pc)
  | .device _ => none

def messagePart (process : Process FlagRequest (Updating FlagCall (BitVec 8))) : Option (Process Request Call) :=
  process.request.onDevice.bind fun request => process.state.state.onDevice.map fun call => ⟨request, call⟩

def barrierPart (process : Process FlagRequest (Updating FlagCall (BitVec 8))) : Option (Process BarrierRequest BarrierCall) :=
  process.request.onBarrier.bind fun request => process.state.state.onBarrier.map fun call => ⟨request, call⟩

/-- The call does what was asked for, and has loaded the flags only to update them. -/
def Updates (process : Process FlagRequest (Updating FlagCall (BitVec 8))) : Prop :=
  (process.state.state.onDevice.isSome ↔ process.request.onDevice.isSome) ∧
    ∀ value ∈ process.state.loaded, process.state.state.updates = true

theorem flagCommands_onDevice {s s' : FlagState} {outcome : Outcome} {call call' : FlagCall}
    (moved : flagCommands.move outcome s call = some (s', call')) : call'.onDevice.isSome = call.onDevice.isSome := by
  cases call <;>
    (obtain ⟨_, _, equal⟩ := Option.map_eq_some_iff.mp moved
     cases equal
     rfl)

theorem calls_update {allowed : FlagConfig → FlagAct → Prop} {start config : FlagConfig}
    (reached : Reaches unlockedFlags allowed start config) (initial : start.calls = []) :
    ∀ process ∈ config.calls, Updates process := by
  refine reached.calls_keep Updates initial ?_ ?_
  · rintro (request | request)
    · exact ⟨Iff.rfl, fun value none => by cases none⟩
    · cases request <;> exact ⟨Iff.rfl, fun value none => by cases none⟩
  · intro s request call outcome s' call' keeps moved
    rcases loadStore_cases moved with ⟨update, rfl, rfl⟩ | ⟨value, _, fresh, stepped⟩
    · exact ⟨keeps.1, fun _ _ => update⟩
    · refine ⟨?_, by simp [fresh]⟩
      rw [flagCommands_onDevice stepped]
      exact keeps.1

/-- What a store finds of the flag it should leave alone is what was loaded. -/
def LeavesOther (s : FlagState) (call : FlagCall) (value : BitVec 8) : Prop :=
  (call.updatesFlushing = true → checkBit value BARRIER_BIT = checkBit s.flags BARRIER_BIT) ∧
    (call.updatesBarrier = true → checkBit value FLUSHING_BIT = checkBit s.flags FLUSHING_BIT)

instance (s : FlagState) (call : FlagCall) (value : BitVec 8) : Decidable (LeavesOther s call value) :=
  inferInstanceAs (Decidable (_ ∧ _))

section Steps
variable {s s' : FlagState} {value : BitVec 8} {outcome : Outcome}

/-- A call on the device takes its step on the device alone, and the barrier stays as it is. -/
theorem device_apart {call call' : Call} (leaves : LeavesOther s (.device call) value)
    (keeps : FlagCall.updates (.device call) = false → value = s.flags) {d' : State}
    (moved : device.move outcome (s.withFlags value).device call = some (d', call')) :
    device.move outcome s.device.flushingOnly call = some (d'.flushingOnly, call') ∧
      onlyBit d'.dev.flags BARRIER_BIT = onlyBit s.flags BARRIER_BIT := by
  rcases move_flags (move_cases moved) with ⟨rfl, rfl, set⟩ | ⟨rfl, rfl, cleared⟩ | ⟨keeper, -, same⟩
  · refine ⟨?_, onlyBit_congr ?_⟩
    · cases moved
      have alone := onlyBit_setBit FLUSHING_BIT value s.device.dev.flags (by decide)
      simp [device, move, fflushWorkqueue, State.flushingOnly, FlagState.withFlags, alone]
    · rw [set, checkBit_setBit_of_ne _ (by decide)]
      exact leaves.1 rfl
  · refine ⟨?_, onlyBit_congr ?_⟩
    · cases moved
      have alone := onlyBit_clearBit FLUSHING_BIT value s.device.dev.flags
      simp [device, move, fflushWorkqueue, State.flushingOnly, FlagState.withFlags, alone]
    · rw [cleared, checkBit_clearBit_of_ne _ (by decide)]
      exact leaves.1 rfl
  · cases keeps keeper
    have moved : device.move outcome s.device call = some (d', call') := moved
    refine ⟨by rw [move_flushingOnly, moved]; rfl, congrArg (onlyBit · BARRIER_BIT) same⟩

theorem sleep_apart {pc pc' : SleepPc} {since : Nat} (leaves : LeavesOther s (.sleep pc since) value)
    (keeps : FlagCall.updates (.sleep pc since) = false → value = s.flags) {b' : Barrier}
    (moved : sleepOnBarrier (s.withFlags value).barrier pc = some (b', pc')) :
    sleepOnBarrier s.barrier.barrierOnly pc = some (b'.barrierOnly, pc') ∧
      onlyBit b'.flags FLUSHING_BIT = onlyBit s.flags FLUSHING_BIT := by
  by_cases sets : pc = .setBarrier
  · subst sets
    cases moved
    have alone := onlyBit_setBit BARRIER_BIT value s.flags (by decide)
    refine ⟨?_, onlyBit_congr ?_⟩
    · simp [sleepOnBarrier, Barrier.setBarrier, Barrier.barrierOnly, FlagState.barrier, FlagState.withFlags, FlagState.flags] at alone ⊢
      exact alone.symm
    · exact (checkBit_setBit_of_ne _ (by decide)).trans (leaves.2 rfl)
  · have keeper : FlagCall.updates (.sleep pc since) = false := by cases pc <;> first | rfl | exact absurd rfl sets
    cases keeps keeper
    have moved : sleepOnBarrier s.barrier pc = some (b', pc') := moved
    have same : b'.flags = s.flags := by
      cases sleepOnBarrier_cases moved with
      | setBarrier => exact absurd rfl sets
      | _ => rfl
    exact ⟨by rw [sleep_barrierOnly, moved]; rfl, congrArg (onlyBit · FLUSHING_BIT) same⟩

theorem awake_apart {pc pc' : AwakePc} (leaves : LeavesOther s (.awake pc) value)
    (keeps : FlagCall.updates (.awake pc) = false → value = s.flags) {b' : Barrier}
    (moved : awakeBarrier (s.withFlags value).barrier pc = some (b', pc')) :
    awakeBarrier s.barrier.barrierOnly pc = some (b'.barrierOnly, pc') ∧
      onlyBit b'.flags FLUSHING_BIT = onlyBit s.flags FLUSHING_BIT := by
  by_cases clears : pc = .clearBarrier
  · subst clears
    cases moved
    have alone := onlyBit_clearBit BARRIER_BIT value s.flags
    refine ⟨?_, onlyBit_congr ?_⟩
    · simp [awakeBarrier, Barrier.clearBarrier, Barrier.barrierOnly, FlagState.barrier, FlagState.withFlags, FlagState.flags] at alone ⊢
      exact alone.symm
    · exact (checkBit_clearBit_of_ne _ (by decide)).trans (leaves.2 rfl)
  · have keeper : FlagCall.updates (.awake pc) = false := by cases pc <;> first | rfl | exact absurd rfl clears
    cases keeps keeper
    have moved : awakeBarrier s.barrier pc = some (b', pc') := moved
    have same : b'.flags = s.flags := by
      cases awakeBarrier_cases moved with
      | clearBarrier => exact absurd rfl clears
      | _ => rfl
    exact ⟨by rw [awake_barrierOnly, moved]; rfl, congrArg (onlyBit · FLUSHING_BIT) same⟩

/-- A step of a call is a load, a step of the device or a step of the barrier. -/
inductive ApartStep (s : FlagState) (call : FlagCall) (outcome : Outcome) (s' : FlagState) (call' : FlagCall) : Prop where
  | loads (shared : s' = s) (state : call' = call)
  | onDevice {before after} (state : call = .device before) (state' : call' = .device after)
      (moved : device.move outcome s.device.flushingOnly before = some (s'.device.flushingOnly, after))
      (barrier : s'.barrier.barrierOnly = s.barrier.barrierOnly)
  | onBarrier {before after} (state : call.onBarrier = some before) (state' : call'.onBarrier = some after)
      (moved : barrier.move () s.barrier.barrierOnly before = some (s'.barrier.barrierOnly, after))
      (device : s'.device.flushingOnly = s.device.flushingOnly)

theorem flagCommands_apart {call call' : FlagCall} (leaves : LeavesOther s call value)
    (keeps : call.updates = false → value = s.flags)
    (moved : flagCommands.move outcome (s.withFlags value) call = some (s', call')) : ApartStep s call outcome s' call' := by
  cases call with
  | device call =>
    obtain ⟨⟨d', call'⟩, stepped, equal⟩ := Option.map_eq_some_iff.mp moved
    cases equal
    obtain ⟨alone, other⟩ := device_apart leaves keeps stepped
    refine .onDevice rfl rfl alone ?_
    simp only [Barrier.barrierOnly, FlagState.barrier, FlagState.flags, FlagState.withFlags] at other ⊢
    rw [other]
  | sleep pc since =>
    obtain ⟨⟨b', pc'⟩, stepped, equal⟩ := Option.map_eq_some_iff.mp moved
    cases equal
    obtain ⟨alone, other⟩ := sleep_apart leaves keeps stepped
    refine .onBarrier rfl rfl ?_ ?_
    · simp only [barrier, alone, Option.map_some]
      rfl
    · simp only [State.flushingOnly, FlagState.withBarrier, FlagState.withFlags, FlagState.flags] at other ⊢
      rw [other]
  | awake pc =>
    obtain ⟨⟨b', pc'⟩, stepped, equal⟩ := Option.map_eq_some_iff.mp moved
    cases equal
    obtain ⟨alone, other⟩ := awake_apart leaves keeps stepped
    refine .onBarrier rfl rfl ?_ ?_
    · simp only [barrier, alone, Option.map_some]
      rfl
    · simp only [State.flushingOnly, FlagState.withBarrier, FlagState.withFlags, FlagState.flags] at other ⊢
      rw [other]

theorem unlocked_apart {request : FlagRequest} {call call' : Updating FlagCall (BitVec 8)} (updates : Updates ⟨request, call⟩)
    (leaves : ∀ value ∈ call.loaded, LeavesOther s call.state value)
    (moved : unlockedFlags.move outcome s call = some (s', call')) : ApartStep s call.state outcome s' call'.state := by
  rcases loadStore_cases moved with ⟨_, rfl, rfl⟩ | ⟨value, seen, _, stepped⟩
  · exact .loads rfl rfl
  · rcases seen with loaded | ⟨_, rfl⟩
    · refine flagCommands_apart (leaves value loaded) (fun keeper => ?_) stepped
      exact absurd (updates.2 value loaded) (Bool.eq_false_iff.mp keeper)
    · exact flagCommands_apart ⟨fun _ => rfl, fun _ => rfl⟩ (fun _ => rfl) stepped

end Steps

/-! Runs. -/

theorem ApartStep.messages {s s' : FlagState} {outcome : Outcome} {request : FlagRequest} {call call' : Updating FlagCall (BitVec 8)}
    {born : State → Prop} (updates : Updates ⟨request, call⟩) (apart : ApartStep s call.state outcome s' call'.state) :
    Shift Tsm.device Freely born (some s.device.flushingOnly) (messagePart ⟨request, call⟩) (some s'.device.flushingOnly)
      (messagePart ⟨request, call'⟩) := by
  cases apart with
  | loads shared state =>
    rw [messagePart, messagePart, shared, state]
    exact .stays _ _
  | onDevice state state' moved other =>
    rcases request with asked | asked
    · simp only [messagePart, FlagRequest.onDevice, state, state', FlagCall.onDevice, Option.bind_some, Option.map_some]
      exact .moves trivial moved
    · exact absurd (updates.1.mp (by rw [state]; rfl)) Bool.false_ne_true
  | onBarrier state state' moved other =>
    have none : ∀ call : FlagCall, call.onBarrier.isSome → call.onDevice = none := by
      rintro (_ | _ | _) barrier
      · cases barrier
      · rfl
      · rfl
    rw [messagePart, messagePart, other, none call.state (by rw [state]; rfl), none call'.state (by rw [state']; rfl)]
    exact .stays _ _

theorem ApartStep.barriers {s s' : FlagState} {outcome : Outcome} {request : FlagRequest} {call call' : Updating FlagCall (BitVec 8)}
    {born : Barrier → Prop} (updates : Updates ⟨request, call⟩) (apart : ApartStep s call.state outcome s' call'.state) :
    Shift Tsm.barrier Freely born (some s.barrier.barrierOnly) (barrierPart ⟨request, call⟩) (some s'.barrier.barrierOnly)
      (barrierPart ⟨request, call'⟩) := by
  cases apart with
  | loads shared state =>
    rw [barrierPart, barrierPart, shared, state]
    exact .stays _ _
  | onDevice state state' moved other =>
    simp only [barrierPart, state, state', FlagCall.onBarrier, Option.map_none, other]
    exact .stays _ _
  | onBarrier state state' moved other =>
    rcases request with asked | asked
    · have none : call.state.onDevice = none := by
        cases found : call.state with
        | device call =>
          rw [found] at state
          cases state
        | sleep _ _ | awake _ => rfl
      exact absurd (updates.1.mpr rfl) (by simp [none])
    · simp only [barrierPart, FlagRequest.onBarrier, state, state', Option.bind_some, Option.map_some]
      exact .moves trivial moved

section Runs
variable {maxMessageSize maxStorageSize : UInt32} {msecsToJiffies : UInt32 → Nat} {delayWq : Bool} {config : FlagConfig}
  (reached : Reaches unlockedFlags (StoresSee LeavesOther) (installedFlags maxMessageSize maxStorageSize msecsToJiffies delayWq)
    config)
include reached

/-- The calls on the device are in a run of the device without a barrier. -/
theorem messages_apart :
    Attains device Anything (installed maxMessageSize maxStorageSize msecsToJiffies delayWq) config.shared.device.flushingOnly
      (parts messagePart config.calls) := by
  have lives : Lives device Freely (· = .installed maxMessageSize maxStorageSize msecsToJiffies delayWq)
      (some config.shared.device.flushingOnly) (parts messagePart config.calls) := by
    refine reached.lives (fun s => some s.device.flushingOnly) messagePart ⟨rfl, ?_⟩ ?_ ?_ ?_
    · rintro first ⟨⟩
      simp [State.flushingOnly, installedFlags, State.installed]
    · rintro s (request | request)
      · exact .joins _ request
      · exact .stays _ _
    · intro s left right request call outcome s' call' reached permitted moved
      have updates := calls_update reached rfl ⟨request, call⟩ (by simp)
      exact (unlocked_apart updates (permitted (call, outcome) (mover_move _ _ _ _ _)) moved).messages updates
    · intro s calls event s' _ happened
      obtain ⟨d', stepped, equal⟩ := Option.map_eq_some_iff.mp happened
      cases equal
      have alone : Tsm.device.environment event s.device.flushingOnly = some d'.flushingOnly := by
        rw [event_flushingOnly, stepped]
        rfl
      exact .happens none alone
  obtain ⟨_, rfl, attained⟩ := lives
  exact attained.anything

/-- The barrier commands are in a run of the barrier by itself. -/
theorem barriers_apart :
    Attains barrier Anything noBarrier config.shared.barrier.barrierOnly (parts barrierPart config.calls) := by
  have lives : Lives barrier Freely (· = noBarrier.shared) (some config.shared.barrier.barrierOnly)
      (parts barrierPart config.calls) := by
    refine reached.lives (fun s => some s.barrier.barrierOnly) barrierPart ⟨rfl, ?_⟩ ?_ ?_ ?_
    · rintro first ⟨⟩
      simp [Barrier.barrierOnly, FlagState.barrier, FlagState.flags, installedFlags, State.installed, noBarrier]
    · rintro s (request | request)
      · exact .stays _ _
      · cases request <;> exact .joins _ _
    · intro s left right request call outcome s' call' reached permitted moved
      have updates := calls_update reached rfl ⟨request, call⟩ (by simp)
      exact (unlocked_apart updates (permitted (call, outcome) (mover_move _ _ _ _ _)) moved).barriers updates
    · intro s calls event s' _ happened
      obtain ⟨d', stepped, equal⟩ := Option.map_eq_some_iff.mp happened
      cases equal
      obtain ⟨flags, -⟩ := environment_keeps_flags (environment_cases stepped)
      have same : ({ s with device := d' } : FlagState).barrier = s.barrier := by
        simp only [FlagState.barrier, FlagState.flags, flags]
      rw [same]
      exact .stays _ _
  obtain ⟨_, rfl, attained⟩ := lives
  exact attained.anything

end Runs

end Tsm
