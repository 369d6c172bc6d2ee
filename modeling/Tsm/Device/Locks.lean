import Tsm.Lib.Sections
import Tsm.Device.Transitions

/-! The semaphores of a group device, with each `down` and each `up` as a step. The
sections of the device are those of its calls and of `delayed_work_fun`. -/

namespace Tsm
open Interleaving Sections

inductive Sem where
  | wq
  | pending
  | message
  deriving DecidableEq, Repr

/-- What a call acquires before its next step. -/
def Call.takes : Call → List Sem
  | .write (.critical _ _ _) | .read (.entry _) => [.message]
  | .write (.pend _) => [.pending]
  | .revoke .splice => [.pending, .message]
  | .write (.downWq _ _) | .revoke .downWq => [.wq]
  | _ => []

/-- What a call releases after its next step, also where the step fails. -/
def Call.gives : Call → List Sem
  | .write (.critical _ _ _) | .read (.entry _) => [.message]
  | .write (.pend _) => [.pending]
  | .revoke .splice => [.pending, .message]
  | .write (.upWq _) | .revoke .upWq => [.wq]
  | _ => []

/-- What the thread acquires before its next step and releases after it. -/
def State.workTakes (s : State) : List Sem :=
  match s.wq.running with
  | some (_, .pop) => [.pending]
  | some (_, .insert _) => [.message]
  | _ => []

theorem move_keeps_running {s s' : State} {outcome call call'} (step : MoveStep outcome s call s' call') :
    s'.wq.running = s.wq.running := by
  cases step with
  | write step =>
    cases step with
    | queueWork => exact Workqueue.running_queueDelayedWork _ _ _ _
    | _ => rfl
  | read step => cases step <;> rfl
  | setSendDelay step => cases step <;> rfl
  | revoke step =>
    cases step with
    | flush => exact Workqueue.running_flushDelayedWork _ _
    | _ => rfl

theorem move_keeps_held {s s' : State} {outcome call call'} (step : MoveStep outcome s call s' call') :
    Multiset.replicate call.inside Sem.wq + call.takes = call.gives + Multiset.replicate call'.inside Sem.wq := by
  cases step with
  | write step => cases step <;> rfl
  | read step => cases step <;> rfl
  | setSendDelay step => cases step <;> rfl
  | revoke step => cases step <;> rfl

def deviceLocking : Locking device Sem where
  takes := Call.takes
  gives := Call.gives
  holds call := Multiset.replicate call.inside .wq
  agent := .worker
  agentTakes := State.workTakes
  entered request := by cases request <;> rfl
  moved moved := by
    have step := move_cases moved
    exact ⟨move_keeps_held step, by simp only [State.workTakes, move_keeps_running step]⟩
  happened other happened := by
    cases environment_cases happened with
    | worker step => exact absurd rfl other
    | _ => rfl

/-- A group device just installed, its three semaphores up. -/
def installedLocks (maxMessageSize maxStorageSize : UInt32) (msecsToJiffies : UInt32 → Nat) (delayWq : Bool) :
    Config (World State Sem) Request (Party Call Sem) :=
  deviceLocking.start (.installed maxMessageSize maxStorageSize msecsToJiffies delayWq)

end Tsm
