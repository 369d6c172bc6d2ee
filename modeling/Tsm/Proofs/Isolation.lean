import Tsm.Proofs.Commands
import Tsm.Proofs.Groups

/-! What a group of the module can rely on. Whatever happens to other groups and to the
registry, its messages go the way of a device that is all there is, and its barrier that
of a barrier that is all there is. -/

namespace Tsm.Module
open Interleaving LoadStore

/-! The calls of a group, on either side. -/

def messageCalls (id : Nat) (config : ModuleConfig) : Multiset (Process Request Tsm.Call) :=
  parts (fun process => (groupPart id process).bind messagePart) config.calls

def barrierCalls (id : Nat) (config : ModuleConfig) : Multiset (Process BarrierRequest BarrierCall) :=
  parts (fun process => (groupPart id process).bind barrierPart) config.calls

/-- No update of one flag of a group disturbs the other. -/
abbrev FlagsLeftAlone : ModuleConfig → ModuleAct → Prop :=
  OnDevices fun s call _ => ∀ value ∈ call.loaded, LeavesOther s call.state value

variable {maxMessageSize maxStorageSize : UInt32} {msecsToJiffies : UInt32 → Nat} {config : ModuleConfig} {id : Nat}
  {device : Device}

theorem group_apart (reached : Reaches tsm FlagsLeftAlone (loaded maxMessageSize maxStorageSize msecsToJiffies) config)
    (present : config.shared.devices id = some device) :
    ∃ limit storage msecs delayWq,
      Attains Tsm.device Anything (installed limit storage msecs delayWq) device.state.device.flushingOnly
        (messageCalls id config) ∧
      Attains barrier Anything noBarrier device.state.barrier.barrierOnly (barrierCalls id config) := by
  obtain ⟨limit, storage, msecs, delayWq, all, ran, same⟩ := group_reaches reached present
  have alone : Reaches unlockedFlags (StoresSee LeavesOther) (installedFlags limit storage msecs delayWq) ⟨device.state, all⟩ := ran
  have messages : parts messagePart all = messageCalls id config := parts_parts same
  have barriers : parts barrierPart all = barrierCalls id config := parts_parts same
  have onDevice := messages_apart alone
  have atBarrier := barriers_apart alone
  rw [messages] at onDevice
  rw [barriers] at atBarrier
  exact ⟨limit, storage, msecs, delayWq, onDevice, atBarrier⟩

/-- A thread sleeps at the barrier of a group and another one flushes it. -/
def flushUnderBarrierRun : List ModuleAct :=
  openedRun ++ [.enter (.file 0 (.write letters 3))] ++ moduleSteps 3 7 ++
    [.enter (.file 1 (.unlockedIoctl IOCTL_SLEEP_ON_BARRIER 0))] ++ moduleSteps 4 4 ++
    [.enter (.file 0 (.unlockedIoctl IOCTL_REVOKE_DELAYED_MESSAGES 0))] ++ moduleSteps 5 6

theorem group_apart_flushUnderBarrierRun :
    ∃ config device, run tsm FlagsLeftAlone sampleModule flushUnderBarrierRun = some config ∧
      config.shared.devices 0 = some device ∧ device.state.flags = 3 ∧
      ∃ limit storage msecs delayWq,
        Attains Tsm.device Anything (installed limit storage msecs delayWq) device.state.device.flushingOnly
          (messageCalls 0 config) ∧
        Attains barrier Anything noBarrier device.state.barrier.barrierOnly (barrierCalls 0 config) := by
  have enabled : (run tsm FlagsLeftAlone sampleModule flushUnderBarrierRun).isSome := by decide
  have present : ((run tsm FlagsLeftAlone sampleModule flushUnderBarrierRun).get enabled).shared.devices 0 = some _ := rfl
  exact ⟨_, _, (Option.some_get enabled).symm, present, rfl, group_apart (reaches_get enabled) present⟩

end Tsm.Module
