import Tsm.Lib.LoadStore
import Tsm.Device.Barrier
import Tsm.Device.System

/-! The barrier commands and the other calls on one device, which share the byte of
its flags. `set_bit` and `clear_bit` are a load and a store; the flush takes both
under `wq_sem`, the barrier commands under no lock. -/

namespace Tsm
open Interleaving LoadStore

structure FlagState where
  device : State
  waitQueue : List Nat
  /-- The first number no wait queue entry has. -/
  entries : Nat
  /-- How often an AWAKE has cleared the barrier. Read by no step. -/
  clears : Nat

def FlagState.flags (s : FlagState) : BitVec 8 := s.device.dev.flags

def FlagState.withFlags (value : BitVec 8) (s : FlagState) : FlagState := { s with device.dev.flags := value }

def FlagState.barrier (s : FlagState) : Barrier := ⟨s.flags, s.waitQueue, s.entries⟩

def FlagState.withBarrier (b : Barrier) (s : FlagState) : FlagState :=
  { s with device.dev.flags := b.flags, waitQueue := b.waitQueue, entries := b.fresh }

inductive FlagRequest where
  | device (request : Request)
  | barrier (request : BarrierRequest)

inductive FlagCall where
  | device (call : Call)
  /-- With the number of clears when its `set_barrier` stored. -/
  | sleep (pc : SleepPc) (since : Nat)
  | awake (pc : AwakePc)

def SleepPc.since (clears since : Nat) : SleepPc → Nat
  | .setBarrier => clears
  | _ => since

def AwakePc.clears (clears : Nat) : AwakePc → Nat
  | .clearBarrier => clears + 1
  | _ => clears

/-- Every call, with each of its steps taken at once. -/
def flagCommands : System FlagState FlagRequest FlagCall Outcome Event where
  enter
    | .device request => .device (device.enter request)
    | .barrier .sleepOnBarrier => .sleep .setBarrier 0
    | .barrier .awakeBarrier => .awake .test
  move outcome s
    | .device call => (device.move outcome s.device call).map fun (device, call) => ({ s with device }, .device call)
    | .sleep pc since =>
      (sleepOnBarrier s.barrier pc).map fun (b, pc') => (s.withBarrier b, .sleep pc' (pc.since s.clears since))
    | .awake pc =>
      (awakeBarrier s.barrier pc).map fun (b, pc') => (.withBarrier b { s with clears := pc.clears s.clears }, .awake pc')
  environment event s := (device.environment event s.device).map fun device => { s with device }

/-- The next step is `set_flushing` or `clear_flushing`. -/
def FlagCall.updatesFlushing : FlagCall → Bool
  | .device (.revoke .setFlushing) | .device (.revoke .clearFlushing) => true
  | _ => false

/-- The next step is `set_barrier` or `clear_barrier`. -/
def FlagCall.updatesBarrier : FlagCall → Bool
  | .sleep .setBarrier _ | .awake .clearBarrier => true
  | _ => false

def FlagCall.updates (call : FlagCall) : Bool := call.updatesFlushing || call.updatesBarrier

def flagsVariable : Variable FlagState (BitVec 8) where
  get := FlagState.flags
  put := FlagState.withFlags
  put_get _ := rfl

def unlockedFlags : System FlagState FlagRequest (Updating FlagCall (BitVec 8)) Outcome Event :=
  loadStore flagCommands flagsVariable FlagCall.updates

abbrev FlagConfig := Config FlagState FlagRequest (Updating FlagCall (BitVec 8))
abbrev FlagAct := Act FlagRequest Outcome Event

def installedFlags (maxMessageSize maxStorageSize : UInt32) (msecsToJiffies : UInt32 → Nat) (delayWq : Bool) :
    FlagConfig := ⟨⟨.installed maxMessageSize maxStorageSize msecsToJiffies delayWq, [], 0, 0⟩, []⟩

end Tsm
