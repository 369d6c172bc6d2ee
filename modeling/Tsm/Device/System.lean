import Tsm.Lib.Interleaving
import Tsm.Device.Calls

/-! One group device with any number of calls in progress. -/

namespace Tsm
open Interleaving

inductive Request where
  | write (buf : Nat → UInt8) (length : Nat)
  | read (length : Nat)
  | setSendDelay (arg : UInt64)
  | revokeDelayedMessages

inductive Call where
  | write (pc : WritePc)
  | read (pc : ReadPc)
  | setSendDelay (pc : DelayPc)
  | revoke (pc : FlushPc)

/-- What happens without a call: time passes, a module parameter is written, a
timer expires, the workqueue's thread takes a step. -/
inductive Event where
  | tick
  | maxMessageSize (value : UInt32)
  | maxStorageSize (value : UInt32)
  | expire (work : Work)
  | worker
  deriving DecidableEq, Repr

def enter : Request → Call
  | .write buf length => .write (.entry buf length)
  | .read length => .read (.entry length)
  | .setSendDelay arg => .setSendDelay (.entry arg)
  | .revokeDelayedMessages => .revoke .splice

/-- Between its steps a call holds `wq_sem` or nothing. -/
def Call.inside : Call → Nat
  | .write (.queueWork _ _) | .write (.listAdd _ _) | .write (.upWq _) => 1
  | .revoke .splice | .revoke .checkWq | .revoke .downWq | .revoke (.done _) => 0
  | .revoke _ => 1
  | _ => 0

def move (outcome : Outcome) (s : State) : Call → Option (State × Call)
  | .write pc => (groupWrite outcome s pc).map fun (s, pc) => (s, .write pc)
  | .read pc => (groupRead outcome s pc).map fun (s, pc) => (s, .read pc)
  | .setSendDelay pc => (setSendDelay s pc).map fun (s, pc) => (s, .setSendDelay pc)
  | .revoke pc => (fflushWorkqueue s pc).map fun (s, pc) => (s, .revoke pc)

/-- The thread of the workqueue: it goes on with the work it executes, or takes
the next one. -/
def worker (s : State) : Option State :=
  match s.wq.running with
  | some (work, pc) => some (delayedWorkFun s work pc)
  | none =>
    match s.wq.queue with
    | [] => none
    | work :: rest => some { s with wq.queue := rest, wq.running := some (work, .pop) }

/-- The work that the thread is about to unlink. -/
def State.unlinking (s : State) : Option Nat :=
  match s.wq.running with
  | some (work, .listDel) => some work.id
  | _ => none

def environment (event : Event) (s : State) : Option State :=
  match event with
  | .tick => some { s with jiffies := s.jiffies + 1 }
  | .maxMessageSize value => some { s with maxMessageSize := value }
  | .maxStorageSize value =>
    some { s with maxStorageSize := value, history.peak := max s.history.peak value }
  | .expire work =>
    if work ∈ s.wq.timers ∧ work.expires ≤ s.jiffies then some { s with wq := s.wq.expire work } else none
  | .worker => worker s

def device : System State Request Call Outcome Event := ⟨enter, move, environment⟩

abbrev DeviceConfig := Config State Request Call
abbrev DeviceAct := Act Request Outcome Event

def installed (maxMessageSize maxStorageSize : UInt32) (msecsToJiffies : UInt32 → Nat) (delayWq : Bool) :
    DeviceConfig := ⟨.installed maxMessageSize maxStorageSize msecsToJiffies delayWq, []⟩

/-! The concrete runs of this development start from one device, with the
default parameters and one jiffy for a millisecond. -/

def sampleDevice : DeviceConfig := installed 32 64 UInt32.toNat true

def letters (i : Nat) : UInt8 := 97 + UInt8.ofNat i

/-- The next step of a call, with every allocation and every copy successful. -/
def proceed (call : Nat) : DeviceAct := .move call ⟨true, true⟩

def steps (call count : Nat) : List DeviceAct := List.replicate count (proceed call)

end Tsm
