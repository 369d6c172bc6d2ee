import Tsm.Lib.Faults
import Tsm.Device.Locks

/-! The steps of a group device that do not return. `list_del` poisons the pointers of
the entry, and freeing the entry leaves them as they are; `kzalloc` of no bytes gives a
pointer to no object. Whoever goes through one of them is killed. -/

namespace Tsm
open Interleaving Sections Faults

/-- The pointers of a work that `list_del` has left poisoned: it was not linked again. -/
def State.poisoned (s : State) (work : Nat) : Bool := decide (work ∈ s.history.unlinked ∧ work ∉ s.dev.delayList)

/-- `kzalloc(length)` gives an object of `ksize length` bytes. -/
def Call.faults (ksize : Nat → Nat) (outcome : Outcome) (s : State) : Call → Bool
  -- data[length] = 0, once there is room and the copy succeeded
  | .write (.critical _ length _) =>
    decide (s.dev.messagesNumber < s.maxStorageSize) && outcome.copy && ksize length == 0
  -- a node that a read has unlinked
  | .write (.traverse _ (some pos)) => decide (pos ∉ s.dev.messageList)
  | .revoke (.visit pos _) => s.poisoned pos
  | _ => false

/-- The thread, in `list_del` of a work that was unlinked already. -/
def State.workFaults (s : State) : Bool := s.unlinking.any s.poisoned

def deviceFaults (ksize : Nat → Nat) : Hazards State Call Outcome Event := ⟨Call.faults ksize, .worker, State.workFaults⟩

/-- A group device whose threads can be killed. -/
def mortalDevice (ksize : Nat → Nat) : System (Mortal State) Request (Mortal Call) Outcome Event :=
  (deviceFaults ksize).mortal device

/-- The same with its semaphores, which a killed thread keeps. -/
def mortalLocks (ksize : Nat → Nat) : System (Mortal (World State Sem)) Request (Mortal (Party Call Sem)) Outcome Event :=
  ((deviceFaults ksize).underLocks Sem).mortal deviceLocking.locked

abbrev MortalConfig := Config (Mortal State) Request (Mortal Call)
abbrev MortalLocksConfig := Config (Mortal (World State Sem)) Request (Mortal (Party Call Sem))

/-- Everybody alive, and no call yet. -/
def installedMortal (maxMessageSize maxStorageSize : UInt32) (msecsToJiffies : UInt32 → Nat) (delayWq : Bool) :
    MortalConfig := ⟨.alive (.installed maxMessageSize maxStorageSize msecsToJiffies delayWq), []⟩

def installedMortalLocks (maxMessageSize maxStorageSize : UInt32) (msecsToJiffies : UInt32 → Nat) (delayWq : Bool) :
    MortalLocksConfig := ⟨.alive (installedLocks maxMessageSize maxStorageSize msecsToJiffies delayWq).shared, []⟩

/-- Objects of whole words, for the concrete runs. -/
def wordSize (length : Nat) : Nat := (length + 7) / 8 * 8

end Tsm
