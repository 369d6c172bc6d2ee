import Tsm.Lib.CString
import Tsm.Device.System

/-! The bytes that the file operations access: of the buffer allocated for a message,
which is as long as the length that is left of the caller's, and of the caller's own. -/

namespace Tsm
open Interleaving CString

/-- Like `Outcome`, with the number of bytes of the caller's buffer that can be
accessed before a fault. -/
structure Granted where
  alloc : Bool
  accessible : Nat
  deriving DecidableEq, Repr

/-- How many bytes the next step copies from or to the caller. -/
def Call.copies : Call → Nat
  | .write (.critical _ length _) => length
  | .read (.copyToUser msg length) => min length msg.dataSize
  | _ => 0

def Granted.outcome (granted : Granted) (call : Call) : Outcome := ⟨granted.alloc, call.copies ≤ granted.accessible⟩

def buffered : System State Request Call Granted Event where
  enter := enter
  move granted s call := move (granted.outcome call) s call
  environment := environment

abbrev BufferedAct := Act Request Granted Event

inductive Access where
  /-- A store to `data[index]`, allocated with `size` bytes. -/
  | store (size index : Nat)
  /-- `count` bytes are read from a caller that has passed the length `passed`. -/
  | fetch (passed count : Nat)
  /-- These are the bytes allocated for a message that is stored, or printed with `%s`. -/
  | text (data : List UInt8)
  deriving DecidableEq, Repr

def Access.Inside : Access → Prop
  | .store size index => index < size
  | .fetch passed count => count ≤ passed
  | .text data => (strlen data).isSome

instance : (access : Access) → Decidable access.Inside
  | .store _ _ => inferInstanceAs (Decidable (_ < _))
  | .fetch _ _ => inferInstanceAs (Decidable (_ ≤ _))
  | .text _ => inferInstanceAs (Decidable (_ = true))

def WritePc.accesses (granted : Granted) (s : State) (passed : Nat) : WritePc → List Access
  | .critical buf length _ =>
    if s.dev.messagesNumber ≥ s.maxStorageSize then []
    -- the bytes that were not copied are set to zero
    else if granted.accessible < length then
      (List.range length).map (.store length) ++ [.fetch passed granted.accessible]
    else
      (List.range length).map (.store length) ++
        [.fetch passed length, .store length length, .text (copyFromUser buf length)]
  | .print msg => [.text msg.data]
  | _ => []

/-- What the next step of a call accesses. -/
def processAccesses (granted : Granted) (s : State) : Process Request Call → List Access
  | ⟨.write _ passed, .write pc⟩ => pc.accesses granted s passed
  | ⟨_, .read (.print msg _ _)⟩ => [.text msg.data]
  | _ => []

def workAccesses (s : State) : List Access :=
  match s.wq.running with
  | some (_, .print msg) => [.text msg.data]
  | _ => []

def accesses (config : DeviceConfig) : BufferedAct → List Access
  | .move call granted => (config.calls[call]?).elim [] (processAccesses granted config.shared)
  | .environment .worker => workAccesses config.shared
  | .enter _ | .environment _ => []

@[simp] theorem accesses_move (s : State) (left right : List (Process Request Call)) (process : Process Request Call)
    (granted : Granted) :
    accesses ⟨s, left ++ process :: right⟩ (.move left.length granted) = processAccesses granted s process := by
  simp [accesses]

end Tsm
