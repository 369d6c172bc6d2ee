import Tsm.Lib.Descriptors
import Tsm.Lib.Service
import Tsm.Library.Messages
import Tsm.Module.System

/-! The library in the processes that use it, over the module. The threads of a process
share its descriptors, the static `max_message_size` and the buffers they send from; what
they ask of the kernel is a call of the module. -/

namespace Tsm.Library
open Interleaving Service Descriptors Tsm.Module Manager

def ATTEMPTS : Nat := 10000

/-- What a descriptor refers to. -/
inductive Handle where
  | tsmDev
  | groupDev (filp : Nat)
  deriving DecidableEq, Repr

structure UserProcess where
  maxMessageSize : UInt32
  descriptors : List (Option Handle)
  /-- The first number no `group_dev_name` has, and which of them were freed. -/
  names : Nat
  freed : List Nat
  /-- The buffers that are passed to `send_message`. -/
  buffers : Nat → List UInt8

/-- A process just started, with no file open. -/
def UserProcess.started (buffers : Nat → List UInt8) : UserProcess := ⟨0, [], 0, [], buffers⟩

def UserProcess.handle (p : UserProcess) (fd : Int) : Option Handle :=
  if fd < 0 then none else lookup p.descriptors fd.toNat

/-- What an operation on a descriptor is for the module. The kernel refuses one on a
descriptor that is not open, and one that the main device has no function for. -/
def UserProcess.syscall (p : UserProcess) (fd : Int) (op : FileOp) (desc : UInt8) (memory : Memory) : Option Syscall :=
  match p.handle fd, op with
  | some (.groupDev filp), op => some (.file filp op)
  | some .tsmDev, .unlockedIoctl cmd _ => some (.tsmIoctl cmd desc memory)
  | _, _ => none

/-! What a call of the module returns to its caller. -/

inductive Answer where
  | tsmIoctl (ret : Int) (copied : Option UInt32)
  | opened (filp : Nat)
  | returned (ret : Int) (bytes : List UInt8)
  deriving DecidableEq, Repr

def returnedBy : FlagCall → Option (Int × List UInt8)
  | .device (.write (.done ret _)) => some (ret, [])
  | .device (.read (.done ret _ bytes)) => some (ret, bytes)
  | .device (.setSendDelay (.done ret)) | .device (.revoke (.done ret)) | .sleep (.done ret) _ | .awake (.done ret) =>
    some (ret, [])
  | _ => none

def answer : Module.Call → Option Answer
  | .tsmIoctl (.done ret copied) => some (.tsmIoctl ret copied)
  | .opened filp => some (.opened filp)
  | .done ret => some (.returned ret [])
  | .device _ call => (returnedBy call.state).map fun (ret, bytes) => .returned ret bytes
  | _ => none

def Answer.ret : Answer → Int
  | .tsmIoctl ret _ | .returned ret _ => ret
  | .opened _ => 0

/-- What it has copied to the buffer of a read. -/
def Answer.bytes : Answer → List UInt8
  | .returned _ bytes => bytes
  | .tsmIoctl _ _ | .opened _ => []

/-! `open_group`. -/

inductive OpenPc where
  | entry (groupDescriptor : Option UInt8)
  | openTsm (desc : UInt8)
  | installGroup (desc : UInt8) (fd : Nat)
  /-- In the ioctl. -/
  | installing (desc : UInt8) (fd : Nat)
  | testMaxMessageSize (desc : UInt8) (fd : Nat)
  | askMaxMessageSize (desc : UInt8) (fd : Nat)
  | asking (desc : UInt8) (fd : Nat)
  | closeFailed (fd : Nat)
  | closeTsm (desc : UInt8) (fd : Nat)
  | malloc (desc : UInt8)
  | sprintf (desc : UInt8) (name : Nat)
  | attempt (desc : UInt8) (name i : Nat)
  /-- In the open of the group device. -/
  | opening (desc : UInt8) (name i : Nat)
  | sleep (desc : UInt8) (name i : Nat)
  | free (desc : UInt8) (name : Nat) (ret : Int)
  deriving DecidableEq, Repr

inductive LibraryCall where
  | openGroup (groupDescriptor : Option UInt8)
  | sendMessage (fd : Int) (msg : Option Nat)
  | retrieveMessage (fd : Int) (length : Nat)
  | sleepOnBarrier (fd : Int)
  | awakeBarrier (fd : Int)
  | setSendDelay (fd : Int) (delay : Int64)
  | revokeDelayedMessages (fd : Int)
  | closeGroup (fd : Int)
  deriving DecidableEq

inductive Pc where
  | openGroup (pc : OpenPc)
  | send (fd : Int) (msg : Option Nat) (pc : SendPc)
  /-- A function whose checks have refused its arguments, or let this operation pass. -/
  | command (checked : Option (Int × FileOp))
  | closeGroup (fd : Int)
  /-- In the one operation that it makes. -/
  | waiting
  | done (ret : Int) (bytes : List UInt8)

/-- The functions that do nothing but check the descriptor and make one operation. -/
def command (fd : Int) (op : FileOp) : Option (Int × FileOp) := if fd < 0 then none else some (fd, op)

def sleepOnBarrier (fd : Int) : Option (Int × FileOp) := command fd (.unlockedIoctl IOCTL_SLEEP_ON_BARRIER 0)

def awakeBarrier (fd : Int) : Option (Int × FileOp) := command fd (.unlockedIoctl IOCTL_AWAKE_BARRIER 0)

def revokeDelayedMessages (fd : Int) : Option (Int × FileOp) := command fd (.unlockedIoctl IOCTL_REVOKE_DELAYED_MESSAGES 0)

def entered : LibraryCall → Pc
  | .openGroup groupDescriptor => .openGroup (.entry groupDescriptor)
  | .sendMessage fd msg => .send fd msg (.entry fd)
  | .retrieveMessage fd length => .command ((retrieveMessage fd length).map fun _ => (fd, .read length))
  | .sleepOnBarrier fd => .command (sleepOnBarrier fd)
  | .awakeBarrier fd => .command (awakeBarrier fd)
  | .setSendDelay fd delay =>
    .command ((setSendDelay fd delay).map fun _ => (fd, .unlockedIoctl IOCTL_SET_SEND_DELAY delay.toUInt64))
  | .revokeDelayedMessages fd => .command (revokeDelayedMessages fd)
  | .closeGroup fd => .closeGroup fd

/-- What is decided outside the library and the module in one step. -/
structure LibraryOutcome where
  openTsm : Bool
  malloc : Bool
  memory : Memory
  /-- The address that an ioctl passes. -/
  pointer : UInt64

def openGroupStep (outcome : LibraryOutcome) (p : UserProcess) : OpenPc → Option (UserProcess × Pc × Option Syscall)
  | .entry none => some (p, .done (-1) [], none)
  | .entry (some desc) => some (p, .openGroup (.openTsm desc), none)
  | .openTsm desc =>
    if !outcome.openTsm then some (p, .done (-1) [], none)
    else
      some ({ p with descriptors := install p.descriptors .tsmDev },
        .openGroup (.installGroup desc (lowest p.descriptors)), none)
  | .installGroup desc fd =>
    match p.syscall fd (.unlockedIoctl IOCTL_INSTALL_GROUP outcome.pointer) desc outcome.memory with
    | none => some (p, .openGroup (.closeFailed fd), none)
    | some asks => some (p, .openGroup (.installing desc fd), some asks)
  | .testMaxMessageSize desc fd =>
    if p.maxMessageSize = 0 then some (p, .openGroup (.askMaxMessageSize desc fd), none)
    else some (p, .openGroup (.closeTsm desc fd), none)
  | .askMaxMessageSize desc fd =>
    match p.syscall fd (.unlockedIoctl IOCTL_MAX_MESSAGE_SIZE outcome.pointer) desc outcome.memory with
    | none => some (p, .openGroup (.closeFailed fd), none)
    | some asks => some (p, .openGroup (.asking desc fd), some asks)
  | .closeFailed fd => some ({ p with descriptors := close p.descriptors fd }, .done (-1) [], none)
  | .closeTsm desc fd => some ({ p with descriptors := close p.descriptors fd }, .openGroup (.malloc desc), none)
  | .malloc desc =>
    if !outcome.malloc then some (p, .done (-1) [], none)
    else some ({ p with names := p.names + 1 }, .openGroup (.sprintf desc p.names), none)
  | .sprintf desc name => some (p, .openGroup (.attempt desc name 0), none)
  | .attempt desc name i =>
    if i < ATTEMPTS then some (p, .openGroup (.opening desc name i), some (.openFile (groupDevName desc.toNat)))
    else some (p, .openGroup (.free desc name (-1)), none)
  | .sleep desc name i => some (p, .openGroup (.attempt desc name (i + 1)), none)
  | .free _ name ret => some ({ p with freed := p.freed ++ [name] }, .done ret [], none)
  | .installing _ _ | .asking _ _ | .opening _ _ _ => none

def openGroupResume (answer : Answer) (p : UserProcess) : OpenPc → UserProcess × Pc
  | .installing desc fd =>
    if answer.ret < 0 then (p, .openGroup (.closeFailed fd)) else (p, .openGroup (.testMaxMessageSize desc fd))
  | .asking desc fd =>
    let p := match answer with
      | .tsmIoctl _ (some size) => { p with maxMessageSize := size }
      | _ => p
    if answer.ret < 0 then (p, .openGroup (.closeFailed fd)) else (p, .openGroup (.closeTsm desc fd))
  | .opening desc name i =>
    match answer with
    | .opened filp =>
      ({ p with descriptors := install p.descriptors (.groupDev filp) }, .openGroup (.free desc name (lowest p.descriptors)))
    | _ => (p, .openGroup (.sleep desc name i))
  | pc => (p, .openGroup pc)

def UserProcess.store (p : UserProcess) (msg : Option Nat) (bytes : List UInt8) : UserProcess :=
  match msg with
  | none => p
  | some buffer => { p with buffers := Function.update p.buffers buffer bytes }

def UserProcess.load (p : UserProcess) (msg : Option Nat) : List UInt8 := msg.elim [] p.buffers

/-- `send_message`, with its check of the pointer. -/
def sendStep (outcome : LibraryOutcome) (p : UserProcess) (fd : Int) (msg : Option Nat) :
    SendPc → Option (UserProcess × Pc × Option Syscall)
  | .write length =>
    match p.syscall fd (.write (fun i => (p.load msg).getD i 0) length) 0 outcome.memory with
    | none => some (p, .done (-1) [], none)
    | some asks => some (p, .waiting, some asks)
  | .done ret => some (p, .done ret [], none)
  | pc =>
    if pc = .save ∧ msg = none then some (p, .done (-1) [], none)
    else
      match sendMessage p.maxMessageSize (p.load msg) pc with
      | none => none
      | some (bytes, pc') => some (p.store msg bytes, .send fd msg pc', none)

/-- `send_message` takes a step on its buffer, gives up, or makes its write. -/
theorem send_cases {outcome : LibraryOutcome} {p p' : UserProcess} {pc' : Pc} {asks : Option Syscall} {fd : Int} {msg : Option Nat} {pc : SendPc}
    (stepped : sendStep outcome p fd msg pc = some (p', pc', asks)) :
    (∃ bytes next, p' = p.store msg bytes ∧ pc' = .send fd msg next ∧ asks = none) ∨
      (∃ ret, p' = p ∧ pc' = .done ret [] ∧ asks = none) ∨
      ∃ buf length syscall, p' = p ∧ pc' = .waiting ∧ asks = some syscall ∧
        p.syscall fd (.write buf length) 0 outcome.memory = some syscall := by
  cases pc with
  | write length =>
    simp only [sendStep] at stepped
    split at stepped
    · cases stepped
      exact .inr (.inl ⟨_, rfl, rfl, rfl⟩)
    next syscall refused =>
      cases stepped
      exact .inr (.inr ⟨_, _, syscall, rfl, rfl, rfl, refused⟩)
  | done ret =>
    cases stepped
    exact .inr (.inl ⟨ret, rfl, rfl, rfl⟩)
  | _ =>
    simp only [sendStep] at stepped
    split at stepped
    · cases stepped
      exact .inr (.inl ⟨_, rfl, rfl, rfl⟩)
    · split at stepped
      · cases stepped
      · cases stepped
        exact .inl ⟨_, _, rfl, rfl, rfl⟩

def libraryStep (outcome : LibraryOutcome) (p : UserProcess) : Pc → Option (UserProcess × Pc × Option Syscall)
  | .openGroup pc => openGroupStep outcome p pc
  | .send fd msg pc => sendStep outcome p fd msg pc
  | .command none => some (p, .done (-1) [], none)
  | .command (some (fd, op)) =>
    match p.syscall fd op 0 outcome.memory with
    | none => some (p, .done (-1) [], none)
    | some asks => some (p, .waiting, some asks)
  | .closeGroup fd =>
    if fd < 0 then some (p, .done (-1) [], none)
    else some ({ p with descriptors := close p.descriptors fd.toNat }, .done 0 [], none)
  | .waiting | .done _ _ => none

def libraryResume (answer : Answer) (p : UserProcess) : Pc → UserProcess × Pc
  | .openGroup pc => openGroupResume answer p pc
  | .waiting => (p, .done answer.ret answer.bytes)
  | pc => (p, pc)

/-! All processes, and the module under them. -/

structure Request where
  pid : Nat
  call : LibraryCall

structure Place where
  pid : Nat
  pc : Pc

def library : Program Request (Nat → UserProcess) Place Syscall Answer LibraryOutcome where
  enter request := ⟨request.pid, entered request.call⟩
  step outcome processes place :=
    match libraryStep outcome (processes place.pid) place.pc with
    | none => none
    | some (p, pc, asks) => some (Function.update processes place.pid p, ⟨place.pid, pc⟩, asks)
  resume answer processes place :=
    let (p, pc) := libraryResume answer (processes place.pid) place.pc
    (Function.update processes place.pid p, ⟨place.pid, pc⟩)

theorem program_step {outcome : LibraryOutcome} {processes processes' : Nat → UserProcess} {place place' : Place}
    {asks : Option Syscall} (stepped : library.step outcome processes place = some (processes', place', asks)) :
    ∃ p', processes' = Function.update processes place.pid p' ∧ place'.pid = place.pid ∧
      libraryStep outcome (processes place.pid) place.pc = some (p', place'.pc, asks) := by
  simp only [library] at stepped
  split at stepped
  · cases stepped
  next p' pc' asks taken =>
    cases stepped
    exact ⟨p', rfl, rfl, taken⟩

abbrev LibraryState := Shared Module.State (Nat → UserProcess)
abbrev RunningCall := Running Place Syscall Module.Call

def users : System LibraryState Request RunningCall (Module.Outcome × LibraryOutcome) Module.Event :=
  served tsm answer library

abbrev UserConfig := Config LibraryState Request RunningCall
abbrev UserAct := Act Request (Module.Outcome × LibraryOutcome) Module.Event

/-- The module just loaded, and no process has opened anything. -/
def idle (maxMessageSize maxStorageSize : UInt32) (msecsToJiffies : UInt32 → Nat) (buffers : Nat → Nat → List UInt8) :
    UserConfig :=
  ⟨⟨.loaded maxMessageSize maxStorageSize msecsToJiffies, fun pid => .started (buffers pid)⟩, []⟩

end Tsm.Library
