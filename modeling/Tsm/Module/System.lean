import Mathlib.Logic.Function.Basic
import Tsm.Device.Flags
import Tsm.Manager.Ioctl
import Tsm.Module.Names

/-! The whole module: the main device, whose ioctl installs groups, any number of group
devices, and the files that are open on them. A system call on a file goes to the
device that `group_open` has recorded in it. -/

namespace Tsm.Module
open Interleaving LoadStore Manager

/-! The commands of a group device, next to those of the main device. -/

def io : UInt32 → UInt32 := fun number => ioc 0 number 0

def IOCTL_SLEEP_ON_BARRIER : UInt32 := io 2
def IOCTL_AWAKE_BARRIER : UInt32 := io 3
def IOCTL_SET_SEND_DELAY : UInt32 := iow 4 8
def IOCTL_REVOKE_DELAYED_MESSAGES : UInt32 := io 5

/-- `group_dev_fops`. -/
inductive FileOp where
  | read (length : Nat)
  | write (buf : Nat → UInt8) (length : Nat)
  | unlockedIoctl (cmd : UInt32) (arg : UInt64)
  | flush
  | release

/-- The switch of `group_unlocked_ioctl`. -/
def groupUnlockedIoctl (cmd : UInt32) (arg : UInt64) : Option FlagRequest :=
  if cmd = IOCTL_SLEEP_ON_BARRIER then some (.barrier .sleepOnBarrier)
  else if cmd = IOCTL_AWAKE_BARRIER then some (.barrier .awakeBarrier)
  else if cmd = IOCTL_SET_SEND_DELAY then some (.device (.setSendDelay arg))
  else if cmd = IOCTL_REVOKE_DELAYED_MESSAGES then some (.device .revokeDelayedMessages)
  else none

/-- What an operation does to the device of its file, if anything. -/
def FileOp.request : FileOp → Option FlagRequest
  | .read length => some (.device (.read length))
  | .write buf length => some (.device (.write buf length))
  | .unlockedIoctl cmd arg => groupUnlockedIoctl cmd arg
  | .flush | .release => none

/-- What it returns if it does nothing. -/
def FileOp.ret : FileOp → Int
  | .flush | .release => 0
  | _ => -1

/-- A device whose `cdev` the kernel can find, under the number it was added with. -/
structure Device where
  number : UInt32 × Nat
  state : FlagState

structure State where
  maxMessageSize : UInt32
  maxStorageSize : UInt32
  msecsToJiffies : UInt32 → Nat
  registry : Manager.State
  devices : Nat → Option Device
  /-- The symbolic links that udev has made, with the numbers of their nodes. -/
  links : List Char → Option (UInt32 × Nat)
  /-- The `private_data` of every file of a group device. -/
  files : List Nat

def State.loaded (maxMessageSize maxStorageSize : UInt32) (msecsToJiffies : UInt32 → Nat) : State where
  maxMessageSize
  maxStorageSize
  msecsToJiffies
  registry := .loaded
  devices _ := none
  links _ := none
  files := []

structure Outcome where
  ioctl : IoctlOutcome
  device : Tsm.Outcome
  /-- The device whose `cdev` the kernel finds for an open. -/
  found : Option Nat

inductive Syscall where
  /-- On the main device. -/
  | tsmIoctl (cmd : UInt32) (desc : UInt8) (memory : Memory)
  | openFile (path : List Char)
  | file (filp : Nat) (op : FileOp)

abbrev DeviceCall := Updating FlagCall (BitVec 8)

inductive Call where
  | tsmIoctl (pc : IoctlPc)
  | lookup (path : List Char)
  | groupOpen (number : UInt32 × Nat)
  /-- The open returned this file. -/
  | opened (filp : Nat)
  | file (filp : Nat) (op : FileOp)
  | device (id : Nat) (call : DeviceCall)
  | done (ret : Int)

/-- The device whose `cdev` a step of an install adds. -/
def addedBy (outcome : IoctlOutcome) : IoctlPc → Option Locals
  | .install (.cdevAdd locals) => if outcome.cdevAdd then some locals else none
  | _ => none

/-- The device as its install has set it up, with its own clock. -/
def State.newDevice (s : State) (locals : Locals) : Device where
  number := (locals.major, locals.desc.toNat)
  state := {
    device := .installed s.maxMessageSize s.maxStorageSize s.msecsToJiffies locals.delayWq
    waitQueue := []
    entries := 0
    clears := 0 }

def State.put (s : State) (id : Nat) (device : Device) : State :=
  { s with devices := Function.update s.devices id (some device) }

def State.add (s : State) : Option Locals → State
  | none => s
  | some locals => s.put locals.id (s.newDevice locals)

def move (outcome : Outcome) (s : State) : Call → Option (State × Call)
  | .tsmIoctl pc =>
    match tsmDevIoctl s.maxMessageSize outcome.ioctl s.registry pc with
    | none => none
    | some (registry, pc') => some ({ s.add (addedBy outcome.ioctl pc) with registry }, .tsmIoctl pc')
  -- the path is resolved to a node, and the number of the node to a device
  | .lookup path =>
    match s.links path with
    | none => some (s, .done (-1))
    | some number => some (s, .groupOpen number)
  | .groupOpen number =>
    match outcome.found with
    | none => some (s, .done (-1))
    | some id =>
      match s.devices id with
      | none => none
      | some device =>
        if device.number = number then some ({ s with files := s.files ++ [id] }, .opened s.files.length) else none
  | .opened _ => none
  | .file filp op =>
    match s.files[filp]? with
    | none => some (s, .done (-1))
    | some id =>
      match op.request with
      | none => some (s, .done op.ret)
      | some request => some (s, .device id (unlockedFlags.enter request))
  | .device id call =>
    match s.devices id with
    | none => none
    | some device =>
      match unlockedFlags.move outcome.device device.state call with
      | none => none
      | some (state, call') => some (s.put id { device with state }, .device id call')
  | .done _ => none

inductive Event where
  | tick
  | maxMessageSize (value : UInt32)
  | maxStorageSize (value : UInt32)
  | expire (id : Nat) (work : Work)
  | worker (id : Nat)
  /-- udev applies its rule to a node. -/
  | udev (number : UInt32 × Nat)
  deriving DecidableEq, Repr

/-- What happens to all devices at once. -/
def State.everywhere (s : State) (change : Tsm.State → Tsm.State) : State :=
  { s with devices := fun id => (s.devices id).map fun device => { device with state.device := change device.state.device } }

def State.happen (s : State) (id : Nat) (event : Tsm.Event) : Option State :=
  match s.devices id with
  | none => none
  | some device =>
    match unlockedFlags.environment event device.state with
    | none => none
    | some state => some (s.put id { device with state })

def environment (event : Event) (s : State) : Option State :=
  match event with
  | .tick => some (s.everywhere fun device => { device with jiffies := device.jiffies + 1 })
  | .maxMessageSize value =>
    some { s.everywhere fun device => { device with maxMessageSize := value } with maxMessageSize := value }
  | .maxStorageSize value =>
    some { s.everywhere fun device =>
        { device with maxStorageSize := value, history.peak := max device.history.peak value } with
      maxStorageSize := value }
  | .expire id work => s.happen id (.expire work)
  | .worker id => s.happen id .worker
  | .udev number =>
    if number ∈ s.registry.nodes then
      match symlink (deviceName number.2) with
      | none => some s
      | some path => some { s with links := Function.update s.links path (some number) }
    else none

def tsm : System State Syscall Call Outcome Event where
  enter
    | .tsmIoctl cmd desc memory => .tsmIoctl (.entry cmd desc memory)
    | .openFile path => .lookup path
    | .file filp op => .file filp op
  move := move
  environment := environment

abbrev ModuleConfig := Config State Syscall Call
abbrev ModuleAct := Act Syscall Outcome Event

def loaded (maxMessageSize maxStorageSize : UInt32) (msecsToJiffies : UInt32 → Nat) : ModuleConfig :=
  ⟨.loaded maxMessageSize maxStorageSize msecsToJiffies, []⟩

/-! What one step of a call can do. -/

inductive MoveStep (outcome : Outcome) (s : State) : Call → State → Call → Prop where
  | tsmIoctl {pc registry pc'} (moved : tsmDevIoctl s.maxMessageSize outcome.ioctl s.registry pc = some (registry, pc')) :
      MoveStep outcome s (.tsmIoctl pc) { s.add (addedBy outcome.ioctl pc) with registry } (.tsmIoctl pc')
  | noLink {path} (missing : s.links path = none) : MoveStep outcome s (.lookup path) s (.done (-1))
  | lookup {path number} (linked : s.links path = some number) : MoveStep outcome s (.lookup path) s (.groupOpen number)
  | noDevice {number} : MoveStep outcome s (.groupOpen number) s (.done (-1))
  | groupOpen {number id device} (present : s.devices id = some device) (numbered : device.number = number) :
      MoveStep outcome s (.groupOpen number) { s with files := s.files ++ [id] } (.opened s.files.length)
  | badFile {filp op} (closed : s.files[filp]? = none) : MoveStep outcome s (.file filp op) s (.done (-1))
  | nothing {filp op id} (opened : s.files[filp]? = some id) (idle : op.request = none) :
      MoveStep outcome s (.file filp op) s (.done op.ret)
  | dispatch {filp op id request} (opened : s.files[filp]? = some id) (asks : op.request = some request) :
      MoveStep outcome s (.file filp op) s (.device id (unlockedFlags.enter request))
  | device {id call device state call'} (present : s.devices id = some device)
      (moved : unlockedFlags.move outcome.device device.state call = some (state, call')) :
      MoveStep outcome s (.device id call) (s.put id { device with state }) (.device id call')

theorem move_cases {outcome : Outcome} {s s' : State} {call call' : Call} (moved : tsm.move outcome s call = some (s', call')) :
    MoveStep outcome s call s' call' := by
  cases call with
  | tsmIoctl pc =>
    simp only [tsm, move] at moved
    split at moved
    · cases moved
    next registry pc' stepped => cases moved; exact .tsmIoctl stepped
  | lookup path =>
    simp only [tsm, move] at moved
    split at moved
    next missing => cases moved; exact .noLink missing
    next number linked => cases moved; exact .lookup linked
  | groupOpen number =>
    simp only [tsm, move] at moved
    split at moved
    · cases moved; exact .noDevice
    next id _ =>
      split at moved
      · cases moved
      next device present =>
        split at moved
        next numbered => cases moved; exact .groupOpen present numbered
        · cases moved
  | opened filp => cases moved
  | file filp op =>
    simp only [tsm, move] at moved
    split at moved
    next closed => cases moved; exact .badFile closed
    next id opened =>
      split at moved
      next idle => cases moved; exact .nothing opened idle
      next request asks => cases moved; exact .dispatch opened asks
  | device id call =>
    simp only [tsm, move] at moved
    split at moved
    · cases moved
    next device present =>
      split at moved
      · cases moved
      next state call' stepped => cases moved; exact .device present stepped
  | done ret => cases moved

/-! The concrete runs of this development start from the module with its default
parameters, and every call of the kernel succeeds. -/

def sampleModule : ModuleConfig := loaded 32 64 UInt32.toNat

/-- An open finds the first device. -/
def smooth : Outcome := ⟨⟨granted firstRegion, true⟩, ⟨true, true⟩, some 0⟩

def moduleSteps (call count : Nat) : List ModuleAct := List.replicate count (.move call smooth)

def asksInstall (desc : UInt8) : ModuleAct := .enter (.tsmIoctl IOCTL_INSTALL_GROUP desc ⟨0, ⟨0, 0⟩⟩)

def asksOpen (desc : Nat) : ModuleAct := .enter (.openFile (groupDevName desc))

/-- A group is installed and its node linked, and two threads open it. -/
def openedRun : List ModuleAct :=
  [asksInstall 7] ++ moduleSteps 0 34 ++ [.environment (.udev (240, 7)), asksOpen 7, asksOpen 7] ++ moduleSteps 1 2 ++
    moduleSteps 2 2

end Tsm.Module
