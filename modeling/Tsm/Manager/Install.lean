import Tsm.Lib.Interleaving
import Tsm.Lib.KernelList
import Tsm.Manager.State

/-! IOCTL_INSTALL_GROUP: `install_group` with `init_group_devs`, `get_group` and
`_install_group`, as the steps between two accesses to what the calls share. No
lock is taken, so every access to `group_devs` reads the global again. -/

namespace Tsm.Manager
open Interleaving KernelList

/-- What the kernel decides during one install: a field for each of its calls. -/
structure Outcome where
  copyFromUser : Bool
  groupDevs : Bool
  groupDevsList : Bool
  kmalloc : Part → Bool
  createWorkqueue : Bool
  /-- `alloc_chrdev_region` hands out a region or fails. -/
  allocRegion : Option Region
  classCreate : Bool
  cdevAdd : Bool
  deviceCreate : Bool

/-- What the uninitialized locals of `_install_group` hold when it is entered. -/
structure Stack where
  err : Int
  dev : UInt32
  deriving DecidableEq, Repr

/-- The locals of `_install_group`, and the device it builds. -/
structure Locals where
  desc : UInt8
  major : UInt32
  err : Int
  dev : UInt32
  id : Nat
  delayWq : Bool
  cdev : Option UInt32
  deriving DecidableEq, Repr

def Locals.device (locals : Locals) : GroupDev := ⟨locals.id, locals.desc.toNat, locals.delayWq, locals.cdev⟩

inductive InstallPc where
  | copyFromUser (desc : UInt8) (stack : Stack)
  | entry (groupDesc : Option UInt8) (stack : Stack)
  | testGroupDevs (desc : UInt8) (stack : Stack)
  | kzallocGroupDevs (desc : UInt8) (stack : Stack)
  | kmallocList (desc : UInt8) (stack : Stack)
  | initListHead (desc : UInt8) (stack : Stack)
  | kfreeGroupDevs (desc : UInt8) (stack : Stack)
  | getGroup (desc : UInt8) (stack : Stack)
  | scan (desc : UInt8) (stack : Stack)
  | checkCapacity (desc : UInt8) (stack : Stack)
  | readMajor (desc : UInt8) (stack : Stack)
  | kmalloc (part : Part) (locals : Locals)
  | initWorkqueue (locals : Locals)
  | testMajor (locals : Locals)
  | allocRegion (locals : Locals)
  | storeMajor (locals : Locals)
  | testErr (locals : Locals)
  | testClass (locals : Locals)
  | createClass (locals : Locals)
  | cdevAdd (locals : Locals)
  | deviceCreate (locals : Locals)
  | freeName (locals : Locals)
  | kfree (part : Part) (locals : Locals)
  | listAdd (gd : GroupDev)
  | link (manager : Nat) (next : Option GroupDev) (gd : GroupDev)
  | loadUsed
  | storeUsed (manager : Nat) (used : UInt16)
  | listPrint
  | done (ret : Int)
  /-- The thread dereferenced a null or dangling `group_devs` or list, and is killed. -/
  | oops
  deriving DecidableEq, Repr

/-- The allocation that follows this one. -/
def Part.next : Part → Option Part
  | .deviceName => some .newGroupDev
  | .newGroupDev => some .messageList
  | .messageList => some .messageSem
  | .messageSem => some .pendingList
  | .pendingList => some .pendingSem
  | .pendingSem => some .wqSem
  | .wqSem => some .delayList
  | .delayList => none

/-- What the label where this allocation's failure jumps to frees first, and what
the label that frees this part falls through to. -/
def Part.previous : Part → Option Part
  | .deviceName => none
  | .newGroupDev => some .deviceName
  | .messageList => some .newGroupDev
  | .messageSem => some .messageList
  | .pendingList => some .messageSem
  | .pendingSem => some .pendingList
  | .wqSem => some .pendingSem
  | .delayList => some .wqSem

/-- The label that undoes the parts up to `part`. -/
def unwind (locals : Locals) : Option Part → InstallPc
  | none => .done (-1)
  | some part => .kfree part locals

def installGroup (outcome : Outcome) (s : State) : InstallPc → Option (State × InstallPc)
  -- tsm_dev_ioctl
  | .copyFromUser desc stack =>
    if !outcome.copyFromUser then some (s, .done (-1)) else some (s, .entry (some desc) stack)
  | .entry none _ => some (s, .done (-1))
  | .entry (some desc) stack =>
    if desc.toNat ≥ GROUP_DEV_COUNT then some (s, .done (-1)) else some (s, .testGroupDevs desc stack)
  | .testGroupDevs desc stack =>
    match s.groupDevs with
    | none => some (s, .kzallocGroupDevs desc stack)
    | some _ => some (s, .getGroup desc stack)
  -- init_group_devs, whose return value is ignored
  | .kzallocGroupDevs desc stack =>
    if !outcome.groupDevs then some ({ s with groupDevs := none }, .getGroup desc stack)
    else some ({ s with groupDevs := some s.managers.length
                        managers := s.managers ++ [⟨0, 0, .null⟩] }, .kmallocList desc stack)
  | .kmallocList desc stack =>
    match s.manager with
    | none => some (s, .oops)
    | some (pointer, manager) =>
      if !outcome.groupDevsList then
        some (s.store pointer { manager with groupDevsList := .null }, .kfreeGroupDevs desc stack)
      else some (s.store pointer { manager with groupDevsList := .uninit }, .initListHead desc stack)
  | .initListHead desc stack =>
    match s.manager with
    | none => some (s, .oops)
    | some (pointer, manager) =>
      if manager.groupDevsList = .null then some (s, .oops)
      else some (s.store pointer { manager with groupDevsList := .list [] }, .getGroup desc stack)
  -- the pointer is left as it is
  | .kfreeGroupDevs desc stack =>
    match s.manager with
    | none => some (s, .oops)
    | some (pointer, _) =>
      some ({ s with freedManagers := s.freedManagers ++ [pointer] }, .getGroup desc stack)
  | .getGroup desc stack =>
    match s.manager with
    | none => some (s, .oops)
    | some (_, manager) =>
      match manager.groupDevsList with
      | .null | .list [] => some (s, .checkCapacity desc stack)
      | .uninit => some (s, .oops)
      | .list (_ :: _) => some (s, .scan desc stack)
  -- entries are added at the head only: the traversal sees the list as its first load does
  | .scan desc stack =>
    match s.manager with
    | none => some (s, .oops)
    | some (_, manager) =>
      match manager.groupDevsList with
      | .null | .uninit => some (s, .oops)
      | .list devices =>
        match devices.find? fun gd => gd.minor = desc.toNat with
        | some _ => some (s, .done 0)
        | none => some (s, .checkCapacity desc stack)
  | .checkCapacity desc stack =>
    match s.manager with
    | none => some (s, .oops)
    | some (_, manager) =>
      if GROUP_DEV_COUNT < manager.used.toNat + 1 then some (s, .done (-1))
      else some (s, .readMajor desc stack)
  -- _install_group
  | .readMajor desc stack =>
    match s.manager with
    | none => some (s, .oops)
    | some (_, manager) =>
      some ({ s with fresh := s.fresh + 1 },
        .kmalloc .deviceName ⟨desc, manager.major, stack.err, stack.dev, s.fresh, false, none⟩)
  | .kmalloc part locals =>
    if !outcome.kmalloc part then some (s, unwind locals part.previous)
    else
      match part.next with
      | some next => some (s.acquire (.part part locals.id), .kmalloc next locals)
      | none => some (s.acquire (.part part locals.id), .initWorkqueue locals)
  -- the return value of init_workqueue is ignored
  | .initWorkqueue locals =>
    if !outcome.createWorkqueue then some (s, .testMajor { locals with delayWq := false })
    else some (s.acquire (.delayWq locals.id), .testMajor { locals with delayWq := true })
  | .testMajor locals =>
    if locals.major = 0 then some (s, .allocRegion locals) else some (s, .testErr locals)
  -- a failure leaves `dev` as it is
  | .allocRegion locals =>
    match outcome.allocRegion with
    | none => some (s, .storeMajor { locals with err := -1, major := majorOf locals.dev })
    | some region =>
      let dev := mkdev region.major 0
      some ({ s.acquire (.region region.major) with regions := s.regions ++ [region.major] },
        .storeMajor { locals with err := 0, dev, major := majorOf dev })
  | .storeMajor locals =>
    match s.manager with
    | none => some (s, .oops)
    | some (pointer, manager) =>
      some (s.store pointer { manager with major := locals.major }, .testErr locals)
  | .testErr locals =>
    if locals.err < 0 then some (s, .kfree .delayList locals) else some (s, .testClass locals)
  | .testClass locals =>
    if s.groupDevClass = .null then some (s, .createClass locals) else some (s, .cdevAdd locals)
  | .createClass locals =>
    some ({ s with groupDevClass := if outcome.classCreate then .valid else .error }, .cdevAdd locals)
  -- the results of cdev_add and of device_create are ignored
  | .cdevAdd locals =>
    if !outcome.cdevAdd then some (s, .deviceCreate locals)
    else some (s, .deviceCreate { locals with cdev := some locals.major })
  | .deviceCreate locals =>
    if !outcome.deviceCreate then some (s, .freeName locals)
    else some ({ s with nodes := s.nodes ++ [(locals.major, locals.desc.toNat)] }, .freeName locals)
  | .freeName locals =>
    some ({ s.release (.part .deviceName locals.id) with created := s.created ++ [locals.device] },
      .listAdd locals.device)
  -- the goto ladder of the failures
  | .kfree part locals => some (s.release (.part part locals.id), unwind locals part.previous)
  -- list_add: the first entry is loaded, then the new one is linked before it
  | .listAdd gd =>
    match s.manager with
    | none => some (s, .oops)
    | some (pointer, manager) =>
      match manager.groupDevsList with
      | .null | .uninit => some (s, .oops)
      | .list devices => some (s, .link pointer devices.head? gd)
  -- entries that were added since the load are no longer reached from the head
  | .link pointer next gd =>
    match s.managers[pointer]? with
    | none => some (s, .oops)
    | some manager =>
      let behind := manager.groupDevsList.devices.dropWhile fun entry => some entry ≠ next
      some (s.store pointer { manager with groupDevsList := .list (KernelList.listAdd gd behind) }, .loadUsed)
  -- group_devs->used++
  | .loadUsed =>
    match s.manager with
    | none => some (s, .oops)
    | some (pointer, manager) => some (s, .storeUsed pointer manager.used)
  | .storeUsed pointer used =>
    match s.managers[pointer]? with
    | none => some (s, .oops)
    | some manager => some (s.store pointer { manager with used := used + 1 }, .listPrint)
  | .listPrint =>
    match s.manager with
    | none => some (s, .oops)
    | some _ => some (s, .done 0)
  | .done _ => none
  | .oops => none

/-- A request for one descriptor, with the stack contents of the thread that makes it. -/
structure InstallRequest where
  desc : UInt8
  stack : Stack
  deriving DecidableEq, Repr

def installs : System State InstallRequest InstallPc Outcome Empty where
  enter request := .copyFromUser request.desc request.stack
  move := installGroup
  environment event := nomatch event

abbrev InstallConfig := Config State InstallRequest InstallPc
abbrev InstallAct := Act InstallRequest Outcome Empty

def justLoaded : InstallConfig := ⟨.loaded, []⟩

/-- Every call of the kernel succeeds. -/
def granted (region : Region) : Outcome := ⟨true, true, true, fun _ => true, true, some region, true, true, true⟩

def firstRegion : Region := ⟨240, by decide, by decide⟩

end Tsm.Manager
