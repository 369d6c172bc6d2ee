import Mathlib.Data.List.Basic

/-! The state of the group device manager: what the global `group_devs` points to,
and what the kernel has registered for it. -/

namespace Tsm.Manager

def GROUP_DEV_COUNT : Nat := 256

/-! Device numbers: twelve bits of major above twenty bits of minor. -/

def mkdev (major : UInt32) (minor : Nat) : UInt32 := major <<< 20 ||| UInt32.ofNat minor

def majorOf (dev : UInt32) : UInt32 := dev >>> 20

/-- A region of device numbers the kernel can hand out: its major is never zero
and fits in twelve bits. -/
structure Region where
  major : UInt32
  positive : major ≠ 0
  bound : major < 4096
  deriving DecidableEq, Repr

/-- What `_install_group` allocates with kmalloc or kzalloc, in this order. -/
inductive Part where
  | deviceName
  | newGroupDev
  | messageList
  | messageSem
  | pendingList
  | pendingSem
  | wqSem
  | delayList
  deriving DecidableEq, Repr

/-- What an install acquires. The objects of one device share its number. -/
inductive Obj where
  | part (part : Part) (id : Nat)
  | delayWq (id : Nat)
  | region (major : UInt32)
  deriving DecidableEq, Repr

/-- `struct group_dev`, as far as the manager knows it. The number stands for its
address, `cdev` for the major under which `cdev_add` has added its `cdev`. -/
structure GroupDev where
  id : Nat
  minor : Nat
  delayWq : Bool
  cdev : Option UInt32
  deriving DecidableEq, Repr

/-- `group_devs_list`, and the list it points to. -/
inductive ListHead where
  | null
  /-- Allocated, not yet initialized. -/
  | uninit
  | list (devices : List GroupDev)
  deriving DecidableEq, Repr

@[simp] def ListHead.devices : ListHead → List GroupDev
  | .null | .uninit => []
  | .list devices => devices

structure GroupDevices where
  used : UInt16
  major : UInt32
  groupDevsList : ListHead
  deriving DecidableEq, Repr

inductive ClassPtr where
  | null
  | valid
  /-- The error pointer that `class_create` returns when it fails. -/
  | error
  deriving DecidableEq, Repr

structure State where
  /-- `group_devs`, an index of `managers`. -/
  groupDevs : Option Nat
  /-- Every `struct group_devices` ever allocated, and which of them were freed. -/
  managers : List GroupDevices
  freedManagers : List Nat
  groupDevClass : ClassPtr
  /-- The majors of the regions handed out. -/
  regions : List UInt32
  /-- The device numbers that have a node under the class. -/
  nodes : List (UInt32 × Nat)
  /-- The first number no device has. -/
  fresh : Nat
  /-- The devices `_install_group` has returned. Written, never read. -/
  created : List GroupDev
  acquired : List Obj
  released : List Obj
  deriving DecidableEq, Repr

namespace State

/-- The module just loaded. -/
def loaded : State where
  groupDevs := none
  managers := []
  freedManagers := []
  groupDevClass := .null
  regions := []
  nodes := []
  fresh := 0
  created := []
  acquired := []
  released := []

/-- The object `group_devs` points to. A null or a dangling pointer points to none. -/
def manager (s : State) : Option (Nat × GroupDevices) :=
  match s.groupDevs with
  | none => none
  | some pointer =>
    if pointer ∈ s.freedManagers then none
    else s.managers[pointer]?.map fun manager => (pointer, manager)

/-- A store to the object at `pointer`. -/
def store (s : State) (pointer : Nat) (manager : GroupDevices) : State :=
  { s with managers := s.managers.set pointer manager }

end State

section Pointer
variable {s : State} {pointer : Nat} {manager manager' : GroupDevices}

theorem manager_eq_some : s.manager = some (pointer, manager) ↔
    s.groupDevs = some pointer ∧ s.managers[pointer]? = some manager ∧ pointer ∉ s.freedManagers := by
  unfold State.manager
  split
  next missing => simp [missing]
  next found global =>
    rw [global, Option.some_inj]
    split
    next dangling =>
      simp only [reduceCtorEq, false_iff, not_and]
      rintro rfl _ live
      exact live dangling
    next live =>
      rw [Option.map_eq_some_iff]
      constructor
      · rintro ⟨stored, present, same⟩
        cases same
        exact ⟨rfl, present, live⟩
      · rintro ⟨rfl, present, _⟩
        exact ⟨manager, present, rfl⟩

@[simp] theorem store_store : (s.store pointer manager).store pointer manager' = s.store pointer manager' := by
  simp [State.store]

theorem store_self (found : s.managers[pointer]? = some manager) : s.store pointer manager = s := by
  obtain ⟨inside, rfl⟩ := List.getElem?_eq_some_iff.mp found
  rw [State.store, List.set_getElem_self]

theorem manager_store (manager' : GroupDevices) (points : s.manager = some (pointer, manager)) :
    (s.store pointer manager').manager = some (pointer, manager') := by
  obtain ⟨global, found, live⟩ := manager_eq_some.mp points
  obtain ⟨inside, _⟩ := List.getElem?_eq_some_iff.mp found
  exact manager_eq_some.mpr ⟨global, by simp [State.store, inside], live⟩

end Pointer

namespace State

def acquire (s : State) (obj : Obj) : State := { s with acquired := s.acquired ++ [obj] }

def release (s : State) (obj : Obj) : State := { s with released := s.released ++ [obj] }

end State

theorem majorOf_mkdev (region : Region) : majorOf (mkdev region.major 0) = region.major := by
  obtain ⟨major, positive, bound⟩ := region
  have small : major.toNat < 4096 := by simpa [UInt32.lt_iff_toNat_lt] using bound
  apply UInt32.toNat_inj.mp
  simp only [majorOf, mkdev, UInt32.toNat_shiftRight, UInt32.toNat_or, UInt32.toNat_shiftLeft]
  simp [Nat.shiftLeft_eq, Nat.shiftRight_eq_div_pow]
  omega

end Tsm.Manager
