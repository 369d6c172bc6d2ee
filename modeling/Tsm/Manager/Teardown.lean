import Tsm.Lib.KernelList
import Tsm.Manager.State

/-! `group_free_all`, which the exit of the module runs when no call is in progress. -/

namespace Tsm.Manager
open KernelList

/-- The registry, and what was passed to the functions that undo an install. -/
structure Unload where
  registry : State
  destroyed : List (UInt32 × Nat)
  deleted : List GroupDev
  freed : List GroupDev
  unregistered : List UInt32
  deriving DecidableEq, Repr

inductive FreeAllPc where
  | entry
  | testList (toFree : Int) (major : UInt32)
  | testEmpty (toFree : Int) (major : UInt32)
  | next (q : Option GroupDev) (toFree : Int) (major : UInt32)
  | listDel (pos : GroupDev) (q : Option GroupDev) (toFree : Int) (major : UInt32)
  | deviceDestroy (pos : GroupDev) (q : Option GroupDev) (toFree : Int) (major : UInt32)
  | cdevDel (pos : GroupDev) (q : Option GroupDev) (toFree : Int) (major : UInt32)
  | groupFree (pos : GroupDev) (q : Option GroupDev) (toFree : Int) (major : UInt32)
  | unregisterRegion (toFree : Int) (major : UInt32)
  | kfree (toFree : Int)
  /-- The number of survivors it reports. -/
  | done (toFree : Int)
  | oops
  /-- In `device_destroy`, which has followed an error pointer. -/
  | killed
  deriving DecidableEq, Repr

def groupFreeAll (u : Unload) : FreeAllPc → Option (Unload × FreeAllPc)
  | .entry =>
    match u.registry.groupDevs with
    | none => some (u, .done 0)
    | some _ =>
      match u.registry.manager with
      | none => some (u, .oops)
      | some (_, manager) => some (u, .testList manager.used.toNat manager.major)
  | .testList toFree major =>
    match u.registry.manager with
    | none => some (u, .oops)
    | some (_, manager) =>
      if manager.groupDevsList = .null then some (u, .done toFree) else some (u, .testEmpty toFree major)
  | .testEmpty toFree major =>
    match u.registry.manager with
    | some (_, ⟨_, _, .list devices⟩) =>
      match devices.getLast? with
      | none => some (u, .unregisterRegion toFree major)
      | some pos => some (u, .next (some pos) toFree major)
    | _ => some (u, .oops)
  -- list_for_each_prev_safe: the entry before is remembered
  | .next none toFree major => some (u, .unregisterRegion toFree major)
  | .next (some pos) toFree major =>
    match u.registry.manager with
    | some (_, ⟨_, _, .list devices⟩) => some (u, .listDel pos (listPrev pos devices) toFree major)
    | _ => some (u, .oops)
  | .listDel pos q toFree major =>
    match u.registry.manager with
    | some (pointer, ⟨used, recorded, .list devices⟩) =>
      some ({ u with registry := u.registry.store pointer ⟨used, recorded, .list (KernelList.listDel pos devices)⟩ },
        .deviceDestroy pos q toFree major)
    | _ => some (u, .oops)
  -- the device is looked up in the class
  | .deviceDestroy pos q toFree major =>
    if u.registry.groupDevClass = .error then some (u, .killed)
    else some ({ u with destroyed := u.destroyed ++ [(major, pos.minor)] }, .cdevDel pos q toFree major)
  | .cdevDel pos q toFree major => some ({ u with deleted := u.deleted ++ [pos] }, .groupFree pos q toFree major)
  | .groupFree pos q toFree major => some ({ u with freed := u.freed ++ [pos] }, .next q (toFree - 1) major)
  -- with the class_destroy that follows
  | .unregisterRegion toFree major =>
    some ({ u with unregistered := u.unregistered ++ [major] }, .kfree toFree)
  -- of the list and of group_devs
  | .kfree toFree =>
    match u.registry.manager with
    | none => some (u, .oops)
    | some (pointer, _) =>
      some ({ u with registry.freedManagers := u.registry.freedManagers ++ [pointer] }, .done toFree)
  | .done _ => none
  | .oops => none
  | .killed => none

def unload (registry : State) : Unload := ⟨registry, [], [], [], []⟩

end Tsm.Manager
