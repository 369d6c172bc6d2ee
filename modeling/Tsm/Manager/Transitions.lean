import Mathlib.Data.Multiset.AddSub
import Tsm.Manager.Install

/-! What one step of an install can do to the registry: the global, the managers
it has pointed to, the regions and the devices. Most steps build a device and
leave all of them alone. -/

namespace Tsm.Manager
open KernelList

/-- The device a call has created and not yet linked. -/
def InstallPc.held : InstallPc → Multiset GroupDev
  | .listAdd gd | .link _ _ gd => {gd}
  | _ => 0

/-- One while the call has linked its device and not yet counted it. -/
def InstallPc.uncounted : InstallPc → Nat
  | .loadUsed | .storeUsed _ _ => 1
  | _ => 0

/-- One while the call initializes a manager. -/
def InstallPc.initializing : InstallPc → Nat
  | .kmallocList _ _ | .initListHead _ _ | .kfreeGroupDevs _ _ => 1
  | _ => 0

attribute [simp] InstallPc.held InstallPc.uncounted InstallPc.initializing

def InstallPc.account (pc : InstallPc) : Multiset GroupDev × Nat × Nat := (pc.held, pc.uncounted, pc.initializing)

@[simp] theorem account_held (pc : InstallPc) : pc.account.1 = pc.held := rfl
@[simp] theorem account_uncounted (pc : InstallPc) : pc.account.2.1 = pc.uncounted := rfl
@[simp] theorem account_initializing (pc : InstallPc) : pc.account.2.2 = pc.initializing := rfl

/-- What installs share about the devices. -/
def State.registry (s : State) : Option Nat × List GroupDevices × List Nat × List UInt32 × List GroupDev :=
  (s.groupDevs, s.managers, s.freedManagers, s.regions, s.created)

inductive Effect (s : State) : InstallPc → State → InstallPc → Prop where
  | quiet {pc s' pc'} (same : s'.registry = s.registry) (before : pc.account = (0, 0, 0)) (after : pc'.account = (0, 0, 0)) :
      Effect s pc s' pc'
  | kzallocFails {desc stack} :
      Effect s (.kzallocGroupDevs desc stack) { s with groupDevs := none } (.getGroup desc stack)
  | kzalloc {desc stack} :
      Effect s (.kzallocGroupDevs desc stack)
        { s with groupDevs := some s.managers.length, managers := s.managers ++ [⟨0, 0, .null⟩] }
        (.kmallocList desc stack)
  | kmallocFails {desc stack pointer manager} (points : s.manager = some (pointer, manager)) :
      Effect s (.kmallocList desc stack) (s.store pointer { manager with groupDevsList := .null })
        (.kfreeGroupDevs desc stack)
  | kmalloc {desc stack pointer manager} (points : s.manager = some (pointer, manager)) :
      Effect s (.kmallocList desc stack) (s.store pointer { manager with groupDevsList := .uninit })
        (.initListHead desc stack)
  | initListHead {desc stack pointer manager} (points : s.manager = some (pointer, manager)) :
      Effect s (.initListHead desc stack) (s.store pointer { manager with groupDevsList := .list [] })
        (.getGroup desc stack)
  | kfree {desc stack pointer manager} (points : s.manager = some (pointer, manager)) :
      Effect s (.kfreeGroupDevs desc stack) { s with freedManagers := s.freedManagers ++ [pointer] }
        (.getGroup desc stack)
  | allocRegion {locals s' locals'} (region : UInt32) (same : s'.registry = { s with regions := s.regions ++ [region] }.registry) :
      Effect s (.allocRegion locals) s' (.storeMajor locals')
  | storeMajor {locals pointer manager} (points : s.manager = some (pointer, manager)) :
      Effect s (.storeMajor locals) (s.store pointer { manager with major := locals.major }) (.testErr locals)
  | freeName {locals s'} (same : s'.registry = { s with created := s.created ++ [locals.device] }.registry) :
      Effect s (.freeName locals) s' (.listAdd locals.device)
  | listAdd {gd pointer manager devices} (points : s.manager = some (pointer, manager))
      (list : manager.groupDevsList = .list devices) :
      Effect s (.listAdd gd) s (.link pointer devices.head? gd)
  | link {gd pointer next manager} (found : s.managers[pointer]? = some manager) :
      Effect s (.link pointer next gd)
        (s.store pointer { manager with
          groupDevsList := .list (KernelList.listAdd gd
            (manager.groupDevsList.devices.dropWhile fun entry => some entry ≠ next)) })
        .loadUsed
  | loadUsed {pointer manager} (points : s.manager = some (pointer, manager)) :
      Effect s .loadUsed s (.storeUsed pointer manager.used)
  | storeUsed {pointer used manager} (found : s.managers[pointer]? = some manager) :
      Effect s (.storeUsed pointer used) (s.store pointer { manager with used := used + 1 }) .listPrint
  | killedInit {pc} (initializing : pc.account = (0, 0, 1)) : Effect s pc s .oops
  | killedAdd {gd} (dangles : ∀ pointer manager devices, s.manager = some (pointer, manager) →
      manager.groupDevsList ≠ .list devices) : Effect s (.listAdd gd) s .oops
  | killedLink {pointer next gd} (dangles : s.managers[pointer]? = none) : Effect s (.link pointer next gd) s .oops
  | killedLoad (dangles : s.manager = none) : Effect s .loadUsed s .oops
  | killedStore {pointer used} (dangles : s.managers[pointer]? = none) : Effect s (.storeUsed pointer used) s .oops

theorem account_unwind (locals : Locals) (part : Option Part) : (unwind locals part).account = (0, 0, 0) := by
  cases part <;> rfl

theorem installGroup_effect {outcome s pc s' pc'} (moved : installGroup outcome s pc = some (s', pc')) :
    Effect s pc s' pc' := by
  cases pc with
  | copyFromUser desc stack =>
    simp only [installGroup] at moved
    split at moved <;> cases moved <;> exact .quiet rfl rfl rfl
  | entry groupDesc stack =>
    cases groupDesc with
    | none => cases moved; exact .quiet rfl rfl rfl
    | some desc =>
      simp only [installGroup] at moved
      split at moved <;> cases moved <;> exact .quiet rfl rfl rfl
  | testGroupDevs desc stack =>
    simp only [installGroup] at moved
    split at moved <;> cases moved <;> exact .quiet rfl rfl rfl
  | kzallocGroupDevs desc stack =>
    simp only [installGroup] at moved
    split at moved
    · cases moved; exact .kzallocFails
    · cases moved; exact .kzalloc
  | kmallocList desc stack =>
    simp only [installGroup] at moved
    split at moved
    · cases moved; exact .killedInit rfl
    next pointer manager points =>
      split at moved
      · cases moved; exact .kmallocFails points
      · cases moved; exact .kmalloc points
  | initListHead desc stack =>
    simp only [installGroup] at moved
    split at moved
    · cases moved; exact .killedInit rfl
    next pointer manager points =>
      split at moved
      · cases moved; exact .killedInit rfl
      · cases moved; exact .initListHead points
  | kfreeGroupDevs desc stack =>
    simp only [installGroup] at moved
    split at moved
    · cases moved; exact .killedInit rfl
    next pointer manager points => cases moved; exact .kfree points
  | getGroup desc stack =>
    simp only [installGroup] at moved
    split at moved
    · cases moved; exact .quiet rfl rfl rfl
    · split at moved <;> cases moved <;> exact .quiet rfl rfl rfl
  | scan desc stack =>
    simp only [installGroup] at moved
    split at moved
    · cases moved; exact .quiet rfl rfl rfl
    · split at moved
      · cases moved; exact .quiet rfl rfl rfl
      · cases moved; exact .quiet rfl rfl rfl
      · split at moved <;> cases moved <;> exact .quiet rfl rfl rfl
  | checkCapacity desc stack =>
    simp only [installGroup] at moved
    split at moved
    · cases moved; exact .quiet rfl rfl rfl
    · split at moved <;> cases moved <;> exact .quiet rfl rfl rfl
  | readMajor desc stack =>
    simp only [installGroup] at moved
    split at moved <;> cases moved <;> exact .quiet rfl rfl rfl
  | kmalloc part locals =>
    simp only [installGroup] at moved
    split at moved
    · cases moved; exact .quiet rfl rfl (account_unwind _ _)
    · split at moved <;> cases moved <;> exact .quiet rfl rfl rfl
  | initWorkqueue locals =>
    simp only [installGroup] at moved
    split at moved <;> cases moved <;> exact .quiet rfl rfl rfl
  | testMajor locals =>
    simp only [installGroup] at moved
    split at moved <;> cases moved <;> exact .quiet rfl rfl rfl
  | allocRegion locals =>
    simp only [installGroup] at moved
    split at moved
    · cases moved; exact .quiet rfl rfl rfl
    next region handed => cases moved; exact .allocRegion region.major rfl
  | storeMajor locals =>
    simp only [installGroup] at moved
    split at moved
    · cases moved; exact .quiet rfl rfl rfl
    next pointer manager points => cases moved; exact .storeMajor points
  | testErr locals =>
    simp only [installGroup] at moved
    split at moved <;> cases moved <;> exact .quiet rfl rfl rfl
  | testClass locals =>
    simp only [installGroup] at moved
    split at moved <;> cases moved <;> exact .quiet rfl rfl rfl
  | createClass locals => cases moved; exact .quiet rfl rfl rfl
  | cdevAdd locals =>
    simp only [installGroup] at moved
    split at moved <;> cases moved <;> exact .quiet rfl rfl rfl
  | deviceCreate locals =>
    simp only [installGroup] at moved
    split at moved <;> cases moved <;> exact .quiet rfl rfl rfl
  | freeName locals => cases moved; exact .freeName rfl
  | kfree part locals => cases moved; exact .quiet rfl rfl (account_unwind _ _)
  | listAdd gd =>
    simp only [installGroup] at moved
    split at moved
    next dangles =>
      cases moved
      exact .killedAdd fun pointer manager devices points => by simp [dangles] at points
    next pointer manager points =>
      split at moved
      next unset =>
        cases moved
        exact .killedAdd fun _ _ _ same => by simp_all
      next unset =>
        cases moved
        exact .killedAdd fun _ _ _ same => by simp_all
      next devices list => cases moved; exact .listAdd points list
  | link pointer next gd =>
    simp only [installGroup] at moved
    split at moved
    next dangles => cases moved; exact .killedLink dangles
    next manager found => cases moved; exact .link found
  | loadUsed =>
    simp only [installGroup] at moved
    split at moved
    next dangles => cases moved; exact .killedLoad dangles
    next pointer manager points => cases moved; exact .loadUsed points
  | storeUsed pointer used =>
    simp only [installGroup] at moved
    split at moved
    next dangles => cases moved; exact .killedStore dangles
    next manager found => cases moved; exact .storeUsed found
  | listPrint =>
    simp only [installGroup] at moved
    split at moved <;> cases moved <;> exact .quiet rfl rfl rfl
  | done ret => cases moved
  | oops => cases moved

end Tsm.Manager
