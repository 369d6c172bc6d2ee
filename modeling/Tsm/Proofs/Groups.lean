import Tsm.Lib.Components
import Tsm.Proofs.Module

/-! The module as a system of parts: the registry that the installs share, and each
group device once its `cdev` has been added. What each of them goes through is a run
of its own, whatever happens to the others meanwhile. -/

namespace Tsm.Module
open Interleaving LoadStore Manager

/-! The registry: the calls of the ioctl that install a group are its calls. -/

def Syscall.install : Syscall → Option InstallRequest
  | .tsmIoctl cmd desc memory => if cmd = IOCTL_INSTALL_GROUP then some ⟨desc, memory.stack⟩ else none
  | .openFile _ | .file _ _ => none

def Call.install : Call → Option InstallPc
  | .tsmIoctl (.install pc) => some pc
  | .tsmIoctl (.done ret _) => some (.done ret)
  | _ => none

def installPart (process : Process Syscall Call) : Option (Process InstallRequest InstallPc) :=
  process.request.install.bind fun request => process.state.install.map fun pc => ⟨request, pc⟩

/-! A group: the operations on its files that have come to its device. -/

def Syscall.onDevice : Syscall → Option FlagRequest
  | .file _ op => op.request
  | .tsmIoctl _ _ _ | .openFile _ => none

def Call.onDevice (id : Nat) : Call → Option DeviceCall
  | .device other call => if other = id then some call else none
  | _ => none

def groupPart (id : Nat) (process : Process Syscall Call) : Option (Process FlagRequest DeviceCall) :=
  process.request.onDevice.bind fun request => (process.state.onDevice id).map fun call => ⟨request, call⟩

abbrev groupCalls (id : Nat) (config : ModuleConfig) : Multiset (Process FlagRequest DeviceCall) :=
  parts (groupPart id) config.calls

section Parts
variable {request : Syscall} {call : Call} {id other : Nat} {moving : DeviceCall} {asked : FlagRequest}

theorem installPart_none (absent : call.install = none) : installPart ⟨request, call⟩ = none := by
  simp [installPart, absent]

theorem installPart_other (absent : request.install = none) : installPart ⟨request, call⟩ = none := by
  simp [installPart, absent]

theorem groupPart_none (absent : call.onDevice id = none) : groupPart id ⟨request, call⟩ = none := by
  simp [groupPart, absent]

theorem groupPart_other (apart : other ≠ id) : groupPart id ⟨request, .device other moving⟩ = none := by
  simp [groupPart, Call.onDevice, apart]

theorem groupPart_file {filp : Nat} {op : FileOp} (asks : op.request = some asked) :
    groupPart id ⟨.file filp op, .device id moving⟩ = some ⟨asked, moving⟩ := by
  simp [groupPart, Syscall.onDevice, Call.onDevice, asks]

theorem state_of_groupPart {process : Process Syscall Call} (part : groupPart id process = some ⟨asked, moving⟩) :
    process.state = .device id moving := by
  obtain ⟨request, state⟩ := process
  cases state with
  | device target call =>
    by_cases own : target = id
    · subst own
      simp only [groupPart, Call.onDevice, if_pos, Option.map_some, Option.bind_eq_some_iff] at part
      obtain ⟨_, _, same⟩ := part
      cases same
      rfl
    · rw [groupPart_other own] at part
      cases part
  | _ =>
    rw [groupPart_none rfl] at part
    cases part

end Parts

section Lives
variable {maxMessageSize maxStorageSize : UInt32} {msecsToJiffies : UInt32 → Nat} {config : ModuleConfig}

theorem ioctl_shift {permits : Manager.State → InstallPc → Manager.Outcome → Prop} {s s' : Manager.State} {limit : UInt32}
    {outcome : IoctlOutcome} {pc pc' : IoctlPc} {cmd : UInt32} {desc : UInt8} {memory : Memory}
    (serves : Serves cmd desc memory pc) (permitted : ∀ pc' ∈ (Call.tsmIoctl pc).install, permits s pc' outcome.toOutcome)
    (moved : tsmDevIoctl limit outcome s pc = some (s', pc')) :
    Shift installs permits (· = Manager.State.loaded) (some s) (installPart ⟨.tsmIoctl cmd desc memory, .tsmIoctl pc⟩)
      (some s') (installPart ⟨.tsmIoctl cmd desc memory, .tsmIoctl pc'⟩) := by
  cases pc with
  | entry cmd' desc' memory' =>
    obtain ⟨rfl, rfl, rfl⟩ := serves
    simp only [tsmDevIoctl] at moved
    split at moved
    next install =>
      cases moved
      have joined : installPart ⟨.tsmIoctl cmd' desc' memory', .tsmIoctl (.install (.copyFromUser desc' memory'.stack))⟩ =
          some ⟨⟨desc', memory'.stack⟩, installs.enter ⟨desc', memory'.stack⟩⟩ := by
        simp [installPart, Syscall.install, Call.install, install, installs]
      rw [installPart_none rfl, joined]
      exact .joins _ _
    next other =>
      have absent : (Syscall.tsmIoctl cmd' desc' memory').install = none := if_neg other
      rw [installPart_other absent, installPart_other absent]
      split at moved <;> cases moved <;> exact .stays _ _
  | install pc =>
    obtain ⟨rfl, -⟩ := serves
    rcases ioctl_install_cases moved with ⟨ret, rfl, rfl⟩ | ⟨next, rfl, stepped⟩
    · cases moved
      exact .stays _ _
    · exact .moves (permitted pc rfl) stepped
  | copyToUser =>
    have absent : (Syscall.tsmIoctl cmd desc memory).install = none := if_neg (by rw [serves]; decide)
    rw [installPart_other absent, installPart_other absent]
    simp only [tsmDevIoctl] at moved
    split at moved <;> cases moved <;> exact .stays _ _
  | done ret copied => cases moved

/-- Installs take their steps as permitted. -/
def OnRegistry (permits : Manager.State → InstallPc → Manager.Outcome → Prop) : ModuleConfig → ModuleAct → Prop :=
  Local fun s call outcome => ∀ pc ∈ call.install, permits s.registry pc outcome.ioctl.toOutcome

instance (permits : Manager.State → InstallPc → Manager.Outcome → Prop)
    [∀ s pc outcome, Decidable (permits s pc outcome)] (config : ModuleConfig) (act : ModuleAct) :
    Decidable (OnRegistry permits config act) :=
  inferInstanceAs (Decidable (Local (fun s call outcome => ∀ pc ∈ call.install, permits s.registry pc outcome.ioctl.toOutcome)
    config act))

/-- Whatever else the module does, its registry comes through a run of installs. -/
theorem registry_lives {permits : Manager.State → InstallPc → Manager.Outcome → Prop}
    (reached : Reaches tsm (OnRegistry permits) (loaded maxMessageSize maxStorageSize msecsToJiffies) config) :
    Lives installs permits (· = Manager.State.loaded) (some config.shared.registry) (parts installPart config.calls) := by
  refine reached.lives (fun s => some s.registry) installPart ⟨rfl, ?_⟩ ?_ ?_ ?_
  · rintro first ⟨⟩
    rfl
  · intro s request
    have absent : installPart ⟨request, tsm.enter request⟩ = none := by cases request <;> exact installPart_none rfl
    rw [absent]
    exact .stays _ _
  · intro s left right request call outcome s' call' reached permitted moved
    have asked := (module_sound reached).2 ⟨request, call⟩ (by simp)
    replace permitted := permitted (call, outcome) (mover_move _ _ _ _ _)
    cases move_cases moved with
    | tsmIoctl stepped =>
      cases request with
      | tsmIoctl cmd desc memory => exact ioctl_shift asked permitted stepped
      | openFile _ | file _ _ => exact asked.elim
    | _ =>
      rw [installPart_none rfl, installPart_none rfl]
      exact .stays _ _
  · intro s calls event s' _ happened
    simp only [(environment_happens happened).registry]
    exact .stays _ _

/-- A device as its install leaves it. -/
def Newborn (s : FlagState) : Prop :=
  ∃ maxMessageSize maxStorageSize msecsToJiffies delayWq,
    (⟨s, []⟩ : FlagConfig) = installedFlags maxMessageSize maxStorageSize msecsToJiffies delayWq

/-- The device a call has come to. -/
def Call.atDevice : Call → Option (Nat × DeviceCall)
  | .device id call => some (id, call)
  | _ => none

/-- Calls on devices take their steps as permitted there. -/
def OnDevices (permits : FlagState → DeviceCall → Tsm.Outcome → Prop) : ModuleConfig → ModuleAct → Prop :=
  Local fun s call outcome =>
    ∀ moving ∈ call.atDevice, ∀ device ∈ s.devices moving.1, permits device.state moving.2 outcome.device

instance (permits : FlagState → DeviceCall → Tsm.Outcome → Prop) [∀ s call outcome, Decidable (permits s call outcome)]
    (config : ModuleConfig) (act : ModuleAct) : Decidable (OnDevices permits config act) :=
  inferInstanceAs (Decidable (Local (fun s call outcome =>
    ∀ moving ∈ call.atDevice, ∀ device ∈ s.devices moving.1, permits device.state moving.2 outcome.device) config act))

variable {permits : FlagState → DeviceCall → Tsm.Outcome → Prop}

/-- So does each group device, from the step on that has added it. -/
theorem group_lives (reached : Reaches tsm (OnDevices permits) (loaded maxMessageSize maxStorageSize msecsToJiffies) config)
    (id : Nat) :
    Lives unlockedFlags permits Newborn ((config.shared.devices id).map Device.state) (groupCalls id config) := by
  refine reached.lives (fun s => (s.devices id).map Device.state) (groupPart id) ⟨rfl, ?_⟩ ?_ ?_ ?_
  · rintro first ⟨⟩
  · intro s request
    have absent : groupPart id ⟨request, tsm.enter request⟩ = none := by cases request <;> exact groupPart_none rfl
    rw [absent]
    exact .stays _ _
  · intro s left right request call outcome s' call' reached permitted moved
    obtain ⟨sound, asked⟩ := module_sound reached
    replace asked := asked ⟨request, call⟩ (by simp)
    replace permitted := permitted (call, outcome) (mover_move _ _ _ _ _)
    cases move_cases moved with
    | @tsmIoctl pc registry pc' moved =>
      rw [groupPart_none rfl, groupPart_none rfl]
      cases added : addedBy outcome.ioctl pc with
      | none => exact .stays _ _
      | some locals =>
        cases addedBy_eq_some added
        by_cases own : id = locals.id
        · have unborn : s.devices id = none := sound.unborn id (by
            rw [total_middle]
            exact Multiset.mem_add.mpr (.inl (own ▸ Multiset.mem_singleton_self _)))
          have present : (s.put locals.id (s.newDevice locals)).devices id = some (s.newDevice locals) :=
            own ▸ Function.update_self ..
          simp only [State.add, present, unborn]
          exact .born ⟨_, _, _, _, rfl⟩
        · have same : (s.put locals.id (s.newDevice locals)).devices id = s.devices id := Function.update_of_ne own _ _
          simp only [State.add, same]
          exact .stays _ _
    | @dispatch filp op target request' opened asks =>
      rw [groupPart_none rfl]
      by_cases own : target = id
      · subst own
        obtain ⟨device, present⟩ := sound.files target (List.mem_of_getElem? opened)
        cases request with
        | file _ _ =>
          obtain ⟨rfl, rfl⟩ := asked
          rw [groupPart_file asks, present]
          exact .joins _ _
        | tsmIoctl _ _ _ | openFile _ => exact asked.elim
      · rw [groupPart_other own]
        exact .stays _ _
    | @device target moving device state moving' present stepped =>
      by_cases own : target = id
      · subst own
        cases request with
        | file filp op =>
          obtain ⟨flag, asks⟩ := Option.isSome_iff_exists.mp asked.2
          have after : (s.put target { device with state }).devices target = some { device with state } :=
            Function.update_self ..
          rw [groupPart_file asks, groupPart_file asks]
          simp only [present, after, Option.map_some]
          exact .moves (permitted (target, moving) rfl device present) stepped
        | tsmIoctl _ _ _ | openFile _ => exact asked.elim
      · have same : (s.put target { device with state }).devices id = s.devices id :=
          Function.update_of_ne (Ne.symm own) _ _
        rw [groupPart_other own, groupPart_other own]
        simp only [same]
        exact .stays _ _
    | _ =>
      rw [groupPart_none rfl, groupPart_none rfl]
      exact .stays _ _
  · intro s calls event s' _ happened
    rcases (environment_happens happened).devices id with same | ⟨device, event, state, present, stepped, present'⟩
    · simp only [same]
      exact .stays _ _
    · simp only [present, present', Option.map_some]
      exact .happens _ stepped

/-- A group, as one run of its own. -/
theorem group_reaches {id : Nat} {device : Device}
    (reached : Reaches tsm (OnDevices permits) (loaded maxMessageSize maxStorageSize msecsToJiffies) config)
    (present : config.shared.devices id = some device) :
    ∃ limit storage msecs delayWq all, Reaches unlockedFlags (Local permits) (installedFlags limit storage msecs delayWq)
        ⟨device.state, all⟩ ∧
      (all : Multiset (Process FlagRequest DeviceCall)) = groupCalls id config := by
  have lives := group_lives reached id
  rw [present] at lives
  obtain ⟨first, ⟨limit, storage, msecs, delayWq, newborn⟩, all, ran, same⟩ := lives
  refine ⟨limit, storage, msecs, delayWq, all, ?_, same⟩
  rw [← newborn]
  exact ran

end Lives

end Tsm.Module
