import Tsm.Proofs.Groups
import Tsm.Proofs.Registry

/-! The files that are open on groups. A path that the library makes of a descriptor
leads to a device that was installed for the descriptor, and to the same device each
time it is opened, unless installs have raced. -/

namespace Tsm.Module
open Interleaving Manager

variable {maxMessageSize maxStorageSize : UInt32} {msecsToJiffies : UInt32 → Nat} {config : ModuleConfig} {id : Nat}
  {device : Device}

/-- Some thread has asked for a group with this minor to be installed. -/
def Requested (config : ModuleConfig) (minor : Nat) : Prop :=
  ∃ process ∈ config.calls, ∃ desc memory, process.request = .tsmIoctl IOCTL_INSTALL_GROUP desc memory ∧ desc.toNat = minor

theorem Requested.step {before after : ModuleConfig} {act : ModuleAct} {minor : Nat} (requested : Requested before minor)
    (taken : Step tsm before act after) : Requested after minor := by
  obtain ⟨process, member, desc, memory, request, same⟩ := requested
  obtain ⟨later, member', request'⟩ := taken.keeps_request member
  exact ⟨later, member', desc, memory, request'.trans request, same⟩

/-- A step of a call adds at most the device that its install builds. -/
theorem move_adds {outcome : Outcome} {s s' : State} {call call' : Call} (step : MoveStep outcome s call s' call')
    (present : s'.devices id = some device) :
    (∃ old, s.devices id = some old ∧ old.number = device.number) ∨
      ∃ locals, call = .tsmIoctl (.install (.cdevAdd locals)) ∧ locals.id = id ∧
        device.number = (locals.major, locals.desc.toNat) := by
  cases step with
  | @tsmIoctl pc registry pc' moved =>
    cases added : addedBy outcome.ioctl pc with
    | none =>
      rw [added] at present
      exact .inl ⟨device, present, rfl⟩
    | some locals =>
      cases addedBy_eq_some added
      rw [added] at present
      by_cases own : id = locals.id
      · subst own
        cases (Function.update_self ..).symm.trans present
        exact .inr ⟨locals, rfl, rfl, rfl⟩
      · exact .inl ⟨device, (Function.update_of_ne own _ _).symm.trans present, rfl⟩
  | @device target call old state call' there moved =>
    by_cases own : id = target
    · subst own
      cases (Function.update_self ..).symm.trans present
      exact .inl ⟨old, there, rfl⟩
    · exact .inl ⟨device, (Function.update_of_ne own _ _).symm.trans present, rfl⟩
  | _ => exact .inl ⟨device, present, rfl⟩

theorem event_adds {s s' : State} (happens : Happens s s') (present : s'.devices id = some device) :
    ∃ old, s.devices id = some old ∧ old.number = device.number := by
  rcases happens.devices id with same | ⟨old, event, state, there, _, there'⟩
  · exact ⟨device, same.symm.trans present, rfl⟩
  · cases there'.symm.trans present
    exact ⟨old, there, rfl⟩

theorem devices_requested {allowed : ModuleConfig → ModuleAct → Prop}
    (reached : Reaches tsm allowed (loaded maxMessageSize maxStorageSize msecsToJiffies) config) :
    ∀ id device, config.shared.devices id = some device → Requested config device.number.2 := by
  refine reached.induct ?_ ?_
  · rintro id device ⟨⟩
  · intro before act after reached known _ taken id device present
    have goesOn : ∀ old, before.shared.devices id = some old → old.number = device.number → Requested after device.number.2 :=
      fun old there same => same ▸ (known id old there).step taken
    cases taken with
    | enter request => exact goesOn device present rfl
    | @move s left right request call outcome s' call' moved =>
      rcases move_adds (move_cases moved) present with ⟨old, there, same⟩ | ⟨locals, rfl, _, number⟩
      · exact goesOn old there same
      · have asked := (module_sound reached).2 ⟨request, _⟩ (List.mem_append_right left List.mem_cons_self)
        cases request with
        | tsmIoctl cmd desc memory =>
          obtain ⟨rfl, worksFor⟩ := asked
          refine ⟨_, List.mem_append_right left List.mem_cons_self, desc, memory, rfl, ?_⟩
          rw [number, ← worksFor]
        | openFile _ | file _ _ => exact asked.elim
    | environment happened =>
      obtain ⟨old, there, same⟩ := event_adds (environment_happens happened) present
      exact goesOn old there same

theorem opened_minor {allowed : ModuleConfig → ModuleAct → Prop}
    (reached : Reaches tsm allowed (loaded maxMessageSize maxStorageSize msecsToJiffies) config)
    {opener : Process Syscall Call} {desc filp : Nat} (member : opener ∈ config.calls)
    (request : opener.request = .openFile (groupDevName desc)) (opened : opener.state = .opened filp) :
    ∃ id device, config.shared.files[filp]? = some id ∧ config.shared.devices id = some device ∧ device.number.2 = desc := by
  have asked := (module_sound reached).2 opener member
  rw [request, opened] at asked
  obtain ⟨id, device, file, present, path⟩ := asked
  exact ⟨id, device, file, present, (groupDevName_injective path).symm⟩

/-- Opening the path of a descriptor leads to a device with that minor, which some
thread has asked for. -/
theorem opens_asked_group {allowed : ModuleConfig → ModuleAct → Prop}
    (reached : Reaches tsm allowed (loaded maxMessageSize maxStorageSize msecsToJiffies) config)
    {opener : Process Syscall Call} {desc filp : Nat} (member : opener ∈ config.calls)
    (request : opener.request = .openFile (groupDevName desc)) (opened : opener.state = .opened filp) :
    ∃ id device, config.shared.files[filp]? = some id ∧ config.shared.devices id = some device ∧ device.number.2 = desc ∧
      Requested config desc := by
  obtain ⟨id, device, file, present, minor⟩ := opened_minor reached member request opened
  exact ⟨id, device, file, present, minor, minor ▸ devices_requested reached id device present⟩

theorem opens_asked_group_openedRun :
    ∃ config, run tsm Anything sampleModule openedRun = some config ∧
      ∃ id device, config.shared.files[1]? = some id ∧ config.shared.devices id = some device ∧ device.number.2 = 7 ∧
        Requested config 7 := by
  have enabled : (run tsm Anything sampleModule openedRun).isSome := by decide
  have member := List.mem_of_getElem? (l := ((run tsm Anything sampleModule openedRun).get enabled).calls) (i := 2) rfl
  exact ⟨_, (Option.some_get enabled).symm, opens_asked_group (reaches_get enabled) member rfl rfl⟩

/-! Which of the devices that can be opened the registry has on record. -/

/-- The device a call has added and not yet recorded as created. -/
def finishing : InstallPc → Multiset (Nat × Nat)
  | .deviceCreate locals | .freeName locals => {(locals.id, locals.desc.toNat)}
  | _ => 0

def Call.finishing (call : Call) : Multiset (Nat × Nat) := call.install.elim 0 Module.finishing

def Recorded (s : State) (finishing : Multiset (Nat × Nat)) : Prop :=
  ∀ id device, s.devices id = some device → (id, device.number.2) ∈ finishing ∨
    ∃ gd ∈ s.registry.created, (gd.id, gd.minor) = (id, device.number.2)

/-- A record is kept, or made of a device that is finished. -/
theorem install_records {outcome : Manager.Outcome} {s s' : Manager.State} {pc pc' : InstallPc}
    (moved : installGroup outcome s pc = some (s', pc')) :
    (∀ gd ∈ s.created, gd ∈ s'.created) ∧
      ∀ entry ∈ finishing pc, entry ∈ finishing pc' ∨ ∃ gd ∈ s'.created, (gd.id, gd.minor) = entry := by
  constructor
  · intro gd member
    cases installGroup_effect moved with
    | quiet same | allocRegion _ same | freeName same =>
      simp only [Manager.State.registry, Prod.mk.injEq] at same
      simp [same, member]
    | _ => exact member
  · intro entry member
    cases pc with
    | deviceCreate locals =>
      simp only [installGroup] at moved
      split at moved <;> cases moved <;> exact .inl member
    | freeName locals =>
      cases moved
      refine .inr ⟨locals.device, List.mem_append_right _ List.mem_cons_self, ?_⟩
      exact (Multiset.mem_singleton.mp member).symm
    | _ => exact absurd member (Multiset.notMem_zero _)

theorem ioctl_records {limit : UInt32} {outcome : IoctlOutcome} {s s' : Manager.State} {pc pc' : IoctlPc}
    (moved : tsmDevIoctl limit outcome s pc = some (s', pc')) :
    (∀ gd ∈ s.created, gd ∈ s'.created) ∧ ∀ entry ∈ (Call.tsmIoctl pc).finishing,
      entry ∈ (Call.tsmIoctl pc').finishing ∨ ∃ gd ∈ s'.created, (gd.id, gd.minor) = entry := by
  cases pc with
  | install pc =>
    rcases ioctl_install_cases moved with ⟨ret, rfl, rfl⟩ | ⟨next, rfl, stepped⟩
    · cases moved
      exact ⟨fun _ => id, fun _ => .inl⟩
    · exact install_records stepped
  | entry cmd desc memory =>
    refine ⟨?_, fun entry member => absurd member (Multiset.notMem_zero _)⟩
    simp only [tsmDevIoctl] at moved
    repeat' split at moved
    all_goals cases moved; exact fun _ => id
  | copyToUser =>
    refine ⟨?_, fun entry member => absurd member (Multiset.notMem_zero _)⟩
    simp only [tsmDevIoctl] at moved
    split at moved <;> cases moved <;> exact fun _ => id
  | done ret copied => cases moved

theorem Recorded.move {outcome : Outcome} {s s' : State} {call call' : Call} {rest : Multiset (Nat × Nat)}
    (recorded : Recorded s (call.finishing + rest)) (step : MoveStep outcome s call s' call') :
    Recorded s' (call'.finishing + rest) := by
  intro id device present
  rcases move_adds step present with ⟨old, there, same⟩ | ⟨locals, rfl, own, number⟩
  · have known := recorded id old there
    rw [same] at known
    cases step with
    | tsmIoctl moved =>
      obtain ⟨stays, finishes⟩ := ioctl_records moved
      rcases known with among | ⟨gd, member, entry⟩
      · rcases Multiset.mem_add.mp among with mine | others
        · exact (finishes _ mine).imp_left fun still => Multiset.mem_add.mpr (.inl still)
        · exact .inl (Multiset.mem_add.mpr (.inr others))
      · exact .inr ⟨gd, stays gd member, entry⟩
    | _ => exact known
  · subst own
    rw [number]
    cases step with
    | @tsmIoctl _ registry pc' moved =>
      simp only [tsmDevIoctl, installGroup] at moved
      split at moved <;> cases moved <;> exact .inl (Multiset.mem_add.mpr (.inl (Multiset.mem_singleton_self _)))

theorem devices_recorded {allowed : ModuleConfig → ModuleAct → Prop}
    (reached : Reaches tsm allowed (loaded maxMessageSize maxStorageSize msecsToJiffies) config) :
    Recorded config.shared (total Call.finishing config.calls) := by
  refine (reached.outline Call.finishing Recorded (fun _ _ => True) ⟨?_, by simp [loaded]⟩ ?_ ?_ ?_).1
  · rintro id device ⟨⟩
  · intro s request
    cases request <;> exact ⟨rfl, trivial⟩
  · intro s left right request call outcome s' call' _ _ recorded _ _ moved
    exact ⟨recorded.move (move_cases moved), trivial, fun _ _ => trivial⟩
  · intro s calls event s' _ _ recorded _ happened
    refine ⟨fun id device present => ?_, fun _ _ => trivial⟩
    have happens := environment_happens happened
    obtain ⟨old, there, same⟩ := event_adds happens present
    rw [happens.registry, ← same]
    exact recorded id old there

/-! Two threads that open the same path. -/

/-- The checks of an install still hold when it acts on them. -/
abbrev InstallsUndisturbed : ModuleConfig → ModuleAct → Prop := OnRegistry fun s pc _ => StillHolds s pc

/-- No install is in progress. -/
def InstallsFinished (config : ModuleConfig) : Prop := ∀ process ∈ config.calls, ∀ pc ∈ process.state.install, pc.Finished

instance (config : ModuleConfig) : Decidable (InstallsFinished config) :=
  inferInstanceAs (Decidable (∀ process ∈ config.calls, ∀ pc ∈ process.state.install, pc.Finished))

theorem finishing_finished {process : Process Syscall Call} (finished : ∀ pc ∈ process.state.install, pc.Finished) :
    process.state.finishing = 0 := by
  unfold Call.finishing
  cases state : process.state.install with
  | none => rfl
  | some pc =>
    have ended := finished pc state
    cases pc <;> first | rfl | exact ended.elim

/-- Where installs have not raced and are finished, every device that can be opened is
listed, and no two of them have the same minor. -/
theorem devices_distinct
    (reached : Reaches tsm InstallsUndisturbed (loaded maxMessageSize maxStorageSize msecsToJiffies) config)
    (finished : InstallsFinished config) {id id' : Nat} {device device' : Device}
    (present : config.shared.devices id = some device) (present' : config.shared.devices id' = some device')
    (same : device.number.2 = device'.number.2) : id = id' := by
  have settled : total Call.finishing config.calls = 0 :=
    total_eq_zero fun process member => finishing_finished (finished process member)
  obtain ⟨_, rfl, all, ran, calls⟩ := registry_lives reached
  have kept := installs_consistent ran
  have account : total InstallPc.account all = 0 := by
    refine total_eq_zero fun process member => ?_
    obtain ⟨whole, among, part⟩ := mem_parts_iff.mp (calls ▸ Multiset.mem_coe.mpr member)
    obtain ⟨request, _, part⟩ := Option.bind_eq_some_iff.mp part
    obtain ⟨pc, state, rfl⟩ := Option.map_eq_some_iff.mp part
    have ended := finished whole among pc state
    cases pc <;> first | rfl | exact ended.elim
  have listed : ∀ id device, config.shared.devices id = some device →
      ∃ gd ∈ config.shared.registry.listed, (gd.id, gd.minor) = (id, device.number.2) := by
    intro id device present
    rcases devices_recorded reached id device present with among | ⟨gd, member, entry⟩
    · rw [settled] at among
      exact absurd among (Multiset.notMem_zero _)
    · have created := kept.created
      rw [account] at created
      have among : gd ∈ (config.shared.registry.created : Multiset Manager.GroupDev) := member
      exact ⟨gd, by simpa [created] using among, entry⟩
  obtain ⟨gd, member, entry⟩ := listed id device present
  obtain ⟨gd', member', entry'⟩ := listed id' device' present'
  simp only [Prod.mk.injEq] at entry entry'
  have one := List.inj_on_of_nodup_map kept.directory.distinct member member' (by rw [entry.2, entry'.2, same])
  rw [← entry.1, ← entry'.1, one]

/-- Two threads that open the same path get files of the same device. -/
theorem same_path_same_device
    (reached : Reaches tsm InstallsUndisturbed (loaded maxMessageSize maxStorageSize msecsToJiffies) config)
    (finished : InstallsFinished config) {opener opener' : Process Syscall Call} {desc filp filp' : Nat}
    (member : opener ∈ config.calls) (request : opener.request = .openFile (groupDevName desc))
    (opened : opener.state = .opened filp) (member' : opener' ∈ config.calls)
    (request' : opener'.request = .openFile (groupDevName desc)) (opened' : opener'.state = .opened filp') :
    ∃ id, config.shared.files[filp]? = some id ∧ config.shared.files[filp']? = some id := by
  have asked := (module_sound reached).2
  have first := asked opener member
  have second := asked opener' member'
  rw [request, opened] at first
  rw [request', opened'] at second
  obtain ⟨id, device, file, present, path⟩ := first
  obtain ⟨id', device', file', present', path'⟩ := second
  have minor := groupDevName_injective (path.symm.trans path')
  cases devices_distinct reached finished present present' minor
  exact ⟨id, file, file'⟩

theorem same_path_same_device_openedRun :
    ∃ config, run tsm InstallsUndisturbed sampleModule openedRun = some config ∧
      ∃ id, config.shared.files[0]? = some id ∧ config.shared.files[1]? = some id := by
  have enabled : (run tsm InstallsUndisturbed sampleModule openedRun).isSome := by decide
  have finished : InstallsFinished ((run tsm InstallsUndisturbed sampleModule openedRun).get enabled) := by decide +revert
  have first := List.mem_of_getElem? (l := ((run tsm InstallsUndisturbed sampleModule openedRun).get enabled).calls) (i := 1) rfl
  have second := List.mem_of_getElem? (l := ((run tsm InstallsUndisturbed sampleModule openedRun).get enabled).calls) (i := 2) rfl
  exact ⟨_, (Option.some_get enabled).symm,
    same_path_same_device (reaches_get enabled) finished first rfl rfl second rfl rfl⟩

end Tsm.Module
