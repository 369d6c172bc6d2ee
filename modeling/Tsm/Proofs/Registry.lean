import Mathlib.Algebra.Group.Prod
import Tsm.Lib.Directory
import Tsm.Manager.Transitions

/-! Concurrent installs. Every install acts on what it has checked some steps
before. As long as the checks still hold when it acts, the registry is what a
sequence of installs would have left: one manager, one region, one device for each
descriptor, each of them listed and counted. -/

namespace Tsm.Manager
open Interleaving KernelList

/-- The list that `group_devs` points to. -/
def State.listed (s : State) : List GroupDev :=
  match s.groupDevs with
  | none => []
  | some pointer =>
    match s.managers[pointer]? with
    | none => []
    | some manager => manager.groupDevsList.devices

def State.used (s : State) : Nat :=
  match s.groupDevs with
  | none => 0
  | some pointer =>
    match s.managers[pointer]? with
    | none => 0
    | some manager => manager.used.toNat

def InstallPc.Finished : InstallPc → Prop
  | .done _ | .oops => True
  | _ => False

instance : (pc : InstallPc) → Decidable pc.Finished := fun pc =>
  match pc with
  | .done _ | .oops => isTrue trivial
  | .copyFromUser _ _ | .entry _ _ | .testGroupDevs _ _ | .kzallocGroupDevs _ _ | .kmallocList _ _
  | .initListHead _ _ | .kfreeGroupDevs _ _ | .getGroup _ _ | .scan _ _ | .checkCapacity _ _
  | .readMajor _ _ | .kmalloc _ _ | .initWorkqueue _ | .testMajor _ | .allocRegion _ | .storeMajor _
  | .testErr _ | .testClass _ | .createClass _ | .cdevAdd _ | .deviceCreate _ | .freeName _ | .kfree _ _
  | .listAdd _ | .link _ _ _ | .loadUsed | .storeUsed _ _ | .listPrint => isFalse id

/-- No two devices share a minor, manager and region are created at most once, and
whenever all calls have returned the devices created are those listed and counted. -/
def OneDeviceEach (config : InstallConfig) : Prop :=
  (config.shared.listed.map GroupDev.minor).Nodup ∧
    config.shared.managers.length ≤ 1 ∧ config.shared.regions.length ≤ 1 ∧
    ((∀ process ∈ config.calls, process.state.Finished) →
      config.shared.used = config.shared.listed.length ∧
        ∀ gd ∈ config.shared.created, gd ∈ config.shared.listed)

instance (config : InstallConfig) : Decidable (OneDeviceEach config) :=
  inferInstanceAs (Decidable (_ ∧ _ ∧ _ ∧ (_ → _ ∧ _)))

def ListHead.Initialized : ListHead → Prop
  | .null | .uninit => False
  | .list _ => True

instance : (head : ListHead) → Decidable head.Initialized
  | .null | .uninit => isFalse id
  | .list _ => isTrue trivial

/-- What a step relies on, and an earlier step of the same call has seen. -/
def StillHolds (s : State) : InstallPc → Prop
  | .kzallocGroupDevs _ _ => s.groupDevs = none
  | .allocRegion _ => s.regions = []
  | .listAdd _ => ∃ points ∈ s.manager, points.2.groupDevsList.Initialized
  | .link pointer next gd => ∀ manager ∈ s.managers[pointer]?,
    manager.groupDevsList.devices.head? = next ∧
      ∀ entry ∈ manager.groupDevsList.devices, entry.minor ≠ gd.minor
  | .storeUsed pointer used => ∀ manager ∈ s.managers[pointer]?, manager.used = used
  | _ => True

instance (s : State) : (pc : InstallPc) → Decidable (StillHolds s pc)
  | .kzallocGroupDevs _ _ => inferInstanceAs (Decidable (_ = _))
  | .allocRegion _ => inferInstanceAs (Decidable (_ = _))
  | .listAdd _ => inferInstanceAs (Decidable (∃ points ∈ s.manager, _))
  | .link pointer _ _ => inferInstanceAs (Decidable (∀ manager ∈ s.managers[pointer]?, _ ∧ _))
  | .storeUsed pointer _ => inferInstanceAs (Decidable (∀ manager ∈ s.managers[pointer]?, _))
  | .copyFromUser _ _ | .entry _ _ | .testGroupDevs _ _ | .kmallocList _ _
  | .initListHead _ _ | .kfreeGroupDevs _ _ | .getGroup _ _ | .scan _ _ | .checkCapacity _ _
  | .readMajor _ _ | .kmalloc _ _ | .initWorkqueue _ | .testMajor _ | .storeMajor _
  | .testErr _ | .testClass _ | .createClass _ | .cdevAdd _ | .deviceCreate _ | .freeName _ | .kfree _ _
  | .loadUsed | .listPrint | .done _ | .oops => isTrue trivial

def ChecksHold (config : InstallConfig) (act : InstallAct) : Prop :=
  ∀ moving ∈ mover config act, StillHolds config.shared moving.1

instance (config : InstallConfig) (act : InstallAct) : Decidable (ChecksHold config act) :=
  inferInstanceAs (Decidable (∀ moving ∈ mover config act, _))

/-! The invariant. The account sums what the calls in progress have yet to do:
devices to link, devices to count, managers to initialize. -/

structure Consistent (s : State) (account : Multiset GroupDev × Nat × Nat) : Prop where
  single : (s.groupDevs = none ∧ s.managers = []) ∨ (s.groupDevs = some 0 ∧ ∃ manager, s.managers = [manager])
  regions : s.regions.length ≤ 1
  directory : Directory GroupDev.minor GROUP_DEV_COUNT s.listed
  created : (s.created : Multiset GroupDev) = s.listed + account.1
  counted : s.listed.length = s.used + account.2.1
  initializer : account.2.2 ≤ s.managers.length
  initialized : ∀ manager ∈ s.managers, manager.groupDevsList.Initialized →
    account.2.2 = 0 ∧ 0 ∉ s.freedManagers

/-- The one manager is initialized, and `group_devs` points to it. -/
def State.Ready (s : State) : Prop :=
  ∃ manager, s.manager = some (0, manager) ∧ manager.groupDevsList.Initialized

/-- What a call that is about to link or to count its device refers to. -/
def Grounded (s : State) : InstallPc → Prop
  | .listAdd gd => gd.minor < GROUP_DEV_COUNT
  | .link pointer _ gd => (pointer = 0 ∧ s.Ready) ∧ gd.minor < GROUP_DEV_COUNT
  | .loadUsed => s.Ready
  | .storeUsed pointer _ => pointer = 0 ∧ s.Ready
  | _ => True

theorem Grounded.mono {s s' : State} {pc : InstallPc} (grounded : Grounded s pc) (stays : s.Ready → s'.Ready) :
    Grounded s' pc := by
  cases pc
  case link => exact ⟨⟨grounded.1.1, stays grounded.1.2⟩, grounded.2⟩
  case storeUsed => exact ⟨grounded.1, stays grounded.2⟩
  case loadUsed => exact stays grounded
  case listAdd => exact grounded
  all_goals trivial

theorem grounded_of_account {s : State} {pc : InstallPc} (nothing : pc.account = (0, 0, 0)) : Grounded s pc := by
  cases pc
  case listAdd => simp [InstallPc.account, InstallPc.held] at nothing
  case link => simp [InstallPc.account, InstallPc.held] at nothing
  case loadUsed => simp [InstallPc.account, InstallPc.uncounted] at nothing
  case storeUsed => simp [InstallPc.account, InstallPc.uncounted] at nothing
  all_goals trivial

section Steps
variable {s s' : State} {account account' : Multiset GroupDev × Nat × Nat} {pc pc' : InstallPc}
  {manager manager' : GroupDevices} {pointer : Nat}

theorem manager_congr (same : s'.registry = s.registry) : s'.manager = s.manager := by
  simp only [State.registry, Prod.mk.injEq] at same
  simp only [State.manager, same]

theorem Consistent.congr (kept : Consistent s account) (same : s'.registry = s.registry) : Consistent s' account := by
  obtain ⟨groupDevs, managers, freedManagers, _, regions, _, _, created, _, _⟩ := s
  obtain ⟨groupDevs', managers', freedManagers', _, regions', _, _, created', _, _⟩ := s'
  simp only [State.registry, Prod.mk.injEq] at same
  obtain ⟨rfl, rfl, rfl, rfl, rfl⟩ := same
  exact ⟨kept.single, kept.regions, kept.directory, kept.created, kept.counted, kept.initializer, kept.initialized⟩

theorem listed_of (global : s.groupDevs = some 0) (only : s.managers = [manager]) :
    s.listed = manager.groupDevsList.devices := by
  simp [State.listed, global, only]

theorem used_of (global : s.groupDevs = some 0) (only : s.managers = [manager]) : s.used = manager.used.toNat := by
  simp [State.used, global, only]

theorem devices_uninitialized {head : ListHead} (unset : ¬ head.Initialized) : head.devices = [] := by
  cases head with
  | null | uninit => rfl
  | list devices => exact absurd trivial unset

/-- The manager that a pointer of some call refers to. -/
theorem Consistent.only (kept : Consistent s account) (found : s.managers[pointer]? = some manager) :
    pointer = 0 ∧ s.groupDevs = some 0 ∧ s.managers = [manager] := by
  obtain ⟨inside, present⟩ := List.getElem?_eq_some_iff.mp found
  rcases kept.single with ⟨_, none⟩ | ⟨global, stored, one⟩
  · simp [none] at inside
  · have first : pointer = 0 := by simpa [one] using inside
    subst first
    refine ⟨rfl, global, ?_⟩
    rw [one] at found ⊢
    simpa using found

/-- A store to the one manager. -/
theorem Consistent.store (kept : Consistent s account) (found : s.managers[pointer]? = some manager)
    (directory : Directory GroupDev.minor GROUP_DEV_COUNT manager'.groupDevsList.devices)
    (created : (s.created : Multiset GroupDev) = manager'.groupDevsList.devices + account'.1)
    (counted : manager'.groupDevsList.devices.length = manager'.used.toNat + account'.2.1)
    (initializer : account'.2.2 ≤ 1)
    (initialized : manager'.groupDevsList.Initialized → account'.2.2 = 0 ∧ 0 ∉ s.freedManagers) :
    Consistent (s.store pointer manager') account' := by
  obtain ⟨rfl, global, only⟩ := kept.only found
  have global' : (s.store 0 manager').groupDevs = some 0 := global
  have stored : (s.store 0 manager').managers = [manager'] := by simp [State.store, only]
  refine ⟨.inr ⟨global', manager', stored⟩, kept.regions, ?_, ?_, ?_, ?_, ?_⟩
  · rw [listed_of global' stored]; exact directory
  · rw [listed_of global' stored]; exact created
  · rw [listed_of global' stored, used_of global' stored]; exact counted
  · rw [stored]; exact initializer
  · rw [stored]
    intro written member
    rw [List.mem_singleton.mp member]
    exact initialized

theorem Consistent.of_ready (kept : Consistent s account) (ready : s.Ready) :
    ∃ manager, s.managers = [manager] ∧ s.managers[0]? = some manager ∧ s.manager = some (0, manager) ∧
      manager.groupDevsList.Initialized ∧ account.2.2 = 0 ∧ 0 ∉ s.freedManagers := by
  obtain ⟨manager, points, initialized⟩ := ready
  obtain ⟨global, found, live⟩ := manager_eq_some.mp points
  obtain ⟨_, _, only⟩ := kept.only found
  have settled := kept.initialized manager (by simp [only]) initialized
  exact ⟨manager, only, found, points, initialized, settled⟩

/-- The manager stays initialized unless somebody is initializing it. -/
theorem Consistent.ready_store (kept : Consistent s account) (found : s.managers[pointer]? = some manager)
    (initialized : s.Ready → manager'.groupDevsList.Initialized) (ready : s.Ready) :
    (s.store pointer manager').Ready := by
  obtain ⟨rfl, global, only⟩ := kept.only found
  obtain ⟨_, _, _, _, _, _, live⟩ := kept.of_ready ready
  exact ⟨manager', manager_eq_some.mpr ⟨global, by simp [State.store, only], live⟩, initialized ready⟩

/-- While a call initializes the manager its list has no entries yet. -/
theorem Consistent.unset (kept : Consistent s account) (found : s.managers[pointer]? = some manager)
    (somebody : account.2.2 ≠ 0) : ¬ manager.groupDevsList.Initialized := fun initialized =>
  somebody (kept.initialized manager (by simp [(kept.only found).2.2]) initialized).1

/-- A call that initializes the manager is alone in doing so, and nobody uses the manager yet. -/
theorem Consistent.initializes (kept : Consistent s account) (points : s.manager = some (pointer, manager))
    (somebody : account.2.2 ≠ 0) :
    s.managers[pointer]? = some manager ∧ account.2.2 = 1 ∧ 0 ∉ s.freedManagers ∧ ¬ s.Ready ∧
      (s.created : Multiset GroupDev) = account.1 ∧ 0 = manager.used.toNat + account.2.1 := by
  obtain ⟨global, found, live⟩ := manager_eq_some.mp points
  obtain ⟨rfl, _, only⟩ := kept.only found
  have atMost : account.2.2 ≤ 1 := by simpa [only] using kept.initializer
  have made := kept.created
  have count := kept.counted
  rw [listed_of global only, devices_uninitialized (kept.unset found somebody)] at made count
  rw [used_of global only] at count
  refine ⟨found, by omega, live, ?_, by simpa using made, count⟩
  intro ready
  obtain ⟨_, _, _, _, _, nobody, _⟩ := kept.of_ready ready
  exact somebody nobody

theorem dropWhile_head {α : Type*} [DecidableEq α] (entries : List α) :
    entries.dropWhile (fun entry => some entry ≠ entries.head?) = entries := by
  cases entries <;> simp

/-- One step of a call whose check still holds, beside the account of all others. -/
theorem Consistent.step (kept : Consistent s (pc.account + account)) (holds : StillHolds s pc)
    (grounded : Grounded s pc) (effect : Effect s pc s' pc') :
    Consistent s' (pc'.account + account) ∧ Grounded s' pc' ∧ (s.Ready → s'.Ready) := by
  obtain ⟨held, uncounted, initializing⟩ := account
  cases effect with
  | quiet same before after =>
    rw [before] at kept
    rw [after]
    refine ⟨kept.congr same, grounded_of_account after, ?_⟩
    rintro ⟨manager, points, initialized⟩
    exact ⟨manager, (manager_congr same).trans points, initialized⟩
  | kzallocFails =>
    have same : s.groupDevs = none := holds
    refine ⟨kept.congr (by simp [State.registry, same]), trivial, ?_⟩
    rintro ⟨manager, points, _⟩
    simp [manager_eq_some, same] at points
  | kzalloc =>
    have absent : s.groupDevs = none := holds
    have none : s.managers = [] := by simpa [absent] using kept.single
    have nobody : initializing = 0 := by simpa [none] using kept.initializer
    have empty : s.listed = [] ∧ s.used = 0 := by simp [State.listed, State.used, absent]
    have made := kept.created
    have count := kept.counted
    rw [empty.1] at made count
    rw [empty.2] at count
    refine ⟨?_, trivial, ?_⟩
    · refine ⟨.inr ⟨by simp [none], _, by rw [none]; rfl⟩, kept.regions, ?_, ?_, ?_, ?_, ?_⟩
      · simpa [State.listed, none, ListHead.devices] using Directory.nil
      · simpa [State.listed, none, ListHead.devices] using made
      · simpa [State.listed, State.used, none, ListHead.devices] using count
      · simp [nobody, none]
      · intro manager member initialized
        rw [none] at member
        rw [List.mem_singleton.mp member] at initialized
        exact initialized.elim
    · rintro ⟨manager, points, _⟩
      simp [manager_eq_some, absent] at points
  | kmallocFails points =>
    obtain ⟨found, one, _, unready, made, count⟩ := kept.initializes points (by simp)
    refine ⟨kept.store found .nil (by simpa using made) count (Nat.le_of_eq one) False.elim, trivial, ?_⟩
    exact fun ready => absurd ready unready
  | kmalloc points =>
    obtain ⟨found, one, _, unready, made, count⟩ := kept.initializes points (by simp)
    refine ⟨kept.store found .nil (by simpa using made) count (Nat.le_of_eq one) False.elim, trivial, ?_⟩
    exact fun ready => absurd ready unready
  | initListHead points =>
    obtain ⟨found, one, live, unready, made, count⟩ := kept.initializes points (by simp)
    have nobody : initializing = 0 := by simpa using one
    refine ⟨kept.store found .nil (by simpa using made) count (by simp [nobody]) fun _ => ?_, trivial, ?_⟩
    · exact ⟨by simp [nobody], live⟩
    · exact fun ready => absurd ready unready
  | kfree points =>
    obtain ⟨found, one, _, unready, _, _⟩ := kept.initializes points (by simp)
    have unset := kept.unset found (by simp)
    have nobody : initializing = 0 := by simpa using one
    obtain ⟨rfl, global, only⟩ := kept.only found
    refine ⟨⟨kept.single, kept.regions, kept.directory, kept.created, kept.counted, ?_, ?_⟩, trivial, ?_⟩
    · simp [nobody]
    · intro manager member initialized
      rw [only] at member
      rw [List.mem_singleton.mp member] at initialized
      exact absurd initialized unset
    · exact fun ready => absurd ready unready
  | @allocRegion locals s' locals' region same =>
    have none : s.regions = [] := holds
    have kept' : Consistent { s with regions := s.regions ++ [region] } ((0, 0, 0) + (held, uncounted, initializing)) :=
      ⟨kept.single, by simp [none], kept.directory, kept.created, kept.counted, kept.initializer, kept.initialized⟩
    refine ⟨kept'.congr same, trivial, ?_⟩
    rintro ⟨manager, points, initialized⟩
    exact ⟨manager, (manager_congr same).trans points, initialized⟩
  | @storeMajor locals pointer manager points =>
    obtain ⟨global, found, live⟩ := manager_eq_some.mp points
    obtain ⟨rfl, _, only⟩ := kept.only found
    have directory := kept.directory
    have made := kept.created
    have count := kept.counted
    rw [listed_of global only] at directory made count
    rw [used_of global only] at count
    refine ⟨kept.store found directory made count (by simpa [only] using kept.initializer) ?_, trivial, ?_⟩
    · exact kept.initialized manager (by simp [only])
    · apply kept.ready_store found
      intro ready
      obtain ⟨_, only', _, _, initialized, _, _⟩ := kept.of_ready ready
      rw [only] at only'
      cases only'
      exact initialized
  | @freeName locals s' same =>
    have kept' : Consistent { s with created := s.created ++ [locals.device] }
        (({locals.device}, 0, 0) + (held, uncounted, initializing)) := by
      refine ⟨kept.single, kept.regions, kept.directory, ?_, kept.counted, kept.initializer, kept.initialized⟩
      have made : (s.created : Multiset GroupDev) = s.listed + (0 + held) := kept.created
      show ((s.created ++ [locals.device] : List GroupDev) : Multiset GroupDev) = s.listed + ({locals.device} + held)
      rw [← Multiset.coe_add, made, Multiset.coe_singleton, zero_add, add_assoc, add_comm held]
    refine ⟨kept'.congr same, locals.desc.toNat_lt, ?_⟩
    rintro ⟨manager, points, initialized⟩
    exact ⟨manager, (manager_congr same).trans points, initialized⟩
  | @listAdd gd pointer manager devices points list =>
    obtain ⟨global, found, live⟩ := manager_eq_some.mp points
    obtain ⟨rfl, _, only⟩ := kept.only found
    exact ⟨kept, ⟨⟨rfl, manager, points, by simp [list, ListHead.Initialized]⟩, grounded⟩, id⟩
  | @link gd pointer next manager found =>
    obtain ⟨⟨rfl, ready⟩, inside⟩ := grounded
    obtain ⟨same, absent⟩ := holds manager found
    obtain ⟨_, only, found', _, _, nobody, live⟩ := kept.of_ready ready
    rw [found] at found'
    cases found'
    have global := (kept.only found).2.1
    subst same
    rw [dropWhile_head]
    have directory := kept.directory
    have made := kept.created
    have count := kept.counted
    rw [listed_of global only] at directory made count
    rw [used_of global only] at count
    have nobody' : initializing = 0 := by simpa using nobody
    have stays : s.Ready → (s.store 0 { manager with
        groupDevsList := .list (KernelList.listAdd gd manager.groupDevsList.devices) }).Ready :=
      kept.ready_store found fun _ => trivial
    refine ⟨kept.store found (directory.cons inside absent) ?_ ?_ (by simp [nobody']) fun _ => ⟨?_, live⟩, ?_, ?_⟩
    · rw [made]
      show (manager.groupDevsList.devices : Multiset GroupDev) + ({gd} + held) =
        ((gd :: manager.groupDevsList.devices : List GroupDev) : Multiset GroupDev) + (0 + held)
      rw [← Multiset.cons_coe, ← Multiset.singleton_add, zero_add, add_left_comm, add_assoc]
    · simp only [ListHead.devices, KernelList.listAdd, List.length_cons, Prod.snd_add, Prod.fst_add,
        account_uncounted, InstallPc.uncounted] at count ⊢
      omega
    · simp [nobody']
    · exact stays ready
    · exact stays
  | @loadUsed pointer manager points =>
    obtain ⟨_, found, _⟩ := manager_eq_some.mp points
    exact ⟨kept, ⟨(kept.only found).1, grounded⟩, id⟩
  | @storeUsed pointer used manager found =>
    obtain ⟨rfl, ready⟩ := grounded
    have same : manager.used = used := holds manager found
    subst same
    obtain ⟨global, only⟩ := (kept.only found).2
    have directory := kept.directory
    have made := kept.created
    have count := kept.counted
    have fits := kept.directory.length_le
    rw [listed_of global only] at directory made count fits
    rw [used_of global only] at count
    simp only [Prod.snd_add, Prod.fst_add, account_uncounted, InstallPc.uncounted] at count
    refine ⟨kept.store found directory made ?_ (by simpa [only] using kept.initializer) ?_, trivial, ?_⟩
    · have one_more : (manager.used + 1).toNat = manager.used.toNat + 1 := by
        rw [UInt16.toNat_add, UInt16.toNat_one, Nat.mod_eq_of_lt]
        simp only [GROUP_DEV_COUNT] at fits
        omega
      simp only [Prod.snd_add, Prod.fst_add, account_uncounted, InstallPc.uncounted]
      omega
    · exact kept.initialized manager (by simp [only])
    · apply kept.ready_store found
      intro ready
      obtain ⟨_, only', _, _, initialized, _, _⟩ := kept.of_ready ready
      rw [only] at only'
      cases only'
      exact initialized
  | killedInit alone =>
    rw [alone] at kept
    have fewer := kept.initializer
    refine ⟨⟨kept.single, kept.regions, kept.directory, kept.created, kept.counted, ?_, ?_⟩, trivial, id⟩
    · simp only [Prod.snd_add, account_initializing, InstallPc.initializing] at fewer ⊢
      omega
    · intro manager member initialized
      have settled := kept.initialized manager member initialized
      simp at settled
  | killedAdd dangles =>
    obtain ⟨⟨pointer, manager⟩, points, initialized⟩ := holds
    cases list : manager.groupDevsList with
    | null | uninit => simp [list, ListHead.Initialized] at initialized
    | list devices => exact absurd list (dangles pointer manager devices points)
  | killedLink dangles =>
    obtain ⟨⟨rfl, ready⟩, _⟩ := grounded
    obtain ⟨_, _, found, _⟩ := kept.of_ready ready
    simp [dangles] at found
  | killedLoad dangles =>
    obtain ⟨_, points, _⟩ := grounded
    simp [dangles] at points
  | killedStore dangles =>
    obtain ⟨rfl, ready⟩ := grounded
    obtain ⟨_, _, found, _⟩ := kept.of_ready ready
    simp [dangles] at found

end Steps

theorem justLoaded_consistent : Consistent State.loaded (0, 0, 0) :=
  ⟨.inl ⟨rfl, rfl⟩, by simp [State.loaded], .nil, rfl, rfl, by simp, by simp [State.loaded]⟩

theorem installs_consistent {config : InstallConfig} (reached : Reaches installs ChecksHold justLoaded config) :
    Consistent config.shared (total InstallPc.account config.calls) := by
  refine (reached.outline InstallPc.account Consistent (fun s process => Grounded s process.state) ?_ ?_ ?_ ?_).1
  · exact ⟨justLoaded_consistent, by simp [justLoaded]⟩
  · exact fun s request => ⟨rfl, trivial⟩
  · intro s left right request pc outcome s' pc' _ permitted kept grounded others moved
    have holds : StillHolds s pc := permitted (pc, outcome) (by simp [mover])
    obtain ⟨kept', grounded', stays⟩ := kept.step holds grounded (installGroup_effect moved)
    exact ⟨kept', grounded', fun process member => (others process member).mono stays⟩
  · intro s calls event
    cases event

/-- In every run whose installs act on checks that still hold there is at any time
one device for a descriptor, one manager and one region, and nothing is lost. -/
theorem one_device_each {config : InstallConfig} (reached : Reaches installs ChecksHold justLoaded config) :
    OneDeviceEach config := by
  have kept := installs_consistent reached
  refine ⟨kept.directory.distinct, ?_, kept.regions, ?_⟩
  · rcases kept.single with ⟨_, none⟩ | ⟨_, manager, one⟩
    · simp [none]
    · simp [one]
  · intro finished
    have settled : total InstallPc.account config.calls = 0 := by
      apply total_eq_zero
      intro process member
      have returned := finished process member
      cases state : process.state
      case done | oops => rfl
      all_goals simp [state, InstallPc.Finished] at returned
    have made := kept.created
    have count := kept.counted
    rw [settled] at made count
    refine ⟨by simpa using count.symm, ?_⟩
    intro gd member
    have among : gd ∈ (config.shared.created : Multiset GroupDev) := member
    simpa [made] using among

/-! Two runs. The first install creates the manager, two more with other
descriptors take turns; or two installs of one descriptor take turns. -/

def install (desc : UInt8) : InstallAct := .enter ⟨desc, ⟨0, 0⟩⟩

def installSteps (call count : Nat) : List InstallAct := List.replicate count (.move call (granted firstRegion))

def turnsRun : List InstallAct :=
  [install 3] ++ installSteps 0 32 ++ [install 4, install 5] ++ installSteps 1 12 ++ installSteps 2 27 ++
    installSteps 1 15

theorem one_device_each_turnsRun :
    ∃ config, run installs ChecksHold justLoaded turnsRun = some config ∧ OneDeviceEach config ∧
      config.shared.listed.map GroupDev.minor = [4, 5, 3] ∧ config.shared.used = 3 := by
  have enabled : (run installs ChecksHold justLoaded turnsRun).isSome := by decide
  exact ⟨_, (Option.some_get enabled).symm, one_device_each (reaches_get enabled), by decide +revert, by decide +revert⟩

/-- Both look the descriptor up before either lists its device. The node of the
second exists already, so its `device_create` fails. -/
def sameDescriptorRun : List InstallAct :=
  [install 3, install 3] ++ installSteps 0 7 ++ installSteps 1 4 ++ installSteps 0 25 ++
    List.replicate 22 (.move 1 { granted firstRegion with deviceCreate := false })

theorem two_devices_one_descriptor :
    ¬ ∀ config, Reaches installs Anything justLoaded config → OneDeviceEach config := by
  intro alone
  have enabled : (run installs Anything justLoaded sameDescriptorRun).isSome := by decide
  have wrong : ¬ OneDeviceEach ((run installs Anything justLoaded sameDescriptorRun).get enabled) := by decide +revert
  exact wrong (alone _ (reaches_get enabled))

end Tsm.Manager
