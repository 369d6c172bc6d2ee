import Tsm.Lib.Allocation
import Tsm.Module.System

/-! What every run of the module keeps: a device has a number of its own from before it
is offered to the kernel, files lead to devices, and links to the nodes of their names. -/

namespace Tsm.Module
open Interleaving LoadStore Manager Allocation

/-! What an install knows of the device it builds. -/

/-- The device a call is building and has not offered to the kernel. -/
def unbornBy : InstallPc → Multiset Nat
  | .kmalloc _ locals | .initWorkqueue locals | .testMajor locals | .allocRegion locals | .storeMajor locals
  | .testErr locals | .testClass locals | .createClass locals | .cdevAdd locals => {locals.id}
  | _ => 0

/-- The call works for this descriptor, as long as it looks at one. -/
def WorksFor (desc : UInt8) : InstallPc → Prop
  | .copyFromUser d _ | .testGroupDevs d _ | .kzallocGroupDevs d _ | .kmallocList d _ | .initListHead d _
  | .kfreeGroupDevs d _ | .getGroup d _ | .scan d _ | .checkCapacity d _ | .readMajor d _ => d = desc
  | .entry d _ => ∀ d' ∈ d, d' = desc
  | .kmalloc _ locals | .initWorkqueue locals | .testMajor locals | .allocRegion locals | .storeMajor locals
  | .testErr locals | .testClass locals | .createClass locals | .cdevAdd locals | .deviceCreate locals => locals.desc = desc
  | _ => True

/-- A call takes the next number for its device, or keeps the one it has or gives it up. -/
inductive Numbers (fresh : Nat) (unborn : Multiset Nat) (fresh' : Nat) (unborn' : Multiset Nat) : Prop where
  | takes (next : fresh' = fresh + 1) (before : unborn = 0) (after : unborn' = {fresh})
  | keeps (same : fresh' = fresh) (less : unborn' ≤ unborn)

theorem unbornBy_unwind (locals : Locals) (part : Option Part) : unbornBy (unwind locals part) = 0 := by
  cases part <;> rfl

theorem worksFor_unwind (desc : UInt8) (locals : Locals) (part : Option Part) : WorksFor desc (unwind locals part) := by
  cases part <;> trivial

theorem install_numbers {outcome : Manager.Outcome} {s s' : Manager.State} {pc pc' : InstallPc} {desc : UInt8}
    (worksFor : WorksFor desc pc) (moved : installGroup outcome s pc = some (s', pc')) :
    Numbers s.fresh (unbornBy pc) s'.fresh (unbornBy pc') ∧ WorksFor desc pc' := by
  cases pc with
  | kmalloc part locals =>
    simp only [installGroup] at moved
    split at moved
    · cases moved
      rw [unbornBy_unwind]
      exact ⟨.keeps rfl (Multiset.zero_le _), worksFor_unwind _ _ _⟩
    · split at moved <;> cases moved <;> exact ⟨.keeps rfl (le_refl _), worksFor⟩
  | kfree part locals =>
    cases moved
    rw [unbornBy_unwind]
    exact ⟨.keeps rfl (Multiset.zero_le _), worksFor_unwind _ _ _⟩
  | readMajor d stack =>
    simp only [installGroup] at moved
    split at moved <;> cases moved
    · exact ⟨.keeps rfl (le_refl _), trivial⟩
    · exact ⟨.takes rfl rfl rfl, worksFor⟩
  | entry d stack =>
    cases d with
    | none => cases moved; exact ⟨.keeps rfl (le_refl _), trivial⟩
    | some d =>
      simp only [installGroup] at moved
      split at moved <;> cases moved
      · exact ⟨.keeps rfl (le_refl _), trivial⟩
      · exact ⟨.keeps rfl (le_refl _), worksFor d rfl⟩
  | copyFromUser d stack =>
    simp only [installGroup] at moved
    split at moved <;> cases moved
    · exact ⟨.keeps rfl (le_refl _), trivial⟩
    · refine ⟨.keeps rfl (le_refl _), ?_⟩
      rintro _ ⟨⟩
      exact worksFor
  | done ret | oops => cases moved
  | _ =>
    -- it passes its descriptor or its locals on, and is done with them where it ends
    simp only [installGroup] at moved
    repeat' split at moved
    all_goals cases moved
    all_goals refine ⟨.keeps rfl ?_, ?_⟩
    all_goals first | exact worksFor | trivial | exact le_refl _ | exact Multiset.zero_le _

def IoctlPc.unborn : IoctlPc → Multiset Nat
  | .install pc => unbornBy pc
  | _ => 0

def Call.unborn : Call → Multiset Nat
  | .tsmIoctl pc => IoctlPc.unborn pc
  | _ => 0

/-- The ioctl works on the arguments it was called with. -/
def Serves (cmd : UInt32) (desc : UInt8) (memory : Memory) : IoctlPc → Prop
  | .entry cmd' desc' memory' => cmd' = cmd ∧ desc' = desc ∧ memory' = memory
  | .install pc => cmd = IOCTL_INSTALL_GROUP ∧ WorksFor desc pc
  | .copyToUser => cmd = IOCTL_MAX_MESSAGE_SIZE
  | .done _ _ => True

theorem ioctl_numbers {limit : UInt32} {outcome : IoctlOutcome} {s s' : Manager.State} {pc pc' : IoctlPc} {cmd : UInt32}
    {desc : UInt8} {memory : Memory} (serves : Serves cmd desc memory pc)
    (moved : tsmDevIoctl limit outcome s pc = some (s', pc')) :
    Numbers s.fresh (IoctlPc.unborn pc) s'.fresh (IoctlPc.unborn pc') ∧ Serves cmd desc memory pc' := by
  cases pc with
  | entry cmd' desc' memory' =>
    obtain ⟨rfl, rfl, rfl⟩ := serves
    simp only [tsmDevIoctl] at moved
    split at moved
    next install => cases moved; exact ⟨.keeps rfl (le_refl _), install, rfl⟩
    next _ =>
      split at moved
      next size => cases moved; exact ⟨.keeps rfl (le_refl _), size⟩
      · cases moved; exact ⟨.keeps rfl (le_refl _), trivial⟩
  | install pc =>
    rcases ioctl_install_cases moved with ⟨ret, rfl, rfl⟩ | ⟨next, rfl, stepped⟩
    · cases moved
      exact ⟨.keeps rfl (le_refl _), trivial⟩
    · obtain ⟨numbers, worksFor⟩ := install_numbers serves.2 stepped
      exact ⟨numbers, serves.1, worksFor⟩
  | copyToUser =>
    simp only [tsmDevIoctl] at moved
    split at moved <;> cases moved <;> exact ⟨.keeps rfl (le_refl _), trivial⟩
  | done ret copied => cases moved

theorem addedBy_eq_some {outcome : IoctlOutcome} {pc : IoctlPc} {locals : Locals} (added : addedBy outcome pc = some locals) :
    pc = .install (.cdevAdd locals) := by
  unfold addedBy at added
  split at added
  · split at added
    · cases added; rfl
    · cases added
  · cases added

/-! What the module as a whole keeps. -/

/-- What a call knows of the request it was made with. -/
def Asked (s : State) : Syscall → Call → Prop
  | .tsmIoctl cmd desc memory, .tsmIoctl pc => Serves cmd desc memory pc
  | .openFile path, .lookup path' => path' = path
  | .openFile path, .groupOpen number => path = groupDevName number.2
  | .openFile path, .opened filp =>
    ∃ id device, s.files[filp]? = some id ∧ s.devices id = some device ∧ path = groupDevName device.number.2
  | .file filp op, .file filp' op' => filp' = filp ∧ op' = op
  | .file filp op, .device id _ => s.files[filp]? = some id ∧ op.request.isSome
  | .openFile _, .done _ | .file _ _, .done _ => True
  | _, _ => False

/-- Every device has its own number from before it is offered to the kernel, and files
and links lead to devices and nodes as they should. -/
structure Sound (s : State) (unborn : Multiset Nat) : Prop where
  tracked : Tracked id s.registry.fresh unborn
  unborn : ∀ id ∈ unborn, s.devices id = none
  born : ∀ id device, s.devices id = some device → id < s.registry.fresh
  files : ∀ id ∈ s.files, ∃ device, s.devices id = some device
  links : ∀ path number, s.links path = some number → path = groupDevName number.2

/-- Nothing a call relies on is taken back. -/
structure Grows (s s' : State) : Prop where
  files : ∀ filp id : Nat, s.files[filp]? = some id → s'.files[filp]? = some id
  devices : ∀ id device, s.devices id = some device →
    ∃ device', s'.devices id = some device' ∧ device'.number = device.number

section Steps
variable {s s' : State} {unborn : Multiset Nat} {outcome : Outcome} {request : Syscall} {call call' : Call} {event : Event}
  {id : Nat} {device : Device}

theorem Asked.mono (asked : Asked s request call) (grows : Grows s s') : Asked s' request call := by
  unfold Asked at asked ⊢
  split at asked
  case h_4 =>
    obtain ⟨id, device, opened, present, same⟩ := asked
    obtain ⟨device', present', number⟩ := grows.devices id device present
    exact ⟨id, device', grows.files _ _ opened, present', number ▸ same⟩
  case h_6 => exact ⟨grows.files _ _ asked.1, asked.2⟩
  all_goals exact asked

theorem Grows.of_same (files : s'.files = s.files) (devices : s'.devices = s.devices) : Grows s s' := by
  refine ⟨fun filp id opened => ?_, fun id device present => ⟨device, ?_, rfl⟩⟩
  · rw [files, opened]
  · rw [devices, present]

theorem Grows.put (keeps : ∀ old, s.devices id = some old → device.number = old.number) : Grows s (s.put id device) := by
  refine ⟨fun _ _ opened => opened, fun other old present => ?_⟩
  by_cases same : other = id
  · subst same
    exact ⟨device, Function.update_self .., keeps old present⟩
  · exact ⟨old, (Function.update_of_ne same _ _).trans present, rfl⟩

theorem Grows.opens (id : Nat) : Grows s { s with files := s.files ++ [id] } := by
  refine ⟨fun filp other opened => ?_, fun _ device present => ⟨device, present, rfl⟩⟩
  obtain ⟨inside, _⟩ := List.getElem?_eq_some_iff.mp opened
  rw [← opened]
  exact List.getElem?_append_left inside

/-! What happens without a call, to each device. -/

structure Happens (s s' : State) : Prop where
  registry : s'.registry = s.registry
  files : s'.files = s.files
  devices : ∀ id, s'.devices id = s.devices id ∨ ∃ device event state, s.devices id = some device ∧
    unlockedFlags.environment event device.state = some state ∧ s'.devices id = some { device with state }
  links : ∀ path number, s'.links path = some number → s.links path = some number ∨ path = groupDevName number.2

theorem everywhere_happens {change : Tsm.State → Tsm.State} (event : Tsm.Event)
    (changes : ∀ d, Tsm.environment event d = some (change d)) : Happens s (s.everywhere change) := by
  refine ⟨rfl, rfl, fun id => ?_, fun _ _ => .inl⟩
  cases present : s.devices id with
  | none => exact .inl (by simp [State.everywhere, present])
  | some device =>
    refine .inr ⟨device, event, { device.state with device := change device.state.device }, rfl, ?_, ?_⟩
    · simp [unlockedFlags, loadStore, flagCommands, Tsm.device, changes]
    · simp [State.everywhere, present]

theorem happen_happens {event : Tsm.Event} (happened : s.happen id event = some s') : Happens s s' := by
  simp only [State.happen] at happened
  split at happened
  · cases happened
  next device present =>
    split at happened
    · cases happened
    next state stepped =>
      cases happened
      refine ⟨rfl, rfl, fun other => ?_, fun _ _ => .inl⟩
      by_cases same : other = id
      · exact .inr ⟨device, event, state, same ▸ present, stepped, same ▸ Function.update_self ..⟩
      · exact .inl (Function.update_of_ne same _ _)

theorem environment_happens (happened : tsm.environment event s = some s') : Happens s s' := by
  cases event with
  | tick =>
    cases happened
    exact everywhere_happens .tick fun _ => rfl
  | maxMessageSize value =>
    cases happened
    obtain ⟨registry, files, devices, links⟩ := everywhere_happens (s := s) (.maxMessageSize value) fun _ => rfl
    exact ⟨registry, files, devices, links⟩
  | maxStorageSize value =>
    cases happened
    obtain ⟨registry, files, devices, links⟩ := everywhere_happens (s := s) (.maxStorageSize value) fun _ => rfl
    exact ⟨registry, files, devices, links⟩
  | expire id work | worker id => exact happen_happens happened
  | udev number =>
    simp only [tsm, environment, symlink_deviceName] at happened
    split at happened
    · cases happened
      refine ⟨rfl, rfl, fun _ => .inl rfl, fun path other linked => ?_⟩
      by_cases same : path = groupDevName number.2
      · subst same
        cases (Function.update_self ..).symm.trans linked
        exact .inr rfl
      · exact .inl ((Function.update_of_ne same _ _).symm.trans linked)
    · cases happened

/-! Steps keep it. -/

section Keep
variable {rest mine mine' : Multiset Nat}

theorem Sound.numbers {registry : Manager.State} (sound : Sound s (mine + rest))
    (numbers : Numbers s.registry.fresh mine registry.fresh mine') : Sound { s with registry } (mine' + rest) := by
  obtain ⟨tracked, unborn, born, files, links⟩ := sound
  cases numbers with
  | takes next before after =>
    subst before after
    rw [zero_add] at tracked unborn
    refine ⟨?_, fun id member => ?_, fun id device present => ?_, files, links⟩
    · rw [next]
      exact Tracked.alloc {s.registry.fresh} tracked (Multiset.nodup_singleton _) (by simp)
    · rcases Multiset.mem_add.mp member with member | member
      · rw [Multiset.mem_singleton.mp member]
        -- a device under the next number would have a smaller one
        apply Option.eq_none_iff_forall_ne_some.mpr
        exact fun device present => Nat.lt_irrefl _ (born _ device present)
      · exact unborn id member
    · rw [next]
      exact Nat.lt_succ_of_lt (born id device present)
  | keeps same less =>
    have fewer : mine' + rest ≤ mine + rest := Multiset.add_le_add_right less
    refine ⟨?_, fun id member => unborn id (Multiset.mem_of_le fewer member), fun id device present => ?_, files, links⟩
    · rw [same]
      exact tracked.of_le fewer
    · rw [same]
      exact born id device present

theorem Sound.put {old : Device} (sound : Sound s rest) (present : s.devices id = some old) : Sound (s.put id device) rest := by
  obtain ⟨tracked, unborn, born, files, links⟩ := sound
  refine ⟨tracked, fun other member => ?_, fun other found there => ?_, fun other member => ?_, links⟩
  · have apart : other ≠ id := by
      rintro rfl
      rw [unborn other member] at present
      cases present
    exact (Function.update_of_ne apart _ _).trans (unborn other member)
  · by_cases same : other = id
    · exact same ▸ born id old present
    · exact born other found ((Function.update_of_ne same _ _).symm.trans there)
  · by_cases same : other = id
    · exact ⟨device, same ▸ Function.update_self ..⟩
    · obtain ⟨found, there⟩ := files other member
      exact ⟨found, (Function.update_of_ne same _ _).trans there⟩

theorem Sound.birth (sound : Sound s ({id} + rest)) : Sound (s.put id device) rest := by
  obtain ⟨tracked, unborn, born, files, links⟩ := sound
  have mine : id ∈ ({id} : Multiset Nat) := Multiset.mem_singleton_self id
  refine ⟨tracked.of_le (Multiset.le_add_left _ _), fun other member => ?_, fun other found there => ?_, fun other member => ?_,
    links⟩
  · have apart : other ≠ id := fun same => tracked.apart mine (same ▸ member)
    exact (Function.update_of_ne apart _ _).trans (unborn other (Multiset.mem_add.mpr (.inr member)))
  · by_cases same : other = id
    · exact same ▸ tracked.numbered id (Multiset.mem_add.mpr (.inl mine))
    · exact born other found ((Function.update_of_ne same _ _).symm.trans there)
  · obtain ⟨found, there⟩ := files other member
    have apart : other ≠ id := by
      rintro rfl
      rw [unborn other (Multiset.mem_add.mpr (.inl mine))] at there
      cases there
    exact ⟨found, (Function.update_of_ne apart _ _).trans there⟩

theorem Sound.opens (sound : Sound s rest) (present : s.devices id = some device) :
    Sound { s with files := s.files ++ [id] } rest := by
  refine ⟨sound.tracked, sound.unborn, sound.born, fun other member => ?_, sound.links⟩
  rcases List.mem_append.mp member with member | member
  · exact sound.files other member
  · exact ⟨device, List.mem_singleton.mp member ▸ present⟩

/-- The ioctl of the main device, and the device its step may add. -/
theorem sound_ioctl {limit : UInt32} {ioctl : IoctlOutcome} {registry : Manager.State} {pc pc' : IoctlPc} {cmd : UInt32}
    {desc : UInt8} {memory : Memory} (sound : Sound s (IoctlPc.unborn pc + rest)) (serves : Serves cmd desc memory pc)
    (moved : tsmDevIoctl limit ioctl s.registry pc = some (registry, pc')) :
    Sound { s.add (addedBy ioctl pc) with registry } (IoctlPc.unborn pc' + rest) ∧
      Grows s { s.add (addedBy ioctl pc) with registry } := by
  obtain ⟨numbers, -⟩ := ioctl_numbers serves moved
  cases added : addedBy ioctl pc with
  | none => exact ⟨sound.numbers numbers, .of_same rfl rfl⟩
  | some locals =>
    cases addedBy_eq_some added
    have done : registry.fresh = s.registry.fresh ∧ IoctlPc.unborn pc' = 0 := by
      simp only [tsmDevIoctl, installGroup] at moved
      split at moved <;> cases moved <;> exact ⟨rfl, rfl⟩
    have unborn : s.devices locals.id = none :=
      sound.unborn locals.id (Multiset.mem_add.mpr (.inl (Multiset.mem_singleton_self _)))
    have birth : Sound (s.put locals.id (s.newDevice locals)) (0 + rest) := by
      rw [zero_add]
      exact sound.birth
    have grows : Grows s (s.put locals.id (s.newDevice locals)) := .put fun old present => by
      rw [unborn] at present
      cases present
    rw [done.2]
    exact ⟨birth.numbers (.keeps done.1 (le_refl _)), grows.files, grows.devices⟩

theorem sound_move {request : Syscall} (sound : Sound s (call.unborn + rest)) (asked : Asked s request call)
    (step : MoveStep outcome s call s' call') :
    Sound s' (call'.unborn + rest) ∧ Asked s' request call' ∧ Grows s s' := by
  cases step with
  | tsmIoctl moved =>
    cases request with
    | tsmIoctl cmd desc memory =>
      obtain ⟨sound', grows⟩ := sound_ioctl sound asked moved
      exact ⟨sound', (ioctl_numbers asked moved).2, grows⟩
    | openFile _ | file _ _ => exact asked.elim
  | noLink missing | noDevice | badFile closed | nothing opened idle =>
    refine ⟨sound, ?_, .of_same rfl rfl⟩
    cases request <;> trivial
  | lookup linked =>
    cases request with
    | openFile path =>
      cases asked
      exact ⟨sound, sound.links _ _ linked, .of_same rfl rfl⟩
    | tsmIoctl _ _ _ | file _ _ => exact asked.elim
  | @groupOpen number id device present numbered =>
    cases request with
    | openFile path =>
      refine ⟨sound.opens present, ⟨id, device, ?_, present, numbered ▸ asked⟩, .opens id⟩
      exact List.getElem?_concat_length
    | tsmIoctl _ _ _ | file _ _ => exact asked.elim
  | dispatch opened asks =>
    cases request with
    | file filp op =>
      obtain ⟨rfl, rfl⟩ := asked
      exact ⟨sound, ⟨opened, Option.isSome_of_eq_some asks⟩, .of_same rfl rfl⟩
    | tsmIoctl _ _ _ | openFile _ => exact asked.elim
  | @device id call device state call' present moved =>
    have grows : Grows s (s.put id { device with state }) := .put fun old there => by
      rw [present] at there
      cases there
      rfl
    cases request with
    | file filp op => exact ⟨sound.put present, ⟨grows.files _ _ asked.1, asked.2⟩, grows⟩
    | tsmIoctl _ _ _ | openFile _ => exact asked.elim

theorem sound_event (sound : Sound s rest) (happens : Happens s s') : Sound s' rest ∧ Grows s s' := by
  obtain ⟨registry, files, devices, links⟩ := happens
  have stays : ∀ id device, s.devices id = some device →
      ∃ device', s'.devices id = some device' ∧ device'.number = device.number := by
    intro id device present
    rcases devices id with same | ⟨old, event, state, there, _, there'⟩
    · exact ⟨device, same.trans present, rfl⟩
    · rw [present] at there
      cases there
      exact ⟨_, there', rfl⟩
  have absent : ∀ id, s.devices id = none → s'.devices id = none := by
    intro id none
    rcases devices id with same | ⟨old, event, state, there, _, _⟩
    · exact same.trans none
    · rw [none] at there
      cases there
  refine ⟨⟨?_, fun id member => absent id (sound.unborn id member), fun id device present => ?_, fun id member => ?_,
    fun path number linked => ?_⟩, fun filp id opened => ?_, stays⟩
  · rw [registry]
    exact sound.tracked
  · rw [registry]
    cases there : s.devices id with
    | none =>
      rw [absent id there] at present
      cases present
    | some old => exact sound.born id old there
  · obtain ⟨device, present⟩ := sound.files id (files ▸ member)
    obtain ⟨device', present', _⟩ := stays id device present
    exact ⟨device', present'⟩
  · exact (links path number linked).elim (sound.links path number) fun same => same
  · rw [files, opened]

end Keep

end Steps

section Runs
variable {maxMessageSize maxStorageSize : UInt32} {msecsToJiffies : UInt32 → Nat} {config : ModuleConfig}
  {allowed : ModuleConfig → ModuleAct → Prop}

theorem module_sound (reached : Reaches tsm allowed (loaded maxMessageSize maxStorageSize msecsToJiffies) config) :
    Sound config.shared (total Call.unborn config.calls) ∧
      ∀ process ∈ config.calls, Asked config.shared process.request process.state := by
  refine reached.outline Call.unborn Sound (fun s process => Asked s process.request process.state) ⟨⟨.empty, ?_, ?_, ?_, ?_⟩, ?_⟩
    ?_ ?_ ?_
  · simp [loaded]
  · simp [loaded, State.loaded]
  · simp [loaded, State.loaded]
  · simp [loaded, State.loaded]
  · simp [loaded]
  · intro s request
    cases request <;> simp [tsm, Call.unborn, IoctlPc.unborn, Asked, Serves]
  · intro s left right request call outcome s' call' _ _ sound asked others moved
    obtain ⟨sound', asked', grows⟩ := sound_move sound asked (move_cases moved)
    exact ⟨sound', asked', fun process member => (others process member).mono grows⟩
  · intro s calls event s' _ _ sound asked happened
    obtain ⟨sound', grows⟩ := sound_event sound (environment_happens happened)
    exact ⟨sound', fun process member => (asked process member).mono grows⟩

end Runs

end Tsm.Module
