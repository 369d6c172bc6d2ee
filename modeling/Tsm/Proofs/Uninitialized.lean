import Tsm.Manager.Ioctl
import Tsm.Proofs.Installs

/-! What the main device's ioctl returns and leaves behind must not depend on what
its uninitialized locals hold. Which of them is read depends on the command, and on
whether a major was registered before. -/

namespace Tsm.Manager
open Interleaving Sequential

/-- One execution of the ioctl, as far as this point. -/
def Ioctls (maxMessageSize : UInt32) (outcome : IoctlOutcome) (s : State) (cmd : UInt32) (desc : UInt8) (memory : Memory)
    (s' : State) (pc : IoctlPc) : Prop :=
  Alone (tsmDevIoctl maxMessageSize) (fun _ => outcome) s (.entry cmd desc memory) s' pc

/-- It has returned, or was killed. -/
def IoctlPc.ended : IoctlPc → Bool
  | .done _ _ | .install .oops => true
  | _ => false

/-- Two executions that differ in their memory come to the same end. With a registered
major and every call of the kernel succeeding, a new descriptor is installed. -/
structure Unaffected (maxMessageSize : UInt32) (outcome : IoctlOutcome) (s : State) (cmd : UInt32) (desc : UInt8) : Prop where
  agree : ∀ memory memory' last pc, Ioctls maxMessageSize outcome s cmd desc memory last pc → pc.ended = true →
    Ioctls maxMessageSize outcome s cmd desc memory' last pc
  registered : ∀ pointer manager devices region, cmd = IOCTL_INSTALL_GROUP → outcome.toOutcome = granted region →
    s.manager = some (pointer, manager) → manager.groupDevsList = .list devices → manager.major ≠ 0 →
    (∀ gd ∈ devices, gd.minor ≠ desc.toNat) → manager.used.toNat < GROUP_DEV_COUNT →
      ∀ memory, ∃ last, Ioctls maxMessageSize outcome s cmd desc memory last (.done 0 none)

/-- A device is to be built for the descriptor, on this manager, and gets its memory. -/
structure BuildsOn (outcome : Outcome) (s : State) (desc : UInt8) (pointer : Nat) (manager : GroupDevices) : Prop where
  points : (s.prepared outcome).manager = some (pointer, manager)
  initialized : manager.groupDevsList ≠ .uninit
  unlisted : (manager.groupDevsList.devices.find? fun gd => gd.minor = desc.toNat) = none
  room : ¬ GROUP_DEV_COUNT < manager.used.toNat + 1
  parts : firstMissing outcome = none

/-- The command is one of the two, and an install that builds a device registers the
first major. -/
def Determined (outcome : IoctlOutcome) (s : State) (cmd : UInt32) (desc : UInt8) : Prop :=
  (cmd = IOCTL_INSTALL_GROUP ∨ cmd = IOCTL_MAX_MESSAGE_SIZE) ∧
    (cmd = IOCTL_INSTALL_GROUP → outcome.copyFromUser = true →
      ∀ pointer manager, BuildsOn outcome.toOutcome s desc pointer manager →
        manager.major = 0 ∧ outcome.allocRegion.isSome)

/-- Whatever the stack holds, the call comes to the test of the major with this manager. -/
def ReachesMajor (outcome : Outcome) (s : State) (desc : UInt8) (s' : State) (manager : GroupDevices) (id : Nat)
    (delayWq : Bool) : Prop :=
  ∀ stack, Alone installGroup (fun _ => outcome) s (.copyFromUser desc stack) s'
    (.testMajor ⟨desc, manager.major, stack.err, stack.dev, id, delayWq, none⟩)

section Course
variable {outcome : Outcome} {s s' : State} {desc : UInt8} {pointer : Nat} {manager : GroupDevices}

theorem copies (copied : outcome.copyFromUser = true) (stack : Stack) :
    Alone installGroup (fun _ => outcome) s (.copyFromUser desc stack) s (.entry (some desc) stack) := by
  refine .step ?_ .here
  simp [installGroup, copied]

/-- The list is searched without a look at the stack. -/
theorem searches (points : s.manager = some (pointer, manager)) (initialized : manager.groupDevsList ≠ .uninit) (stack : Stack) :
    Alone installGroup (fun _ => outcome) s (.getGroup desc stack) s
      ((manager.groupDevsList.devices.find? fun gd => gd.minor = desc.toNat).elim (.checkCapacity desc stack) fun _ => .done 0) := by
  cases list : manager.groupDevsList with
  | null =>
    refine .step ?_ .here
    simp [installGroup, points, list]
  | uninit => exact absurd list initialized
  | list devices =>
    cases devices with
    | nil =>
      refine .step ?_ .here
      simp [installGroup, points, list]
    | cons first rest =>
      have seeks : installGroup outcome s (.getGroup desc stack) = some (s, .scan desc stack) := by
        simp [installGroup, points, list]
      refine .step seeks (.step ?_ .here)
      simp only [installGroup, points, list, ListHead.devices]
      cases (first :: rest).find? fun gd => gd.minor = desc.toNat <;> rfl

/-- A new descriptor, and room for it. -/
theorem begins (points : s.manager = some (pointer, manager)) (initialized : manager.groupDevsList ≠ .uninit)
    (unlisted : (manager.groupDevsList.devices.find? fun gd => gd.minor = desc.toNat) = none)
    (room : ¬ GROUP_DEV_COUNT < manager.used.toNat + 1) (stack : Stack) :
    Alone installGroup (fun _ => outcome) s (.getGroup desc stack) { s with fresh := s.fresh + 1 }
      (.kmalloc .deviceName ⟨desc, manager.major, stack.err, stack.dev, s.fresh, false, none⟩) := by
  have misses : Alone installGroup (fun _ => outcome) s (.getGroup desc stack) _ _ := searches points initialized stack
  rw [unlisted, Option.elim_none] at misses
  have fits : installGroup outcome s (.checkCapacity desc stack) = some (s, .readMajor desc stack) := by
    simp only [installGroup, points, if_neg room]
  have reads : installGroup outcome s (.readMajor desc stack) = some ({ s with fresh := s.fresh + 1 },
      .kmalloc .deviceName ⟨desc, manager.major, stack.err, stack.dev, s.fresh, false, none⟩) := by
    simp only [installGroup, points]
  exact misses.trans (.step fits (.step reads .here))

/-- Up to the test of the major the stack is not looked at. -/
theorem builds (building : BuildsOn outcome s desc pointer manager) (copied : outcome.copyFromUser = true) :
    ∃ s' id delayWq, s'.manager = some (pointer, manager) ∧ ReachesMajor outcome s desc s' manager id delayWq := by
  obtain ⟨points, initialized, unlisted, room, all⟩ := building
  let id := (s.prepared outcome).fresh
  let numbered : State := { s.prepared outcome with fresh := id + 1 }
  let locals : Stack → Locals := fun stack => ⟨desc, manager.major, stack.err, stack.dev, id, false, none⟩
  have allocates : ∀ stack, Alone installGroup (fun _ => outcome) s (.copyFromUser desc stack)
      (numbered.gain (parts id Part.order)) (.initWorkqueue (locals stack)) := by
    intro stack
    have gains : Alone installGroup (fun _ => outcome) numbered _ _ _ := alone_allocations (locals stack)
    rw [all] at gains
    exact (copies copied stack).trans ((prepares points stack).trans
      ((begins points initialized unlisted room stack).trans gains))
  by_cases made : outcome.createWorkqueue = true
  · refine ⟨(numbered.gain (parts id Part.order)).acquire (.delayWq id), id, true, points, fun stack =>
      (allocates stack).trans (.step ?_ .here)⟩
    simp [installGroup, made, locals]
  · refine ⟨numbered.gain (parts id Part.order), id, false, points, fun stack => (allocates stack).trans (.step ?_ .here)⟩
    simp [installGroup, made, locals]

/-- Without a device to build it is not looked at at all. -/
theorem returns_early (otherwise : ∀ pointer manager, BuildsOn outcome s desc pointer manager → outcome.copyFromUser = false) :
    ∃ s' pc, ∀ stack, Alone installGroup (fun _ => outcome) s (.copyFromUser desc stack) s' pc := by
  by_cases copied : outcome.copyFromUser = true
  · cases manages : (s.prepared outcome).manager with
    | none =>
      obtain ⟨s', killed⟩ := killed_unprepared manages
      exact ⟨s', .oops, fun stack => (copies copied stack).trans (killed stack)⟩
    | some found =>
      obtain ⟨pointer, manager⟩ := found
      let prepared := s.prepared outcome
      have starts : ∀ stack, Alone installGroup (fun _ => outcome) s (.copyFromUser desc stack) prepared (.getGroup desc stack) :=
        fun stack => (copies copied stack).trans (prepares manages stack)
      by_cases uninit : manager.groupDevsList = .uninit
      · refine ⟨prepared, .oops, fun stack => (starts stack).trans (.step ?_ .here)⟩
        simp only [installGroup, prepared, manages, uninit]
      have search : ∀ stack, Alone installGroup (fun _ => outcome) prepared (.getGroup desc stack) _ _ :=
        searches manages uninit
      cases listed : manager.groupDevsList.devices.find? fun gd => gd.minor = desc.toNat with
      | some gd =>
        simp only [listed, Option.elim_some] at search
        exact ⟨prepared, .done 0, fun stack => (starts stack).trans (search stack)⟩
      | none =>
        simp only [listed, Option.elim_none] at search
        by_cases full : GROUP_DEV_COUNT < manager.used.toNat + 1
        · refine ⟨prepared, .done (-1), fun stack => (starts stack).trans ((search stack).trans (.step ?_ .here))⟩
          simp only [installGroup, prepared, manages, if_pos full]
        · let numbered : State := { prepared with fresh := prepared.fresh + 1 }
          let locals : Stack → Locals := fun stack => ⟨desc, manager.major, stack.err, stack.dev, prepared.fresh, false, none⟩
          cases short : firstMissing outcome with
          | none =>
            have building : BuildsOn outcome s desc pointer manager := ⟨manages, uninit, listed, full, short⟩
            rw [otherwise _ _ building] at copied
            cases copied
          | some missing =>
            refine ⟨(kmallocEnd numbered (locals ⟨0, 0⟩) (some missing)).1, .done (-1), fun stack =>
              (starts stack).trans ((begins manages uninit listed full stack).trans ?_)⟩
            have fails : Alone installGroup (fun _ => outcome) numbered _ _ _ := alone_allocations (locals stack)
            rw [short] at fails
            exact fails
  · refine ⟨s, .done (-1), fun stack => .step ?_ .here⟩
    simp [installGroup, copied]

/-- A major that is registered determines `err` and `dev`. -/
theorem registers {region : Region} {locals : Locals} (unknown : locals.major = 0) (handed : outcome.allocRegion = some region) :
    Alone installGroup (fun _ => outcome) s (.testMajor locals)
      { s.acquire (.region region.major) with regions := s.regions ++ [region.major] }
      (.storeMajor { locals with err := 0, dev := mkdev region.major 0, major := region.major }) := by
  have asks : installGroup outcome s (.testMajor locals) = some (s, .allocRegion locals) := by
    simp [installGroup, unknown]
  refine .step asks (.step ?_ .here)
  simp only [installGroup, handed, majorOf_mkdev]

/-- One that is not registered is what `dev` happens to hold. -/
theorem records_major (locals : Locals) (points : s.manager = some (pointer, manager)) (unknown : locals.major = 0)
    (failed : outcome.allocRegion = none) : ∃ last, Ends outcome s (.testMajor locals) last (-1) ∧
      last.manager = some (pointer, { manager with major := majorOf locals.dev }) := by
  let stored := s.store pointer { manager with major := majorOf locals.dev }
  let locals' : Locals := { locals with err := -1, major := majorOf locals.dev }
  have asks : installGroup outcome s (.testMajor locals) = some (s, .allocRegion locals) := by
    simp [installGroup, unknown]
  have fails : installGroup outcome s (.allocRegion locals) = some (s, .storeMajor locals') := by
    simp [installGroup, failed, locals']
  have stores : installGroup outcome s (.storeMajor locals') = some (stored, .testErr locals') := by
    simp only [installGroup, points]
    rfl
  have ends : Ends outcome s (.testMajor locals) (stored.lose (parts locals.id Part.order.reverse)) (-1) := by
    rw [ends_step asks, ends_step fails, ends_step stores]
    exact ends_unregistered (show (-1 : Int) < 0 by decide)
  exact ⟨_, ends, manager_store _ points⟩

/-- The device is being created and listed. -/
def InstallPc.publishing : InstallPc → Bool
  | .testClass _ | .createClass _ | .cdevAdd _ | .deviceCreate _ | .freeName _ | .listAdd _ | .link _ _ _ | .loadUsed
  | .storeUsed _ _ | .listPrint | .oops => true
  | .done ret => ret = 0
  | _ => false

theorem publishing_step {pc pc' : InstallPc} (publishing : pc.publishing = true)
    (moved : installGroup outcome s pc = some (s', pc')) : pc'.publishing = true := by
  cases pc with
  | testClass locals | cdevAdd locals | deviceCreate locals =>
    simp only [installGroup] at moved
    split at moved <;> cases moved <;> rfl
  | createClass locals | freeName locals =>
    cases moved
    rfl
  | listAdd gd =>
    simp only [installGroup] at moved
    split at moved
    · cases moved
      rfl
    · split at moved <;> cases moved <;> rfl
  | link manager next gd | loadUsed | storeUsed manager used | listPrint =>
    simp only [installGroup] at moved
    split at moved <;> cases moved <;> rfl
  | done ret | oops => cases moved
  | _ => cases publishing

end Course

section Ioctl
variable {maxMessageSize : UInt32} {outcome : IoctlOutcome} {s s' last : State} {cmd : UInt32} {desc : UInt8}
  {memory : Memory} {pc : InstallPc}

theorem ioctl_ended {pc : IoctlPc} (ended : pc.ended = true) : tsmDevIoctl maxMessageSize outcome s pc = none := by
  cases pc with
  | done ret copied => rfl
  | install pc =>
    cases pc with
    | oops => rfl
    | _ => cases ended
  | _ => cases ended

theorem ioctls_install (ran : Alone installGroup (fun _ => outcome.toOutcome) s (.copyFromUser desc memory.stack) s' pc) :
    Ioctls maxMessageSize outcome s IOCTL_INSTALL_GROUP desc memory s' (.install pc) :=
  .step rfl (ran.embed IoctlPc.install ioctl_install)

/-- A point that all executions pass. -/
theorem agree_of_common {pc pc' : IoctlPc} (common : ∀ memory, Ioctls maxMessageSize outcome s cmd desc memory s' pc)
    {memory memory' : Memory} (ran : Ioctls maxMessageSize outcome s cmd desc memory last pc') (ended : pc'.ended = true) :
    Ioctls maxMessageSize outcome s cmd desc memory' last pc' :=
  (common memory').trans (((common memory).continues (ioctl_ended ended)).mp ran)

theorem Determined.common (determined : Determined outcome s cmd desc) (maxMessageSize : UInt32) :
    ∃ s' pc, ∀ memory, Ioctls maxMessageSize outcome s cmd desc memory s' pc := by
  obtain ⟨rfl | rfl, first⟩ := determined
  · by_cases building : ∃ pointer manager, BuildsOn outcome.toOutcome s desc pointer manager ∧ outcome.copyFromUser = true
    · obtain ⟨pointer, manager, building, copied⟩ := building
      obtain ⟨s', id, delayWq, points, reaches⟩ := builds building copied
      obtain ⟨unknown, handed⟩ := first rfl copied pointer manager building
      obtain ⟨region, handed⟩ := Option.isSome_iff_exists.mp handed
      refine ⟨{ s'.acquire (.region region.major) with regions := s'.regions ++ [region.major] },
        .install (.storeMajor ⟨desc, region.major, 0, mkdev region.major 0, id, delayWq, none⟩),
        fun memory => ioctls_install ((reaches memory.stack).trans ?_)⟩
      exact registers unknown handed
    · have otherwise : ∀ pointer manager, BuildsOn outcome.toOutcome s desc pointer manager → outcome.copyFromUser = false :=
        fun pointer manager built => Bool.eq_false_of_not_eq_true fun copied => building ⟨pointer, manager, built, copied⟩
      obtain ⟨s', pc, returns⟩ := returns_early otherwise
      exact ⟨s', .install pc, fun memory => ioctls_install (returns memory.stack)⟩
  · exact ⟨s, .copyToUser, fun memory => .step rfl .here⟩

theorem ends_ioctl {ret : Int} (ends : Ends outcome.toOutcome s (.copyFromUser desc memory.stack) last ret) :
    Ioctls maxMessageSize outcome s IOCTL_INSTALL_GROUP desc memory last (.done ret none) :=
  (ioctls_install ends).trans (.step rfl .here)

def IoctlPc.publishing : IoctlPc → Bool
  | .install pc => pc.publishing
  | .done ret _ => ret = 0
  | _ => false

theorem ioctl_publishing_step {pc pc' : IoctlPc} (publishing : pc.publishing = true)
    (moved : tsmDevIoctl maxMessageSize outcome s pc = some (s', pc')) : pc'.publishing = true := by
  cases pc with
  | install pc =>
    rcases ioctl_install_cases moved with ⟨ret, rfl, rfl⟩ | ⟨next, rfl, installs⟩
    · exact publishing
    · exact publishing_step publishing installs
  | done ret copied => cases moved
  | _ => cases publishing

section Reaches
variable {manager : GroupDevices} {pointer id : Nat} {delayWq : Bool}

/-- An `err` of -1 that no call returned undoes the device, one of 0 publishes it. -/
theorem Unaffected.unknown (unaffected : Unaffected maxMessageSize outcome s IOCTL_INSTALL_GROUP desc)
    (reaches : ReachesMajor outcome.toOutcome s desc s' manager id delayWq) : manager.major = 0 := by
  by_contra known
  let locals : Int → Locals := fun err => ⟨desc, manager.major, err, 0, id, delayWq, none⟩
  have tests : ∀ err, installGroup outcome.toOutcome s' (.testMajor (locals err)) = some (s', .testErr (locals err)) := by
    simp [installGroup, known, locals]
  have passes : installGroup outcome.toOutcome s' (.testErr (locals 0)) = some (s', .testClass (locals 0)) := rfl
  have undoes : Ends outcome.toOutcome s (.copyFromUser desc ⟨-1, 0⟩) _ (-1) :=
    (reaches ⟨-1, 0⟩).trans (.step (tests (-1)) (ends_unregistered (show (-1 : Int) < 0 by decide)))
  have publishes : Ioctls maxMessageSize outcome s IOCTL_INSTALL_GROUP desc ⟨0, ⟨0, 0⟩⟩ s' (.install (.testClass (locals 0))) :=
    ioctls_install ((reaches ⟨0, 0⟩).trans (.step (tests 0) (.step passes .here)))
  have same := unaffected.agree ⟨0, ⟨-1, 0⟩⟩ ⟨0, ⟨0, 0⟩⟩ _ _ (ends_ioctl undoes) rfl
  have published := ((publishes.continues rfl).mp same).outline (fun _ pc => pc.publishing = true) rfl ioctl_publishing_step
  exact absurd published (by decide)

/-- Two values of `dev` leave two majors. -/
theorem Unaffected.registers (unaffected : Unaffected maxMessageSize outcome s IOCTL_INSTALL_GROUP desc)
    (reaches : ReachesMajor outcome.toOutcome s desc s' manager id delayWq) (points : s'.manager = some (pointer, manager))
    (unknown : manager.major = 0) : outcome.allocRegion.isSome := by
  by_contra failed
  rw [Option.not_isSome_iff_eq_none] at failed
  have leaves : ∀ dev, ∃ last, Ends outcome.toOutcome s (.copyFromUser desc ⟨0, dev⟩) last (-1) ∧
      last.manager = some (pointer, { manager with major := majorOf dev }) := by
    intro dev
    obtain ⟨last, ran, records⟩ := records_major ⟨desc, manager.major, 0, dev, id, delayWq, none⟩ points unknown failed
    exact ⟨last, (reaches ⟨0, dev⟩).trans ran, records⟩
  obtain ⟨last, ran, records⟩ := leaves 0
  obtain ⟨last', ran', records'⟩ := leaves (mkdev 1 0)
  have same := unaffected.agree ⟨0, ⟨0, 0⟩⟩ ⟨0, ⟨0, mkdev 1 0⟩⟩ _ _ (ends_ioctl ran) rfl
  have returns : Ioctls maxMessageSize outcome s IOCTL_INSTALL_GROUP desc ⟨0, ⟨0, mkdev 1 0⟩⟩ last' _ := ends_ioctl ran'
  obtain rfl := (returns.unique same rfl rfl).1
  rw [records] at records'
  have equal : majorOf 0 = majorOf (mkdev 1 0) := congrArg GroupDevices.major (congrArg Prod.snd (Option.some.inj records'))
  exact absurd equal (by decide)

end Reaches

theorem Unaffected.known (unaffected : Unaffected maxMessageSize outcome s cmd desc) :
    cmd = IOCTL_INSTALL_GROUP ∨ cmd = IOCTL_MAX_MESSAGE_SIZE := by
  by_contra unknown
  obtain ⟨other, other'⟩ := not_or.mp unknown
  have returns : ∀ ret, Ioctls maxMessageSize outcome s cmd desc ⟨ret, ⟨0, 0⟩⟩ s (.done ret none) := by
    intro ret
    refine .step ?_ .here
    simp only [tsmDevIoctl, if_neg other, if_neg other']
  have same := unaffected.agree _ ⟨1, ⟨0, 0⟩⟩ _ _ (returns 0) rfl
  exact absurd ((returns 1).unique same rfl rfl).2 (by simp)

/-- An execution of the ioctl does not depend on its uninitialized locals exactly when
the command is known and a device that is built registers the first major. -/
theorem unaffected_iff (maxMessageSize : UInt32) (outcome : IoctlOutcome) (s : State) (cmd : UInt32) (desc : UInt8) :
    Unaffected maxMessageSize outcome s cmd desc ↔ Determined outcome s cmd desc := by
  constructor
  · intro unaffected
    refine ⟨unaffected.known, ?_⟩
    rintro rfl copied pointer manager building
    obtain ⟨s', id, delayWq, points, reaches⟩ := builds building copied
    have unknown := unaffected.unknown reaches
    exact ⟨unknown, unaffected.registers reaches points unknown⟩
  · intro determined
    obtain ⟨s', pc, common⟩ := determined.common maxMessageSize
    refine ⟨fun memory memory' last pc' ran ended => agree_of_common common ran ended, ?_⟩
    rintro pointer manager devices region rfl succeeds points list known absent room
    have building : BuildsOn outcome.toOutcome s desc pointer manager := by
      refine ⟨?_, by simp [list], ?_, Nat.not_lt.mpr room, ?_⟩
      · rw [prepared_found (manager_eq_some.mp points).1]
        exact points
      · simpa [list] using absent
      · rw [succeeds]
        rfl
    have copied : outcome.copyFromUser = true := by rw [succeeds]; rfl
    exact absurd (determined.2 rfl copied pointer manager building).1 known

end Ioctl

/-- The second install, with every call succeeding and an `err` that holds -1. -/
theorem install_undone : ¬ ∀ maxMessageSize outcome s cmd desc, Unaffected maxMessageSize outcome s cmd desc := by
  intro unaffected
  let outcome : IoctlOutcome := ⟨granted firstRegion, true⟩
  have granted' := (unaffected 32 outcome firstInstall IOCTL_INSTALL_GROUP 4).registered 0 _ _ firstRegion rfl rfl
    (show firstInstall.manager = some (0, ⟨1, 240, .list [⟨0, 3, true, some 240⟩]⟩) by decide) rfl (by decide) (by decide)
    (by decide) ⟨0, ⟨-1, 0⟩⟩
  obtain ⟨last, ran⟩ := granted'
  have undone : Ioctls 32 outcome firstInstall IOCTL_INSTALL_GROUP 4 ⟨0, ⟨-1, 0⟩⟩ _ (.done (-1) none) :=
    runAlone_alone (tsmDevIoctl 32) (fun _ => outcome) 40 firstInstall _
  exact absurd (undone.unique ran rfl rfl).2 (by decide)

end Tsm.Manager
