import Tsm.Manager.Alone
import Tsm.Proofs.Registry

/-! What an install leaves behind. A failure should undo all it has done, a success
should leave a device that works; the outcomes for which that is so. -/

namespace Tsm.Manager
open Interleaving Sequential

/-! The records of a state only grow. -/

def State.acquiredSince (s before : State) : List Obj := s.acquired.drop before.acquired.length

def State.releasedSince (s before : State) : List Obj := s.released.drop before.released.length

/-- It has a workqueue, and its character device was added under a registered major. -/
def Serviceable (s : State) (gd : GroupDev) : Prop := gd.delayWq = true ∧ ∃ major ∈ gd.cdev, major ∈ s.regions

instance (s : State) (gd : GroupDev) : Decidable (Serviceable s gd) :=
  inferInstanceAs (Decidable (_ ∧ ∃ major ∈ gd.cdev, _))

def State.devicesOf (s : State) (desc : UInt8) : List GroupDev := s.listed.filter fun gd => gd.minor = desc.toNat

def Serves (s : State) (desc : UInt8) : Prop := ∃ gd, s.devicesOf desc = [gd] ∧ Serviceable s gd

/-- A failed install has changed nothing and kept nothing; after a successful one
there is exactly one device for the descriptor, and it works. -/
def CleanInstall (before after : State) (desc : UInt8) (ret : Int) : Prop :=
  (ret = -1 → after.manager = before.manager ∧ (after.acquiredSince before).Nodup ∧
    (after.releasedSince before).Perm (after.acquiredSince before)) ∧
  (ret = 0 → Serves after desc)

/-- The install has to build a device and allocates all its parts. -/
def Builds (outcome : Outcome) (s : State) (manager : GroupDevices) (desc : UInt8) : Prop :=
  s.devicesOf desc = [] ∧ manager.used.toNat + 1 ≤ GROUP_DEV_COUNT ∧ ∀ part, outcome.kmalloc part = true

/-- What `alloc_chrdev_region` returned, or what `err` held if it was not called. -/
def RegistrationFails (outcome : Outcome) (manager : GroupDevices) (stack : Stack) : Prop :=
  (manager.major = 0 ∧ outcome.allocRegion = none) ∨ (manager.major ≠ 0 ∧ stack.err < 0)

/-- A device that is listed works; one that is built and registered gets its workqueue
and its character device, under a registered major; without a registration neither a
workqueue nor another major is left behind. -/
structure Uneventful (outcome : Outcome) (s : State) (manager : GroupDevices) (desc : UInt8) (stack : Stack) : Prop where
  found : s.devicesOf desc ≠ [] → Serves s desc
  registered : Builds outcome s manager desc → ¬ RegistrationFails outcome manager stack →
    outcome.createWorkqueue = true ∧ outcome.cdevAdd = true ∧ (manager.major ≠ 0 → manager.major ∈ s.regions)
  unregistered : Builds outcome s manager desc → RegistrationFails outcome manager stack →
    outcome.createWorkqueue = false ∧ (manager.major = 0 → majorOf stack.dev = 0)

section Install
variable {outcome : Outcome} {s last : State} {pointer : Nat} {manager manager' : GroupDevices}
  {devices : List GroupDev} {desc : UInt8} {stack : Stack} {ret : Int}

theorem ends_entry (points : s.manager = some (pointer, manager)) :
    Ends outcome s (.entry (some desc) stack) last ret ↔ Ends outcome s (.getGroup desc stack) last ret :=
  (finds (manager_eq_some.mp points).1 stack).continues rfl

theorem install_computes (points : s.manager = some (pointer, manager)) (list : manager.groupDevsList = .list devices) :
    Ends outcome s (.entry (some desc) stack) last ret ↔
      (last, ret) = installAlone outcome s pointer manager devices desc stack :=
  (ends_entry points).trans (ends_getGroup points list)

/-- An install that runs alone returns. -/
theorem install_returns (outcome : Outcome) (desc : UInt8) (stack : Stack) (points : s.manager = some (pointer, manager))
    (list : manager.groupDevsList = .list devices) : ∃ last ret, Ends outcome s (.entry (some desc) stack) last ret :=
  ⟨_, _, (install_computes points list).mpr rfl⟩

theorem listed_points (points : s.manager = some (pointer, manager)) (list : manager.groupDevsList = .list devices) :
    s.listed = devices := by
  obtain ⟨global, found, _⟩ := manager_eq_some.mp points
  simp [State.listed, global, found, list]

theorem parts_nodup {id : Nat} {which : List Part} (distinct : which.Nodup) : (parts id which).Nodup :=
  distinct.map fun first second same => by cases same; rfl

/-- Nothing acquired or released, or what was acquired is what was released. -/
theorem clean_failure {objs : List Obj} (same : last.manager = s.manager) (acquired : last.acquired = s.acquired ++ objs)
    (released : last.released = s.released ++ objs.reverse) (distinct : objs.Nodup) :
    CleanInstall s last desc (-1) := by
  refine ⟨fun _ => ⟨same, ?_, ?_⟩, fun zero => absurd zero (by decide)⟩
  · simpa [State.acquiredSince, acquired] using distinct
  · simp [State.acquiredSince, State.releasedSince, acquired, released, List.reverse_perm]

/-- The ladder frees the parts, never the workqueue. -/
theorem clean_unregistered_iff {id : Nat} {wq : Bool}
    (acquired : last.acquired = s.acquired ++ (parts id Part.order ++ if wq then [Obj.delayWq id] else []))
    (released : last.released = s.released ++ parts id Part.order.reverse) :
    CleanInstall s last desc (-1) ↔ last.manager = s.manager ∧ wq = false := by
  cases wq with
  | false =>
    rw [eq_self, and_true]
    refine ⟨fun clean => (clean.1 rfl).1, fun same => ?_⟩
    have all : last.acquired = s.acquired ++ parts id Part.order := by simpa using acquired
    exact clean_failure same all (by simpa [parts] using released) (parts_nodup (by decide))
  | true =>
    simp only [Bool.true_eq_false, and_false, iff_false]
    intro clean
    have lengths := ((clean.1 rfl).2.2).length_eq
    simp [State.acquiredSince, State.releasedSince, acquired, released, parts] at lengths

theorem clean_success_iff {gd : GroupDev} (absent : s.devicesOf desc = []) (listed : last.listed = gd :: s.listed)
    (minor : gd.minor = desc.toNat) : CleanInstall s last desc 0 ↔ Serviceable last gd := by
  have one : last.devicesOf desc = [gd] := by
    rw [State.devicesOf, listed, List.filter_cons_of_pos (by simpa using minor)]
    exact congrArg _ absent
  constructor
  · intro clean
    obtain ⟨found, same, works⟩ := clean.2 rfl
    rw [one] at same
    cases same
    exact works
  · exact fun works => ⟨fun failed => absurd failed (by decide), fun _ => ⟨gd, one, works⟩⟩

theorem clean_finish_iff {s' : State} {locals : Locals}
    (ran : (last, ret) = finish outcome s' pointer manager' devices locals)
    (points : s'.manager = some (pointer, manager'))
    (listed : s.listed = devices) (absent : s.devicesOf desc = []) (same : locals.desc = desc) (unadded : locals.cdev = none)
    (acquired : locals.err < 0 → s'.acquired = s.acquired ++
      (parts locals.id Part.order ++ if locals.delayWq then [Obj.delayWq locals.id] else []))
    (released : s'.released = s.released) :
    CleanInstall s last desc ret ↔
      if locals.err < 0 then s'.manager = s.manager ∧ locals.delayWq = false
      else locals.delayWq = true ∧ outcome.cdevAdd = true ∧ locals.major ∈ s'.regions := by
  unfold finish at ran
  split at ran
  next failed =>
    cases ran
    rw [if_pos failed]
    exact clean_unregistered_iff (acquired failed) (congrArg (· ++ parts locals.id Part.order.reverse) released)
  next passed =>
    cases ran
    rw [if_neg passed]
    let gd := { locals with cdev := if outcome.cdevAdd then some locals.major else locals.cdev }.device
    have one : (installed outcome s' pointer manager' devices locals).listed = gd :: s.listed := by
      obtain ⟨global, found, _⟩ := manager_eq_some.mp points
      obtain ⟨inside, _⟩ := List.getElem?_eq_some_iff.mp found
      rw [listed]
      simp [State.listed, installed, global, inside, gd]
    apply (clean_success_iff absent one (by simp [gd, Locals.device, same])).trans
    apply and_congr_right
    intro _
    show (∃ major ∈ (if outcome.cdevAdd then some locals.major else locals.cdev), major ∈ s'.regions) ↔ _
    by_cases added : outcome.cdevAdd = true <;> simp [added, unadded]

/-- From the test of `major` on, with all parts allocated since `s` and the workqueue
created or not. -/
theorem clean_register_iff {s' : State} {locals : Locals}
    (ran : (last, ret) = register outcome s' pointer manager devices locals)
    (points : s.manager = some (pointer, manager))
    (same : s'.manager = s.manager) (listed : s.listed = devices) (absent : s.devicesOf desc = [])
    (wanted : locals.desc = desc) (unadded : locals.cdev = none) (major : locals.major = manager.major)
    (regions : s'.regions = s.regions)
    (acquired : s'.acquired = s.acquired ++
      (parts locals.id Part.order ++ if locals.delayWq then [Obj.delayWq locals.id] else []))
    (released : s'.released = s.released) :
    CleanInstall s last desc ret ↔
      (RegistrationFails outcome manager ⟨locals.err, locals.dev⟩ →
        locals.delayWq = false ∧ (manager.major = 0 → majorOf locals.dev = 0)) ∧
      (¬ RegistrationFails outcome manager ⟨locals.err, locals.dev⟩ →
        locals.delayWq = true ∧ outcome.cdevAdd = true ∧ (manager.major ≠ 0 → manager.major ∈ s.regions)) := by
  have points' : s'.manager = some (pointer, manager) := same.trans points
  unfold register at ran
  split at ran
  next known =>
    have known : manager.major ≠ 0 := major ▸ known
    rw [clean_finish_iff ran points' listed absent wanted unadded (fun _ => acquired) released]
    by_cases failed : locals.err < 0
    · simp [failed, RegistrationFails, known, same]
    · simp [failed, RegistrationFails, known, major, regions]
  next unknown =>
    have unknown : manager.major = 0 := by simpa [major] using unknown
    split at ran
    next fails =>
      have stored := manager_store { manager with major := majorOf locals.dev } points'
      have kept : (s'.store pointer { manager with major := majorOf locals.dev }).manager = s.manager ↔
          majorOf locals.dev = 0 := by
        rw [stored, points, Option.some_inj, Prod.mk.injEq, eq_self, true_and, ← unknown]
        exact ⟨congrArg GroupDevices.major, fun zero => by rw [zero]⟩
      rw [clean_finish_iff ran stored listed absent wanted unadded (fun _ => acquired) released]
      simp [RegistrationFails, unknown, fails, kept, and_comm]
    next region hands =>
      let s'' : State := { s'.acquire (.region region.major) with regions := s'.regions ++ [region.major] }
      have points'' : s''.manager = some (pointer, manager) := points'
      have stored := manager_store { manager with major := region.major } points''
      rw [clean_finish_iff ran stored listed absent wanted unadded (fun failed => (Int.lt_irrefl 0 failed).elim) released]
      simp [RegistrationFails, unknown, hands, State.store]

theorem firstMissing_eq_none : firstMissing outcome = none ↔ ∀ part, outcome.kmalloc part = true := by
  rw [firstMissing, List.find?_eq_none]
  constructor
  · intro all part
    have member : part ∈ Part.order := by cases part <;> decide
    simpa using all part member
  · intro all part _
    simp [all part]

/-- From the first allocation on, for a descriptor that has no device. -/
theorem clean_build_iff
    (ran : (last, ret) = build outcome { s with fresh := s.fresh + 1 } pointer manager devices
      ⟨desc, manager.major, stack.err, stack.dev, s.fresh, false, none⟩)
    (points : s.manager = some (pointer, manager)) (listed : s.listed = devices) (absent : s.devicesOf desc = [])
    (room : manager.used.toNat + 1 ≤ GROUP_DEV_COUNT) :
    CleanInstall s last desc ret ↔ Uneventful outcome s manager desc stack := by
  unfold build at ran
  split at ran
  next part short =>
    cases ran
    have fails : ¬ Builds outcome s manager desc := fun builds => by
      rw [firstMissing_eq_none.mpr builds.2.2] at short
      cases short
    have distinct : part.before.Nodup := (by decide : Part.order.Nodup).sublist (List.takeWhile_sublist _)
    have clean : CleanInstall s ((State.gain { s with fresh := s.fresh + 1 } (parts s.fresh part.before)).lose
        (parts s.fresh part.before.reverse)) desc (-1) :=
      clean_failure rfl rfl (by simp [State.lose, State.gain, parts]) (parts_nodup distinct)
    exact iff_of_true clean ⟨fun found => absurd absent found, fun builds => absurd builds fails,
      fun builds => absurd builds fails⟩
  next all =>
    have builds : Builds outcome s manager desc := ⟨absent, room, firstMissing_eq_none.mp all⟩
    have settled : CleanInstall s last desc ret ↔
        (RegistrationFails outcome manager stack →
          outcome.createWorkqueue = false ∧ (manager.major = 0 → majorOf stack.dev = 0)) ∧
        (¬ RegistrationFails outcome manager stack →
          outcome.createWorkqueue = true ∧ outcome.cdevAdd = true ∧ (manager.major ≠ 0 → manager.major ∈ s.regions)) := by
      by_cases made : outcome.createWorkqueue = true
      · simp only [made, if_true] at ran
        rw [clean_register_iff ran points rfl listed absent rfl rfl rfl rfl ?_ rfl, made]
        simp [State.acquire, State.gain]
      · simp only [made, Bool.false_eq_true, if_false] at ran
        rw [clean_register_iff ran points rfl listed absent rfl rfl rfl rfl ?_ rfl, Bool.eq_false_iff.mpr made]
        simp [State.gain]
    rw [settled]
    constructor
    · rintro ⟨unregistered, registered⟩
      exact ⟨fun found => absurd absent found, fun _ => registered, fun _ => unregistered⟩
    · intro uneventful
      exact ⟨uneventful.unregistered builds, uneventful.registered builds⟩

/-- For every outcome of the kernel's calls, an install that runs alone is clean
exactly when it is uneventful. -/
theorem clean_install_iff (points : s.manager = some (pointer, manager)) (list : manager.groupDevsList = .list devices)
    (ran : Ends outcome s (.entry (some desc) stack) last ret) :
    CleanInstall s last desc ret ↔ Uneventful outcome s manager desc stack := by
  have listed := listed_points points list
  have absent : s.devicesOf desc = [] ↔ ¬ ∃ gd ∈ devices, gd.minor = desc.toNat := by simp [State.devicesOf, listed]
  have computed := (install_computes points list).mp ran
  unfold installAlone at computed
  split at computed
  next found =>
    cases computed
    have known : s.devicesOf desc ≠ [] := fun none => absent.mp none found
    constructor
    · intro clean
      exact ⟨fun _ => clean.2 rfl, fun builds => absurd builds.1 known, fun builds => absurd builds.1 known⟩
    · intro uneventful
      exact ⟨fun failed => absurd failed (by decide), fun _ => uneventful.found known⟩
  next missing =>
    split at computed
    next full =>
      cases computed
      have fails : ¬ Builds outcome s manager desc := fun builds => Nat.not_le.mpr full builds.2.1
      have clean : CleanInstall s s desc (-1) :=
        clean_failure rfl (List.append_nil _).symm (List.append_nil _).symm List.nodup_nil
      exact iff_of_true clean ⟨fun found => absurd (absent.mpr missing) found, fun builds => absurd builds fails,
        fun builds => absurd builds fails⟩
    next room => exact clean_build_iff computed points listed (absent.mpr missing) (Nat.not_lt.mp room)

end Install

/-! The first install creates the manager. It succeeds, or it runs out of memory. -/

def runInstall (outcome : Outcome) (s : State) (desc : UInt8) (stack : Stack) : State × InstallPc :=
  runAlone installGroup (fun _ => outcome) 40 s (.entry (some desc) stack)

theorem ends_runInstall {outcome : Outcome} {s : State} {desc : UInt8} {stack : Stack} {ret : Int}
    (returned : (runInstall outcome s desc stack).2 = .done ret) :
    Ends outcome s (.entry (some desc) stack) (runInstall outcome s desc stack).1 ret := by
  have ran : Alone installGroup (fun _ => outcome) s (.entry (some desc) stack) (runInstall outcome s desc stack).1
      (runInstall outcome s desc stack).2 := runAlone_alone _ _ 40 _ _
  rw [returned] at ran
  exact ran

def firstInstall : State := (runInstall (granted firstRegion) .loaded 3 ⟨0, 0⟩).1

theorem clean_install_iff_secondInstall :
    CleanInstall firstInstall (runInstall (granted firstRegion) firstInstall 4 ⟨0, 0⟩).1 4 0 ↔
      Uneventful (granted firstRegion) firstInstall ⟨1, 240, .list [⟨0, 3, true, some 240⟩]⟩ 4 ⟨0, 0⟩ :=
  clean_install_iff (show firstInstall.manager = some (0, _) by decide) rfl (ends_runInstall (by decide))

/-- Nothing can be allocated for the first device. -/
def starvedRun : List InstallAct :=
  [install 3] ++ List.replicate 10 (.move 0 { granted firstRegion with kmalloc := fun _ => false })

def starved : State := { State.loaded with groupDevs := some 0, managers := [⟨0, 0, .list []⟩], fresh := 1 }

def unregistered : Outcome := { granted firstRegion with allocRegion := none }

/-- The install that follows gets all it asks for, except the region: the workqueue
stays, and so does a major that was never registered. -/
theorem failed_install_leaves_trace :
    ¬ ∀ outcome config pointer manager devices desc stack last ret,
      Reaches installs Anything justLoaded config → config.shared.manager = some (pointer, manager) →
      manager.groupDevsList = .list devices → Ends outcome config.shared (.entry (some desc) stack) last ret →
      CleanInstall config.shared last desc ret := by
  intro clean
  have reached : run installs Anything justLoaded starvedRun = some ⟨starved, [⟨⟨3, ⟨0, 0⟩⟩, .done (-1)⟩]⟩ := rfl
  have points : starved.manager = some (0, ⟨0, 0, .list []⟩) := rfl
  have ran : Ends unregistered starved (.entry (some 4) ⟨0, 0x12345678⟩)
      (runInstall unregistered starved 4 ⟨0, 0x12345678⟩).1 (-1) := ends_runInstall (by decide)
  have traceless := clean _ _ _ _ _ _ _ _ _ (reaches_of_run .refl reached) points rfl ran
  have freed := (traceless.1 rfl).2.2.length_eq
  exact absurd freed (by decide)

end Tsm.Manager
