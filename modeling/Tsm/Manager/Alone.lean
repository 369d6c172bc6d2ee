import Tsm.Lib.Sequential
import Tsm.Manager.Install

/-! An install that nobody interrupts, as one function of the outcomes of its calls
to the kernel. The steps of `installGroup`, taken one after the other, compute it. -/

namespace Tsm.Manager
open Interleaving Sequential KernelList

/-- Run alone from here, the install returns `ret` and leaves this state. -/
def Ends (outcome : Outcome) (s : State) (pc : InstallPc) (last : State) (ret : Int) : Prop :=
  Alone installGroup (fun _ => outcome) s pc last (.done ret)

section Steps
variable {outcome : Outcome} {s s' last : State} {pc pc' : InstallPc} {ret ret' : Int}

theorem ends_step (moved : installGroup outcome s pc = some (s', pc')) :
    Ends outcome s pc last ret ↔ Ends outcome s' pc' last ret := alone_step rfl moved

theorem ends_done : Ends outcome s (.done ret') last ret ↔ last = s ∧ ret = ret' := by
  rw [Ends, alone_stuck rfl, InstallPc.done.injEq]

end Steps

/-! The manager that the call finds, or allocates. -/

def State.allocated (s : State) (list : ListHead) : State :=
  { s with groupDevs := some s.managers.length, managers := s.managers ++ [⟨0, 0, list⟩] }

/-- The state in which `get_group` is called. -/
def State.prepared (outcome : Outcome) (s : State) : State :=
  match s.groupDevs with
  | some _ => s
  | none => if outcome.groupDevs && outcome.groupDevsList then s.allocated (.list []) else s

section Prepare
variable {outcome : Outcome} {s : State} {pointer : Nat} {manager : GroupDevices} {list list' : ListHead} {desc : UInt8}

theorem manager_allocated (live : s.managers.length ∉ s.freedManagers) :
    (s.allocated list).manager = some (s.managers.length, ⟨0, 0, list⟩) :=
  manager_eq_some.mpr ⟨rfl, by simp [State.allocated], live⟩

theorem allocated_dangles (dangles : s.managers.length ∈ s.freedManagers) : (s.allocated list).manager = none := by
  simp [State.manager, State.allocated, dangles]

@[simp] theorem store_allocated : (s.allocated list).store s.managers.length ⟨0, 0, list'⟩ = s.allocated list' := by
  simp [State.store, State.allocated]

theorem prepared_found (found : s.groupDevs = some pointer) : s.prepared outcome = s := by
  simp only [State.prepared, found]

theorem enters (stack : Stack) :
    Alone installGroup (fun _ => outcome) s (.entry (some desc) stack) s (.testGroupDevs desc stack) := by
  have below : ¬ desc.toNat ≥ GROUP_DEV_COUNT := Nat.not_le.mpr desc.toNat_lt
  refine .step ?_ .here
  simp only [installGroup, if_neg below]

theorem finds (found : s.groupDevs = some pointer) (stack : Stack) :
    Alone installGroup (fun _ => outcome) s (.entry (some desc) stack) s (.getGroup desc stack) := by
  refine (enters stack).trans (.step ?_ .here)
  simp only [installGroup, found]

theorem allocates (null : s.groupDevs = none) (made : outcome.groupDevs = true) (stack : Stack) :
    Alone installGroup (fun _ => outcome) s (.entry (some desc) stack) (s.allocated .null) (.kmallocList desc stack) := by
  have tests : installGroup outcome s (.testGroupDevs desc stack) = some (s, .kzallocGroupDevs desc stack) := by
    simp only [installGroup, null]
  refine (enters stack).trans (.step tests (.step ?_ .here))
  simp [installGroup, made, State.allocated]

theorem prepares (points : (s.prepared outcome).manager = some (pointer, manager)) (stack : Stack) :
    Alone installGroup (fun _ => outcome) s (.entry (some desc) stack) (s.prepared outcome) (.getGroup desc stack) := by
  cases global : s.groupDevs with
  | some found =>
    rw [prepared_found global]
    exact finds global stack
  | none =>
    simp only [State.prepared, global] at points ⊢
    split at points
    next both =>
      rw [if_pos both]
      obtain ⟨made, listMade⟩ := Bool.and_eq_true_iff.mp both
      have live : s.managers.length ∉ s.freedManagers := by
        obtain ⟨same, _, live⟩ := manager_eq_some.mp points
        cases same
        exact live
      have lists : installGroup outcome (s.allocated .null) (.kmallocList desc stack) =
          some (s.allocated .uninit, .initListHead desc stack) := by
        simp [installGroup, manager_allocated live, listMade]
      have initializes : installGroup outcome (s.allocated .uninit) (.initListHead desc stack) =
          some (s.allocated (.list []), .getGroup desc stack) := by
        simp [installGroup, manager_allocated live]
      exact (allocates global made stack).trans (.step lists (.step initializes .here))
    · have null : s.groupDevs = some pointer := (manager_eq_some.mp points).1
      rw [global] at null
      cases null

/-- An allocation that fails goes unnoticed, and the manager is used null or freed. -/
theorem killed_unprepared (missing : (s.prepared outcome).manager = none) :
    ∃ s', ∀ stack, Alone installGroup (fun _ => outcome) s (.entry (some desc) stack) s' .oops := by
  cases global : s.groupDevs with
  | some found =>
    rw [prepared_found global] at missing
    have dangles : ∀ stack, installGroup outcome s (.getGroup desc stack) = some (s, .oops) := by
      simp only [installGroup, missing, implies_true]
    exact ⟨s, fun stack => (finds global stack).trans (.step (dangles stack) .here)⟩
  | none =>
    by_cases made : outcome.groupDevs = true
    · by_cases live : s.managers.length ∈ s.freedManagers
      · have dangles : ∀ stack, installGroup outcome (s.allocated .null) (.kmallocList desc stack) =
            some (s.allocated .null, .oops) := by
          simp only [installGroup, allocated_dangles live, implies_true]
        exact ⟨s.allocated .null, fun stack => (allocates global made stack).trans (.step (dangles stack) .here)⟩
      · have unlisted : outcome.groupDevsList = false := by
          by_contra listed
          have listMade : outcome.groupDevsList = true := Bool.eq_true_of_not_eq_false listed
          simp [State.prepared, global, made, listMade, manager_allocated live] at missing
        let freed : State := { s.allocated .null with freedManagers := s.freedManagers ++ [s.managers.length] }
        have fails : ∀ stack, installGroup outcome (s.allocated .null) (.kmallocList desc stack) =
            some (s.allocated .null, .kfreeGroupDevs desc stack) := by
          simp [installGroup, manager_allocated live, unlisted]
        have frees : ∀ stack, installGroup outcome (s.allocated .null) (.kfreeGroupDevs desc stack) =
            some (freed, .getGroup desc stack) := by
          simp only [installGroup, manager_allocated live]
          exact fun _ => rfl
        have dangles : ∀ stack, installGroup outcome freed (.getGroup desc stack) = some (freed, .oops) := by
          have dangles : freed.manager = none := by simp [State.manager, freed, State.allocated]
          simp only [installGroup, dangles, implies_true]
        exact ⟨freed, fun stack => (allocates global made stack).trans
          (.step (fails stack) (.step (frees stack) (.step (dangles stack) .here)))⟩
    · have tests : ∀ stack, installGroup outcome s (.testGroupDevs desc stack) = some (s, .kzallocGroupDevs desc stack) := by
        simp only [installGroup, global, implies_true]
      have fails : ∀ stack, installGroup outcome s (.kzallocGroupDevs desc stack) = some (s, .getGroup desc stack) := by
        simp [installGroup, made, ← global]
      have null : ∀ stack, installGroup outcome s (.getGroup desc stack) = some (s, .oops) := by
        simp only [installGroup, State.manager, global, implies_true]
      exact ⟨s, fun stack => (enters stack).trans (.step (tests stack) (.step (fails stack) (.step (null stack) .here)))⟩

end Prepare

/-! The parts of a device, in the order of their allocation. -/

def Part.order : List Part :=
  [.deviceName, .newGroupDev, .messageList, .messageSem, .pendingList, .pendingSem, .wqSem, .delayList]

/-- The parts allocated before this one. -/
def Part.before (part : Part) : List Part := Part.order.takeWhile (· ≠ part)

def Part.onwards (part : Part) : List Part := Part.order.dropWhile (· ≠ part)

theorem Part.before_previous (part : Part) :
    part.before = match part.previous with
      | none => []
      | some previous => previous.before ++ [previous] := by
  cases part <;> rfl

theorem Part.before_next {part next : Part} (follows : part.next = some next) :
    next.before = part.before ++ [part] := by
  cases part
  case delayList => cases follows
  all_goals
    cases follows
    rfl

theorem Part.onwards_next (part : Part) :
    part.onwards = match part.next with
      | none => [part]
      | some next => part :: next.onwards := by
  cases part <;> rfl

theorem Part.before_last {part : Part} (last : part.next = none) : part.before ++ [part] = Part.order := by
  cases part
  case delayList => rfl
  all_goals cases last

/-- Induction against the order. -/
theorem Part.induct {motive : Part → Prop} (step : ∀ part, (∀ next, part.next = some next → motive next) → motive part)
    (part : Part) : motive part := by
  induction bound : part.onwards.length using Nat.strongRecOn generalizing part with
  | ind bound ih =>
    refine step part fun next follows => ih _ ?_ next rfl
    rw [← bound, Part.onwards_next part, follows]
    exact Nat.lt_succ_self _

/-- Induction along the order. -/
theorem Part.induct_previous {motive : Part → Prop}
    (step : ∀ part, (∀ previous, part.previous = some previous → motive previous) → motive part)
    (part : Part) : motive part := by
  induction bound : part.before.length using Nat.strongRecOn generalizing part with
  | ind bound ih =>
    refine step part fun previous precedes => ih _ ?_ previous rfl
    rw [← bound, Part.before_previous part, precedes]
    simp

def parts (id : Nat) (which : List Part) : List Obj := which.map fun part => .part part id

def State.gain (s : State) (objs : List Obj) : State := { s with acquired := s.acquired ++ objs }

def State.lose (s : State) (objs : List Obj) : State := { s with released := s.released ++ objs }

/-- The ladder from a label on frees what was allocated up to there. -/
theorem ends_unwind {outcome : Outcome} {s last : State} {locals : Locals} {ret : Int} (part : Part) :
    Ends outcome s (unwind locals part.previous) last ret ↔
      last = s.lose (parts locals.id part.before.reverse) ∧ ret = -1 := by
  induction part using Part.induct_previous generalizing s with
  | step part ih =>
    have before := part.before_previous
    cases precedes : part.previous with
    | none =>
      rw [precedes] at before
      rw [before, unwind, ends_done]
      simp [State.lose, parts]
    | some previous =>
      rw [precedes] at before
      rw [before, unwind, ends_step (by rfl), ih previous precedes]
      simp [State.lose, State.release, parts]

/-- The first part that cannot be allocated. -/
def firstMissing (outcome : Outcome) : Option Part := Part.order.find? fun part => !outcome.kmalloc part

/-- Where the allocations lead, with the first that fails. -/
def kmallocEnd (s : State) (locals : Locals) : Option Part → State × InstallPc
  | none => (s.gain (parts locals.id Part.order), .initWorkqueue locals)
  | some missing => ((s.gain (parts locals.id missing.before)).lose (parts locals.id missing.before.reverse), .done (-1))

theorem alone_kmalloc {outcome : Outcome} {s : State} {locals : Locals} (part : Part) :
    let last := kmallocEnd s locals (part.onwards.find? fun part => !outcome.kmalloc part)
    Alone installGroup (fun _ => outcome) (s.gain (parts locals.id part.before)) (.kmalloc part locals) last.1 last.2 := by
  induction part using Part.induct with
  | step part ih =>
    let built := s.gain (parts locals.id part.before)
    have onwards := part.onwards_next
    by_cases missing : outcome.kmalloc part = false
    · have moved : installGroup outcome built (.kmalloc part locals) = some (built, unwind locals part.previous) := by
        simp [installGroup, missing]
      have found : part.onwards.find? (fun part => !outcome.kmalloc part) = some part := by
        rw [onwards]
        cases part.next <;> simp [missing]
      rw [found]
      exact .step moved ((ends_unwind part).mpr ⟨rfl, rfl⟩)
    · cases follows : part.next with
      | none =>
        have moved : installGroup outcome built (.kmalloc part locals) =
            some (s.gain (parts locals.id Part.order), .initWorkqueue locals) := by
          simp [installGroup, missing, follows, built, State.acquire, State.gain, parts, ← Part.before_last follows]
        have found : part.onwards.find? (fun part => !outcome.kmalloc part) = none := by
          rw [onwards, follows]
          simp [missing]
        rw [found]
        exact .step moved .here
      | some next =>
        have moved : installGroup outcome built (.kmalloc part locals) =
            some (s.gain (parts locals.id next.before), .kmalloc next locals) := by
          simp [installGroup, missing, follows, built, State.acquire, State.gain, parts, Part.before_next follows]
        have found : part.onwards.find? (fun part => !outcome.kmalloc part) =
            next.onwards.find? fun part => !outcome.kmalloc part := by
          rw [onwards, follows]
          simp [missing]
        rw [found]
        exact .step moved (ih next follows)

/-- From the first allocation on. -/
theorem alone_allocations {outcome : Outcome} {s : State} (locals : Locals) :
    Alone installGroup (fun _ => outcome) s (.kmalloc .deviceName locals) (kmallocEnd s locals (firstMissing outcome)).1
      (kmallocEnd s locals (firstMissing outcome)).2 := by
  have nothing : s.gain (parts locals.id (Part.before .deviceName)) = s := by
    simp [State.gain, parts, Part.before, Part.order]
  have allocates : Alone installGroup (fun _ => outcome) (s.gain (parts locals.id (Part.before .deviceName)))
    (.kmalloc .deviceName locals) _ _ := alone_kmalloc .deviceName
  rw [nothing] at allocates
  exact allocates

/-! The rest of `_install_group` and of `install_group`, from the last label back. -/

/-- The state with the new device published, listed and counted. -/
def installed (outcome : Outcome) (s : State) (pointer : Nat) (manager : GroupDevices) (devices : List GroupDev)
    (locals : Locals) : State :=
  let gd := { locals with cdev := if outcome.cdevAdd then some locals.major else locals.cdev }.device
  { s with
    managers := s.managers.set pointer { manager with
      used := manager.used + 1, groupDevsList := .list (gd :: devices) }
    groupDevClass :=
      if s.groupDevClass = .null then if outcome.classCreate then .valid else .error else s.groupDevClass
    nodes := if outcome.deviceCreate then s.nodes ++ [(locals.major, locals.desc.toNat)] else s.nodes
    created := s.created ++ [gd]
    released := s.released ++ [.part .deviceName locals.id] }

/-- From the test of `err` on. -/
def finish (outcome : Outcome) (s : State) (pointer : Nat) (manager : GroupDevices) (devices : List GroupDev)
    (locals : Locals) : State × Int :=
  if locals.err < 0 then (s.lose (parts locals.id Part.order.reverse), -1)
  else (installed outcome s pointer manager devices locals, 0)

/-- From the test of `major` on: the first device allocates the region. -/
def register (outcome : Outcome) (s : State) (pointer : Nat) (manager : GroupDevices) (devices : List GroupDev)
    (locals : Locals) : State × Int :=
  if locals.major ≠ 0 then finish outcome s pointer manager devices locals
  else
    match outcome.allocRegion with
    | none =>
      let major := majorOf locals.dev
      finish outcome (s.store pointer { manager with major }) pointer { manager with major } devices
        { locals with err := -1, major }
    | some region =>
      let major := region.major
      finish outcome
        (({ s.acquire (.region major) with regions := s.regions ++ [major] } : State).store pointer { manager with major })
        pointer { manager with major } devices { locals with err := 0, dev := mkdev major 0, major }

/-- `_install_group`, and the insertion of the device it returns. -/
def build (outcome : Outcome) (s : State) (pointer : Nat) (manager : GroupDevices) (devices : List GroupDev)
    (locals : Locals) : State × Int :=
  match firstMissing outcome with
  | some missing => ((s.gain (parts locals.id missing.before)).lose (parts locals.id missing.before.reverse), -1)
  | none =>
    let s := s.gain (parts locals.id Part.order)
    if outcome.createWorkqueue then
      register outcome (s.acquire (.delayWq locals.id)) pointer manager devices { locals with delayWq := true }
    else register outcome s pointer manager devices { locals with delayWq := false }

/-- `install_group`, once the manager is initialized. -/
def installAlone (outcome : Outcome) (s : State) (pointer : Nat) (manager : GroupDevices) (devices : List GroupDev)
    (desc : UInt8) (stack : Stack) : State × Int :=
  if ∃ gd ∈ devices, gd.minor = desc.toNat then (s, 0)
  else if GROUP_DEV_COUNT < manager.used.toNat + 1 then (s, -1)
  else
    build outcome { s with fresh := s.fresh + 1 } pointer manager devices
      ⟨desc, manager.major, stack.err, stack.dev, s.fresh, false, none⟩

section Rest
variable {outcome : Outcome} {s last : State} {locals : Locals} {ret : Int} {pointer : Nat} {manager : GroupDevices}
  {devices : List GroupDev}

theorem ends_listAdd {gd : GroupDev} (points : s.manager = some (pointer, manager))
    (list : manager.groupDevsList = .list devices) :
    Ends outcome s (.listAdd gd) last ret ↔
      last = s.store pointer { manager with used := manager.used + 1, groupDevsList := .list (gd :: devices) } ∧ ret = 0 := by
  let linked : GroupDevices := { manager with groupDevsList := .list (gd :: devices) }
  let counted : GroupDevices := { manager with used := manager.used + 1, groupDevsList := .list (gd :: devices) }
  have found := (manager_eq_some.mp points).2.1
  have points' : (s.store pointer linked).manager = some (pointer, linked) := manager_store _ points
  have found' := (manager_eq_some.mp points').2.1
  have loaded : installGroup outcome s (.listAdd gd) = some (s, .link pointer devices.head? gd) := by
    simp [installGroup, points, list]
  have links : installGroup outcome s (.link pointer devices.head? gd) = some (s.store pointer linked, .loadUsed) := by
    cases devices <;> simp [installGroup, found, list, linked, KernelList.listAdd]
  have loads : installGroup outcome (s.store pointer linked) .loadUsed =
      some (s.store pointer linked, .storeUsed pointer manager.used) := by
    simp [installGroup, points', linked]
  have stores : installGroup outcome (s.store pointer linked) (.storeUsed pointer manager.used) =
      some (s.store pointer counted, .listPrint) := by
    simp only [installGroup, found', store_store]
    rfl
  have prints : installGroup outcome (s.store pointer counted) .listPrint = some (s.store pointer counted, .done 0) := by
    simp [installGroup, manager_store _ points]
  rw [ends_step loaded, ends_step links, ends_step loads, ends_step stores, ends_step prints, ends_done]

/-- Three calls whose failure goes unnoticed. -/
theorem ends_testClass :
    Ends outcome s (.testClass locals) last ret ↔
      Ends outcome { s with
        groupDevClass :=
          if s.groupDevClass = .null then if outcome.classCreate then .valid else .error else s.groupDevClass
        nodes := if outcome.deviceCreate then s.nodes ++ [(locals.major, locals.desc.toNat)] else s.nodes }
        (.freeName { locals with cdev := if outcome.cdevAdd then some locals.major else locals.cdev }) last ret := by
  have nodes : ∀ (s : State) (locals : Locals), Ends outcome s (.deviceCreate locals) last ret ↔ Ends outcome { s with
      nodes := if outcome.deviceCreate then s.nodes ++ [(locals.major, locals.desc.toNat)] else s.nodes }
      (.freeName locals) last ret := by
    intro s locals
    apply ends_step
    by_cases created : outcome.deviceCreate <;> simp [installGroup, created]
  have cdev : ∀ s : State, Ends outcome s (.cdevAdd locals) last ret ↔ Ends outcome s (.deviceCreate { locals with
      cdev := if outcome.cdevAdd then some locals.major else locals.cdev }) last ret := by
    intro s
    apply ends_step
    by_cases added : outcome.cdevAdd <;> simp [installGroup, added]
  by_cases first : s.groupDevClass = .null
  · have creates : installGroup outcome s (.testClass locals) = some (s, .createClass locals) := by
      simp [installGroup, first]
    rw [ends_step creates, ends_step (by rfl), cdev, nodes, if_pos first]
  · have skips : installGroup outcome s (.testClass locals) = some (s, .cdevAdd locals) := by
      simp [installGroup, first]
    rw [ends_step skips, cdev, nodes, if_neg first]

/-- Without a registration all parts are freed again. -/
theorem ends_unregistered (failed : locals.err < 0) :
    Ends outcome s (.testErr locals) (s.lose (parts locals.id Part.order.reverse)) (-1) := by
  have jumps : installGroup outcome s (.testErr locals) = some (s, .kfree .delayList locals) := by
    simp [installGroup, failed]
  have frees : installGroup outcome s (.kfree .delayList locals) =
    some (s.release (.part .delayList locals.id), unwind locals (Part.previous .delayList)) := rfl
  have whole : Part.order.reverse = .delayList :: (Part.before .delayList).reverse := rfl
  rw [ends_step jumps, ends_step frees, ends_unwind, whole]
  simp [State.lose, State.release, parts]

theorem ends_testErr (points : s.manager = some (pointer, manager)) (list : manager.groupDevsList = .list devices) :
    Ends outcome s (.testErr locals) last ret ↔ (last, ret) = finish outcome s pointer manager devices locals := by
  by_cases failed : locals.err < 0
  · have unwinds : Ends outcome s (.testErr locals) last ret ↔ _ := (ends_unregistered failed).continues rfl
    rw [unwinds, ← Ends, ends_done, finish, if_pos failed, Prod.mk.injEq]
  · have passes : installGroup outcome s (.testErr locals) = some (s, .testClass locals) := by
      simp [installGroup, failed]
    rw [ends_step passes, finish, if_neg failed, ends_testClass, ends_step (by rfl), Prod.mk.injEq]
    exact ends_listAdd points list

theorem ends_testMajor (points : s.manager = some (pointer, manager)) (list : manager.groupDevsList = .list devices) :
    Ends outcome s (.testMajor locals) last ret ↔ (last, ret) = register outcome s pointer manager devices locals := by
  by_cases known : locals.major = 0
  · have asks : installGroup outcome s (.testMajor locals) = some (s, .allocRegion locals) := by
      simp [installGroup, known]
    rw [ends_step asks, register, if_neg (not_not_intro known)]
    cases handed : outcome.allocRegion with
    | none =>
      have fails : installGroup outcome s (.allocRegion locals) =
          some (s, .storeMajor { locals with err := -1, major := majorOf locals.dev }) := by
        simp [installGroup, handed]
      have stores : installGroup outcome s (.storeMajor { locals with err := -1, major := majorOf locals.dev }) =
          some (s.store pointer { manager with major := majorOf locals.dev },
            .testErr { locals with err := -1, major := majorOf locals.dev }) := by
        simp [installGroup, points]
      rw [ends_step fails, ends_step stores]
      exact ends_testErr (manager_store _ points) list
    | some region =>
      let s' : State := { s.acquire (.region region.major) with regions := s.regions ++ [region.major] }
      let locals' : Locals := { locals with err := 0, dev := mkdev region.major 0, major := region.major }
      have hands : installGroup outcome s (.allocRegion locals) = some (s', .storeMajor locals') := by
        simp only [installGroup, handed, majorOf_mkdev]
        rfl
      have points' : s'.manager = some (pointer, manager) := points
      have stores : installGroup outcome s' (.storeMajor locals') =
          some (s'.store pointer { manager with major := region.major }, .testErr locals') := by
        simp only [installGroup, points']
        rfl
      rw [ends_step hands, ends_step stores]
      exact ends_testErr (manager_store _ points') list
  · have passes : installGroup outcome s (.testMajor locals) = some (s, .testErr locals) := by
      simp [installGroup, known]
    rw [ends_step passes, register, if_pos known]
    exact ends_testErr points list

theorem ends_build (points : s.manager = some (pointer, manager)) (list : manager.groupDevsList = .list devices) :
    Ends outcome s (.kmalloc .deviceName locals) last ret ↔ (last, ret) = build outcome s pointer manager devices locals := by
  have allocates : Ends outcome s (.kmalloc .deviceName locals) last ret ↔ _ := (alone_allocations locals).continues rfl
  rw [allocates, build]
  cases firstMissing outcome with
  | some missing =>
    rw [kmallocEnd, ← Ends, ends_done]
    simp
  | none =>
    by_cases made : outcome.createWorkqueue = true
    · have creates : installGroup outcome (s.gain (parts locals.id Part.order)) (.initWorkqueue locals) =
          some ((s.gain (parts locals.id Part.order)).acquire (.delayWq locals.id),
            .testMajor { locals with delayWq := true }) := by
        simp [installGroup, made]
      simp only [made, if_true]
      rw [kmallocEnd, ← Ends, ends_step creates]
      exact ends_testMajor points list
    · have fails : installGroup outcome (s.gain (parts locals.id Part.order)) (.initWorkqueue locals) =
          some (s.gain (parts locals.id Part.order), .testMajor { locals with delayWq := false }) := by
        simp [installGroup, made]
      simp only [made]
      rw [kmallocEnd, ← Ends, ends_step fails]
      exact ends_testMajor points list

/-- The steps of an install compute `installAlone`. -/
theorem ends_getGroup {desc : UInt8} {stack : Stack} (points : s.manager = some (pointer, manager))
    (list : manager.groupDevsList = .list devices) :
    Ends outcome s (.getGroup desc stack) last ret ↔
      (last, ret) = installAlone outcome s pointer manager devices desc stack := by
  have capacity : (∀ gd ∈ devices, gd.minor ≠ desc.toNat) → (Ends outcome s (.checkCapacity desc stack) last ret ↔
      (last, ret) = installAlone outcome s pointer manager devices desc stack) := by
    intro absent
    have unlisted : ¬ ∃ gd ∈ devices, gd.minor = desc.toNat := by simpa using absent
    rw [installAlone, if_neg unlisted]
    by_cases full : GROUP_DEV_COUNT < manager.used.toNat + 1
    · have rejects : installGroup outcome s (.checkCapacity desc stack) = some (s, .done (-1)) := by
        simp [installGroup, points, full]
      rw [ends_step rejects, ends_done, if_pos full, Prod.mk.injEq]
    · have fits : installGroup outcome s (.checkCapacity desc stack) = some (s, .readMajor desc stack) := by
        simp [installGroup, points, full]
      have reads : installGroup outcome s (.readMajor desc stack) = some ({ s with fresh := s.fresh + 1 },
          .kmalloc .deviceName ⟨desc, manager.major, stack.err, stack.dev, s.fresh, false, none⟩) := by
        simp [installGroup, points]
      rw [ends_step fits, ends_step reads, if_neg full]
      exact ends_build points list
  cases devices with
  | nil =>
    have empty : installGroup outcome s (.getGroup desc stack) = some (s, .checkCapacity desc stack) := by
      simp [installGroup, points, list]
    rw [ends_step empty]
    exact capacity (by simp)
  | cons first rest =>
    have seeks : installGroup outcome s (.getGroup desc stack) = some (s, .scan desc stack) := by
      simp [installGroup, points, list]
    rw [ends_step seeks]
    cases found : (first :: rest).find? fun gd => gd.minor = desc.toNat with
    | some gd =>
      have finds : installGroup outcome s (.scan desc stack) = some (s, .done 0) := by
        simp only [installGroup, points, list, found]
      have listed : ∃ gd ∈ first :: rest, gd.minor = desc.toNat :=
        ⟨gd, List.mem_of_find?_eq_some found, by simpa using List.find?_some found⟩
      rw [ends_step finds, ends_done, installAlone, if_pos listed, Prod.mk.injEq]
    | none =>
      have misses : installGroup outcome s (.scan desc stack) = some (s, .checkCapacity desc stack) := by
        simp only [installGroup, points, list, found]
      rw [ends_step misses]
      exact capacity fun gd member => by simpa using List.find?_eq_none.mp found gd member

end Rest

end Tsm.Manager
