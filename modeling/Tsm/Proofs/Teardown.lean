import Mathlib.Logic.Relation
import Tsm.Manager.Teardown
import Tsm.Proofs.Installs

/-! The life of the registry when nothing is concurrent: installs one after the
other, then the exit of the module. Whatever the installs have run into, the devices
are listed once each and counted, and none survives. -/

namespace Tsm.Manager
open Interleaving Sequential KernelList

/-- One call of `install_group`. The manager and its list can be allocated. -/
def InstallCall (before after : State) : Prop :=
  ∃ outcome groupDesc stack ret, outcome.groupDevs = true ∧ outcome.groupDevsList = true ∧
    Ends outcome before (.entry groupDesc stack) after ret

/-- Any number of calls since the module was loaded. -/
def Installed (s : State) : Prop := Relation.ReflTransGen InstallCall .loaded s

/-- Distinct devices, in range, each of them listed and counted. -/
structure Registered (s : State) (pointer : Nat) (manager : GroupDevices) (devices : List GroupDev) : Prop where
  points : s.manager = some (pointer, manager)
  list : manager.groupDevsList = .list devices
  directory : Directory GroupDev.minor GROUP_DEV_COUNT devices
  counted : manager.used.toNat = devices.length

def Orderly (s : State) : Prop := s = .loaded ∨ ∃ pointer manager devices, Registered s pointer manager devices

/-- What was freed, the next number of a device, and the managers freed. -/
def State.ledger (s : State) : List Obj × Nat × List Nat := (s.released, s.fresh, s.freedManagers)

/-- What an install can leave once it has started to build: all that it freed belongs
to the device it has numbered, of which nothing but the name is freed if it is listed. -/
inductive Leaves (ledger : List Obj × Nat × List Nat) (pointer id : Nat) (devices : List GroupDev) : State → Prop where
  | failed {last manager which} (registered : Registered last pointer manager devices) (distinct : which.Nodup)
      (same : last.ledger = (ledger.1 ++ parts id which, ledger.2)) : Leaves ledger pointer id devices last
  | built {last manager gd} (registered : Registered last pointer manager (gd :: devices)) (number : gd.id = id)
      (same : last.ledger = (ledger.1 ++ parts id [.deviceName], ledger.2)) : Leaves ledger pointer id devices last

section Installs
variable {outcome : Outcome} {s s' last : State} {pointer : Nat} {manager : GroupDevices} {devices : List GroupDev}
  {locals : Locals} {desc : UInt8} {stack : Stack} {ret : Int} {ledger : List Obj × Nat × List Nat} {id : Nat}

theorem Leaves.orderly (leaves : Leaves ledger pointer id devices s) :
    Orderly s := by
  cases leaves with
  | failed registered => exact .inr ⟨pointer, _, _, registered⟩
  | built registered => exact .inr ⟨pointer, _, _, registered⟩

theorem Part.order_nodup : Part.order.Nodup := by decide

theorem Part.before_nodup (part : Part) : part.before.Nodup := Part.order_nodup.sublist (List.takeWhile_sublist _)

theorem Registered.congr (registered : Registered s pointer manager devices) (same : s'.manager = s.manager) :
    Registered s' pointer manager devices :=
  ⟨same.trans registered.points, registered.list, registered.directory, registered.counted⟩

/-- A full directory would list the descriptor. -/
theorem Registered.room (registered : Registered s pointer manager devices)
    (absent : ∀ gd ∈ devices, gd.minor ≠ desc.toNat) : manager.used.toNat < GROUP_DEV_COUNT := by
  rw [registered.counted]
  exact registered.directory.length_lt desc.toNat_lt absent

theorem Registered.finish (registered : Registered s pointer manager devices)
    (absent : ∀ gd ∈ devices, gd.minor ≠ locals.desc.toNat) (same : s.ledger = ledger) (number : locals.id = id) :
    Leaves ledger pointer id devices (finish outcome s pointer manager devices locals).1 := by
  subst same number
  unfold Manager.finish
  split
  · exact .failed (registered.congr rfl) (List.nodup_reverse.mpr Part.order_nodup) rfl
  · refine .built ⟨manager_store _ registered.points, rfl, ?_, ?_⟩ rfl rfl
    · exact registered.directory.cons locals.desc.toNat_lt absent
    · have room := registered.room absent
      simp only [GROUP_DEV_COUNT] at room
      rw [UInt16.toNat_add, UInt16.toNat_one, Nat.mod_eq_of_lt (by omega), registered.counted, List.length_cons]

theorem Registered.store (registered : Registered s pointer manager devices) (major : UInt32) :
    Registered (s.store pointer { manager with major }) pointer { manager with major } devices :=
  ⟨manager_store _ registered.points, registered.list, registered.directory, registered.counted⟩

theorem Registered.register (registered : Registered s pointer manager devices)
    (absent : ∀ gd ∈ devices, gd.minor ≠ locals.desc.toNat) (same : s.ledger = ledger) (number : locals.id = id) :
    Leaves ledger pointer id devices (register outcome s pointer manager devices locals).1 := by
  unfold Manager.register
  split
  · exact registered.finish absent same number
  · split
    · exact (registered.store _).finish absent same number
    next region _ =>
      have regions : Registered { s.acquire (.region region.major) with regions := s.regions ++ [region.major] }
          pointer manager devices := registered.congr rfl
      exact (regions.store _).finish absent same number

theorem Registered.build (registered : Registered s pointer manager devices)
    (absent : ∀ gd ∈ devices, gd.minor ≠ locals.desc.toNat) (same : s.ledger = ledger) (number : locals.id = id) :
    Leaves ledger pointer id devices (build outcome s pointer manager devices locals).1 := by
  unfold Manager.build
  split
  next missing _ =>
    subst same number
    exact .failed (registered.congr rfl) (List.nodup_reverse.mpr missing.before_nodup) rfl
  · have gained : Registered (s.gain (parts locals.id Part.order)) pointer manager devices := registered.congr rfl
    dsimp only
    split
    · have made : Registered ((s.gain (parts locals.id Part.order)).acquire (.delayWq locals.id)) pointer manager devices :=
        registered.congr rfl
      exact made.register absent same number
    · exact gained.register absent same number

theorem Registered.install (registered : Registered s pointer manager devices) (outcome : Outcome) (desc : UInt8)
    (stack : Stack) :
    (installAlone outcome s pointer manager devices desc stack).1 = s ∨
      Leaves (s.released, s.fresh + 1, s.freedManagers) pointer s.fresh devices
        (installAlone outcome s pointer manager devices desc stack).1 := by
  unfold installAlone
  split
  · exact .inl rfl
  next missing =>
    split
    · exact .inl rfl
    · have numbered : Registered { s with fresh := s.fresh + 1 } pointer manager devices := registered.congr rfl
      exact .inr (numbered.build (fun gd member same => missing ⟨gd, member, same⟩) rfl rfl)

theorem Registered.orderly_install (registered : Registered s pointer manager devices) :
    Orderly (installAlone outcome s pointer manager devices desc stack).1 := by
  rcases registered.install outcome desc stack with same | leaves
  · rw [same]
    exact .inr ⟨pointer, manager, devices, registered⟩
  · exact leaves.orderly

/-- The first install starts with an empty list. -/
theorem ends_loaded (made : outcome.groupDevs = true) (listMade : outcome.groupDevsList = true) :
    Ends outcome .loaded (.entry (some desc) stack) last ret ↔
      Ends outcome (State.loaded.allocated (.list [])) (.getGroup desc stack) last ret := by
  have prepared : State.loaded.prepared outcome = State.loaded.allocated (.list []) := by
    simp [State.prepared, State.loaded, made, listMade]
  have points : (State.loaded.prepared outcome).manager = some (0, ⟨0, 0, .list []⟩) := by
    rw [prepared]
    exact manager_allocated List.not_mem_nil
  rw [← prepared]
  exact (prepares points stack).continues rfl

/-- The registry of the first install. -/
theorem registered_loaded : Registered (State.loaded.allocated (.list [])) 0 ⟨0, 0, .list []⟩ [] :=
  ⟨manager_allocated List.not_mem_nil, rfl, .nil, rfl⟩

theorem Orderly.call (orderly : Orderly s) (called : InstallCall s last) : Orderly last := by
  obtain ⟨outcome, groupDesc, stack, ret, made, listMade, ran⟩ := called
  cases groupDesc with
  | none =>
    rw [ends_step (by rfl), ends_done] at ran
    rw [ran.1]
    exact orderly
  | some desc =>
    rcases orderly with rfl | ⟨pointer, manager, devices, registered⟩
    · rw [ends_loaded made listMade] at ran
      have ended : last = (installAlone outcome _ _ _ _ desc stack).1 :=
        congrArg Prod.fst ((ends_getGroup registered_loaded.points registered_loaded.list).mp ran)
      rw [ended]
      exact registered_loaded.orderly_install
    · have ended : last = (installAlone outcome s pointer manager devices desc stack).1 :=
        congrArg Prod.fst ((install_computes registered.points registered.list).mp ran)
      rw [ended]
      exact registered.orderly_install

theorem installed_orderly (installed : Installed s) : Orderly s := by
  induction installed with
  | refl => exact .inl rfl
  | tail _ called ih => exact ih.call called

end Installs

/-! `group_free_all`, alone. -/

/-- It comes to an end there. -/
def Exits (u : Unload) (pc : FreeAllPc) (last : Unload) (final : FreeAllPc) : Prop :=
  Alone (fun _ : Unit => groupFreeAll) (fun _ => ()) u pc last final ∧ groupFreeAll last final = none

def Frees (u : Unload) (pc : FreeAllPc) (last : Unload) (toFree : Int) : Prop := Exits u pc last (.done toFree)

section Unloading
variable {s : State} {u u' last : Unload} {pc pc' final : FreeAllPc} {toFree left : Int} {pointer : Nat}
  {manager : GroupDevices} {devices : List GroupDev} {gd : GroupDev} {q : Option GroupDev} {major : UInt32}

theorem exits_step (moved : groupFreeAll u pc = some (u', pc')) : Exits u pc last final ↔ Exits u' pc' last final :=
  and_congr_left fun stuck => alone_step stuck moved

theorem exits_stuck (stuck : groupFreeAll u pc = none) : Exits u pc last final ↔ last = u ∧ final = pc := by
  rw [Exits, alone_stuck stuck]
  constructor
  · exact And.left
  · rintro ⟨rfl, rfl⟩
    exact ⟨⟨rfl, rfl⟩, stuck⟩

theorem Exits.unique {last' : Unload} {final' : FreeAllPc} (first : Exits u pc last final) (second : Exits u pc last' final') :
    last' = last ∧ final' = final :=
  first.1.unique second.1 first.2 second.2

theorem frees_step (moved : groupFreeAll u pc = some (u', pc')) : Frees u pc last left ↔ Frees u' pc' last left :=
  exits_step moved

theorem frees_done : Frees u (.done toFree) last left ↔ last = u ∧ left = toFree := by
  rw [Frees, exits_stuck rfl, FreeAllPc.done.injEq]

theorem destroys (usable : u.registry.groupDevClass ≠ .error) :
    groupFreeAll u (.deviceDestroy gd q toFree major) =
      some ({ u with destroyed := u.destroyed ++ [(major, gd.minor)] }, .cdevDel gd q toFree major) :=
  if_neg usable

theorem killed_destroying (error : u.registry.groupDevClass = .error) :
    groupFreeAll u (.deviceDestroy gd q toFree major) = some (u, .killed) :=
  if_pos error

/-- What the traversal has done when the devices in `torn` are gone and those in
`rest` are left. -/
def Unload.torn (u : Unload) (pointer : Nat) (manager : GroupDevices) (major : UInt32) (rest torn : List GroupDev) :
    Unload :=
  { u with
    registry := u.registry.store pointer { manager with groupDevsList := .list rest }
    destroyed := u.destroyed ++ torn.map fun gd => (major, gd.minor)
    deleted := u.deleted ++ torn
    freed := u.freed ++ torn }

/-- The deletion-safe traversal takes the entries from the last to the first and
leaves an empty list. -/
theorem frees_next (points : u.registry.manager = some (pointer, manager)) {major : UInt32} (devices torn : List GroupDev)
    (distinct : devices.Nodup) (usable : u.registry.groupDevClass = .error → devices = []) :
    Frees (u.torn pointer manager major devices torn) (.next devices.getLast? toFree major) last left ↔
      Frees (u.torn pointer manager major [] (torn ++ devices.reverse)) (.unregisterRegion (toFree - devices.length) major)
        last left := by
  induction devices using List.reverseRecOn generalizing torn toFree with
  | nil =>
    rw [frees_step (by rfl)]
    simp
  | append_singleton rest gd ih =>
    obtain ⟨distinct', _, apart⟩ := List.nodup_append.mp distinct
    have before : gd ∉ rest := fun member => apart gd member gd (List.mem_singleton_self gd) rfl
    have here := manager_store { manager with groupDevsList := .list (rest ++ [gd]) } points
    have found : u.registry.groupDevClass ≠ .error := fun error => by simpa using usable error
    let unlinked : Unload := { u.torn pointer manager major (rest ++ [gd]) torn with
      registry := u.registry.store pointer { manager with groupDevsList := .list rest } }
    have remembers : groupFreeAll (u.torn pointer manager major (rest ++ [gd]) torn) (.next (some gd) toFree major) =
        some (u.torn pointer manager major (rest ++ [gd]) torn, .listDel gd rest.getLast? toFree major) := by
      simp only [groupFreeAll, Unload.torn, here, listPrev_append List.not_mem_nil before]
    have unlinks : groupFreeAll (u.torn pointer manager major (rest ++ [gd]) torn) (.listDel gd rest.getLast? toFree major) =
        some (unlinked, .deviceDestroy gd rest.getLast? toFree major) := by
      simp only [groupFreeAll, Unload.torn, here, store_store, KernelList.listDel, List.erase_append_right _ before,
        List.erase_cons_head, List.append_nil]
      rfl
    have undoes : Frees (u.torn pointer manager major (rest ++ [gd]) torn) (.next (some gd) toFree major) last left ↔
        Frees (u.torn pointer manager major rest (torn ++ [gd])) (.next rest.getLast? (toFree - 1) major) last left := by
      rw [frees_step remembers, frees_step unlinks, frees_step (destroys (u := unlinked) found), frees_step (by rfl), frees_step (by rfl)]
      simp [unlinked, Unload.torn]
    have count : toFree - 1 - (rest.length : Int) = toFree - ((rest ++ [gd]).length : Int) := by
      rw [List.length_append, List.length_singleton]
      omega
    rw [List.getLast?_concat, undoes, ih (torn ++ [gd]) distinct' fun error => absurd error found, count, List.reverse_concat, List.append_assoc]
    rfl

theorem torn_nothing (points : u.registry.manager = some (pointer, manager)) (list : manager.groupDevsList = .list devices)
    (major : UInt32) : u.torn pointer manager major devices [] = u := by
  have same : ({ manager with groupDevsList := .list devices } : GroupDevices) = manager := by rw [← list]
  simp [Unload.torn, same, store_self (manager_eq_some.mp points).2.1]

/-- The way to the first device, or past the traversal. -/
theorem exits_entry (registered : Registered s pointer manager devices) :
    Exits (unload s) .entry last final ↔
      Exits (unload s) (.next devices.getLast? manager.used.toNat manager.major) last final := by
  have points : (unload s).registry.manager = some (pointer, manager) := registered.points
  have list := registered.list
  obtain ⟨used, major, _⟩ := manager
  cases list
  have enters : groupFreeAll (unload s) .entry = some (unload s, .testList used.toNat major) := by
    simp only [groupFreeAll, points, (manager_eq_some.mp points).1]
  have tests : groupFreeAll (unload s) (.testList used.toNat major) = some (unload s, .testEmpty used.toNat major) := by
    simp [groupFreeAll, points]
  rw [exits_step enters, exits_step tests]
  cases first : devices.getLast? with
  | none =>
    have skips : groupFreeAll (unload s) (.testEmpty used.toNat major) =
        some (unload s, .unregisterRegion used.toNat major) := by
      simp only [groupFreeAll, points, first]
    have ends : groupFreeAll (unload s) (.next none used.toNat major) =
        some (unload s, .unregisterRegion used.toNat major) := rfl
    rw [exits_step skips, exits_step ends]
  | some pos =>
    have starts : groupFreeAll (unload s) (.testEmpty used.toNat major) =
        some (unload s, .next (some pos) used.toNat major) := by
      simp only [groupFreeAll, points, first]
    rw [exits_step starts]

/-- All of `group_free_all` on a registry in order. -/
theorem frees_registered (registered : Registered s pointer manager devices)
    (usable : s.groupDevClass = .error → devices = []) :
    Frees (unload s) .entry last left ↔
      last = { (unload s).torn pointer manager manager.major [] devices.reverse with
        unregistered := [manager.major]
        registry := { s.store pointer { manager with groupDevsList := .list [] } with
          freedManagers := s.freedManagers ++ [pointer] } } ∧ left = 0 := by
  rw [Frees, exits_entry registered]
  have points : (unload s).registry.manager = some (pointer, manager) := registered.points
  have list := registered.list
  obtain ⟨used, major, _⟩ := manager
  cases list
  have traverses : Frees ((unload s).torn pointer _ major devices []) (.next devices.getLast? used.toNat major) last left ↔ _ :=
    frees_next points devices [] registered.directory.nodup usable
  have none : (used.toNat : Int) - devices.length = 0 := by
    have counted := registered.counted
    simp only at counted
    omega
  rw [torn_nothing points rfl, none, List.nil_append] at traverses
  let torn : Unload := { (unload s).torn pointer ⟨used, major, .list devices⟩ major [] devices.reverse with
    unregistered := [major] }
  have emptied : torn.registry.manager = some (pointer, ⟨used, major, .list []⟩) := manager_store _ points
  have frees : groupFreeAll torn (.kfree 0) =
      some ({ torn with registry.freedManagers := s.freedManagers ++ [pointer] }, .done 0) := by
    simp only [groupFreeAll, emptied]
    rfl
  have unregisters : groupFreeAll ((unload s).torn pointer ⟨used, major, .list devices⟩ major [] devices.reverse)
      (.unregisterRegion 0 major) = some (torn, .kfree 0) := rfl
  exact traverses.trans ((frees_step unregisters).trans ((frees_step frees).trans frees_done))

/-- Without a class the exit is killed at the first device that it takes. -/
theorem killed_registered (registered : Registered s pointer manager devices) (error : s.groupDevClass = .error)
    (listed : devices ≠ []) :
    ∃ rest, Exits (unload s) .entry
      { unload s with registry := s.store pointer { manager with groupDevsList := .list rest } } .killed := by
  obtain ⟨gd, found⟩ := Option.ne_none_iff_exists'.mp (mt List.getLast?_eq_none_iff.mp listed)
  refine ⟨KernelList.listDel gd devices, (exits_entry registered).mpr ?_⟩
  rw [found]
  have points : (unload s).registry.manager = some (pointer, manager) := registered.points
  have list := registered.list
  obtain ⟨used, major, _⟩ := manager
  cases list
  have remembers : groupFreeAll (unload s) (.next (some gd) used.toNat major) =
      some (unload s, .listDel gd (listPrev gd devices) used.toNat major) := by
    simp only [groupFreeAll, points]
  have unlinks : groupFreeAll (unload s) (.listDel gd (listPrev gd devices) used.toNat major) =
      some ({ unload s with registry := s.store pointer ⟨used, major, .list (KernelList.listDel gd devices)⟩ },
        .deviceDestroy gd (listPrev gd devices) used.toNat major) := by
    simp only [groupFreeAll, points]
    rfl
  rw [exits_step remembers, exits_step unlinks, exits_step (killed_destroying error)]
  exact (exits_stuck rfl).mpr ⟨rfl, rfl⟩

/-- What `group_free_all` owes the devices that were listed. -/
structure TornDown (s : State) (last : Unload) (toFree : Int) : Prop where
  destroyed : (last.destroyed.map Prod.snd).Perm (s.listed.map GroupDev.minor)
  deleted : last.deleted.Perm s.listed
  freed : last.freed.Perm s.listed
  emptied : last.registry.listed = []
  survivors : toFree = 0

theorem Registered.torn_down (registered : Registered s pointer manager devices)
    (usable : s.groupDevClass = .error → devices = []) (ran : Frees (unload s) .entry last left) : TornDown s last left := by
  obtain ⟨rfl, rfl⟩ := (frees_registered registered usable).mp ran
  have listed := listed_points registered.points registered.list
  obtain ⟨global, found, _⟩ := manager_eq_some.mp registered.points
  obtain ⟨inside, _⟩ := List.getElem?_eq_some_iff.mp found
  rw [← listed]
  refine ⟨?_, ?_, ?_, ?_, rfl⟩
  · simp [Unload.torn, unload, Function.comp_def]
  · simp [Unload.torn, unload]
  · simp [Unload.torn, unload]
  · simp [State.listed, State.store, global, inside]

end Unloading

/-- The devices are listed once each and counted, and there is room for every descriptor
that has none. -/
structure InOrder (s : State) : Prop where
  distinct : (s.listed.map GroupDev.minor).Nodup
  below : ∀ gd ∈ s.listed, gd.minor < GROUP_DEV_COUNT
  counted : s.used = s.listed.length
  room : ∀ desc : UInt8, (∀ gd ∈ s.listed, gd.minor ≠ desc.toNat) → ¬ GROUP_DEV_COUNT < s.used + 1

/-- And the exit of the module takes down each device once and reports no survivor. -/
structure CompleteTeardown (s : State) : Prop extends InOrder s where
  returns : ∃ last left, Frees (unload s) .entry last left
  tornDown : ∀ last left, Frees (unload s) .entry last left → TornDown s last left

theorem Orderly.inOrder {s : State} (orderly : Orderly s) : InOrder s := by
  rcases orderly with rfl | ⟨pointer, manager, devices, registered⟩
  · exact ⟨by decide, by decide, rfl, fun _ _ => by decide⟩
  · obtain ⟨global, found, _⟩ := manager_eq_some.mp registered.points
    have used : s.used = manager.used.toNat := by simp [State.used, global, found]
    have listed := listed_points registered.points registered.list
    constructor
    · rw [listed]
      exact registered.directory.distinct
    · rw [listed]
      exact registered.directory.below
    · rw [listed, used]
      exact registered.counted
    · intro desc absent full
      rw [listed] at absent
      have room := registered.room absent
      omega

/-- After any sequence of installs the registry is in order, and its teardown is complete
exactly when there is no device or no `class_create` has failed. -/
theorem complete_teardown_iff {s : State} (installed : Installed s) :
    InOrder s ∧ (CompleteTeardown s ↔ (s.groupDevClass = .error → s.listed = [])) := by
  have orderly := installed_orderly installed
  have inOrder := orderly.inOrder
  refine ⟨inOrder, ?_⟩
  rcases orderly with rfl | ⟨pointer, manager, devices, registered⟩
  · refine iff_of_true ⟨inOrder, ⟨unload .loaded, 0, ?_⟩, fun last left ran => ?_⟩ fun _ => rfl
    · exact (frees_step (by rfl)).mpr (frees_done.mpr ⟨rfl, rfl⟩)
    · obtain ⟨rfl, rfl⟩ := frees_done.mp ((frees_step (by rfl)).mp ran)
      exact ⟨.refl _, .refl _, .refl _, rfl, rfl⟩
  · rw [listed_points registered.points registered.list]
    constructor
    · intro complete error
      by_contra listed
      obtain ⟨rest, killed⟩ := killed_registered registered error listed
      obtain ⟨last, left, frees⟩ := complete.returns
      exact absurd (frees.unique killed).2 (by simp)
    · intro usable
      exact ⟨inOrder, ⟨_, _, (frees_registered registered usable).mpr ⟨rfl, rfl⟩⟩,
        fun last left ran => registered.torn_down usable ran⟩

theorem installed_runInstall {s : State} {outcome : Outcome} {desc : UInt8} {stack : Stack} (ret : Int)
    (installed : Installed s) (made : outcome.groupDevs = true ∧ outcome.groupDevsList = true)
    (returned : (runInstall outcome s desc stack).2 = .done ret) : Installed (runInstall outcome s desc stack).1 :=
  installed.tail ⟨outcome, some desc, stack, ret, made.1, made.2, ends_runInstall returned⟩

/-- After the first device one that cannot be allocated, then another, then the first again. -/
def failedInstall : State := (runInstall { granted firstRegion with kmalloc := (· ≠ .wqSem) } firstInstall 4 ⟨0, 0⟩).1

def secondInstall : State := (runInstall (granted firstRegion) failedInstall 5 ⟨0, 0⟩).1

def repeatedInstall : State := (runInstall (granted firstRegion) secondInstall 3 ⟨0, 0⟩).1

theorem complete_teardown_repeatedInstall : CompleteTeardown repeatedInstall := by
  have first : Installed firstInstall := installed_runInstall 0 .refl (by decide) (by decide)
  have failed : Installed failedInstall := installed_runInstall (-1) first (by decide) (by decide)
  have second : Installed secondInstall := installed_runInstall 0 failed (by decide) (by decide)
  have repeated : Installed repeatedInstall := installed_runInstall 0 second (by decide) (by decide)
  exact (complete_teardown_iff repeated).2.mpr (by decide)

/-- The first install, when there is no memory for the class. -/
def classlessInstall : State := (runInstall { granted firstRegion with classCreate := false } .loaded 3 ⟨0, 0⟩).1

theorem teardown_killed : ¬ ∀ s, Installed s → CompleteTeardown s := by
  intro complete
  have classless : Installed classlessInstall := installed_runInstall 0 .refl (by decide) (by decide)
  obtain ⟨last, left, frees⟩ := (complete classlessInstall classless).returns
  have killed : Exits (unload classlessInstall) .entry _ .killed :=
    ⟨runAlone_alone (fun _ : Unit => groupFreeAll) (fun _ => ()) 6 (unload classlessInstall) .entry, rfl⟩
  exact absurd (frees.unique killed).2 (by simp)

end Tsm.Manager
