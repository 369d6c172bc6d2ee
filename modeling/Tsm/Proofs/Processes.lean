import Tsm.Library.Process

/-! What `open_group` acquires. It opens the main device and allocates a name on the way;
both are given back once on every path, also where threads of one process open groups
at the same time and close others. -/

namespace Tsm.Library
open Interleaving Service Descriptors Tsm.Module Manager

/-! What a call of `open_group` holds. -/

/-- Its descriptor of the main device. -/
def OpenPc.tsmDev : OpenPc → Option Nat
  | .installGroup _ fd | .installing _ fd | .testMaxMessageSize _ fd | .askMaxMessageSize _ fd | .asking _ fd
  | .closeFailed fd | .closeTsm _ fd => some fd
  | _ => none

/-- Its `group_dev_name`. -/
def OpenPc.name : OpenPc → Option Nat
  | .sprintf _ name | .attempt _ name _ | .opening _ name _ | .sleep _ name _ | .free _ name _ => some name
  | _ => none

def Pc.tsmDev : Pc → Option Nat
  | .openGroup pc => pc.tsmDev
  | _ => none

def Pc.name : Pc → Option Nat
  | .openGroup pc => pc.name
  | _ => none

/-- The descriptor that `close_group` is about to close. -/
def Pc.closes : Pc → Option Int
  | .closeGroup fd => some fd
  | _ => none

/-- What a step between two answers does to what the threads of the process share. -/
inductive Effect (p : UserProcess) (pc : Pc) (p' : UserProcess) (pc' : Pc) : Prop where
  | quiet (descriptors : p'.descriptors = p.descriptors) (names : p'.names = p.names) (freed : p'.freed = p.freed)
      (tsmDev : pc'.tsmDev = pc.tsmDev) (name : pc'.name = pc.name)
  | opensTsm (same : p' = { p with descriptors := install p.descriptors .tsmDev }) (before : pc.tsmDev = none)
      (after : pc'.tsmDev = some (lowest p.descriptors)) (name : pc'.name = pc.name)
  | closesTsm {fd} (same : p' = { p with descriptors := close p.descriptors fd }) (before : pc.tsmDev = some fd)
      (after : pc'.tsmDev = none) (name : pc'.name = pc.name)
  | opensGroup {filp} (same : p' = { p with descriptors := install p.descriptors (.groupDev filp) })
      (opening : ∃ desc name i, pc = .openGroup (.opening desc name i)) (tsmDev : pc'.tsmDev = pc.tsmDev) (name : pc'.name = pc.name)
  | closesGroup {fd} (same : p' = { p with descriptors := close p.descriptors fd }) (closes : pc.closes = some (fd : Int))
      (tsmDev : pc'.tsmDev = pc.tsmDev) (name : pc'.name = pc.name)
  | mallocs (same : p' = { p with names := p.names + 1 }) (tsmDev : pc'.tsmDev = pc.tsmDev) (before : pc.name = none)
      (after : pc'.name = some p.names)
  | frees {name} (same : p' = { p with freed := p.freed ++ [name] }) (tsmDev : pc'.tsmDev = pc.tsmDev)
      (before : pc.name = some name) (after : pc'.name = none)

section Effects
variable {p p' : UserProcess} {pc' : Pc} {asks : Option Syscall} {outcome : LibraryOutcome}

theorem openGroup_effect {pc : OpenPc} (stepped : openGroupStep outcome p pc = some (p', pc', asks)) :
    Effect p (.openGroup pc) p' pc' := by
  cases pc with
  | openTsm desc =>
    simp only [openGroupStep] at stepped
    split at stepped <;> cases stepped
    · exact .quiet rfl rfl rfl rfl rfl
    · exact .opensTsm rfl rfl rfl rfl
  | closeFailed fd | closeTsm desc fd => cases stepped; exact .closesTsm rfl rfl rfl rfl
  | malloc desc =>
    simp only [openGroupStep] at stepped
    split at stepped <;> cases stepped
    · exact .quiet rfl rfl rfl rfl rfl
    · exact .mallocs rfl rfl rfl rfl
  | free desc name ret => cases stepped; exact .frees rfl rfl rfl rfl
  | entry groupDescriptor => cases groupDescriptor <;> cases stepped <;> exact .quiet rfl rfl rfl rfl rfl
  | installing _ _ | asking _ _ | opening _ _ _ => cases stepped
  | sprintf _ _ | sleep _ _ _ => cases stepped; exact .quiet rfl rfl rfl rfl rfl
  | installGroup _ _ | testMaxMessageSize _ _ | askMaxMessageSize _ _ | attempt _ _ _ =>
    simp only [openGroupStep] at stepped
    split at stepped <;> cases stepped <;> exact .quiet rfl rfl rfl rfl rfl

theorem store_descriptors (p : UserProcess) (msg : Option Nat) (bytes : List UInt8) :
    (p.store msg bytes).descriptors = p.descriptors ∧ (p.store msg bytes).names = p.names ∧
      (p.store msg bytes).freed = p.freed := by
  cases msg <;> exact ⟨rfl, rfl, rfl⟩

theorem library_effect {pc : Pc} (stepped : libraryStep outcome p pc = some (p', pc', asks)) : Effect p pc p' pc' := by
  cases pc with
  | openGroup pc => exact openGroup_effect stepped
  | closeGroup fd =>
    simp only [libraryStep] at stepped
    split at stepped <;> cases stepped
    · exact .quiet rfl rfl rfl rfl rfl
    next valid => exact .closesGroup rfl (congrArg some (Int.toNat_of_nonneg (Int.not_lt.mp valid)).symm) rfl rfl
  | waiting | done _ _ => cases stepped
  | command checked =>
    cases checked with
    | none => cases stepped; exact .quiet rfl rfl rfl rfl rfl
    | some checked =>
      simp only [libraryStep] at stepped
      split at stepped <;> cases stepped <;> exact .quiet rfl rfl rfl rfl rfl
  | send fd msg pc =>
    rcases send_cases stepped with ⟨bytes, next, rfl, rfl, -⟩ | ⟨ret, rfl, rfl, -⟩ | ⟨_, _, _, rfl, rfl, -⟩
    · obtain ⟨descriptors, names, freed⟩ := store_descriptors p msg bytes
      exact .quiet descriptors names freed rfl rfl
    · exact .quiet rfl rfl rfl rfl rfl
    · exact .quiet rfl rfl rfl rfl rfl

theorem resume_effect (value : Answer) (p : UserProcess) (pc : Pc) :
    Effect p pc (libraryResume value p pc).1 (libraryResume value p pc).2 := by
  cases pc with
  | openGroup pc =>
    cases pc with
    | installing desc fd =>
      simp only [libraryResume, openGroupResume]
      split <;> exact .quiet rfl rfl rfl rfl rfl
    | asking desc fd =>
      simp only [libraryResume, openGroupResume]
      split <;> split <;> exact .quiet rfl rfl rfl rfl rfl
    | opening desc name i =>
      simp only [libraryResume, openGroupResume]
      split
      · exact .opensGroup rfl ⟨desc, name, i, rfl⟩ rfl rfl
      · exact .quiet rfl rfl rfl rfl rfl
    | _ => exact .quiet rfl rfl rfl rfl rfl
  | _ => exact .quiet rfl rfl rfl rfl rfl

end Effects

/-! The account of one process. -/

/-- What a call of a process holds, if anything. -/
def heldBy (pid : Nat) (item : Option Nat) : Multiset (Nat × Nat) := (item.map fun n => (pid, n)).toList

theorem count_heldBy (pid : Nat) (item : Option Nat) (other n : Nat) :
    (heldBy pid item).count (other, n) = if other = pid ∧ item = some n then 1 else 0 := by
  cases item with
  | none => simp [heldBy]
  | some held => simp [heldBy, Multiset.count_singleton, eq_comm]

/-- The main device is open at the descriptors that calls hold, once each, and the names
that were allocated are held by one call or were freed once. -/
structure Tidy (p : UserProcess) (pid : Nat) (descriptors names : Multiset (Nat × Nat)) : Prop where
  tsmDev : ∀ fd, descriptors.count (pid, fd) = if lookup p.descriptors fd = some .tsmDev then 1 else 0
  names : ∀ name, names.count (pid, name) + p.freed.count name = if name < p.names then 1 else 0

section Tidy
variable {p p' : UserProcess} {pid : Nat} {pc pc' : Pc} {descriptors names : Multiset (Nat × Nat)}

theorem Effect.tidy (tidy : Tidy p pid (heldBy pid pc.tsmDev + descriptors) (heldBy pid pc.name + names))
    (own : ∀ fd ∈ pc.closes, p.handle fd ≠ some .tsmDev) (effect : Effect p pc p' pc') :
    Tidy p' pid (heldBy pid pc'.tsmDev + descriptors) (heldBy pid pc'.name + names) := by
  obtain ⟨opened, allocated⟩ := tidy
  simp only [Multiset.count_add, count_heldBy, true_and] at opened allocated
  constructor
  all_goals simp only [Multiset.count_add, count_heldBy, true_and]
  · intro fd
    have here := opened fd
    cases effect with
    | quiet same _ _ tsmDev _ => rwa [tsmDev, same]
    | mallocs same tsmDev _ _ | frees same tsmDev _ _ =>
      subst same
      rwa [tsmDev]
    | opensTsm same before after _ =>
      subst same
      rw [after]
      by_cases new : fd = lowest p.descriptors
      · subst new
        simp only [lookup_lowest, reduceCtorEq, if_false, lookup_install_self, if_true] at here ⊢
        omega
      · rw [before] at here
        simp only [lookup_install_of_ne new, Option.some_inj, Ne.symm new, if_false]
        simpa using here
    | @closesTsm held same before after _ =>
      subst same
      rw [after]
      by_cases mine : fd = held
      · subst mine
        simp only [before, if_true, lookup_close_self, reduceCtorEq, if_false] at here ⊢
        split at here <;> omega
      · simp only [before, Option.some_inj, Ne.symm mine, if_false] at here
        simpa [lookup_close_of_ne mine] using here
    | @opensGroup filp same _ tsmDev _ =>
      subst same
      rw [tsmDev]
      by_cases new : fd = lowest p.descriptors
      · subst new
        simpa [lookup_lowest] using here
      · rwa [lookup_install_of_ne new]
    | @closesGroup closed same closes tsmDev _ =>
      subst same
      rw [tsmDev]
      by_cases gone : fd = closed
      · subst gone
        have other := own _ closes
        simp only [UserProcess.handle, Int.not_lt.mpr (Int.natCast_nonneg fd), if_false, Int.toNat_natCast] at other
        rw [if_neg other] at here
        simpa using here
      · rwa [lookup_close_of_ne gone]
  · intro name
    have here := allocated name
    cases effect with
    | quiet _ names freed _ same => rwa [same, names, freed]
    | opensTsm same _ _ name | closesTsm same _ _ name | opensGroup same _ _ name | closesGroup same _ _ name =>
      subst same
      rwa [name]
    | mallocs same _ before after =>
      subst same
      rw [before] at here
      simp only [after, Option.some_inj, reduceCtorEq, if_false] at here ⊢
      split <;> split at here <;> split <;> omega
    | @frees mine same _ before after =>
      subst same
      simp only [before, after, Option.some_inj, reduceCtorEq, if_false, List.count_append, List.count_singleton, beq_iff_eq] at here ⊢
      omega

/-- What one process does is nothing to the account of another. -/
theorem Tidy.elsewhere {other : Nat} {item item' last last' : Option Nat} (apart : other ≠ pid)
    (tidy : Tidy p other (heldBy pid item + descriptors) (heldBy pid last + names)) :
    Tidy p other (heldBy pid item' + descriptors) (heldBy pid last' + names) := by
  obtain ⟨opened, allocated⟩ := tidy
  simp only [Multiset.count_add, count_heldBy, apart, false_and, if_false] at opened allocated
  constructor <;> simpa only [Multiset.count_add, count_heldBy, apart, false_and, if_false]

end Tidy

/-! Runs. -/

/-- What the account of a call in progress is about. -/
def holdings (call : RunningCall) : Multiset (Nat × Nat) × Multiset (Nat × Nat) :=
  (heldBy call.place.pid call.place.pc.tsmDev, heldBy call.place.pid call.place.pc.name)

/-- A thread closes only what `open_group` has returned, not the main device that another
thread has open meanwhile. -/
def ClosesOwn : UserConfig → UserAct → Prop :=
  Local fun shared call _ => ∀ fd ∈ call.place.pc.closes, (shared.own call.place.pid).handle fd ≠ some .tsmDev

instance (config : UserConfig) (act : UserAct) : Decidable (ClosesOwn config act) :=
  inferInstanceAs (Decidable (Local _ config act))

theorem entered_holds (call : LibraryCall) : (entered call).tsmDev = none ∧ (entered call).name = none := by
  cases call <;> exact ⟨rfl, rfl⟩

section Runs
variable {maxMessageSize maxStorageSize : UInt32} {msecsToJiffies : UInt32 → Nat} {buffers : Nat → Nat → List UInt8}
  {config : UserConfig}

/-- The processes and what their calls hold. -/
def Accounted (shared : LibraryState) (held : Multiset (Nat × Nat) × Multiset (Nat × Nat)) : Prop :=
  ∀ pid, Tidy (shared.own pid) pid held.1 held.2

/-- A step of the library in one process keeps the accounts of all. -/
theorem Accounted.step {shared : LibraryState} {place : Place} {pc' : Pc} {p' : UserProcess}
    {rest : Multiset (Nat × Nat) × Multiset (Nat × Nat)}
    (accounted : Accounted shared ((heldBy place.pid place.pc.tsmDev, heldBy place.pid place.pc.name) + rest))
    (own : ∀ fd ∈ place.pc.closes, (shared.own place.pid).handle fd ≠ some .tsmDev)
    (effect : Effect (shared.own place.pid) place.pc p' pc') :
    Accounted { shared with own := Function.update shared.own place.pid p' }
      ((heldBy place.pid pc'.tsmDev, heldBy place.pid pc'.name) + rest) := by
  intro pid
  have here := accounted pid
  by_cases mine : pid = place.pid
  · subst mine
    simp only [Function.update_self]
    exact effect.tidy here own
  · simp only [Function.update_of_ne mine]
    exact here.elsewhere mine

theorem users_accounted (reached : Reaches users ClosesOwn (idle maxMessageSize maxStorageSize msecsToJiffies buffers) config) :
    Accounted config.shared (total holdings config.calls) := by
  refine (reached.outline holdings Accounted (fun _ _ => True) ⟨?_, by simp [idle]⟩ ?_ ?_ ?_).1
  · intro pid
    constructor
    · intro fd
      rfl
    · intro name
      rfl
  · intro shared request
    obtain ⟨tsmDev, name⟩ := entered_holds request.call
    refine ⟨?_, trivial⟩
    simp only [holdings, users, served, library, tsmDev, name]
    rfl
  · intro shared left right request call outcome shared' call' _ permitted accounted _ _ moved
    have own := permitted (call, outcome) (mover_move _ _ _ _ _)
    refine ⟨?_, trivial, fun _ _ => trivial⟩
    cases served_cases moved with
    | @goes place answered processes place' stepped | @asks place answered processes place' _ stepped =>
      obtain ⟨p', rfl, same, library⟩ := program_step stepped
      simp only [holdings, same]
      exact accounted.step own (library_effect library)
    | @resumes place answered processes place' asked value answers resumed =>
      simp only [library] at resumed
      cases resumed
      exact accounted.step own (resume_effect value _ place.pc)
    | serves waits stepped => exact accounted
  · intro shared calls event shared' _ _ accounted _ happened
    obtain ⟨state, stepped, equal⟩ := Option.map_eq_some_iff.mp happened
    cases equal
    exact ⟨accounted, fun _ _ => trivial⟩

/-- Each descriptor of the main device belongs to one call of `open_group` in progress,
and each name that was allocated belongs to one or was freed once. -/
structure NothingLeaks (config : UserConfig) : Prop where
  tsmDev : ∀ pid fd,
    config.calls.countP (fun process => process.state.place.pid = pid ∧ process.state.place.pc.tsmDev = some fd) =
      if lookup (config.shared.own pid).descriptors fd = some .tsmDev then 1 else 0
  names : ∀ pid name,
    config.calls.countP (fun process => process.state.place.pid = pid ∧ process.state.place.pc.name = some name) +
      (config.shared.own pid).freed.count name = if name < (config.shared.own pid).names then 1 else 0

theorem count_total_heldBy (item : Pc → Option Nat) (pid n : Nat) (calls : List (Process Request RunningCall)) :
    (total (fun call : RunningCall => heldBy call.place.pid (item call.place.pc)) calls).count (pid, n) =
      calls.countP fun process => process.state.place.pid = pid ∧ item process.state.place.pc = some n := by
  induction calls with
  | nil => rfl
  | cons process calls ih =>
    rw [total_cons, Multiset.count_add, ih, count_heldBy, List.countP_cons, Nat.add_comm]
    simp only [decide_eq_true_eq, eq_comm (a := pid)]

/-- `open_group` leaves nothing behind, whatever fails on its way and whatever the other
threads of the process open and close meanwhile: what it has open of the main device is
its own until it closes it, and every name is freed once. -/
theorem nothing_leaks (reached : Reaches users ClosesOwn (idle maxMessageSize maxStorageSize msecsToJiffies buffers) config) :
    NothingLeaks config := by
  have accounted := users_accounted reached
  have opened := total_hom (AddMonoidHom.fst (Multiset (Nat × Nat)) (Multiset (Nat × Nat))) holdings config.calls
  have named := total_hom (AddMonoidHom.snd (Multiset (Nat × Nat)) (Multiset (Nat × Nat))) holdings config.calls
  simp only [AddMonoidHom.coe_fst, AddMonoidHom.coe_snd, holdings] at opened named
  constructor
  · intro pid fd
    have account := (accounted pid).tsmDev fd
    rwa [opened, count_total_heldBy Pc.tsmDev] at account
  · intro pid name
    have account := (accounted pid).names name
    rwa [named, count_total_heldBy Pc.name] at account

end Runs

/-! The concrete runs start from a module just loaded, and nothing that a process asks for
fails. -/

def sampleUsers : UserConfig := idle 32 64 UInt32.toNat fun _ _ => [104, 105, 0] ++ List.replicate 40 0

def willing : Module.Outcome × LibraryOutcome := (smooth, ⟨true, true, ⟨0, ⟨0, 0⟩⟩, 0⟩)

def userSteps (call count : Nat) : List UserAct := List.replicate count (.move call willing)

def asksLibrary (pid : Nat) (call : LibraryCall) : UserAct := .enter ⟨pid, call⟩

/-- One thread has opened a group and another one of its process is in the ioctl. -/
def openingRun : List UserAct :=
  [asksLibrary 0 (.openGroup (some 7))] ++ userSteps 0 43 ++ [.environment (.udev (240, 7)), asksLibrary 0 (.openGroup (some 9))] ++
    userSteps 1 5 ++ userSteps 0 8

theorem nothing_leaks_openingRun :
    ∃ config, run users ClosesOwn sampleUsers openingRun = some config ∧ NothingLeaks config ∧
      (config.shared.own 0).descriptors = [some (.groupDev 0), some .tsmDev] := by
  have enabled : (run users ClosesOwn sampleUsers openingRun).isSome := by decide
  exact ⟨_, (Option.some_get enabled).symm, nothing_leaks (reaches_get enabled), by decide +revert⟩

end Tsm.Library
