import Tsm.Proofs.Exchange
import Tsm.Proofs.Files
import Tsm.Proofs.Processes

/-! From one process to another: what `retrieve_message` returns is what some
`send_message` has passed to the kernel, through a descriptor of the same group. -/

namespace Tsm.Library
open Interleaving Service Descriptors Tsm.Module Manager

/-! What a call of the library has to do with the calls of the module that it makes. -/

/-- An open of the group has returned a file. -/
def Opened (desc : UInt8) (answered : List (Process Syscall Module.Call)) : Prop :=
  ∃ filp, (⟨.openFile (groupDevName desc.toNat), .opened filp⟩ : Process Syscall Module.Call) ∈ answered

/-- A read of this length has returned these bytes. -/
def Retrieved (length : Nat) (ret : Int) (bytes : List UInt8) (answered : List (Process Syscall Module.Call)) : Prop :=
  ∃ filp state value, (⟨.file filp (.read length), state⟩ : Process Syscall Module.Call) ∈ answered ∧
    answer state = some value ∧ value.ret = ret ∧ value.bytes = bytes

/-- Only `open_group` opens, only `send_message` writes, only `retrieve_message` reads. -/
def AsksFor (call : LibraryCall) : Syscall → Prop
  | .openFile path => ∃ desc : UInt8, call = .openGroup (some desc) ∧ path = groupDevName desc.toNat
  | .file _ (.write _ _) => ∃ fd msg, call = .sendMessage fd msg
  | .file _ (.read length) => ∃ fd, call = .retrieveMessage fd length
  | _ => True

def OpenPc.desc : OpenPc → Option UInt8
  | .entry groupDescriptor => groupDescriptor
  | .closeFailed _ => none
  | .openTsm desc | .installGroup desc _ | .installing desc _ | .testMaxMessageSize desc _ | .askMaxMessageSize desc _
  | .asking desc _ | .closeTsm desc _ | .malloc desc | .sprintf desc _ | .attempt desc _ _ | .opening desc _ _
  | .sleep desc _ _ | .free desc _ _ => some desc

/-- The operation that the checks of a function let pass. -/
def Checks : LibraryCall → Int × FileOp → Prop
  | .retrieveMessage fd length, checked => checked = (fd, .read length)
  | .openGroup _, _ | .sendMessage _ _, _ | .closeGroup _, _ => False
  | _, checked => ∃ cmd arg, checked.2 = .unlockedIoctl cmd arg

/-- What a call knows of its request, given what it waits for and has been answered. -/
def Knows (call : LibraryCall) (pending : Option (Process Syscall Module.Call)) (answered : List (Process Syscall Module.Call)) :
    Pc → Prop
  | .openGroup (.opening desc _ _) =>
    call = .openGroup (some desc) ∧ ∃ state, pending = some ⟨.openFile (groupDevName desc.toNat), state⟩
  | .openGroup (.free desc _ ret) => call = .openGroup (some desc) ∧ (0 ≤ ret → Opened desc answered)
  | .openGroup pc => ∃ groupDescriptor, call = .openGroup groupDescriptor ∧ ∀ desc ∈ pc.desc, groupDescriptor = some desc
  | .send fd msg _ => call = .sendMessage fd msg
  | .command checked => (∀ g, call ≠ .openGroup g) ∧ ∀ asked ∈ checked, Checks call asked
  | .closeGroup fd => call = .closeGroup fd
  | .waiting => (∀ g, call ≠ .openGroup g) ∧ ∀ fd length, call = .retrieveMessage fd length →
      ∃ filp state, pending = some ⟨.file filp (.read length), state⟩
  | .done ret bytes => (∀ desc, call = .openGroup (some desc) → 0 ≤ ret → Opened desc answered) ∧
      ∀ fd length, call = .retrieveMessage fd length → 0 < ret → Retrieved length ret bytes answered

section Steps
variable {p p' : UserProcess} {pc pc' : Pc} {asks : Option Syscall} {outcome : LibraryOutcome} {call : LibraryCall}
  {pending : Option (Process Syscall Module.Call)} {answered : List (Process Syscall Module.Call)}

theorem syscall_cases {fd : Int} {op : FileOp} {desc : UInt8} {memory : Memory} {syscall : Syscall}
    (granted : p.syscall fd op desc memory = some syscall) :
    (∃ filp, syscall = .file filp op) ∨ ∃ cmd arg, op = .unlockedIoctl cmd arg ∧ syscall = .tsmIoctl cmd desc memory := by
  unfold UserProcess.syscall at granted
  split at granted <;> cases granted
  · exact .inl ⟨_, rfl⟩
  · exact .inr ⟨_, _, rfl, rfl⟩

theorem asksFor_ioctl {fd : Int} {cmd : UInt32} {arg : UInt64} {desc : UInt8} {memory : Memory} {syscall : Syscall}
    (granted : p.syscall fd (.unlockedIoctl cmd arg) desc memory = some syscall) : AsksFor call syscall := by
  rcases syscall_cases granted with ⟨filp, rfl⟩ | ⟨_, _, _, rfl⟩ <;> trivial

theorem knows_entered (call : LibraryCall) : Knows call none [] (entered call) := by
  cases call with
  | openGroup groupDescriptor => exact ⟨groupDescriptor, rfl, fun desc same => same⟩
  | sendMessage fd msg => rfl
  | closeGroup fd => rfl
  | retrieveMessage fd length =>
    refine ⟨fun g => by simp, fun asked found => ?_⟩
    obtain ⟨_, _, rfl⟩ := Option.map_eq_some_iff.mp found
    rfl
  | setSendDelay fd delay =>
    refine ⟨fun g => by simp, fun asked found => ?_⟩
    obtain ⟨_, _, rfl⟩ := Option.map_eq_some_iff.mp found
    exact ⟨_, _, rfl⟩
  | sleepOnBarrier fd | awakeBarrier fd | revokeDelayedMessages fd =>
    refine ⟨fun g => by simp, fun asked found => ?_⟩
    simp only [sleepOnBarrier, awakeBarrier, revokeDelayedMessages, command] at found
    split at found <;> cases found
    exact ⟨_, _, rfl⟩

theorem knows_failed : Knows call pending answered (.done (-1) []) :=
  ⟨fun _ _ valid => absurd valid (by decide), fun _ _ _ positive => absurd positive (by decide)⟩

/-- What a step of the library leads to. -/
def Leads (call : LibraryCall) (answered : List (Process Syscall Module.Call)) (pc' : Pc) (asks : Option Syscall) : Prop :=
  Knows call (asks.map fun request => ⟨request, tsm.enter request⟩) answered pc' ∧ ∀ request ∈ asks, AsksFor call request

theorem leads_quietly (knows : Knows call none answered pc') : Leads call answered pc' none :=
  ⟨knows, fun _ found => by cases found⟩

theorem openGroup_leads {pc : OpenPc} (knows : Knows call none answered (.openGroup pc))
    (stepped : openGroupStep outcome p pc = some (p', pc', asks)) : Leads call answered pc' asks := by
  cases pc with
  | entry groupDescriptor =>
    cases groupDescriptor <;> cases stepped
    · exact leads_quietly knows_failed
    · exact leads_quietly knows
  | openTsm desc | malloc desc | testMaxMessageSize desc _ =>
    simp only [openGroupStep] at stepped
    split at stepped <;> cases stepped
    · first | exact leads_quietly knows_failed | exact leads_quietly knows
    · exact leads_quietly knows
  | installGroup desc fd | askMaxMessageSize desc fd =>
    simp only [openGroupStep] at stepped
    split at stepped <;> cases stepped
    · obtain ⟨g, same, -⟩ := knows
      exact leads_quietly ⟨g, same, fun _ found => by cases found⟩
    next granted =>
      refine ⟨knows, ?_⟩
      rintro request ⟨⟩
      exact asksFor_ioctl granted
  | attempt desc name i =>
    obtain ⟨g, rfl, same⟩ := knows
    cases same desc rfl
    simp only [openGroupStep] at stepped
    split at stepped <;> cases stepped
    · refine ⟨⟨rfl, _, rfl⟩, ?_⟩
      rintro request ⟨⟩
      exact ⟨desc, rfl, rfl⟩
    · exact leads_quietly ⟨rfl, fun valid => absurd valid (by decide)⟩
  | free desc name ret =>
    cases stepped
    obtain ⟨rfl, opened⟩ := knows
    refine leads_quietly ⟨?_, ?_⟩
    · rintro _ ⟨⟩
      exact opened
    · rintro _ _ ⟨⟩
  | closeFailed fd =>
    cases stepped
    exact leads_quietly knows_failed
  | closeTsm _ _ | sprintf _ _ | sleep _ _ _ =>
    cases stepped
    exact leads_quietly knows
  | installing _ _ | asking _ _ | opening _ _ _ => cases stepped

theorem library_leads {pc : Pc} (knows : Knows call none answered pc)
    (stepped : libraryStep outcome p pc = some (p', pc', asks)) : Leads call answered pc' asks := by
  cases pc with
  | openGroup pc => exact openGroup_leads knows stepped
  | send fd msg pc =>
    cases knows
    rcases send_cases stepped with ⟨_, _, rfl, rfl, rfl⟩ | ⟨ret, rfl, rfl, rfl⟩ | ⟨buf, length, _, rfl, rfl, rfl, granted⟩
    · exact leads_quietly rfl
    · exact leads_quietly ⟨fun _ other => (by cases other), fun _ _ other => (by cases other)⟩
    · refine ⟨⟨fun _ other => (by cases other), fun _ _ other => (by cases other)⟩, ?_⟩
      rintro request ⟨⟩
      rcases syscall_cases granted with ⟨filp, rfl⟩ | ⟨_, _, other, -⟩
      · exact ⟨fd, msg, rfl⟩
      · cases other
  | command checked =>
    cases checked with
    | none =>
      cases stepped
      exact leads_quietly knows_failed
    | some checked =>
      obtain ⟨fd, op⟩ := checked
      obtain ⟨other, checks⟩ := knows
      have checks := checks (fd, op) rfl
      simp only [libraryStep] at stepped
      split at stepped <;> cases stepped
      · exact leads_quietly knows_failed
      next syscall granted =>
        cases call with
        | openGroup _ | sendMessage _ _ | closeGroup _ => exact checks.elim
        | retrieveMessage fd' length =>
          cases checks
          rcases syscall_cases granted with ⟨filp, rfl⟩ | ⟨_, _, other, -⟩
          · refine ⟨⟨other, ?_⟩, ?_⟩
            · rintro _ _ ⟨⟩
              exact ⟨filp, _, rfl⟩
            · rintro request ⟨⟩
              exact ⟨fd, rfl⟩
          · cases other
        | sleepOnBarrier _ | awakeBarrier _ | setSendDelay _ _ | revokeDelayedMessages _ =>
          obtain ⟨cmd, arg, same⟩ := checks
          cases same
          refine ⟨⟨other, fun _ _ same => by cases same⟩, ?_⟩
          rintro request ⟨⟩
          exact asksFor_ioctl granted
  | closeGroup fd =>
    cases knows
    simp only [libraryStep] at stepped
    split at stepped <;> cases stepped <;> exact leads_quietly ⟨fun _ other => (by cases other), fun _ _ other => (by cases other)⟩
  | waiting | done _ _ => cases stepped

theorem opened_of_answer {desc : UInt8} {asked : Process Syscall Module.Call} {filp : Nat}
    (request : asked.request = .openFile (groupDevName desc.toNat)) (answers : answer asked.state = some (.opened filp)) :
    (⟨.openFile (groupDevName desc.toNat), .opened filp⟩ : Process Syscall Module.Call) ∈ answered ++ [asked] := by
  obtain ⟨syscall, state⟩ := asked
  subst request
  refine List.mem_append_right _ (List.mem_singleton.mpr ?_)
  cases state with
  | opened filp' => cases answers; rfl
  | tsmIoctl pc => cases pc <;> cases answers
  | device id moving =>
    obtain ⟨_, _, other⟩ := Option.map_eq_some_iff.mp answers
    cases other
  | lookup _ | groupOpen _ | file _ _ | done _ => cases answers

/-- An answer is kept with those before it. -/
theorem resume_leads {pc : Pc} {asked : Process Syscall Module.Call} {value : Answer} (knows : Knows call (some asked) answered pc)
    (answers : answer asked.state = some value) : Knows call none (answered ++ [asked]) (libraryResume value p pc).2 := by
  cases pc with
  | openGroup pc =>
    cases pc with
    | installing desc fd | asking desc fd =>
      simp only [libraryResume, openGroupResume]
      obtain ⟨g, same, known⟩ := knows
      split
      · exact ⟨g, same, fun _ found => by cases found⟩
      · exact ⟨g, same, known⟩
    | opening desc name i =>
      obtain ⟨rfl, state, pending⟩ := knows
      cases pending
      cases value with
      | opened filp => exact ⟨rfl, fun _ => ⟨filp, opened_of_answer rfl answers⟩⟩
      | tsmIoctl _ _ | returned _ _ =>
        refine ⟨_, rfl, ?_⟩
        rintro _ ⟨⟩
        rfl
    | free desc name ret =>
      obtain ⟨same, opened⟩ := knows
      refine ⟨same, fun valid => ?_⟩
      obtain ⟨filp, member⟩ := opened valid
      exact ⟨filp, List.mem_append_left _ member⟩
    | _ => exact knows
  | waiting =>
    obtain ⟨other, reads⟩ := knows
    refine ⟨fun desc same => absurd same (other _), fun fd length same _ => ?_⟩
    obtain ⟨filp, state, pending⟩ := reads fd length same
    cases pending
    exact ⟨filp, state, value, List.mem_append_right _ (List.mem_singleton_self _), answers, rfl, rfl⟩
  | done ret bytes =>
    obtain ⟨opened, retrieved⟩ := knows
    refine ⟨fun desc same valid => ?_, fun fd length same positive => ?_⟩
    · obtain ⟨filp, member⟩ := opened desc same valid
      exact ⟨filp, List.mem_append_left _ member⟩
    · obtain ⟨filp, state, value, member, returned⟩ := retrieved fd length same positive
      exact ⟨filp, state, value, List.mem_append_left _ member, returned⟩
  | _ => exact knows

end Steps

/-! What `open_group` returns is decided where its open has returned. -/

def Pc.returning : Pc → Option Int
  | .openGroup (.free _ _ ret) | .done ret _ => some ret
  | _ => none

section Returning
variable {p p' : UserProcess} {pc pc' : Pc} {asks : Option Syscall} {outcome : LibraryOutcome} {g : Option UInt8}
  {pending : Option (Process Syscall Module.Call)} {answered : List (Process Syscall Module.Call)} {ret : Int}

theorem openGroup_returning {pc : OpenPc} (stepped : openGroupStep outcome p pc = some (p', pc', asks))
    (returning : pc'.returning = some ret) (valid : 0 ≤ ret) : (Pc.openGroup pc).returning = some ret := by
  have failed : ∀ {bytes}, (Pc.done (-1) bytes).returning = some ret → False := by
    rintro bytes ⟨⟩
    exact absurd valid (by decide)
  cases pc with
  | entry groupDescriptor =>
    cases groupDescriptor <;> cases stepped
    · exact (failed returning).elim
    · cases returning
  | openTsm _ | malloc _ | testMaxMessageSize _ _ | installGroup _ _ | askMaxMessageSize _ _ =>
    simp only [openGroupStep] at stepped
    split at stepped <;> cases stepped <;> first | exact (failed returning).elim | cases returning
  | attempt desc name i =>
    simp only [openGroupStep] at stepped
    split at stepped <;> cases stepped
    · cases returning
    · cases returning
      exact absurd valid (by decide)
  | free desc name ret' =>
    cases stepped
    exact returning
  | closeFailed fd =>
    cases stepped
    exact (failed returning).elim
  | closeTsm _ _ | sprintf _ _ | sleep _ _ _ =>
    cases stepped
    cases returning
  | installing _ _ | asking _ _ | opening _ _ _ => cases stepped

theorem library_returning (knows : Knows (.openGroup g) pending answered pc)
    (stepped : libraryStep outcome p pc = some (p', pc', asks)) (returning : pc'.returning = some ret) (valid : 0 ≤ ret) :
    pc.returning = some ret := by
  cases pc with
  | openGroup pc => exact openGroup_returning stepped returning valid
  | send _ _ _ | closeGroup _ => cases knows
  | command checked => exact absurd rfl (knows.1 g)
  | waiting | done _ _ => cases stepped

theorem resume_returning {value : Answer} (knows : Knows (.openGroup g) pending answered pc)
    (returning : (libraryResume value p pc).2.returning = some ret) :
    pc.returning = some ret ∨
      ∃ desc name i filp, pc = .openGroup (.opening desc name i) ∧ value = .opened filp ∧ ret = lowest p.descriptors ∧
        (libraryResume value p pc).1.descriptors = install p.descriptors (.groupDev filp) := by
  cases pc with
  | openGroup pc =>
    cases pc with
    | installing desc fd | asking desc fd =>
      simp only [libraryResume, openGroupResume] at returning
      split at returning <;> cases returning
    | opening desc name i =>
      cases value with
      | opened filp =>
        cases returning
        exact .inr ⟨desc, name, i, filp, rfl, rfl, rfl, rfl⟩
      | tsmIoctl _ _ | returned _ _ => cases returning
    | _ => exact .inl returning
  | waiting => exact absurd rfl (knows.1 g)
  | _ => exact .inl returning

end Returning

/-! Runs. -/

/-- A call of the library is where its request leads, and has asked for what it may. -/
def Keeps (process : Process Request RunningCall) : Prop :=
  Knows process.request.call process.state.pending process.state.answered process.state.place.pc ∧
    ∀ asked ∈ process.state.asked, AsksFor process.request.call asked.request

section Runs
variable {maxMessageSize maxStorageSize : UInt32} {msecsToJiffies : UInt32 → Nat} {buffers : Nat → Nat → List UInt8}
  {config : UserConfig} {allowed : UserConfig → UserAct → Prop}

theorem knows_serves {call : LibraryCall} {syscall : Syscall} {state state' : Module.Call} {answered : List (Process Syscall Module.Call)}
    {pc : Pc} (knows : Knows call (some ⟨syscall, state⟩) answered pc) : Knows call (some ⟨syscall, state'⟩) answered pc := by
  cases pc with
  | openGroup pc =>
    cases pc with
    | opening desc name i =>
      obtain ⟨same, _, pending⟩ := knows
      cases pending
      exact ⟨same, state', rfl⟩
    | _ => exact knows
  | waiting =>
    obtain ⟨other, reads⟩ := knows
    refine ⟨other, fun fd length same => ?_⟩
    obtain ⟨filp, _, pending⟩ := reads fd length same
    cases pending
    exact ⟨filp, state', rfl⟩
  | _ => exact knows

theorem users_keep (reached : Reaches users allowed (idle maxMessageSize maxStorageSize msecsToJiffies buffers) config) :
    ∀ process ∈ config.calls, Keeps process := by
  refine reached.calls_keep Keeps rfl ?_ ?_
  · exact fun request => ⟨knows_entered request.call, fun asked none => by cases none⟩
  · rintro shared request call outcome shared' call' ⟨knows, asks⟩ moved
    cases served_cases moved with
    | @goes place answered processes place' stepped =>
      obtain ⟨_, _, _, library⟩ := program_step stepped
      exact ⟨(library_leads knows library).1, asks⟩
    | @asks place answered processes place' syscall stepped =>
      obtain ⟨_, _, _, library⟩ := program_step stepped
      obtain ⟨leads, asksFor⟩ := library_leads knows library
      refine ⟨leads, fun asked member => ?_⟩
      rcases List.mem_cons.mp member with rfl | old
      · exact asksFor syscall rfl
      · exact asks asked old
    | @resumes place answered processes place' asked value answers resumed =>
      simp only [library] at resumed
      cases resumed
      refine ⟨resume_leads knows answers, fun other member => asks other ?_⟩
      have member : other ∈ answered ++ [asked] := member
      rcases List.mem_append.mp member with old | new
      · exact List.mem_append_right _ old
      · cases List.mem_singleton.mp new
        exact List.mem_cons_self
    | @serves place answered syscall state state' next waits stepped =>
      refine ⟨knows_serves knows, fun other member => ?_⟩
      rcases List.mem_cons.mp member with rfl | old
      · exact asks ⟨syscall, state⟩ List.mem_cons_self
      · exact asks other (List.mem_cons_of_mem _ old)

/-- The kernel side is a run of the module. -/
theorem kernel_attains (reached : Reaches users allowed (idle maxMessageSize maxStorageSize msecsToJiffies buffers) config) :
    ∃ all, Reaches tsm Anything (loaded maxMessageSize maxStorageSize msecsToJiffies) ⟨config.shared.service, all⟩ ∧
      (all : Multiset (Process Syscall Module.Call)) = gather serviceCalls config.calls := by
  have free : Reaches users (OnService answer Freely) (idle maxMessageSize maxStorageSize msecsToJiffies buffers) config :=
    reached.mono fun _ _ _ _ _ _ _ _ => trivial
  exact (service_attains free rfl).anything

theorem mem_asked {all : List (Process Syscall Module.Call)}
    (same : (all : Multiset (Process Syscall Module.Call)) = gather serviceCalls config.calls) {asked : Process Syscall Module.Call} :
    asked ∈ all ↔ ∃ process ∈ config.calls, asked ∈ process.state.asked := by
  rw [← Multiset.mem_coe, same, mem_gather]
  simp only [serviceCalls, Multiset.mem_coe]

end Runs

/-! Where the files of a process come from. -/

/-- A call of `open_group` for this descriptor has been returned the file. -/
def OpenedFor (config : UserConfig) (desc : UInt8) (filp : Nat) : Prop :=
  ∃ opener ∈ config.calls, opener.request.call = .openGroup (some desc) ∧
    (⟨.openFile (groupDevName desc.toNat), .opened filp⟩ : Process Syscall Module.Call) ∈ opener.state.asked

/-- Every file that can be used or is in use was opened for some descriptor. -/
structure Attributed (config : UserConfig) : Prop where
  handles : ∀ pid fd filp, lookup (config.shared.own pid).descriptors fd = some (.groupDev filp) → ∃ desc, OpenedFor config desc filp
  operations : ∀ process ∈ config.calls, ∀ asked ∈ process.state.asked, ∀ filp op, asked.request = .file filp op →
    ∃ desc, OpenedFor config desc filp

section Handles
variable {p p' : UserProcess} {pc pc' : Pc} {asks : Option Syscall} {outcome : LibraryOutcome} {fd filp : Nat}

/-- A descriptor of a group is made where an open returns, and nowhere else. -/
theorem Effect.handles (effect : Effect p pc p' pc') (found : lookup p'.descriptors fd = some (.groupDev filp)) :
    lookup p.descriptors fd = some (.groupDev filp) ∨ ∃ desc name i, pc = .openGroup (.opening desc name i) := by
  cases effect with
  | opensGroup _ opening _ _ => exact .inr opening
  | quiet descriptors _ _ _ _ => exact .inl (descriptors ▸ found)
  | mallocs same _ _ _ | frees same _ _ _ =>
    subst same
    exact .inl found
  | opensTsm same _ _ _ =>
    subst same
    by_cases new : fd = lowest p.descriptors
    · subst new
      cases lookup_install_self.symm.trans found
    · exact .inl ((lookup_install_of_ne new).symm.trans found)
  | @closesTsm closed same _ _ _ | @closesGroup closed same _ _ _ =>
    subst same
    by_cases gone : fd = closed
    · subst gone
      cases lookup_close_self.symm.trans found
    · exact .inl ((lookup_close_of_ne gone).symm.trans found)

theorem step_handles (stepped : libraryStep outcome p pc = some (p', pc', asks))
    (found : lookup p'.descriptors fd = some (.groupDev filp)) : lookup p.descriptors fd = some (.groupDev filp) := by
  rcases (library_effect stepped).handles found with before | ⟨desc, name, i, rfl⟩
  · exact before
  · cases stepped

theorem resume_handles {value : Answer} (found : lookup (libraryResume value p pc).1.descriptors fd = some (.groupDev filp)) :
    lookup p.descriptors fd = some (.groupDev filp) ∨
      ∃ desc name i, pc = .openGroup (.opening desc name i) ∧ value = .opened filp := by
  rcases (resume_effect value p pc).handles found with before | ⟨desc, name, i, rfl⟩
  · exact .inl before
  · cases value with
    | opened filp' =>
      by_cases new : fd = lowest p.descriptors
      · subst new
        cases lookup_install_self.symm.trans found
        exact .inr ⟨desc, name, i, rfl, rfl⟩
      · exact .inl ((lookup_install_of_ne new).symm.trans found)
    | _ => exact .inl found

/-- An operation goes to a file that a descriptor refers to. -/
theorem syscall_handle {fd : Int} {op op' : FileOp} {desc : UInt8} {memory : Memory}
    (granted : p.syscall fd op' desc memory = some (.file filp op)) :
    ∃ fd, lookup p.descriptors fd = some (.groupDev filp) := by
  unfold UserProcess.syscall at granted
  split at granted
  next handle =>
    cases granted
    unfold UserProcess.handle at handle
    split at handle
    · cases handle
    · exact ⟨_, handle⟩
  · cases granted
  · cases granted

theorem asks_handle {op : FileOp} (stepped : libraryStep outcome p pc = some (p', pc', some (.file filp op))) :
    ∃ fd, lookup p.descriptors fd = some (.groupDev filp) := by
  cases pc with
  | openGroup pc =>
    cases pc with
    | installGroup desc fd | askMaxMessageSize desc fd =>
      simp only [libraryStep, openGroupStep] at stepped
      split at stepped <;> cases stepped
      next granted => exact syscall_handle granted
    | entry groupDescriptor => cases groupDescriptor <;> cases stepped
    | openTsm _ | testMaxMessageSize _ _ | malloc _ | attempt _ _ _ =>
      simp only [libraryStep, openGroupStep] at stepped
      split at stepped <;> cases stepped
    | _ => cases stepped
  | send fd msg pc =>
    rcases send_cases stepped with ⟨_, _, _, _, other⟩ | ⟨_, _, _, other⟩ | ⟨_, _, _, _, _, same, granted⟩
    · cases other
    · cases other
    · cases same
      exact syscall_handle granted
  | command checked =>
    cases checked with
    | none => cases stepped
    | some checked =>
      simp only [libraryStep] at stepped
      split at stepped <;> cases stepped
      next granted => exact syscall_handle granted
  | closeGroup fd =>
    simp only [libraryStep] at stepped
    split at stepped <;> cases stepped
  | waiting | done _ _ => cases stepped

end Handles

section Attributed
variable {before after : UserConfig} {act : UserAct} {shared shared' : LibraryState} {left right : List (Process Request RunningCall)}
  {request : Request} {call call' : RunningCall} {outcome : Module.Outcome × LibraryOutcome}

/-- A call of the module that has returned is kept. -/
theorem served_keeps (moved : users.move outcome shared call = some (shared', call')) {asked : Process Syscall Module.Call}
    (member : asked ∈ call.asked) {value : Answer} (answers : answer asked.state = some value) : asked ∈ call'.asked := by
  cases served_cases moved with
  | goes stepped => exact member
  | asks stepped => exact List.mem_cons_of_mem _ member
  | @resumes place answered processes place' asking value answers resumed =>
    show asked ∈ answered ++ [asking]
    rcases List.mem_cons.mp member with rfl | old
    · exact List.mem_append_right _ (List.mem_singleton_self _)
    · exact List.mem_append_left _ old
  | serves waits stepped =>
    rcases List.mem_cons.mp member with rfl | old
    · cases waits.symm.trans answers
    · exact List.mem_cons_of_mem _ old

theorem OpenedFor.step {desc : UInt8} {filp : Nat} (opened : OpenedFor before desc filp) (taken : Step users before act after) :
    OpenedFor after desc filp := by
  obtain ⟨opener, member, asks, answered⟩ := opened
  obtain ⟨index, found⟩ := List.mem_iff_getElem?.mp member
  rcases taken.follow found with stays | ⟨_, state, _, moved, later⟩
  · exact ⟨opener, List.mem_of_getElem? stays, asks, answered⟩
  · exact ⟨_, List.mem_of_getElem? later, asks, served_keeps moved answered rfl⟩

/-- A descriptor of a group that a step adds is that of an open of its own. -/
theorem moved_handles (keeps : Keeps ⟨request, call⟩) (moved : users.move outcome shared call = some (shared', call')) {pid fd filp : Nat}
    (found : lookup (shared'.own pid).descriptors fd = some (.groupDev filp)) :
    lookup (shared.own pid).descriptors fd = some (.groupDev filp) ∨
      ∃ desc, request.call = .openGroup (some desc) ∧
        (⟨.openFile (groupDevName desc.toNat), .opened filp⟩ : Process Syscall Module.Call) ∈ call'.asked := by
  cases served_cases moved with
  | @goes place answered processes place' stepped | @asks place answered processes place' _ stepped =>
    obtain ⟨p', rfl, -, taken⟩ := program_step stepped
    by_cases mine : pid = place.pid
    · subst mine
      simp only [Function.update_self] at found
      exact .inl (step_handles taken found)
    · simp only [Function.update_of_ne mine] at found
      exact .inl found
  | @resumes place answered processes place' asked value answers resumed =>
    cases resumed
    by_cases mine : pid = place.pid
    · subst mine
      simp only [Function.update_self] at found
      rcases resume_handles found with before | ⟨desc, name, i, here, rfl⟩
      · exact .inl before
      · have knows := keeps.1
        simp only [here] at knows
        obtain ⟨same, state, pending⟩ := knows
        cases pending
        exact .inr ⟨desc, same, opened_of_answer rfl answers⟩
    · simp only [Function.update_of_ne mine] at found
      exact .inl found
  | serves waits stepped => exact .inl found

/-- A number that `open_group` comes to return was free, and refers to the file that its
own open has returned. -/
theorem moved_returning {desc : UInt8} (keeps : Keeps ⟨request, call⟩) (asks : request.call = .openGroup (some desc))
    (moved : users.move outcome shared call = some (shared', call')) {ret : Int}
    (returning : call'.place.pc.returning = some ret) (valid : 0 ≤ ret) :
    call'.place.pid = call.place.pid ∧
      (call.place.pc.returning = some ret ∨
        ∃ filp fd, ret = (fd : Nat) ∧
          (⟨.openFile (groupDevName desc.toNat), .opened filp⟩ : Process Syscall Module.Call) ∈ call'.asked ∧
          lookup (shared.own call.place.pid).descriptors fd = none ∧
          lookup (shared'.own call.place.pid).descriptors fd = some (.groupDev filp)) := by
  have knows : Knows request.call call.pending call.answered call.place.pc := keeps.1
  rw [asks] at knows
  cases served_cases moved with
  | @goes place answered processes place' stepped | @asks place answered processes place' _ stepped =>
    obtain ⟨p', rfl, stays, taken⟩ := program_step stepped
    exact ⟨stays, .inl (library_returning knows taken returning valid)⟩
  | @resumes place answered processes place' asked value answers resumed =>
    cases resumed
    refine ⟨rfl, ?_⟩
    rcases resume_returning knows returning with already | ⟨desc', name, i, filp, here, rfl, rfl, installed⟩
    · exact .inl already
    · rw [here] at knows
      obtain ⟨same, state, pending⟩ := knows
      cases same
      cases pending
      refine .inr ⟨filp, _, rfl, opened_of_answer rfl answers, lookup_lowest _, ?_⟩
      show lookup (Function.update shared.own place.pid _ place.pid).descriptors _ = _
      rw [Function.update_self]
      exact installed ▸ lookup_install_self
  | serves waits stepped => exact ⟨rfl, .inl returning⟩

/-- An operation that a step adds is on a descriptor of its process. -/
theorem moved_operations (moved : users.move outcome shared call = some (shared', call')) {asked : Process Syscall Module.Call}
    (among : asked ∈ call'.asked) {filp : Nat} {op : FileOp} (same : asked.request = .file filp op) :
    (∃ old ∈ call.asked, old.request = .file filp op) ∨ ∃ pid fd, lookup (shared.own pid).descriptors fd = some (.groupDev filp) := by
  cases served_cases moved with
  | goes stepped => exact .inl ⟨asked, among, same⟩
  | @asks place answered processes place' syscall stepped =>
    rcases List.mem_cons.mp among with rfl | old
    · obtain ⟨_, _, -, taken⟩ := program_step stepped
      cases same
      obtain ⟨fd, handle⟩ := asks_handle taken
      exact .inr ⟨place.pid, fd, handle⟩
    · exact .inl ⟨asked, old, same⟩
  | @resumes place answered processes place' asking value answers resumed =>
    have among : asked ∈ answered ++ [asking] := among
    rcases List.mem_append.mp among with old | new
    · exact .inl ⟨asked, List.mem_cons_of_mem _ old, same⟩
    · cases List.mem_singleton.mp new
      exact .inl ⟨asked, List.mem_cons_self, same⟩
  | @serves place answered syscall state state' next waits stepped =>
    rcases List.mem_cons.mp among with rfl | old
    · exact .inl ⟨⟨syscall, state⟩, List.mem_cons_self, same⟩
    · exact .inl ⟨asked, List.mem_cons_of_mem _ old, same⟩

theorem Attributed.step (attributed : Attributed before) (keeps : ∀ process ∈ before.calls, Keeps process)
    (taken : Step users before act after) : Attributed after := by
  have stays : ∀ filp, (∃ desc, OpenedFor before desc filp) → ∃ desc, OpenedFor after desc filp := by
    rintro filp ⟨desc, opened⟩
    exact ⟨desc, opened.step taken⟩
  obtain ⟨handles, operations⟩ := attributed
  cases taken with
  | @enter shared calls request =>
    refine ⟨fun pid fd filp found => stays filp (handles pid fd filp found), ?_⟩
    intro process member asked among filp op same
    rcases List.mem_append.mp member with old | new
    · exact stays filp (operations process old asked among filp op same)
    · cases List.mem_singleton.mp new
      cases among
  | environment happened =>
    obtain ⟨state, _, equal⟩ := Option.map_eq_some_iff.mp happened
    cases equal
    exact ⟨fun pid fd filp found => stays filp (handles pid fd filp found),
      fun process member asked among filp op same => stays filp (operations process member asked among filp op same)⟩
  | @move shared left right request call outcome shared' call' moved =>
    have member : (⟨request, call⟩ : Process Request RunningCall) ∈ left ++ ⟨request, call⟩ :: right := by simp
    constructor
    · intro pid fd filp found
      rcases moved_handles (keeps _ member) moved found with old | ⟨desc, asks, opened⟩
      · exact stays filp (handles pid fd filp old)
      · exact ⟨desc, _, List.mem_append_right _ List.mem_cons_self, asks, opened⟩
    · intro process among asked asking filp op same
      apply stays filp
      rcases List.mem_append.mp among with before | rest
      · exact operations process (List.mem_append_left _ before) asked asking filp op same
      · rcases List.mem_cons.mp rest with rfl | behind
        · rcases moved_operations moved asking same with ⟨old, made, same⟩ | ⟨pid, fd, handle⟩
          · exact operations _ member old made filp op same
          · exact handles pid fd filp handle
        · exact operations process (List.mem_append_right _ (List.mem_cons_of_mem _ behind)) asked asking filp op same

end Attributed

/-- A call has been returned a message only if it has taken one. -/
def Settles : ReadPc → Prop
  | .done ret none _ => ret ≤ 0
  | _ => True

/-- Where a read can be. -/
def Reads (length : Nat) : Module.Call → Prop
  | .file _ op => op = .read length
  | .device _ ⟨.device (.read pc), _⟩ => Settles pc
  | .done ret => ret ≤ 0
  | _ => False

section Answers
variable {maxMessageSize maxStorageSize : UInt32} {msecsToJiffies : UInt32 → Nat}

theorem settles_move {s s' : Tsm.State} {outcome : Tsm.Outcome} {pc : ReadPc} {call' : Tsm.Call}
    (step : Tsm.MoveStep outcome s (.read pc) s' call') : ∃ pc', call' = .read pc' ∧ Settles pc' := by
  cases step with
  | read step =>
    refine ⟨_, rfl, ?_⟩
    cases step <;> first | trivial | exact Int.le_refl _

theorem reads_move {length : Nat} {outcome : Module.Outcome} {s s' : Module.State} {call call' : Module.Call}
    (reads : Reads length call) (step : Module.MoveStep outcome s call s' call') : Reads length call' := by
  cases step with
  | badFile closed => exact (by decide : (-1 : Int) ≤ 0)
  | nothing opened nothing =>
    cases reads
    cases nothing
  | dispatch opened asks =>
    cases reads
    cases asks
    trivial
  | @device id call device state call' present moved =>
    obtain ⟨moving, loaded⟩ := call
    obtain ⟨moving', loaded'⟩ := call'
    cases moving with
    | device before =>
      cases before with
      | read pc =>
        rcases unlocked_cases moved with ⟨same, _⟩ | ⟨_, before, after, here, there, step⟩
        · cases moving' with
          | device after =>
            cases same
            exact reads
          | sleep _ _ | awake _ => cases same
        · cases here
          cases there
          obtain ⟨pc', rfl, settles⟩ := settles_move step
          exact settles
      | write _ | setSendDelay _ | revoke _ => exact reads.elim
    | sleep _ _ | awake _ => exact reads.elim
  | tsmIoctl _ | noLink _ | lookup _ | noDevice | groupOpen _ _ => exact reads.elim

/-- A read that has returned something has taken it from its group. -/
theorem read_removes {allowed : ModuleConfig → ModuleAct → Prop} {module : ModuleConfig}
    (reached : Reaches tsm allowed (loaded maxMessageSize maxStorageSize msecsToJiffies) module)
    {filp length : Nat} {state : Module.Call} (member : ⟨.file filp (.read length), state⟩ ∈ module.calls) {value : Answer}
    (answers : answer state = some value) (positive : 0 < value.ret) :
    ∃ id msg loaded, state = .device id ⟨.device (.read (.done value.ret (some msg) value.bytes)), loaded⟩ := by
  have reads := reached.calls_keep (fun process => ∀ filp length, process.request = .file filp (.read length) →
    Reads length process.state) rfl ?_ ?_ _ member filp length rfl
  · cases state with
    | done ret =>
      cases answers
      exact absurd reads (Int.not_le.mpr positive)
    | device id call =>
      obtain ⟨moving, loaded⟩ := call
      obtain ⟨⟨ret, bytes⟩, returned, equal⟩ := Option.map_eq_some_iff.mp answers
      cases equal
      cases moving with
      | device moving =>
        cases moving with
        | read pc =>
          cases pc with
          | done ret' msg bytes' =>
            cases returned
            cases msg with
            | none => exact absurd reads (Int.not_le.mpr positive)
            | some msg => exact ⟨id, msg, loaded, rfl⟩
          | _ => cases returned
        | write _ | setSendDelay _ | revoke _ => exact reads.elim
      | sleep _ _ | awake _ => exact reads.elim
    | file _ _ => cases answers
    | tsmIoctl _ | lookup _ | groupOpen _ | opened _ => exact reads.elim
  · rintro request filp length rfl
    rfl
  · intro shared request state outcome shared' state' reads moved filp length same
    exact reads_move (reads filp length same) (Module.move_cases moved)

end Answers

/-! What a process can count on. -/

/-- The file is one of the device of this group. -/
def LeadsTo (s : Module.State) (filp desc : Nat) : Prop :=
  ∃ id device, s.files[filp]? = some id ∧ s.devices id = some device ∧ device.number.2 = desc

/-- The call has taken the message, with a read on a file of the group. -/
def ReceivesFrom (config : UserConfig) (desc : UInt8) (id : Nat) (msg : Message) (process : Process Request RunningCall) : Prop :=
  ∃ filp op state, (⟨.file filp op, state⟩ : Process Syscall Module.Call) ∈ process.state.asked ∧ OpenedFor config desc filp ∧
    Removes id msg ⟨.file filp op, state⟩

/-- The call is a `send_message`, whose write on a file of the group has left the message
there, with the bytes it has passed. -/
def SendsTo (config : UserConfig) (desc : UInt8) (id : Nat) (msg : Message) (process : Process Request RunningCall) : Prop :=
  ∃ fd buffer filp buf length state, process.request.call = .sendMessage fd buffer ∧
    (⟨.file filp (.write buf length), state⟩ : Process Syscall Module.Call) ∈ process.state.asked ∧ OpenedFor config desc filp ∧
    Module.Stores id msg ⟨.file filp (.write buf length), state⟩ ∧ msg.CopiedFrom buf

/-- The module, with the calls that all processes have made. -/
def kernel (config : UserConfig) : ModuleConfig := ⟨config.shared.service, config.calls.flatMap fun process => process.state.asked⟩

theorem mem_kernel {config : UserConfig} {asked : Process Syscall Module.Call} :
    asked ∈ (kernel config).calls ↔ ∃ process ∈ config.calls, asked ∈ process.state.asked :=
  List.mem_flatMap

/-- At one step of the run, taken by the call, the descriptor was free in the process and
has come to refer to the file. -/
def Installs (allowed : UserConfig → UserAct → Prop) (start config : UserConfig) (index pid fd filp : Nat) : Prop :=
  ∃ before outcome after, Reaches users allowed start before ∧ Reaches users allowed after config ∧
    step users before (.move index outcome) = some after ∧ lookup (before.shared.own pid).descriptors fd = none ∧
    lookup (after.shared.own pid).descriptors fd = some (.groupDev filp)

section Groups
variable {maxMessageSize maxStorageSize : UInt32} {msecsToJiffies : UInt32 → Nat} {buffers : Nat → Nat → List UInt8}
  {config : UserConfig} {allowed : UserConfig → UserAct → Prop}
  (reached : Reaches users allowed (idle maxMessageSize maxStorageSize msecsToJiffies buffers) config)
include reached

theorem users_attributed : Attributed config := by
  refine reached.induct ⟨?_, ?_⟩ ?_
  · intro pid fd filp found
    cases found
  · intro process member
    cases member
  · intro before act after reached attributed _ taken
    exact attributed.step (users_keep reached) taken

theorem opened_leads {desc : UInt8} {filp : Nat} (opened : OpenedFor config desc filp) :
    LeadsTo config.shared.service filp desc.toNat := by
  obtain ⟨opener, member, _, answered⟩ := opened
  obtain ⟨all, ran, same⟩ := kernel_attains reached
  exact opened_minor ran ((mem_asked same).mpr ⟨opener, member, answered⟩) rfl rfl

theorem users_pid : ∀ process ∈ config.calls, process.state.place.pid = process.request.pid := by
  refine reached.calls_keep (fun process => process.state.place.pid = process.request.pid) rfl (fun request => rfl) ?_
  intro shared request call outcome shared' call' same moved
  cases served_cases moved with
  | goes stepped | asks stepped =>
    obtain ⟨_, _, stays, _⟩ := program_step stepped
    exact stays.trans same
  | resumes answers resumed =>
    simp only [library] at resumed
    cases resumed
    exact same
  | serves waits stepped => exact same

/-- A non-negative number that an `open_group` returns was installed by a step of its own. -/
theorem returning_installed : ∀ (index : Nat) opener, config.calls[index]? = some opener → ∀ desc ret,
    opener.request.call = .openGroup (some desc) → opener.state.place.pc.returning = some ret → 0 ≤ ret →
    ∃ filp fd, ret = (fd : Nat) ∧
      (⟨.openFile (groupDevName desc.toNat), .opened filp⟩ : Process Syscall Module.Call) ∈ opener.state.asked ∧
      Installs allowed (idle maxMessageSize maxStorageSize msecsToJiffies buffers) config index opener.state.place.pid fd filp := by
  refine reached.induct (fun _ _ found => by cases found) ?_
  rintro before act after earlier ih permitted taken index ⟨request, call'⟩ found desc ret asks returning valid
  have later : ∀ {middle}, Reaches users allowed middle before → Reaches users allowed middle after :=
    fun ran => ran.step permitted taken.enabled
  have onward : ∀ {pid fd filp}, Installs allowed (idle maxMessageSize maxStorageSize msecsToJiffies buffers) before index pid fd filp →
      Installs allowed (idle maxMessageSize maxStorageSize msecsToJiffies buffers) after index pid fd filp :=
    fun ⟨first, outcome, second, start, rest, installed⟩ => ⟨first, outcome, second, start, later rest, installed⟩
  rcases taken.origin found with stays | rfl | ⟨outcome, call, rfl, found', moved⟩
  · obtain ⟨filp, fd, same, own, installs⟩ := ih index _ stays desc ret asks returning valid
    exact ⟨filp, fd, same, own, onward installs⟩
  · obtain ⟨pid, _⟩ := request
    cases asks
    cases returning
  · have keeps := users_keep earlier _ (List.mem_of_getElem? found')
    obtain ⟨stays, already | ⟨filp, fd, same, own, free, installed⟩⟩ := moved_returning keeps asks moved returning valid
    · obtain ⟨filp, fd, same, own, installs⟩ := ih index _ found' desc ret asks already valid
      exact ⟨filp, fd, same, served_keeps moved own rfl, stays ▸ onward installs⟩
    · exact ⟨filp, fd, same, own, before, outcome, after, earlier, .refl, taken.enabled, stays ▸ free, stays ▸ installed⟩

/-- A descriptor of a group, of any process, refers to a file that an `open_group` has
opened for it. A number that an `open_group` returns is the descriptor that this call has
installed for a file that it has opened itself. It is never the device of another group. -/
theorem descriptors_lead :
    (∀ pid fd filp, lookup (config.shared.own pid).descriptors fd = some (.groupDev filp) →
      ∃ desc, OpenedFor config desc filp ∧ LeadsTo config.shared.service filp desc.toNat) ∧
    ∀ (index : Nat) opener, config.calls[index]? = some opener → ∀ desc ret bytes, opener.request.call = .openGroup (some desc) →
      opener.state.place.pc = .done ret bytes → 0 ≤ ret →
      ∃ filp fd, ret = (fd : Nat) ∧
        (⟨.openFile (groupDevName desc.toNat), .opened filp⟩ : Process Syscall Module.Call) ∈ opener.state.asked ∧
        Installs allowed (idle maxMessageSize maxStorageSize msecsToJiffies buffers) config index opener.request.pid fd filp ∧
        LeadsTo config.shared.service filp desc.toNat := by
  constructor
  · intro pid fd filp found
    obtain ⟨desc, opened⟩ := (users_attributed reached).handles pid fd filp found
    exact ⟨desc, opened, opened_leads reached opened⟩
  · intro index opener found desc ret bytes asks returned valid
    have member := List.mem_of_getElem? found
    have returning : opener.state.place.pc.returning = some ret := by
      rw [returned]
      rfl
    obtain ⟨filp, fd, same, own, installs⟩ := returning_installed reached index opener found desc ret asks returning valid
    rw [users_pid reached opener member] at installs
    exact ⟨filp, fd, same, own, installs, opened_leads reached ⟨opener, member, asks, own⟩⟩

/-- Files of one device were opened for one group. -/
theorem same_group {desc desc' : UInt8} {filp filp' id : Nat} (opened : OpenedFor config desc filp)
    (opened' : OpenedFor config desc' filp') (file : config.shared.service.files[filp]? = some id)
    (file' : config.shared.service.files[filp']? = some id) : desc' = desc := by
  obtain ⟨id₁, device, found, present, minor⟩ := opened_leads reached opened
  obtain ⟨id₂, device', found', present', minor'⟩ := opened_leads reached opened'
  cases file.symm.trans found
  cases file'.symm.trans found'
  cases present.symm.trans present'
  exact UInt8.toNat_inj.mp (minor'.symm.trans minor)

/-- No other call of the library has taken the message too. -/
theorem received_once {left right : List (Process Request RunningCall)} {process : Process Request RunningCall}
    (split : config.calls = left ++ process :: right) {desc : UInt8} {id : Nat} {msg : Message}
    (receives : ReceivesFrom config desc id msg process) : ∀ other ∈ left ++ right, ∀ desc, ¬ ReceivesFrom config desc id msg other := by
  rintro other among _ ⟨filp', op', state', asked', _, removes'⟩
  obtain ⟨filp, op, state, asked, _, removes⟩ := receives
  obtain ⟨all, ran, same⟩ := kernel_attains reached
  obtain ⟨rest, own⟩ := Multiset.exists_cons_of_mem (Multiset.mem_coe.mpr asked)
  rw [split, gather_middle, serviceCalls, own, Multiset.cons_add] at same
  have member : (⟨.file filp op, state⟩ : Process Syscall Module.Call) ∈ all := by
    rw [← Multiset.mem_coe, same]
    exact Multiset.mem_cons_self _ _
  obtain ⟨before, after, rfl⟩ := List.append_of_mem member
  have others : ((before ++ after : List (Process Syscall Module.Call)) : Multiset _) = rest + gather serviceCalls (left ++ right) := by
    apply (Multiset.cons_inj_right (⟨.file filp op, state⟩ : Process Syscall Module.Call)).mp
    rw [← same]
    exact Multiset.coe_eq_coe.mpr List.perm_middle.symm
  refine removed_once ran rfl removes (Multiset.mem_coe.mp ?_) removes'
  rw [others]
  exact Multiset.mem_add.mpr (.inr (mem_gather.mpr ⟨other, among, Multiset.mem_coe.mpr asked'⟩))

/-- What a `retrieve_message` returns is what one `send_message` of the same group has
passed to the kernel, cut to the length it asked for, and no other call is returned it. -/
theorem retrieved_was_sent {left right : List (Process Request RunningCall)} {process : Process Request RunningCall}
    (split : config.calls = left ++ process :: right) {fd : Int} {length : Nat} (asks : process.request.call = .retrieveMessage fd length)
    {ret : Int} {bytes : List UInt8} (returned : process.state.place.pc = .done ret bytes) (positive : 0 < ret) :
    ∃ desc id msg, ReceivesFrom config desc id msg process ∧ Delivers length msg ret bytes ∧
      (∃ sender ∈ config.calls, SendsTo config desc id msg sender) ∧
      ∀ other ∈ left ++ right, ∀ desc, ¬ ReceivesFrom config desc id msg other := by
  have member : process ∈ config.calls := split ▸ List.mem_append_right _ List.mem_cons_self
  have knows := (users_keep reached process member).1
  rw [returned] at knows
  obtain ⟨filp, state, value, answered, answers, rfl, rfl⟩ := knows.2 fd length asks positive
  have asked : ⟨.file filp (.read length), state⟩ ∈ process.state.asked := List.mem_append_right _ answered
  obtain ⟨all, ran, same⟩ := kernel_attains reached
  have among := (mem_asked same).mpr ⟨process, member, asked⟩
  obtain ⟨id, msg, loaded, rfl⟩ := read_removes ran among answers positive
  have removes : Removes id msg ⟨.file filp (.read length),
      .device id ⟨.device (.read (.done value.ret (some msg) value.bytes)), loaded⟩⟩ := ⟨_, loaded, rfl, rfl⟩
  obtain ⟨device, present⟩ := removed_present ran among removes
  obtain ⟨filp, length, request, file, delivers⟩ := reader_read ran present among removes
  cases request
  -- and on the other side
  obtain ⟨writer, wrote, stores, filp', buf, size, request, file', copied⟩ := removed_stored ran among removes present
  obtain ⟨request', written⟩ := writer
  cases request
  obtain ⟨sender, member', asked'⟩ := (mem_asked same).mp wrote
  obtain ⟨fd', buffer, sends⟩ := (users_keep reached sender member').2 _ asked'
  obtain ⟨desc, opened⟩ := (users_attributed reached).operations process member _ asked filp _ rfl
  obtain ⟨desc', opened'⟩ := (users_attributed reached).operations sender member' _ asked' filp' _ rfl
  cases same_group reached opened opened' file file'
  have receives : ReceivesFrom config desc id msg process := ⟨filp, .read length, _, asked, opened, removes⟩
  refine ⟨desc, id, msg, receives, ?_, ⟨sender, member', fd', buffer, filp', buf, size, written, sends, asked', opened', stores, copied⟩, ?_⟩
  · rcases delivers _ _ _ rfl with failed | delivers
    · omega
    · exact delivers
  · exact received_once reached split receives

/-- What was sent to a group has been received from it, or else is still in its device. -/
theorem sent_is_kept {sender : Process Request RunningCall} (member : sender ∈ config.calls) {desc : UInt8} {id : Nat}
    {msg : Message} (sends : SendsTo config desc id msg sender) :
    (∃ device, config.shared.service.devices id = some device ∧ device.number.2 = desc.toNat) ∧
      ((∃ receiver ∈ config.calls, ReceivesFrom config desc id msg receiver) ↔ ¬ InGroup (kernel config) id msg) := by
  obtain ⟨fd, buffer, filp, buf, length, state, asks, asked, opened, stores, copied⟩ := sends
  obtain ⟨all, ran, same⟩ := kernel_attains reached
  have among := (mem_asked same).mpr ⟨sender, member, asked⟩
  have placed := stored_placed ran among stores
  obtain ⟨pc, loaded, here, stored⟩ := stores
  obtain ⟨_, _, _, request, file, _⟩ := groupPart_call ran among here
  cases request
  constructor
  · obtain ⟨other, device, file', present, minor⟩ := opened_leads reached opened
    cases file.symm.trans file'
    exact ⟨device, present, minor⟩
  · have inside : InGroup (kernel config) id msg ↔ InGroup ⟨config.shared.service, all⟩ id msg :=
      or_congr (exists_congr fun holder => and_congr_left fun _ => mem_kernel.trans (mem_asked same).symm) Iff.rfl
    rw [inside, ← placed]
    constructor
    · rintro ⟨receiver, member', filp', op, state', asked', _, removes⟩
      exact ⟨_, (mem_asked same).mpr ⟨receiver, member', asked'⟩, removes⟩
    · rintro ⟨reader, among', removes⟩
      obtain ⟨receiver, member', asked'⟩ := (mem_asked same).mp among'
      have taken := removes
      obtain ⟨pc', loaded', here', _⟩ := taken
      obtain ⟨filp', op, _, request, file', _⟩ := groupPart_call ran among' here'
      obtain ⟨_, state'⟩ := reader
      cases request
      obtain ⟨desc', opened'⟩ := (users_attributed reached).operations receiver member' _ asked' filp' op rfl
      cases same_group reached opened opened' file file'
      exact ⟨receiver, member', filp', op, state', asked', opened', removes⟩

end Groups

/-! Two processes that open the same group. -/

/-- The checks of an install still hold when it acts on them. -/
abbrev InstallsApart : UserConfig → UserAct → Prop :=
  OnService answer fun s call _ => ∀ pc ∈ call.install, StillHolds s.registry pc

/-- Where installs have not raced and are finished, processes that open the same group
share its device, and so its messages and its barrier. -/
theorem one_group_each {maxMessageSize maxStorageSize : UInt32} {msecsToJiffies : UInt32 → Nat} {buffers : Nat → Nat → List UInt8}
    {config : UserConfig} (reached : Reaches users InstallsApart (idle maxMessageSize maxStorageSize msecsToJiffies buffers) config)
    (finished : InstallsFinished (kernel config)) {desc : UInt8} {filp filp' : Nat} (opened : OpenedFor config desc filp)
    (opened' : OpenedFor config desc filp') :
    ∃ id, config.shared.service.files[filp]? = some id ∧ config.shared.service.files[filp']? = some id := by
  obtain ⟨id, device, file, present, minor⟩ := opened_leads reached opened
  obtain ⟨id', device', file', present', minor'⟩ := opened_leads reached opened'
  obtain ⟨all, ran, same⟩ := service_attains reached rfl
  have settled : InstallsFinished ⟨config.shared.service, all⟩ := fun asked among =>
    finished asked (mem_kernel.mpr ((mem_asked same).mp among))
  cases devices_distinct ran settled present present' (minor.trans minor'.symm)
  exact ⟨id, file, file'⟩

/-- Two processes open a group, one sends to it and the other retrieves. -/
def sharingRun : List UserAct :=
  [asksLibrary 0 (.openGroup (some 7))] ++ userSteps 0 43 ++ [.environment (.udev (240, 7))] ++ userSteps 0 8 ++
    [asksLibrary 1 (.openGroup (some 7))] ++ userSteps 1 24 ++ [asksLibrary 0 (.sendMessage 0 (some 0))] ++ userSteps 2 17 ++
    [asksLibrary 1 (.retrieveMessage 0 5)] ++ userSteps 3 8

theorem descriptors_lead_sharingRun :
    ∃ config, run users Anything sampleUsers sharingRun = some config ∧
      (∃ desc, OpenedFor config desc 1 ∧ LeadsTo config.shared.service 1 desc.toNat) ∧
      ∃ filp, Installs Anything sampleUsers config 1 1 0 filp ∧ LeadsTo config.shared.service filp 7 := by
  have enabled : (run users Anything sampleUsers sharingRun).isSome := by decide
  have handle : lookup (((run users Anything sampleUsers sharingRun).get enabled).shared.own 1).descriptors 0 =
      some (.groupDev 1) := by decide +revert
  have opened : ∃ opener, ((run users Anything sampleUsers sharingRun).get enabled).calls[1]? = some opener ∧
      opener.request = ⟨1, .openGroup (some 7)⟩ ∧ opener.state.place.pc = .done 0 [] := ⟨_, rfl, rfl, rfl⟩
  obtain ⟨handles, returns⟩ := descriptors_lead (reaches_get enabled)
  obtain ⟨⟨request, call⟩, found, rfl, returned⟩ := opened
  obtain ⟨filp, fd, same, _, installs, leads⟩ := returns 1 _ found 7 0 [] rfl returned (by decide)
  cases Int.ofNat.inj same
  exact ⟨_, (Option.some_get enabled).symm, handles 1 0 1 handle, filp, installs, leads⟩

theorem sent_is_kept_sharingRun :
    ∃ config, run users Anything sampleUsers sharingRun = some config ∧
      ∃ sender ∈ config.calls, ∃ id msg, SendsTo config 7 id msg sender ∧
        ((∃ receiver ∈ config.calls, ReceivesFrom config 7 id msg receiver) ↔ ¬ InGroup (kernel config) id msg) := by
  have enabled : (run users Anything sampleUsers sharingRun).isSome := by decide
  have sent : ∃ sender, ((run users Anything sampleUsers sharingRun).get enabled).calls[2]? = some sender ∧
      sender.request.call = .sendMessage 0 (some 0) ∧ ∃ buf length msg loaded, msg.CopiedFrom buf ∧ sender.state.asked[0]? =
        some ⟨.file 0 (.write buf length), .device 0 ⟨.device (.write (.done 2 (some msg))), loaded⟩⟩ := by
    refine ⟨_, rfl, rfl, _, _, _, _, ?_, rfl⟩
    rfl
  have first := List.mem_of_getElem? (l := ((run users Anything sampleUsers sharingRun).get enabled).calls) (i := 0) rfl
  have opened : OpenedFor ((run users Anything sampleUsers sharingRun).get enabled) 7 0 :=
    ⟨_, first, rfl, List.mem_of_getElem? (i := 2) rfl⟩
  obtain ⟨sender, found, asks, buf, length, msg, loaded, copied, wrote⟩ := sent
  have member := List.mem_of_getElem? found
  have sends : SendsTo ((run users Anything sampleUsers sharingRun).get enabled) 7 0 msg sender :=
    ⟨0, some 0, 0, buf, length, _, asks, List.mem_of_getElem? wrote, opened, ⟨_, loaded, rfl, rfl⟩, copied⟩
  exact ⟨_, (Option.some_get enabled).symm, sender, member, 0, msg, sends, (sent_is_kept (reaches_get enabled) member sends).2⟩

theorem one_group_each_sharingRun :
    ∃ config, run users InstallsApart sampleUsers sharingRun = some config ∧
      ∃ id, config.shared.service.files[0]? = some id ∧ config.shared.service.files[1]? = some id := by
  have enabled : (run users InstallsApart sampleUsers sharingRun).isSome := by decide
  have finished : InstallsFinished (kernel ((run users InstallsApart sampleUsers sharingRun).get enabled)) := by decide +revert
  have first := List.mem_of_getElem? (l := ((run users InstallsApart sampleUsers sharingRun).get enabled).calls) (i := 0) rfl
  have second := List.mem_of_getElem? (l := ((run users InstallsApart sampleUsers sharingRun).get enabled).calls) (i := 1) rfl
  have opened : OpenedFor ((run users InstallsApart sampleUsers sharingRun).get enabled) 7 0 :=
    ⟨_, first, rfl, List.mem_of_getElem? (i := 2) rfl⟩
  have opened' : OpenedFor ((run users InstallsApart sampleUsers sharingRun).get enabled) 7 1 :=
    ⟨_, second, rfl, List.mem_of_getElem? (i := 2) rfl⟩
  exact ⟨_, (Option.some_get enabled).symm, one_group_each (reaches_get enabled) finished opened opened'⟩

theorem retrieved_was_sent_sharingRun :
    ∃ config, run users Anything sampleUsers sharingRun = some config ∧
      ∃ process ∈ config.calls, process.state.place.pc = .done 2 [104, 105] ∧ ∃ desc id msg, ReceivesFrom config desc id msg process ∧
        Delivers 5 msg 2 [104, 105] ∧ ∃ sender ∈ config.calls, SendsTo config desc id msg sender := by
  have enabled : (run users Anything sampleUsers sharingRun).isSome := by decide
  have member := List.mem_of_getElem? (l := ((run users Anything sampleUsers sharingRun).get enabled).calls) (i := 3) rfl
  obtain ⟨left, right, split⟩ := List.append_of_mem member
  obtain ⟨desc, id, msg, receives, delivers, sent, -⟩ :=
    retrieved_was_sent (reaches_get enabled) split (rfl : _ = LibraryCall.retrieveMessage 0 5)
      (rfl : _ = Pc.done 2 [104, 105]) (by decide)
  exact ⟨_, (Option.some_get enabled).symm, _, member, rfl, desc, id, msg, receives, delivers, sent⟩

end Tsm.Library
