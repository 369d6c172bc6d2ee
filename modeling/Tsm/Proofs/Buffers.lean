import Tsm.Device.Buffers
import Tsm.Device.Transitions

/-! Whether a message stays inside the buffer allocated for it. The terminator is
stored behind the last byte, so that only a write which never gets there does. -/

namespace Tsm
open Interleaving CString

/-- The length that was passed to a write and what is left of it, in its critical section. -/
def copying : Process Request Call → Option (Nat × Nat)
  | ⟨.write _ passed, .write (.critical _ length _)⟩ => some (passed, length)
  | _ => none

/-- A write that has room does not get past its copy, and before the copy fails it
reads no more of the caller's bytes than it was passed. -/
def FaultsInTime (s : State) (granted : Granted) (process : Process Request Call) : Prop :=
  ∀ lengths ∈ copying process, s.dev.messagesNumber < s.maxStorageSize →
    granted.accessible < lengths.2 ∧ granted.accessible ≤ lengths.1

instance (s : State) (granted : Granted) (process : Process Request Call) : Decidable (FaultsInTime s granted process) :=
  inferInstanceAs (Decidable (∀ lengths ∈ copying process, _ → _))

def WritesFault (config : DeviceConfig) : BufferedAct → Prop
  | .move call granted => ∀ process ∈ config.calls[call]?, FaultsInTime config.shared granted process
  | .enter _ | .environment _ => True

instance (config : DeviceConfig) : (act : BufferedAct) → Decidable (WritesFault config act)
  | .move _ _ => inferInstanceAs (Decidable (∀ process ∈ _, _))
  | .enter _ | .environment _ => isTrue trivial

/-- Every run is one of the device, with the same states and calls. -/
theorem buffered_reaches {allowed : DeviceConfig → BufferedAct → Prop} {start config : DeviceConfig}
    (reached : Reaches buffered allowed start config) : Reaches device Anything start config := by
  refine reached.induct .refl ?_
  intro before act after _ simulated _ taken
  cases taken with
  | enter request => exact simulated.step trivial (Step.enter request).enabled
  | @move s left right request call granted s' call' moved =>
    have same : device.move (granted.outcome call) s call = some (s', call') := moved
    exact simulated.step trivial (Step.move same).enabled
  | @environment s calls event s' happened =>
    have same : device.environment event s = some s' := happened
    exact simulated.step trivial (Step.environment same).enabled

/-! As long as all writes fault there is no message. -/

/-- The call has no message in its hands. -/
def Call.emptyHanded : Call → Prop
  | .write (.entry _ _) | .write (.clamp _) | .write (.allocData _ _) | .write (.allocMsg _ _ _)
  | .write (.critical _ _ _) | .write (.msgFail _ _) | .write (.dataFail _ _) | .write (.done _ none) => True
  | .write _ => False
  | .read (.entry _) | .read (.done _ none _) => True
  | .read _ => False
  | .setSendDelay _ | .revoke _ => True

structure NoMessage (s : State) : Prop where
  published : s.dev.messageList = []
  pending : s.dev.pendingList = []
  inserting : ∀ work msg, s.wq.running ≠ some (work, .insert msg)
  printing : ∀ work msg, s.wq.running ≠ some (work, .print msg)

section Steps
variable {s s' : State} {granted : Granted} {request : Request} {call call' : Call}

theorem NoMessage.keep (nothing : NoMessage s) (published : s'.dev.messageList = s.dev.messageList)
    (pending : s'.dev.pendingList = s.dev.pendingList) (running : s'.wq.running = s.wq.running) : NoMessage s' where
  published := published.trans nothing.published
  pending := pending.trans nothing.pending
  inserting work msg := running ▸ nothing.inserting work msg
  printing work msg := running ▸ nothing.printing work msg

theorem moves_empty_handed (nothing : NoMessage s) (empty : call.emptyHanded)
    (faults : FaultsInTime s granted ⟨request, call⟩) (asked : ∀ pc, call = .write pc → ∃ buf passed, request = .write buf passed)
    (moved : buffered.move granted s call = some (s', call')) : NoMessage s' ∧ call'.emptyHanded := by
  have step : MoveStep (granted.outcome call) s call s' call' := move_cases moved
  cases step with
  | write step =>
    obtain ⟨buf, passed, rfl⟩ := asked _ rfl
    cases step with
    | delayed room copied delay | immediate room copied noDelay =>
      have short := (faults _ rfl room).1
      have whole : _ ≤ granted.accessible := of_decide_eq_true copied
      exact absurd short (Nat.not_lt.mpr whole)
    | invalid | oversize | fits | clamp | allocData | noData | allocMsg | noMsg | full | fault | msgFail | dataFail =>
      exact ⟨nothing.keep rfl rfl rfl, trivial⟩
    | _ => exact empty.elim
  | read step =>
    cases step with
    | empty none => exact ⟨nothing, trivial⟩
    | remove last =>
      rw [nothing.published] at last
      exact absurd last (by simp)
    | _ => exact empty.elim
  | setSendDelay step => cases step <;> exact ⟨nothing.keep rfl rfl rfl, trivial⟩
  | revoke step =>
    cases step with
    | splice =>
      refine ⟨⟨?_, rfl, nothing.inserting, nothing.printing⟩, trivial⟩
      simp [nothing.published, nothing.pending, KernelList.listSpliceTail]
    | @flush pos q => exact ⟨nothing.keep rfl rfl (s.wq.running_flushDelayedWork pos), trivial⟩
    | _ => exact ⟨nothing.keep rfl rfl rfl, trivial⟩

theorem happens_empty_handed {event : Event} (nothing : NoMessage s) (happened : environment event s = some s') :
    NoMessage s' := by
  cases environment_cases happened with
  | worker step =>
    cases step with
    | pop running last =>
      rw [nothing.pending] at last
      exact absurd last (by simp)
    | insert running => exact absurd running (nothing.inserting _ _)
    | print running => exact absurd running (nothing.printing _ _)
    | start idle queued | popEmpty running empty | flushing running flag | notFlushing running flag | listDel running
    | free running => exact ⟨nothing.published, nothing.pending, by simp, by simp⟩
  | _ => exact nothing.keep rfl rfl rfl

/-- The request of a write is a write. -/
def Asked (process : Process Request Call) : Prop :=
  ∀ pc, process.state = .write pc → ∃ buf passed, process.request = .write buf passed

theorem asked_enter (request : Request) : Asked ⟨request, enter request⟩ := by
  intro pc writes
  cases request with
  | write buf length => exact ⟨buf, length, rfl⟩
  | read length | setSendDelay arg | revokeDelayedMessages => cases writes

theorem Asked.move (asked : Asked ⟨request, call⟩) (moved : buffered.move granted s call = some (s', call')) :
    Asked ⟨request, call'⟩ := by
  intro pc writes
  cases move_cases moved with
  | write step => exact asked _ rfl
  | read step | setSendDelay step | revoke step => cases writes

end Steps

section Runs
variable {maxMessageSize maxStorageSize : UInt32} {conversion : UInt32 → Nat} {delayWq : Bool} {config : DeviceConfig}

theorem nothing_stored
    (reached : Reaches buffered WritesFault (installed maxMessageSize maxStorageSize conversion delayWq) config) :
    NoMessage config.shared ∧ ∀ process ∈ config.calls, process.state.emptyHanded ∧ Asked process := by
  refine reached.outline (fun _ => (0 : Nat)) (fun s _ => NoMessage s) (fun _ process => process.state.emptyHanded ∧ Asked process)
    ⟨⟨rfl, rfl, by simp [installed, State.installed], by simp [installed, State.installed]⟩, by simp [installed]⟩ ?_ ?_ ?_
  · intro _ request
    refine ⟨rfl, ?_, asked_enter request⟩
    cases request <;> trivial
  · intro s left right request call granted s' call' _ permitted nothing own others moved
    have faults : FaultsInTime s granted ⟨request, call⟩ := permitted _ (by simp)
    obtain ⟨nothing', empty'⟩ := moves_empty_handed nothing own.1 faults (own.2 · ·) moved
    exact ⟨nothing', ⟨empty', own.2.move moved⟩, others⟩
  · intro s calls event s' _ _ nothing others happened
    exact ⟨happens_empty_handed nothing happened, others⟩

/-- A write that gets past its copy stores its terminator out of bounds, whatever the length. -/
theorem faults_of_inside {s : State} {granted : Granted} {process : Process Request Call}
    (inside : ∀ access ∈ processAccesses granted s process, access.Inside) : FaultsInTime s granted process := by
  intro lengths found room
  obtain ⟨request, call⟩ := process
  unfold copying at found
  split at found
  next buf passed buf' length id same =>
    cases same
    cases found
    have notFull : ¬ s.dev.messagesNumber ≥ s.maxStorageSize := UInt32.not_le.mpr room
    simp only [processAccesses, WritePc.accesses, if_neg notFull] at inside
    split at inside
    next short =>
      exact ⟨short, inside (.fetch passed granted.accessible) (by simp)⟩
    next whole =>
      exact absurd (inside (.store length length) (by simp)) (Nat.lt_irrefl length)
  · cases found

theorem inside_of_faults {s : State} {granted : Granted} {process : Process Request Call}
    (empty : process.state.emptyHanded) (faults : FaultsInTime s granted process) :
    ∀ access ∈ processAccesses granted s process, access.Inside := by
  obtain ⟨request, call⟩ := process
  intro access member
  unfold processAccesses at member
  split at member
  next buf passed pc same =>
    cases same
    unfold WritePc.accesses at member
    split at member
    next length id =>
      split at member
      · cases member
      next room =>
        obtain ⟨short, fetched⟩ := faults _ rfl (UInt32.not_le.mp room)
        rw [if_pos short] at member
        rcases List.mem_append.mp member with stored | read
        · obtain ⟨index, below, rfl⟩ := List.mem_map.mp stored
          exact List.mem_range.mp below
        · rw [List.mem_singleton.mp read]
          exact fetched
    · exact empty.elim
    · cases member
  next msg _ _ same =>
    cases same
    exact empty.elim
  · cases member

/-- In every run each step stays inside the message's buffer and the caller's exactly
when no write gets past its copy, and none reads too much before that fails. -/
theorem buffers_inside_iff {trace : List (DeviceConfig × BufferedAct)}
    (ran : Runs buffered (installed maxMessageSize maxStorageSize conversion delayWq) trace config) :
    (∀ point ∈ trace, ∀ access ∈ accesses point.1 point.2, access.Inside) ↔ ∀ point ∈ trace, WritesFault point.1 point.2 := by
  constructor
  · rintro inside ⟨before, act⟩ member
    cases act with
    | move call granted =>
      intro process found
      refine faults_of_inside fun access accessed => inside _ member access ?_
      simp only [accesses, Option.mem_def.mp found, Option.elim_some]
      exact accessed
    | enter request | environment event => trivial
  · intro faults
    induction ran with
    | start => simp
    | @step trace before act after ran taken ih =>
      have earlier := fun point member => faults point (List.mem_append_left _ member)
      have last := faults (before, act) (List.mem_append_right _ (List.mem_singleton_self _))
      obtain ⟨nothing, empty⟩ := nothing_stored ⟨trace, ran, earlier⟩
      intro point member
      rcases List.mem_append.mp member with member | member
      · exact ih earlier point member
      · rw [List.mem_singleton.mp member]
        intro access accessed
        cases act with
        | move call granted =>
          simp only [accesses] at accessed
          cases found : before.calls[call]? with
          | none =>
            rw [found] at accessed
            cases accessed
          | some process =>
            rw [found] at accessed
            exact inside_of_faults (empty process (List.mem_of_getElem? found)).1 (last process found) access accessed
        | enter request => cases accessed
        | environment event =>
          cases event with
          | worker =>
            simp only [accesses, workAccesses] at accessed
            split at accessed
            next work msg running => exact absurd running (nothing.printing work msg)
            · cases accessed
          | _ => cases accessed

/-! The caller's bytes. The limit is read twice, and what the write asks for is the second. -/

def NeverRaised (config : DeviceConfig) : BufferedAct → Prop
  | .environment (.maxMessageSize value) => value ≤ config.shared.maxMessageSize
  | .enter _ | .move _ _ | .environment _ => True

/-- What is left of the length that was passed. -/
def Shortens (s : State) : Process Request Call → Prop
  | ⟨.write _ passed, .write pc⟩ =>
    match pc with
    | .entry _ length | .allocData _ length | .allocMsg _ length _ | .critical _ length _ => length ≤ passed
    | .clamp _ => s.maxMessageSize.toNat ≤ passed
    | _ => True
  | _ => True

theorem Shortens.lower {s s' : State} {process : Process Request Call} (shortens : Shortens s process)
    (lower : s'.maxMessageSize ≤ s.maxMessageSize) : Shortens s' process := by
  obtain ⟨request, call⟩ := process
  unfold Shortens at shortens ⊢
  split
  next buf passed pc same =>
    cases same
    cases pc with
    | clamp buf => exact Nat.le_trans (UInt32.le_iff_toNat_le.mp lower) shortens
    | _ => exact shortens
  · trivial

theorem Shortens.step {s s' : State} {granted : Granted} {request : Request} {call call' : Call}
    (shortens : Shortens s ⟨request, call⟩) (step : MoveStep (granted.outcome call) s call s' call') :
    s'.maxMessageSize = s.maxMessageSize ∧ Shortens s' ⟨request, call'⟩ := by
  cases step with
  | write step =>
    cases request with
    | write buf passed =>
      cases step with
      | oversize positive large => exact ⟨rfl, Nat.le_of_lt (Nat.lt_of_lt_of_le large shortens)⟩
      | fits positive inside | allocData allocated | allocMsg allocated | clamp => exact ⟨rfl, shortens⟩
      | _ => exact ⟨rfl, trivial⟩
    | read length | setSendDelay arg | revokeDelayedMessages => cases step <;> exact ⟨rfl, trivial⟩
  | read step => cases request <;> cases step <;> exact ⟨rfl, trivial⟩
  | setSendDelay step => cases request <;> cases step <;> exact ⟨rfl, trivial⟩
  | revoke step => cases request <;> cases step <;> exact ⟨rfl, trivial⟩

/-- A write asks for more than it was passed only if the limit is raised. -/
theorem copies_what_was_passed
    (reached : Reaches buffered NeverRaised (installed maxMessageSize maxStorageSize conversion delayWq) config) :
    ∀ process ∈ config.calls, ∀ lengths ∈ copying process, lengths.2 ≤ lengths.1 := by
  have shortens : ∀ process ∈ config.calls, Shortens config.shared process := by
    refine (reached.outline (fun _ => (0 : Nat)) (fun _ _ => True) Shortens ⟨trivial, by simp [installed]⟩ ?_ ?_ ?_).2
    · intro s request
      refine ⟨rfl, ?_⟩
      cases request with
      | write buf length => exact Nat.le_refl length
      | read length | setSendDelay arg | revokeDelayedMessages => trivial
    · intro s left right request call granted s' call' _ _ _ own others moved
      obtain ⟨same, own'⟩ := own.step (move_cases moved)
      exact ⟨trivial, own', fun process member => (others process member).lower (UInt32.le_of_eq same)⟩
    · intro s calls event s' _ permitted _ own happened
      refine ⟨trivial, fun process member => (own process member).lower ?_⟩
      cases environment_cases happened with
      | maxMessageSize => exact permitted
      | worker step => cases step <;> exact UInt32.le_refl _
      | _ => exact UInt32.le_refl _
  intro process member lengths found
  have own := shortens process member
  obtain ⟨request, call⟩ := process
  unfold copying at found
  split at found
  next same =>
    cases same
    cases found
    exact own
  · cases found

end Runs

def proceedWith (call accessible : Nat) : BufferedAct := .move call ⟨true, accessible⟩

/-- A write of 40 bytes, of which the caller has 10. -/
def faultedRun : List BufferedAct := .enter (.write letters 40) :: List.replicate 7 (proceedWith 0 10)

theorem buffers_inside_iff_faultedRun : ∃ trace last, record buffered sampleDevice faultedRun = some (trace, last) ∧
    last.shared.freed = [.message 0, .data 0] ∧ ∀ point ∈ trace, ∀ access ∈ accesses point.1 point.2, access.Inside := by
  have enabled : (record buffered sampleDevice faultedRun).isSome := by decide
  refine ⟨_, _, (Option.some_get enabled).symm, rfl, ?_⟩
  exact (buffers_inside_iff (runs_get enabled)).mpr (by decide +revert)

/-- A write of three bytes. -/
def writtenRun : List BufferedAct := .enter (.write letters 3) :: List.replicate 4 (proceedWith 0 3)

theorem terminator_outside :
    ¬ ∀ trace config, Runs buffered sampleDevice trace config →
      ∀ point ∈ trace, ∀ access ∈ accesses point.1 point.2, access.Inside := by
  intro inside
  have enabled : (record buffered sampleDevice writtenRun).isSome := by decide
  have wrong : ¬ ∀ point ∈ ((record buffered sampleDevice writtenRun).get enabled).1,
    ∀ access ∈ accesses point.1 point.2, access.Inside := by decide +revert
  exact wrong (inside _ _ (runs_get enabled))

end Tsm
