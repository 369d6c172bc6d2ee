import Tsm.Lib.Backwards
import Tsm.Lib.Budget
import Tsm.Proofs.Deadlock
import Tsm.Proofs.Lifetime
import Tsm.Proofs.Traversal

/-! Every call on a device returns. A call goes through loops whose length others can
change: they lengthen a traversal by inserting messages or works ahead of it, of which
there are only so many to come. -/

namespace Tsm
open Interleaving KernelList Faults

/-- The steps that a traversal of the messages, from the node it stands on, still takes. -/
def walkSteps (messages : List Message) : Option Message → Nat
  | none => 2
  | some pos => 3 + ahead pos messages

/-- The steps that a flush, from the work it goes on with, still takes. -/
def flushSteps (works : List Nat) : Option Nat → Nat
  | none => 4
  | some pos => 8 + 4 * ahead pos works

/-- The steps of a write, with those that its message and its work give to `calls` others. -/
def WritePc.steps (s : State) (calls : Nat) : WritePc → Nat
  | .entry _ _ => s.dev.messageList.length + 5 * calls + 22
  | .clamp _ => s.dev.messageList.length + 5 * calls + 21
  | .allocData _ _ => s.dev.messageList.length + 5 * calls + 20
  | .allocMsg _ _ _ => s.dev.messageList.length + 5 * calls + 19
  | .critical _ _ _ => s.dev.messageList.length + 5 * calls + 18
  | .pend _ => 5 * calls + 17
  | .addDelayedWork _ => 4 * calls + 15
  | .downWq _ _ => 4 * calls + 14
  | .queueWork _ _ => 4 * calls + 13
  | .listAdd _ _ => 4 * calls + 4
  | .upWq _ => 2
  | .listPrint _ => s.dev.messageList.length + 3
  | .traverse _ pos => walkSteps s.dev.messageList pos
  | .print _ => 1
  | .msgFail _ _ => 2
  | .dataFail _ _ => 1
  | .done _ _ => 0

def ReadPc.steps : ReadPc → Nat
  | .entry _ => 5
  | .copyToUser _ _ => 4
  | .print _ _ _ => 3
  | .freeData _ _ _ => 2
  | .freeMsg _ _ _ => 1
  | .done _ _ _ => 0

def FlushPc.steps (s : State) : FlushPc → Nat
  | .splice => 4 * s.dev.delayList.length + 8
  | .checkWq => 4 * s.dev.delayList.length + 7
  | .downWq => 4 * s.dev.delayList.length + 6
  | .setFlushing => 4 * s.dev.delayList.length + 5
  | .testEmpty => 4 * s.dev.delayList.length + 4
  | .visit _ q => flushSteps s.dev.delayList q + 3
  | .flush _ q => flushSteps s.dev.delayList q + 2
  | .wait _ q => flushSteps s.dev.delayList q + 1
  | .next q => flushSteps s.dev.delayList q
  | .drain => 3
  | .clearFlushing => 2
  | .upWq => 1
  | .done _ => 0

def DelayPc.steps : DelayPc → Nat
  | .entry _ => 1
  | .done _ => 0

def Call.steps (s : State) (calls : Nat) : Call → Nat
  | .write pc => pc.steps s calls
  | .read pc => pc.steps
  | .setSendDelay pc => pc.steps
  | .revoke pc => pc.steps s

def workSteps : Option (Work × WorkPc) → Nat
  | none => 0
  | some (_, .pop) => 6
  | some (_, .insert _) => 5
  | some (_, .print _) => 4
  | some (_, .testFlag) => 3
  | some (_, .listDel) => 2
  | some (_, .free) => 1

/-- The steps of the works, with those that the messages they insert give to `calls` others. -/
def State.steps (s : State) (calls : Nat) : Nat :=
  8 * s.wq.timers.length + 7 * s.wq.queue.length + workSteps s.wq.running +
    (s.dev.pendingList.length + s.wq.carried.length) * (calls + 1)

/-- What happens without a call and brings a work forward. -/
def Event.advances : Event → Bool
  | .expire _ | .worker => true
  | .tick | .maxMessageSize _ | .maxStorageSize _ => false

/-- How far one step lengthens what the others go through. -/
structure Lengthens (s s' : State) (messages works : Nat) : Prop where
  longer : s'.dev.messageList.length ≤ s.dev.messageList.length + messages
  later : s'.dev.delayList.length ≤ s.dev.delayList.length + works
  walk : ∀ pos, pos ∉ s.dev.pendingList → ahead pos s'.dev.messageList ≤ ahead pos s.dev.messageList + messages
  flushes : ∀ pos, ahead pos s'.dev.delayList ≤ ahead pos s.dev.delayList + works

section Steps
variable {s s' : State} {calls messages works : Nat}

theorem Lengthens.of_same (messages : s'.dev.messageList = s.dev.messageList)
    (works : s'.dev.delayList = s.dev.delayList) : Lengthens s s' 0 0 := by
  constructor
  · rw [messages, Nat.add_zero]
  · rw [works, Nat.add_zero]
  · intro pos _
    rw [messages, Nat.add_zero]
  · intro pos
    rw [works, Nat.add_zero]

theorem Lengthens.insert {msg : Message} (inserted : s'.dev.messageList = listAdd msg s.dev.messageList)
    (works : s'.dev.delayList = s.dev.delayList) : Lengthens s s' 1 0 := by
  constructor
  · rw [inserted, listAdd, List.length_cons]
  · rw [works, Nat.add_zero]
  · intro pos _
    rw [inserted]
    exact ahead_listAdd
  · intro pos
    rw [works, Nat.add_zero]

theorem Lengthens.unlink {work : Nat} (distinct : s.dev.delayList.Nodup)
    (messages : s'.dev.messageList = s.dev.messageList) (unlinked : s'.dev.delayList = listDel work s.dev.delayList) :
    Lengthens s s' 0 0 := by
  constructor
  · rw [messages, Nat.add_zero]
  · rw [unlinked]
    exact List.length_erase_le
  · intro pos _
    rw [messages, Nat.add_zero]
  · intro pos
    rw [unlinked]
    exact ahead_listDel distinct

/-- Another call has to go through what a step added to its lists, and no more. -/
theorem Lengthens.steps (lengthens : Lengthens s s' messages works) {call : Call}
    (passed : ∀ pos ∈ call.cursor, pos ∉ s.dev.pendingList) :
    call.steps s' calls ≤ call.steps s calls + (messages + 4 * works) := by
  obtain ⟨longer, later, walk, flushes⟩ := lengthens
  have cursor : ∀ q, flushSteps s'.dev.delayList q ≤ flushSteps s.dev.delayList q + 4 * works := by
    intro q
    cases q with
    | none => exact Nat.le_add_right _ _
    | some pos =>
      have further := flushes pos
      simp only [flushSteps]
      omega
  rcases call with pc | pc | pc | pc
  · cases pc with
    | traverse msg pos =>
      cases pos with
      | none => exact Nat.le_add_right _ _
      | some pos =>
        have further := walk pos (passed pos rfl)
        simp only [Call.steps, WritePc.steps, walkSteps]
        omega
    | _ =>
      simp only [Call.steps, WritePc.steps]
      omega
  · exact Nat.le_add_right _ _
  · exact Nat.le_add_right _ _
  · cases pc with
    | visit pos q | flush pos q | wait pos q | next q =>
      have further := cursor q
      simp only [Call.steps, FlushPc.steps]
      omega
    | _ =>
      simp only [Call.steps, FlushPc.steps]
      omega

/-- A step pays for itself and for what it adds to the way of `calls` others. -/
def Pays (calls : Nat) (s : State) (own : Nat) (s' : State) (own' : Nat) : Prop :=
  ∃ messages works, Lengthens s s' messages works ∧
    own' + s'.steps calls + (messages + 4 * works) * calls < own + s.steps calls

theorem Pays.of_same {own own' : Nat} (messages : s'.dev.messageList = s.dev.messageList)
    (works : s'.dev.delayList = s.dev.delayList) (pending : s'.dev.pendingList = s.dev.pendingList) (wq : s'.wq = s.wq)
    (less : own' < own) : Pays calls s own s' own' := by
  refine ⟨0, 0, .of_same messages works, ?_⟩
  rw [State.steps, State.steps, pending, wq]
  omega

theorem steps_queueDelayedWork (wq : Workqueue) (id now delay : Nat) :
    8 * (wq.queueDelayedWork id now delay).timers.length + 7 * (wq.queueDelayedWork id now delay).queue.length ≤
      8 * wq.timers.length + 7 * wq.queue.length + 8 := by
  unfold Workqueue.queueDelayedWork
  split
  · simp only [List.length_append, List.length_singleton]
    omega
  · simp only [List.length_cons]
    omega

theorem steps_expire {wq : Workqueue} {work : Work} (armed : work ∈ wq.timers) :
    8 * (wq.expire work).timers.length + 7 * (wq.expire work).queue.length <
      8 * wq.timers.length + 7 * wq.queue.length := by
  have positive := List.length_pos_of_mem armed
  simp only [Workqueue.expire, List.length_erase_of_mem armed, List.length_append, List.length_singleton]
  omega

theorem steps_flushDelayedWork (wq : Workqueue) (id : Nat) :
    8 * (wq.flushDelayedWork id).timers.length + 7 * (wq.flushDelayedWork id).queue.length ≤
      8 * wq.timers.length + 7 * wq.queue.length := by
  unfold Workqueue.flushDelayedWork
  split
  · exact Nat.le_refl _
  next work found => exact Nat.le_of_lt (steps_expire (List.mem_of_find?_eq_some found))

theorem write_pays {outcome pc pc'} (distinct : s.dev.messageList.Nodup) (step : WriteStep outcome s pc s' pc') :
    Pays calls s (pc.steps s calls) s' (pc'.steps s' calls) := by
  cases step with
  | @immediate buf length id room copied noDelay =>
    refine ⟨1, 0, .insert rfl rfl, ?_⟩
    simp only [WritePc.steps, State.steps, Workqueue.carried, listAdd, List.length_cons]
    omega
  | @pend msg =>
    refine ⟨0, 0, .of_same rfl rfl, ?_⟩
    simp only [WritePc.steps, State.steps, Workqueue.carried, listAdd, List.length_cons, Nat.add_right_comm _ 1,
      Nat.succ_mul]
    omega
  | @queueWork msg work =>
    refine ⟨0, 0, .of_same rfl rfl, ?_⟩
    have queued := steps_queueDelayedWork s.wq work s.jiffies s.dev.delay
    simp only [WritePc.steps, State.steps, Workqueue.carried, Workqueue.running_queueDelayedWork]
    omega
  | @listAdd msg work =>
    refine ⟨0, 1, ⟨Nat.le_refl _, Nat.le_refl _, fun _ _ => Nat.le_refl _, fun _ => ahead_listAdd⟩, ?_⟩
    simp only [WritePc.steps, State.steps, Workqueue.carried]
    omega
  | @listPrint msg =>
    refine .of_same rfl rfl rfl rfl ?_
    cases last : s.dev.messageList.getLast? with
    | none =>
      simp only [WritePc.steps, walkSteps]
      omega
    | some pos =>
      have inside := ahead_lt (List.mem_of_getLast? last)
      simp only [WritePc.steps, walkSteps]
      omega
  | @follow msg pos =>
    refine .of_same rfl rfl rfl rfl ?_
    cases found : listPrev pos s.dev.messageList with
    | none =>
      simp only [WritePc.steps, walkSteps]
      omega
    | some previous =>
      have closer := ahead_prev distinct found
      simp only [WritePc.steps, walkSteps]
      omega
  | _ =>
    refine .of_same rfl rfl rfl rfl ?_
    simp only [WritePc.steps, walkSteps]
    omega

theorem read_pays {outcome pc pc'} (step : ReadStep outcome s pc s' pc') :
    Pays calls s pc.steps s' pc'.steps := by
  cases step with
  | @remove length msg rest last =>
    refine ⟨0, 0, ⟨?_, Nat.le_refl _, fun pos _ => ?_, fun _ => Nat.le_refl _⟩, ?_⟩
    · simp [last]
    · rw [last]
      exact ahead_takeLast rest msg
    · simp only [ReadPc.steps, State.steps, Workqueue.carried]
      omega
  | _ =>
    refine .of_same rfl rfl rfl rfl ?_
    simp only [ReadPc.steps]
    omega

theorem flushes_prev (distinct : s.dev.delayList.Nodup) (pos : Nat) :
    flushSteps s.dev.delayList (listPrev pos s.dev.delayList) + 4 ≤ 8 + 4 * ahead pos s.dev.delayList := by
  cases found : listPrev pos s.dev.delayList with
  | none => exact Nat.le_add_right 8 _
  | some previous =>
    have closer := ahead_prev distinct found
    simp only [flushSteps]
    omega

theorem flush_pays {pc pc'} (distinct : s.dev.delayList.Nodup) (step : FlushStep s pc s' pc') :
    Pays calls s (pc.steps s) s' (pc'.steps s') := by
  cases step with
  | splice =>
    refine ⟨s.dev.pendingList.length, 0, ⟨?_, Nat.le_refl _, fun pos apart => ?_, fun _ => Nat.le_refl _⟩, ?_⟩
    · simp [listSpliceTail]
    · rw [ahead_listSpliceTail apart]
      exact Nat.le_add_right _ _
    · simp only [FlushPc.steps, State.steps, Workqueue.carried, List.length_nil, Nat.add_mul, Nat.mul_add]
      omega
  | @first pos last =>
    refine .of_same rfl rfl rfl rfl ?_
    have inside := ahead_lt (List.mem_of_getLast? last)
    have next := flushes_prev distinct pos
    simp only [FlushPc.steps]
    omega
  | @visit pos q =>
    refine ⟨0, 0, .unlink distinct rfl rfl, ?_⟩
    have shorter : flushSteps (listDel pos s.dev.delayList) q ≤ flushSteps s.dev.delayList q := by
      cases q with
      | none => exact Nat.le_refl _
      | some next =>
        have less : ahead next (listDel pos s.dev.delayList) ≤ ahead next s.dev.delayList := ahead_listDel distinct
        simp only [flushSteps]
        omega
    simp only [FlushPc.steps, State.steps, Workqueue.carried]
    omega
  | @flush pos q =>
    refine ⟨0, 0, .of_same rfl rfl, ?_⟩
    have flushed := steps_flushDelayedWork s.wq pos
    simp only [FlushPc.steps, State.steps, flushSteps, Workqueue.carried, Workqueue.running_flushDelayedWork]
    omega
  | @next pos =>
    refine .of_same rfl rfl rfl rfl ?_
    have closer := flushes_prev distinct pos
    simp only [FlushPc.steps, flushSteps] at closer ⊢
    omega
  | _ =>
    refine .of_same rfl rfl rfl rfl ?_
    simp only [FlushPc.steps, flushSteps]
    omega

theorem worker_pays (distinct : s.dev.delayList.Nodup) (step : WorkerStep s s') : Pays calls s 0 s' 0 := by
  cases step with
  | @start work rest idle queued =>
    refine ⟨0, 0, .of_same rfl rfl, ?_⟩
    simp only [State.steps, Workqueue.carried, idle, queued, workSteps, carriedBy, List.length_cons]
    omega
  | @pop work msg rest running last =>
    refine ⟨0, 0, .of_same rfl rfl, ?_⟩
    simp only [State.steps, Workqueue.carried, running, last, workSteps, carriedBy, List.length_append,
      List.length_singleton, List.length_nil, Nat.add_zero]
    omega
  | @insert work msg running =>
    refine ⟨1, 0, .insert rfl rfl, ?_⟩
    simp only [State.steps, Workqueue.carried, running, workSteps, carriedBy, List.length_singleton, List.length_nil,
      Nat.add_mul]
    omega
  | @listDel work running =>
    refine ⟨0, 0, .unlink distinct rfl rfl, ?_⟩
    simp only [State.steps, Workqueue.carried, running, workSteps, carriedBy]
    omega
  | popEmpty running empty | print running | flushing running flag | notFlushing running flag | free running =>
    refine ⟨0, 0, .of_same rfl rfl, ?_⟩
    simp only [State.steps, Workqueue.carried, running, workSteps, carriedBy]
    omega

theorem move_pays {outcome call call'} (messages : s.dev.messageList.Nodup) (works : s.dev.delayList.Nodup)
    (step : MoveStep outcome s call s' call') : Pays calls s (call.steps s calls) s' (call'.steps s' calls) := by
  cases step with
  | write step => exact write_pays messages step
  | read step => exact read_pays step
  | setSendDelay step => cases step <;> exact .of_same rfl rfl rfl rfl Nat.zero_lt_one
  | revoke step => exact flush_pays works step

theorem event_pays {event} (distinct : s.dev.delayList.Nodup) (step : EventStep s event s')
    (advances : event.advances = true) : Pays calls s 0 s' 0 := by
  cases step with
  | expire armed expired =>
    refine ⟨0, 0, .of_same rfl rfl, ?_⟩
    have closer := steps_expire armed
    simp only [State.steps, Workqueue.carried, Workqueue.running_expire]
    omega
  | worker step => exact worker_pays distinct step
  | _ => cases advances

end Steps

section Runs
variable {maxMessageSize maxStorageSize : UInt32} {msecsToJiffies : UInt32 → Nat} {delayWq : Bool}
  {allowed : DeviceConfig → DeviceAct → Prop} {config : DeviceConfig}

/-- A traversal stands on a message that was published. -/
theorem cursor_delivered
    (reached : Reaches device allowed (installed maxMessageSize maxStorageSize msecsToJiffies delayWq) config) :
    ∀ process ∈ config.calls, ∀ pos ∈ process.state.cursor,
      pos ∈ (view config).published ∨ pos ∈ (view config).removed := by
  refine reached.induct (by simp [installed]) ?_
  intro before act after earlier delivered _ taken process member pos cursor
  obtain ⟨label, stepped, -⟩ := step_refines (device_balanced earlier) taken
  suffices (∃ other ∈ before.calls, pos ∈ other.state.cursor) ∨ pos ∈ after.shared.dev.messageList by
    rcases this with ⟨other, present, same⟩ | published
    · exact stepped.keeps_delivered (delivered other present pos same)
    · exact .inl published
  cases taken with
  | @enter s calls request =>
    rcases List.mem_append.mp member with old | new
    · exact .inl ⟨process, old, cursor⟩
    · rw [List.mem_singleton.mp new] at cursor
      cases request <;> cases cursor
  | @move s left right request call outcome s' call' moved =>
    rcases List.mem_append.mp member with other | member
    · exact .inl ⟨process, List.mem_append_left _ other, cursor⟩
    · rcases List.mem_cons.mp member with rfl | other
      · cases move_cases moved with
        | write step => exact .inr (write_cursor step cursor)
        | _ => cases cursor
      · exact .inl ⟨process, List.mem_append_right _ (List.mem_cons_of_mem _ other), cursor⟩
  | environment happened => exact .inl ⟨process, member, cursor⟩

/-- So it does not stand on one that waits. -/
theorem cursor_not_pending
    (reached : Reaches device allowed (installed maxMessageSize maxStorageSize msecsToJiffies delayWq) config) :
    ∀ process ∈ config.calls, ∀ pos ∈ process.state.cursor, pos ∉ config.shared.dev.pendingList := by
  intro process member pos cursor pending
  have once := one_place reached pos
  have waits := List.count_pos_iff.mpr pending
  rcases cursor_delivered reached process member pos cursor with published | removed
  · have there := List.count_pos_iff.mpr published
    simp only [places, view, viewOf] at once there
    split at once <;> omega
  · have there := Multiset.count_pos.mpr removed
    simp only [places, view, viewOf] at once there
    split at once <;> omega

theorem messageList_nodup
    (reached : Reaches device allowed (installed maxMessageSize maxStorageSize msecsToJiffies delayWq) config) :
    config.shared.dev.messageList.Nodup := by
  apply List.nodup_iff_count_le_one.mpr
  intro msg
  have once := one_place reached msg
  simp only [places] at once
  split at once <;> omega

end Runs

def deviceSteps (config : DeviceConfig) : Nat :=
  total (Call.steps config.shared config.calls.length) config.calls + config.shared.steps config.calls.length

/-- What a step does not pay for itself the others do not pay either. -/
theorem others_steps_le {s s' : State} {calls messages works : Nat} {others : List (Process Request Call)}
    (lengthens : Lengthens s s' messages works) (fewer : others.length ≤ calls)
    (passed : ∀ process ∈ others, ∀ pos ∈ process.state.cursor, pos ∉ s.dev.pendingList) :
    total (Call.steps s' calls) others ≤ total (Call.steps s calls) others + (messages + 4 * works) * calls := by
  have longer : total (Call.steps s' calls) others ≤
      total (Call.steps s calls) others + (messages + 4 * works) * others.length :=
    total_le_add fun process member => lengthens.steps (passed process member)
  exact Nat.le_trans longer (Nat.add_le_add_left (Nat.mul_le_mul_left _ fewer) _)

section Budget
variable (allowed : DeviceConfig → DeviceAct → Prop) (maxMessageSize maxStorageSize : UInt32)
  (msecsToJiffies : UInt32 → Nat) (delayWq : Bool)

def deviceBudget : Budget device allowed Event.advances fun config =>
    Reaches device allowed (installed maxMessageSize maxStorageSize msecsToJiffies delayWq) config where
  left := deviceSteps
  keeps reached closed taken := reached.step closed.1 taken.enabled
  spends := by
    intro before act after reached _ taken counts
    have passed := cursor_not_pending reached
    have messages := messageList_nodup reached
    have works := (device_listed reached).nodup
    cases taken with
    | enter request => cases counts
    | @move s left right request call outcome s' call' moved =>
      have size : ∀ moving, (left ++ (⟨request, moving⟩ : Process Request Call) :: right).length =
          (left ++ right).length + 1 := fun _ => by simp [Nat.add_assoc]
      obtain ⟨calls, counted⟩ : ∃ calls, (left ++ right).length + 1 = calls := ⟨_, rfl⟩
      have own : Pays calls s (call.steps s calls) s' (call'.steps s' calls) :=
        move_pays messages works (move_cases moved)
      obtain ⟨more, later, lengthens, pays⟩ := own
      have others := others_steps_le lengthens (Nat.le_of_lt (Nat.lt_of_succ_le (Nat.le_of_eq counted)))
        fun process member => passed process (mem_of_mem_others member)
      simp only [deviceSteps, size, total_middle, counted]
      omega
    | @environment s calls event s' happened =>
      have own : Pays calls.length s 0 s' 0 := event_pays works (environment_cases happened) counts
      obtain ⟨more, later, lengthens, pays⟩ := own
      have others := others_steps_le lengthens (Nat.le_refl calls.length) passed
      simp only [deviceSteps]
      omega
  idles := by
    intro before event after _ taken idle
    cases taken with
    | @environment s calls event s' happened =>
      cases environment_cases happened with
      | tick | maxMessageSize | maxStorageSize => exact Nat.le_refl _
      | expire | worker => cases idle

end Budget

/-- Every call has returned, and every work that is due has been executed. -/
def AllReturned (config : DeviceConfig) : Prop :=
  (∀ process ∈ config.calls, process.state.Returned) ∧ config.shared.wq.Drained ∧
    ∀ work ∈ config.shared.wq.timers, config.shared.jiffies < work.expires

section Rest
variable {allowed : DeviceConfig → DeviceAct → Prop} {maxMessageSize maxStorageSize : UInt32} {msecsToJiffies : UInt32 → Nat} {delayWq : Bool}
  {config : DeviceConfig}

theorem drained_of_rest (rests : Rests device Anything Event.advances config) : config.shared.wq.Drained := by
  by_contra busy
  have enabled := worker_isSome busy
  rw [rests.stopped (show Event.advances .worker = true from rfl) trivial] at enabled
  cases enabled

theorem all_returned
    (reached : Reaches device allowed (installed maxMessageSize maxStorageSize msecsToJiffies delayWq) config)
    (rests : Rests device Anything Event.advances config) : AllReturned config := by
  have drained := drained_of_rest rests
  have blocked := fun process (member : process ∈ config.calls) => blocked_cases fun outcome => rests.blocked member fun _ _ => trivial
  -- whoever is inside a section under `wq_sem` could go on
  have up : config.shared.dev.wqSem ≠ 0 := by
    intro down
    have one := device_excludes reached
    obtain ⟨holder, member, inside⟩ := total_pos.mp (show 0 < total Call.inside config.calls by omega)
    rcases blocked holder member with returned | ⟨-, outside, -⟩ | ⟨-, busy⟩
    · exact absurd (returned_holds_nothing returned).2 (Nat.ne_of_gt inside)
    · exact absurd outside (Nat.ne_of_gt inside)
    · exact busy drained
  refine ⟨fun process member => ?_, drained, fun work armed => ?_⟩
  · rcases blocked process member with returned | ⟨-, -, down⟩ | ⟨-, busy⟩
    · exact returned
    · exact absurd down up
    · exact absurd drained busy
  · by_contra past
    have enabled : (device.environment (.expire work) config.shared).isSome := by
      simp [device, environment, armed, Nat.le_of_not_lt past]
    rw [rests.stopped (show Event.advances (.expire work) = true from rfl) trivial] at enabled
    cases enabled

end Rest

/-- A step can be taken, but none that meets the condition. -/
def Endangered (ksize : Nat → Nat) (config : MortalConfig) : Prop :=
  ∃ act, counted Event.advances act = true ∧ (step (mortalDevice ksize) config act).isSome ∧
    ¬ Sound ksize (spared config) act

/-- Nobody was killed, and unless only steps remain that do not meet the condition
everything is done. -/
def InOrder (ksize : Nat → Nat) (config : MortalConfig) : Prop :=
  Unharmed config ∧ (AllReturned (spared config) ∨ Endangered ksize config)

section Settles
variable {ksize : Nat → Nat} {maxMessageSize maxStorageSize : UInt32} {msecsToJiffies : UInt32 → Nat} {delayWq : Bool}
  {config : MortalConfig}

theorem device_unharmed
    (reached : Reaches (mortalDevice ksize) (Spared (Sound ksize))
      (installedMortal maxMessageSize maxStorageSize msecsToJiffies delayWq) config) :
    Unharmed config ∧ Reaches device (Sound ksize)
      (installed maxMessageSize maxStorageSize msecsToJiffies delayWq) (spared config) := by
  have everybody : Unharmed (installedMortal maxMessageSize maxStorageSize msecsToJiffies delayWq) :=
    ⟨rfl, by simp [installedMortal]⟩
  exact unharmed_of_avoids reached everybody sound_avoids

/-- What can go on in the device can go on in the device with faults. -/
theorem in_order (unharmed : Unharmed config)
    (reached : Reaches device (Sound ksize) (installed maxMessageSize maxStorageSize msecsToJiffies delayWq) (spared config))
    (rests : Rests (mortalDevice ksize) (Spared (Sound ksize)) Event.advances config) : InOrder ksize config := by
  refine ⟨unharmed, ?_⟩
  by_cases quiet : Rests device Anything Event.advances (spared config)
  · exact .inl (all_returned reached quiet)
  · simp only [Rests, not_forall] at quiet
    obtain ⟨act, counts, _, goes⟩ := quiet
    have enabled : (step (mortalDevice ksize) config act).isSome :=
      enabled_of_spared unharmed (Option.isSome_iff_ne_none.mpr goes)
    refine .inr ⟨act, counts, enabled, fun sound => ?_⟩
    rw [rests act counts sound] at enabled
    cases enabled

end Settles

def sampleMortal : MortalConfig := installedMortal 32 64 UInt32.toNat true

/-- A delayed write holds `wq_sem`, and a REVOKE and an immediate write are waiting. -/
def contendedRun : List DeviceAct :=
  [.enter (.setSendDelay 1), proceed 0, .enter (.write letters 3)] ++ steps 1 7 ++
    [.enter .revokeDelayedMessages] ++ steps 2 2 ++ [.enter (.setSendDelay 0), proceed 3, .enter (.write letters 2)]

end Tsm
