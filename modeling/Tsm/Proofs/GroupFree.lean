import Tsm.Device.GroupFree
import Tsm.Lib.Sequential
import Tsm.Proofs.Deadlock
import Tsm.Proofs.ManagerAlive
import Tsm.Proofs.Revoke

/-! What `group_free` frees of a device that no call uses. The loop over
`message_list` frees the message it stands on, the loop over `pending_list` takes the
head of the list for one, so a device is freed well if that list is empty by then:
it is flushed, unless there is no workqueue to flush. -/

namespace Tsm
open Interleaving KernelList Sequential Allocation

/-- What belongs to the device: the messages with their data, the parts of the
device, and the workqueue if it was created. -/
def State.freeables (s : State) : List Freeable :=
  (s.listed.flatMap Message.objects).map .obj ++ DevicePart.order.map .part ++
    if s.dev.delayWq then [.workqueue] else []

/-- Whatever has been freed, the works and what calls have freed included. -/
def FreeState.gone (s : FreeState) : List Freeable := s.released ++ s.device.freed.map .obj

/-- At least what the next step reads, writes or frees. -/
def FreePc.touches (s : FreeState) : FreePc → List Freeable
  | .testBarrier | .clearBarrier | .wakeUp | .testWq => [.part .groupDev]
  | .flush pc =>
    .workqueue :: DevicePart.order.map .part ++
      ((s.device.dev.pendingList ++ s.device.dev.messageList).flatMap Message.objects ++
        (s.device.dev.delayList ++ (Call.revoke pc).ahead).map Obj.work).map .obj
  | .destroyWq => [.part .groupDev, .workqueue]
  | .kfree part | .warn part => [.part .groupDev, .part part]
  | .testPending | .pendingDel _ =>
    .part .groupDev :: .part .pendingList :: (s.device.dev.pendingList.flatMap Message.objects).map .obj
  | .pendingData _ | .pendingFree _ => [.stray]
  | .messageListPrint | .testMessages | .messageDel _ _ =>
    .part .groupDev :: .part .messageList :: (s.device.dev.messageList.flatMap Message.objects).map .obj
  | .messagePrint pos _ | .messageData pos _ => pos.objects.map .obj
  | .messageFree pos _ => [.obj (.message pos.id)]
  | .pendingNext q | .messageNext q => .part .groupDev :: (q.toList.flatMap Message.objects).map .obj
  | .done | .oops => []

/-- A list is empty when its head is freed. -/
def DevicePart.Emptied (s : State) : DevicePart → Prop
  | .delayList => s.dev.delayList = []
  | .pendingList => s.dev.pendingList = []
  | .messageList => s.dev.messageList = []
  | _ => True

/-- `group_free` at some point, on a device that was `entry` when it began. -/
structure FreesOnce (entry : State) (s : FreeState) (pc : FreePc) : Prop where
  live : ∀ item ∈ pc.touches s, item ∉ s.gone
  once : s.gone.Nodup
  owned : s.released ⊆ entry.freeables
  emptied : ∀ part, pc = .kfree part → part.Emptied s.device
  /-- No work is left that could use what is freed. -/
  quiet : s.released ≠ [] → s.device.wq.works = []
  finished : pc = .done → s.released.Perm entry.freeables
  goesOn : pc = .done ∨ (∀ garbage, (groupFree garbage s pc).isSome) ∨ (worker s.device).isSome

/-- How far the flush is. -/
def FreePc.flushing : FreePc → FlushPc
  | .testBarrier | .clearBarrier | .wakeUp | .testWq => .splice
  | .flush pc => pc
  | _ => .done 0

/-- The device as it is freed: the flush is one more call on it. -/
def asDevice (before : DeviceConfig) (s : FreeState) (pc : FreePc) : DeviceConfig :=
  ⟨s.device, before.calls ++ [⟨.revokeDelayedMessages, .revoke pc.flushing⟩]⟩

/-- Nobody else comes, and the works agree with the flush. -/
def FlushAgrees (before : DeviceConfig) (config : FreeConfig) : FreeAct → Prop
  | .enter _ => False
  | .move _ _ => True
  | .environment event =>
    ∀ process ∈ config.calls, WorksAgree (asDevice before config.shared process.state) (.environment event)

instance (before : DeviceConfig) (config : FreeConfig) : (act : FreeAct) → Decidable (FlushAgrees before config act)
  | .enter _ => isFalse id
  | .move _ _ => isTrue trivial
  | .environment event =>
    inferInstanceAs (Decidable (∀ process ∈ config.calls,
      WorksAgree (asDevice before config.shared process.state) (.environment event)))

/-- Time and the module parameters go on for ever, everything else is work to be done. -/
def advances : FreeAct → Bool
  | .environment .tick | .environment (.maxMessageSize _) | .environment (.maxStorageSize _) => false
  | _ => true

/-- Every run of `group_free` frees everything once, and there is an end to it. -/
def FreesAll (before : DeviceConfig) (barrier : Bool) : Prop :=
  (∀ config, Reaches freeing (FlushAgrees before) (freeEntered before.shared barrier) config →
      ∀ process ∈ config.calls, FreesOnce before.shared config.shared process.state) ∧
    ∃ bound, ∀ trace config, Runs freeing (freeEntered before.shared barrier) trace config →
      (∀ point ∈ trace, FlushAgrees before point.1 point.2) → trace.countP (fun point => advances point.2) ≤ bound

variable {maxMessageSize maxStorageSize : UInt32} {msecsToJiffies : UInt32 → Nat} {delayWq : Bool}

/-! The device until its workqueue is destroyed. -/

/-- Flushes that agree with the works visit linked works only. -/
theorem agree_visitsLinked {config}
    (reached : Reaches device WorksAgree (installed maxMessageSize maxStorageSize msecsToJiffies delayWq) config) :
    Reaches device VisitsLinked (installed maxMessageSize maxStorageSize msecsToJiffies delayWq) config := by
  refine reached.induct .refl ?_
  intro before act after reached linked _ taken
  have asserts := (device_linked reached).2
  refine linked.step ?_ taken.enabled
  cases taken with
  | enter request => exact visitsLinked_enter _ _
  | @move s left right request call outcome s' call' moved =>
    intro moving member pos q visits
    obtain rfl : (call, outcome) = moving := by simpa using member
    have own := asserts ⟨request, call⟩ (by simp)
    rw [show call = .revoke (.visit pos q) from visits] at own
    exact own.1
  | environment happened => exact visitsLinked_environment _ _

theorem idle_of_works {wq : Workqueue} (none : wq.works = []) :
    wq.timers = [] ∧ wq.queue = [] ∧ wq.running = .none := by
  simpa [Workqueue.works, Workqueue.waiting, and_assoc] using none

/-- Where there are no works only time goes on. -/
theorem event_idle {s s' : State} {event} (none : s.wq.works = []) (step : EventStep s event s') :
    s'.dev = s.dev ∧ s'.wq = s.wq ∧ s'.freed = s.freed := by
  obtain ⟨timers, queue, running⟩ := idle_of_works none
  cases step with
  | expire armed expired => simp [timers] at armed
  | worker step =>
    cases step with
    | start idle queued => simp [queue] at queued
    | popEmpty busy empty | pop busy last | insert busy | print busy | flushing busy flag | notFlushing busy flag
    | listDel busy | free busy => simp [running] at busy
  | _ => exact ⟨rfl, rfl, rfl⟩

/-- Without a workqueue no work is ever allocated. -/
theorem works_of_no_workqueue {allowed config}
    (reached : Reaches device allowed (installed maxMessageSize maxStorageSize msecsToJiffies delayWq) config)
    (missing : config.shared.dev.delayWq = false) : config.shared.wq.works = [] := by
  have nothing := (reached.outline unlistedBy
    (fun s unlisted => s.dev.delayWq = false → s.wq.works = [] ∧ unlisted = 0) (fun _ _ => True)
    ⟨fun _ => ⟨rfl, rfl⟩, by simp [installed]⟩ ?_ ?_ ?_).1
  · exact (nothing missing).1
  · intro _ request
    cases request <;> exact ⟨rfl, trivial⟩
  · intro s left right request call outcome s' call' _ _ none _ _ moved
    refine ⟨?_, trivial, fun _ _ => trivial⟩
    cases move_cases moved with
    | write step =>
      cases step with
      | allocWork created allocated => exact fun missing => absurd (created.symm.trans missing) (by simp)
      | queueWork | listAdd => exact fun missing => absurd (none missing).2 (by simp [unlistedBy])
      | _ => exact none
    | read step => cases step <;> exact none
    | setSendDelay step => cases step <;> exact none
    | revoke step =>
      cases step with
      | @flush pos q =>
        intro missing
        refine ⟨List.eq_nil_iff_forall_not_mem.mpr fun work member => ?_, (none missing).2⟩
        have known := mem_works_of_waiting (s.wq.waiting_flushDelayedWork pos).subset
          (s.wq.running_flushDelayedWork pos).symm member
        rw [(none missing).1] at known
        exact List.not_mem_nil known
      | _ => exact none
  · intro s calls event s' _ _ none _ happened
    refine ⟨fun missing => ?_, fun _ _ => trivial⟩
    have stepped : Step device ⟨s, calls⟩ (.environment event) ⟨s', calls⟩ := .environment happened
    have kept : s'.dev.delayWq = s.dev.delayWq := step_keeps_workqueue stepped
    obtain ⟨works, unlisted⟩ := none (kept.symm.trans missing)
    obtain ⟨-, same, -⟩ := event_idle works (environment_cases happened)
    exact ⟨same ▸ works, unlisted⟩

/-- A flush and the works only move messages from one place to another. -/
theorem flush_keeps_listed {s s' : State} {pc pc'} (step : FlushStep s pc s' pc') : s'.listed.Perm s.listed := by
  cases step with
  | splice =>
    apply List.perm_iff_count.mpr
    intro msg
    simp only [State.listed, listSpliceTail, List.nil_append, List.count_append]
    omega
  | flush =>
    simp only [State.listed, Workqueue.carried, Workqueue.running_flushDelayedWork]
    exact .refl _
  | _ => exact .refl _

theorem event_keeps_listed {s s' : State} {event} (step : EventStep s event s') : s'.listed.Perm s.listed := by
  cases step with
  | worker step =>
    cases step with
    | pop running last | insert running =>
      apply List.perm_iff_count.mpr
      intro msg
      simp only [State.listed, Workqueue.carried, carriedBy, listAdd, *, List.count_append, List.count_cons,
        List.count_nil]
      omega
    | start idle queued | popEmpty running empty | print running | flushing running flag
    | notFlushing running flag | listDel running | free running =>
      simp only [State.listed, Workqueue.carried, carriedBy, *]
      exact .refl _
  | _ => exact .refl _

/-- The pending list stays empty once it is, unless somebody writes. -/
theorem event_keeps_spliced {s s' : State} {event} (step : EventStep s event s') (empty : s.dev.pendingList = []) :
    s'.dev.pendingList = [] := by
  cases step with
  | worker step =>
    cases step with
    | pop running last => simp [empty] at last
    | _ => exact empty
  | _ => exact empty

/-! What is left to be freed. -/

/-- The workqueue has not been destroyed. -/
def FreePc.early : FreePc → Bool
  | .testBarrier | .clearBarrier | .wakeUp | .testWq | .flush _ | .destroyWq => true
  | _ => false

def FreePc.parts : FreePc → List DevicePart
  | .kfree part | .warn part => part.onwards
  | .testPending | .pendingDel _ | .pendingData _ | .pendingFree _ | .pendingNext _ => DevicePart.pendingList.onwards
  | .messageListPrint | .testMessages | .messageDel _ _ | .messagePrint _ _ | .messageData _ _ | .messageFree _ _
  | .messageNext _ => DevicePart.messageList.onwards
  | .done | .oops => []
  | _ => DevicePart.order

/-- The message that has been unlinked and not freed. -/
def FreePc.holds : FreePc → List Obj
  | .messagePrint pos _ | .messageData pos _ => pos.objects
  | .messageFree pos _ => [.message pos.id]
  | _ => []

def FreeState.left (s : FreeState) (pc : FreePc) : List Freeable :=
  (s.device.listed.flatMap Message.objects ++ pc.holds).map .obj ++ pc.parts.map .part ++
    if pc.early && s.device.dev.delayWq then [.workqueue] else []

/-- What has been freed and what is left are what belonged to the device. -/
structure Accounts (entry : State) (s : FreeState) (pc : FreePc) : Prop where
  ledger : (s.released ++ s.left pc).Perm entry.freeables
  distinct : entry.freeables.Nodup
  apart : ∀ obj, .obj obj ∈ entry.freeables → obj ∉ s.device.freed
  once : s.device.freed.Nodup

theorem Accounts.gone_nodup {entry : State} {s : FreeState} {pc : FreePc} (accounts : Accounts entry s pc) :
    s.gone.Nodup := by
  have distinct := accounts.ledger.nodup_iff.mpr accounts.distinct
  refine List.nodup_append.mpr ⟨(List.nodup_append.mp distinct).1, ?_, ?_⟩
  · exact accounts.once.map fun _ _ same => Freeable.obj.inj same
  · rintro item released other freed rfl
    obtain ⟨obj, before, rfl⟩ := List.mem_map.mp freed
    exact accounts.apart obj (accounts.ledger.subset (List.mem_append_left _ released)) before

theorem Accounts.live {entry : State} {s : FreeState} {pc : FreePc} (accounts : Accounts entry s pc) {item : Freeable}
    (left : item ∈ s.left pc) : item ∉ s.gone := by
  have distinct := accounts.ledger.nodup_iff.mpr accounts.distinct
  intro gone
  rcases List.mem_append.mp gone with released | freed
  · exact (List.nodup_append.mp distinct).2.2 item released item left rfl
  · obtain ⟨obj, before, rfl⟩ := List.mem_map.mp freed
    exact accounts.apart obj (accounts.ledger.subset (List.mem_append_right _ left)) before

theorem Accounts.of_left {entry : State} {s s' : FreeState} {pc pc' : FreePc} (accounts : Accounts entry s pc)
    (same : (s'.released ++ s'.left pc').Perm (s.released ++ s.left pc)) (freed : s'.device.freed = s.device.freed) :
    Accounts entry s' pc' :=
  ⟨same.trans accounts.ledger, accounts.distinct, fun obj mine => freed ▸ accounts.apart obj mine, freed ▸ accounts.once⟩

theorem Accounts.free {entry : State} {s : FreeState} {pc pc' : FreePc} {item : Freeable} (accounts : Accounts entry s pc)
    (left : (s.left pc).Perm (item :: s.left pc')) : Accounts entry { s with released := s.released ++ [item] } pc' := by
  refine accounts.of_left ?_ rfl
  rw [List.append_assoc]
  exact left.symm.append_left s.released

theorem obj_mem_freeables {s : State} {obj : Obj} :
    .obj obj ∈ s.freeables ↔ ∃ msg ∈ s.listed, obj ∈ msg.objects := by
  unfold State.freeables
  split <;> simp

theorem freeables_nodup {s : State} {owned : Multiset Obj} (known : Owned s owned) : s.freeables.Nodup := by
  have objects : s.objects.Nodup := Multiset.coe_nodup.mp (Multiset.nodup_add.mp known.distinct).2.1
  have messages := (List.nodup_append.mp (List.nodup_append.mp objects).1).1
  have others : (DevicePart.order.map Freeable.part ++ if s.dev.delayWq then [Freeable.workqueue] else []).Nodup := by
    split <;> decide
  rw [State.freeables, List.append_assoc]
  refine List.nodup_append.mpr ⟨messages.map fun _ _ same => Freeable.obj.inj same, others, ?_⟩
  rintro item message other rest rfl
  obtain ⟨obj, -, rfl⟩ := List.mem_map.mp message
  split at rest <;> simp at rest

/-! While the device is emptied. -/

def FreePc.Destroys : FreePc → Prop
  | .flush _ | .destroyWq => True
  | _ => False

/-- Nothing has been freed, and the flush is a flush of the device. -/
structure Intact (start before : DeviceConfig) (s : FreeState) (pc : FreePc) : Prop where
  early : pc.early = true
  reached : Reaches device WorksAgree start (asDevice before s pc)
  listed : s.device.listed.Perm before.shared.listed
  workqueue : s.device.dev.delayWq = before.shared.dev.delayWq
  released : s.released = []
  created : pc.Destroys → before.shared.dev.delayWq = true
  tidy : before.shared.dev.delayWq = true ∨ s.device.dev.pendingList = []
  spliced : pc.flushing ≠ .splice → s.device.dev.pendingList = []
  drained : pc.flushing.Drained → s.device.wq.works = []
  returns : ∀ ret, pc.flushing = .done ret → ret = 0

/-- Where `group_free` stands while it frees, `pending_list` being empty. -/
def FreePc.Placed (messageList : List Message) : FreePc → Prop
  | .kfree part | .warn part => part = .messageList ∨ part = .groupDev → messageList = []
  | .testPending | .messageListPrint | .testMessages => True
  | .messageDel pos q => messageList.getLast? = some pos ∧ q = listPrev pos messageList
  | .messagePrint _ q | .messageData _ q | .messageFree _ q | .messageNext q => q = messageList.getLast?
  | .done => messageList = []
  | _ => False

structure Releasing (entry : State) (s : FreeState) (pc : FreePc) : Prop where
  accounts : Accounts entry s pc
  works : s.device.wq.works = []
  delayList : s.device.dev.delayList = []
  pendingList : s.device.dev.pendingList = []
  placed : pc.Placed s.device.dev.messageList

section Freeing
variable {before : DeviceConfig} {s s' : FreeState} {pc pc' : FreePc} {garbage : Bool}

theorem Intact.accounts
    (intact : Intact (installed maxMessageSize maxStorageSize msecsToJiffies delayWq) before s pc)
    (distinct : before.shared.freeables.Nodup) : Accounts before.shared s pc := by
  have known := device_owned intact.reached
  refine ⟨?_, distinct, fun obj mine => ?_, known.freed_nodup⟩
  · have messages := (intact.listed.flatMap_right Message.objects).map Freeable.obj
    have held : pc.holds = [] ∧ pc.parts = DevicePart.order := by
      have early := intact.early
      cases pc <;> first | exact ⟨rfl, rfl⟩ | cases early
    rw [intact.released, FreeState.left, State.freeables, held.1, held.2, intact.early, intact.workqueue]
    simpa using messages.append_right _
  · obtain ⟨msg, listed, inside⟩ := obj_mem_freeables.mp mine
    exact (known.listed (intact.listed.symm.subset listed) inside).2.1

theorem onwards_wqSem : DevicePart.wqSem.onwards = DevicePart.order := rfl

theorem message_left {msg : Message} {obj : Obj} (listed : msg ∈ s.device.listed) (inside : obj ∈ msg.objects) :
    .obj obj ∈ s.left pc := by
  have member : obj ∈ s.device.listed.flatMap Message.objects := List.mem_flatMap.mpr ⟨msg, listed, inside⟩
  simp [FreeState.left, List.mem_flatMap.mp member]

theorem part_left {part : DevicePart} (member : part ∈ pc.parts) : .part part ∈ s.left pc := by
  simp [FreeState.left, member]

theorem left_of_late (late : pc.early = false) :
    s.left pc = (s.device.listed.flatMap Message.objects ++ pc.holds).map .obj ++ pc.parts.map .part := by
  simp [FreeState.left, late]

theorem workqueue_left (early : pc.early = true) (created : s.device.dev.delayWq = true) : .workqueue ∈ s.left pc := by
  simp [FreeState.left, early, created]

/-- A work that is listed or ahead of a flush has not finished. -/
theorem linked_unfreed {config}
    (reached : Reaches device WorksAgree (installed maxMessageSize maxStorageSize msecsToJiffies delayWq) config) :
    (∀ work ∈ config.shared.dev.delayList, .work work ∉ config.shared.freed) ∧
      ∀ process ∈ config.calls, ∀ work ∈ process.state.ahead, .work work ∉ config.shared.freed := by
  obtain ⟨⟨linked, -⟩, asserts⟩ := device_linked reached
  have unfreed : ∀ work ∈ config.shared.wq.unfinished, .work work ∉ config.shared.freed :=
    fun work unfinished => ((device_owned reached).works (Workqueue.unfinished_works unfinished)).2
  refine ⟨fun work listed => unfreed work (linked.unfinished work listed), fun process member work ahead => ?_⟩
  exact unfreed work (((asserts process member).of_ahead ahead).elim (linked.unfinished work) id)

/-- What is touched before anything is freed. -/
theorem Intact.live
    (intact : Intact (installed maxMessageSize maxStorageSize msecsToJiffies delayWq) before s pc)
    (accounts : Accounts before.shared s pc) : ∀ item ∈ pc.touches s, item ∉ s.gone := by
  have early := intact.early
  have present : pc.Destroys → s.device.dev.delayWq = true := fun destroys =>
    intact.workqueue.trans (intact.created destroys)
  intro item touched
  cases pc with
  | testBarrier | clearBarrier | wakeUp | testWq =>
    rw [List.mem_singleton.mp touched]
    exact accounts.live (part_left (by decide))
  | flush pc =>
    rcases List.mem_append.mp touched with own | touched
    · rcases List.mem_cons.mp own with rfl | part
      · exact accounts.live (workqueue_left rfl (present trivial))
      · obtain ⟨part, member, rfl⟩ := List.mem_map.mp part
        exact accounts.live (part_left member)
    · obtain ⟨obj, member, rfl⟩ := List.mem_map.mp touched
      rcases List.mem_append.mp member with message | executed
      · obtain ⟨msg, member, inside⟩ := List.mem_flatMap.mp message
        have listed : msg ∈ s.device.listed := (List.mem_append.mp member).elim
          (fun pending => List.mem_append_left _ (List.mem_append_left _ pending)) (List.mem_append_right _)
        exact accounts.live (message_left listed inside)
      · obtain ⟨work, flushed, rfl⟩ := List.mem_map.mp executed
        obtain ⟨unfreedList, unfreedAhead⟩ := linked_unfreed intact.reached
        have unfreed : .work work ∉ s.device.freed :=
          (List.mem_append.mp flushed).elim (unfreedList work)
            (unfreedAhead ⟨.revokeDelayedMessages, .revoke pc⟩ (by simp [asDevice, FreePc.flushing]) work)
        simpa [FreeState.gone, intact.released] using unfreed
  | destroyWq =>
    rcases List.mem_cons.mp touched with rfl | touched
    · exact accounts.live (part_left (by decide))
    · rw [List.mem_singleton.mp touched]
      exact accounts.live (workqueue_left rfl (present trivial))
  | _ => cases early

/-- The flush waits for nobody but the thread. -/
theorem Intact.goesOn
    (intact : Intact (installed maxMessageSize maxStorageSize msecsToJiffies delayWq) before s pc)
    (idle : ∀ process ∈ before.calls, process.state.Returned) :
    (∀ garbage, (groupFree garbage s pc).isSome) ∨ (worker s.device).isSome := by
  have early := intact.early
  cases pc with
  | testBarrier => exact .inl fun garbage => by simp only [groupFree]; split <;> rfl
  | clearBarrier | wakeUp => exact .inl fun garbage => rfl
  | testWq => exact .inl fun garbage => by simp only [groupFree]; split <;> rfl
  | flush pc =>
    by_cases returned : ∃ ret, pc = .done ret
    · obtain ⟨ret, rfl⟩ := returned
      exact .inl fun garbage => rfl
    · cases moved : fflushWorkqueue s.device pc with
      | some next =>
        apply Or.inl
        intro garbage
        rw [groupFree_flush fun ret same => returned ⟨ret, same⟩, moved]
        rfl
      | none =>
        rcases fflushWorkqueue_blocked moved with done | ⟨takes, outside, down⟩ | ⟨-, busy⟩
        · cases pc <;> first | exact absurd ⟨_, rfl⟩ returned | cases done
        · -- nobody else is inside
          have one := device_excludes intact.reached
          have others : total Call.inside before.calls = 0 :=
            total_eq_zero fun process member => (returned_holds_nothing (idle process member)).2
          simp [asDevice, FreePc.flushing, others, outside, down] at one
        · exact .inr (worker_isSome busy)
  | destroyWq =>
    obtain ⟨-, queue, running⟩ := idle_of_works (intact.drained trivial)
    exact .inl fun garbage => by simp [groupFree, Workqueue.Drained, queue, running]
  | _ => cases early

theorem Intact.freesOnce
    (intact : Intact (installed maxMessageSize maxStorageSize msecsToJiffies delayWq) before s pc)
    (distinct : before.shared.freeables.Nodup) (idle : ∀ process ∈ before.calls, process.state.Returned) :
    FreesOnce before.shared s pc where
  live := intact.live (intact.accounts distinct)
  once := (intact.accounts distinct).gone_nodup
  owned := by simp [intact.released]
  emptied part same := by
    have early := intact.early
    rw [same] at early
    cases early
  quiet released := absurd intact.released released
  finished same := by
    have early := intact.early
    rw [same] at early
    cases early
  goesOn := .inr (intact.goesOn idle)

theorem Releasing.listed {entry : State} (releasing : Releasing entry s pc) :
    s.device.listed = s.device.dev.messageList := by
  obtain ⟨-, -, running⟩ := idle_of_works releasing.works
  simp [State.listed, Workqueue.carried, carriedBy, releasing.pendingList, running]

theorem Releasing.live {entry : State} (releasing : Releasing entry s pc) : ∀ item ∈ pc.touches s, item ∉ s.gone := by
  have placed := releasing.placed
  have own : ∀ part ∈ pc.parts, .part part ∉ s.gone := fun part member => releasing.accounts.live (part_left member)
  have stored : ∀ msg ∈ s.device.dev.messageList, ∀ obj ∈ msg.objects, .obj obj ∉ s.gone := by
    intro msg member obj inside
    exact releasing.accounts.live (message_left (releasing.listed ▸ member) inside)
  have held : ∀ obj ∈ pc.holds, .obj obj ∉ s.gone := by
    intro obj member
    exact releasing.accounts.live (by simp [FreeState.left, member])
  intro item touched
  cases pc with
  | kfree part | warn part =>
    rcases List.mem_cons.mp touched with rfl | touched
    · exact own .groupDev (by cases part <;> decide)
    · rw [List.mem_singleton.mp touched]
      exact own part (by cases part <;> decide)
  | testPending =>
    rcases List.mem_cons.mp touched with rfl | touched
    · exact own .groupDev (by decide)
    · have head : item = .part .pendingList := by simpa [releasing.pendingList] using touched
      rw [head]
      exact own .pendingList (by decide)
  | messageListPrint | testMessages | messageDel _ _ =>
    rcases List.mem_cons.mp touched with rfl | touched
    · exact own .groupDev (show .groupDev ∈ DevicePart.messageList.onwards by decide)
    · rcases List.mem_cons.mp touched with rfl | touched
      · exact own .messageList (show .messageList ∈ DevicePart.messageList.onwards by decide)
      · obtain ⟨obj, member, rfl⟩ := List.mem_map.mp touched
        obtain ⟨msg, member, inside⟩ := List.mem_flatMap.mp member
        exact stored msg member obj inside
  | messagePrint pos q | messageData pos q =>
    obtain ⟨obj, member, rfl⟩ := List.mem_map.mp touched
    exact held obj member
  | messageFree pos q =>
    rw [List.mem_singleton.mp touched]
    exact held _ (List.mem_singleton_self _)
  | messageNext q =>
    rcases List.mem_cons.mp touched with rfl | touched
    · exact own .groupDev (show .groupDev ∈ DevicePart.messageList.onwards by decide)
    · obtain ⟨obj, member, rfl⟩ := List.mem_map.mp touched
      obtain ⟨msg, member, inside⟩ := List.mem_flatMap.mp member
      exact stored msg (List.mem_of_getLast? (placed.symm.trans (by simpa using member))) obj inside
  | done => cases touched
  | _ => exact placed.elim

theorem Releasing.goesOn {entry : State} (releasing : Releasing entry s pc) (unfinished : pc ≠ .done) (garbage : Bool) :
    (groupFree garbage s pc).isSome := by
  have placed := releasing.placed
  cases pc with
  | testPending | testMessages =>
    simp only [groupFree]
    split <;> rfl
  | messageNext q => cases q <;> rfl
  | done => exact absurd rfl unfinished
  | kfree _ | warn _ | messageListPrint | messageDel _ _ | messagePrint _ _ | messageData _ _ | messageFree _ _ => rfl
  | _ => exact placed.elim

theorem Releasing.freesOnce {entry : State} (releasing : Releasing entry s pc) : FreesOnce entry s pc where
  live := releasing.live
  once := releasing.accounts.gone_nodup
  owned _ released := releasing.accounts.ledger.subset (List.mem_append_left _ released)
  emptied part same := by
    have placed := releasing.placed
    rw [same] at placed
    cases part with
    | delayList => exact releasing.delayList
    | pendingList => exact releasing.pendingList
    | messageList => exact placed (.inl rfl)
    | _ => trivial
  quiet _ := releasing.works
  finished same := by
    have ledger := releasing.accounts.ledger
    have placed := releasing.placed
    rw [same] at ledger placed
    have nothing : s.left .done = [] := by
      simp [FreeState.left, releasing.listed, show s.device.dev.messageList = [] from placed, FreePc.holds,
        FreePc.parts, FreePc.early]
    rwa [nothing, List.append_nil] at ledger
  goesOn := by
    by_cases finished : pc = .done
    · exact .inl finished
    · exact .inr (.inl (releasing.goesOn finished))

/-! The steps. -/

theorem Releasing.distinct {entry : State} (releasing : Releasing entry s pc) : s.device.dev.messageList.Nodup := by
  have left := (List.nodup_append.mp (releasing.accounts.ledger.nodup_iff.mpr releasing.accounts.distinct)).2.1
  have objects := (List.nodup_append.mp (List.nodup_append.mp left).1).1.of_map
  have messages := (List.nodup_flatMap.mp (List.nodup_append.mp objects).1).2
  rw [releasing.listed] at messages
  refine messages.imp fun {msg other} apart same => ?_
  exact apart (a := .message msg.id) (by simp [Message.objects]) (by simp [same, Message.objects])

theorem next_parts (part : DevicePart) :
    part.onwards = part :: part.next.parts ∧ part.next.holds = [] ∧ part.next.early = false := by
  cases part <;> exact ⟨rfl, rfl, rfl⟩

theorem Releasing.goes {entry : State} (releasing : Releasing entry s pc) (left : s.left pc' = s.left pc)
    (placed : pc'.Placed s.device.dev.messageList) : Releasing entry s pc' :=
  ⟨releasing.accounts.of_left (by rw [left]) rfl, releasing.works, releasing.delayList, releasing.pendingList, placed⟩

theorem Releasing.frees {entry : State} {item : Freeable} (releasing : Releasing entry s pc)
    (left : (s.left pc).Perm (item :: s.left pc')) (placed : pc'.Placed s.device.dev.messageList) :
    Releasing entry { s with released := s.released ++ [item] } pc' :=
  ⟨releasing.accounts.free left, releasing.works, releasing.delayList, releasing.pendingList, placed⟩

/-- The message the loop stands on is unlinked, and the one before it is last then. -/
theorem Releasing.unlink {entry : State} {pos : Message} {q : Option Message}
    (releasing : Releasing entry s (.messageDel pos q)) :
    Releasing entry { s with device.dev.messageList := listDel pos s.device.dev.messageList } (.messagePrint pos q) := by
  have distinct := releasing.distinct
  obtain ⟨accounts, works, delayList, pendingList, last, rfl⟩ := releasing
  have messages := List.perm_cons_erase (List.mem_of_getLast? last)
  refine ⟨accounts.of_left (List.perm_iff_count.mpr fun item => ?_) rfl, works, delayList, pendingList, ?_⟩
  · have objects := ((messages.flatMap_right Message.objects).map Freeable.obj).count_eq item
    rw [left_of_late (by rfl), left_of_late (by rfl)]
    simp only [State.listed, listDel, FreePc.holds, FreePc.parts, List.flatMap_append, List.flatMap_cons,
      List.map_append, List.count_append, List.map_nil, List.count_nil] at objects ⊢
    omega
  · exact (getLast?_listDel_last distinct last).symm

theorem Releasing.step {entry : State} (releasing : Releasing entry s pc) (step : FreeStep garbage s pc s' pc') :
    Releasing entry s' pc' := by
  have placed := releasing.placed
  cases step with
  | @kfree part =>
    obtain ⟨parts, holds, early⟩ := next_parts part
    refine releasing.frees ?_ ?_
    · rw [left_of_late early, left_of_late (by rfl), holds, show (FreePc.kfree part).parts = _ from parts]
      exact List.perm_middle
    · cases part with
      | messageList => exact fun _ => placed (.inl rfl)
      | groupDev => exact placed (.inr rfl)
      | pendingSem | messageSem => trivial
      | wqSem | delayList | pendingList =>
        intro last
        rcases last with last | last <;> cases last
  | warn => exact releasing.goes rfl placed
  | noPending empty =>
    refine releasing.goes rfl fun last => ?_
    rcases last with last | last <;> cases last
  | firstPending last => simp [releasing.pendingList] at last
  | messageListPrint => exact releasing.goes rfl trivial
  | noMessages empty => exact releasing.goes rfl fun _ => empty
  | firstMessage last => exact releasing.goes rfl ⟨last, rfl⟩
  | messageDel => exact releasing.unlink
  | messagePrint => exact releasing.goes rfl placed
  | messageData | messageFree =>
    refine releasing.frees (List.perm_iff_count.mpr fun item => ?_) placed
    rw [left_of_late (by rfl), left_of_late (by rfl)]
    simp only [FreePc.holds, FreePc.parts, Message.objects, List.map_append, List.map_cons, List.map_nil,
      List.count_append, List.count_cons, List.count_nil]
    omega
  | lastMessage => exact releasing.goes rfl fun _ => List.getLast?_eq_none_iff.mp placed.symm
  | nextMessage => exact releasing.goes rfl ⟨placed.symm, rfl⟩
  | _ => exact placed.elim

theorem Releasing.event {entry : State} {event} {device : State} (releasing : Releasing entry s pc)
    (step : EventStep s.device event device) : Releasing entry { s with device } pc := by
  obtain ⟨dev, wq, freed⟩ := event_idle releasing.works step
  have left : FreeState.left { s with device } pc = s.left pc := by simp [FreeState.left, State.listed, dev, wq]
  refine ⟨releasing.accounts.of_left ?_ freed, ?_, ?_, ?_, ?_⟩
  · rw [left]
  · exact wq ▸ releasing.works
  · exact dev ▸ releasing.delayList
  · exact dev ▸ releasing.pendingList
  · exact dev ▸ releasing.placed

/-- Nothing is left in the lists that the works serve. -/
theorem Intact.releasing {freed : FreeState}
    (intact : Intact (installed maxMessageSize maxStorageSize msecsToJiffies delayWq) before s pc)
    (accounts : Accounts before.shared freed (.kfree .wqSem)) (same : freed.device = s.device)
    (works : s.device.wq.works = []) (pendingList : s.device.dev.pendingList = []) :
    Releasing before.shared freed (.kfree .wqSem) := by
  obtain ⟨⟨linked, -⟩, -⟩ := device_linked intact.reached
  have delayList : s.device.dev.delayList = [] := by
    apply List.eq_nil_iff_forall_not_mem.mpr
    intro work listed
    have known := Workqueue.unfinished_works (linked.unfinished work listed)
    rw [show (asDevice before s pc).shared.wq.works = [] from works] at known
    exact List.not_mem_nil known
  refine ⟨accounts, same ▸ works, same ▸ delayList, same ▸ pendingList, fun last => ?_⟩
  rcases last with last | last <;> cases last

theorem Intact.flush {flush flush' : FlushPc} {device' : State}
    (intact : Intact (installed maxMessageSize maxStorageSize msecsToJiffies delayWq) before s (.flush flush))
    (moved : fflushWorkqueue s.device flush = some (device', flush')) :
    Intact (installed maxMessageSize maxStorageSize msecsToJiffies delayWq) before { s with device := device' }
      (.flush flush') := by
  have step := fflushWorkqueue_cases moved
  have created := intact.workqueue.trans (intact.created trivial)
  have stepped : Step device (asDevice before s (.flush flush)) (.move before.calls.length default)
      (asDevice before { s with device := device' } (.flush flush')) := by
    refine .move ?_
    simp [device, move, FreePc.flushing, moved]
  have permitted : WorksAgree (asDevice before s (.flush flush)) (.move before.calls.length default) := trivial
  refine ⟨rfl, intact.reached.step permitted stepped.enabled, (flush_keeps_listed step).trans intact.listed,
    (step_keeps_workqueue stepped).trans intact.workqueue, intact.released, fun _ => intact.created trivial,
    .inl (intact.created trivial), fun later => ?_, fun finished => ?_, fun ret same => ?_⟩
  · by_cases first : flush = .splice
    · subst first
      exact flush_splices step
    · have empty := intact.spliced first
      cases step with
      | splice => exact absurd rfl first
      | _ => exact empty
  · have works : s.device.wq.works = [] := by
      rcases flush_drains step finished with earlier | ⟨rfl, drained⟩ | missing
      · exact intact.drained earlier
      · have timers : s.device.wq.timers = [] :=
          device_finds (agree_visitsLinked intact.reached) ⟨.revokeDelayedMessages, .revoke .drain⟩
            (by simp [asDevice, FreePc.flushing])
        exact works_of_drained timers drained
      · exact absurd (created.symm.trans missing) (by simp)
    cases step with
    | noWorkqueue | drain | clearFlushing | upWq => exact works
    | _ => exact finished.elim
  · subst same
    cases step <;> rfl

/-- Outside of the flush the device is not touched. -/
theorem Intact.goes {start : DeviceConfig} (intact : Intact start before s pc) (barrier : Bool) (early : pc'.early = true)
    (same : pc'.flushing = pc.flushing) (created : pc'.Destroys → before.shared.dev.delayWq = true) :
    Intact start before { s with barrier } pc' := by
  obtain ⟨-, reached, listed, workqueue, released, -, tidy, spliced, drained, returns⟩ := intact
  rw [asDevice, ← same] at reached
  rw [← same] at spliced drained returns
  exact ⟨early, reached, listed, workqueue, released, created, tidy, spliced, drained, returns⟩

theorem Intact.step
    (intact : Intact (installed maxMessageSize maxStorageSize msecsToJiffies delayWq) before s pc)
    (distinct : before.shared.freeables.Nodup) (step : FreeStep garbage s pc s' pc') :
    Intact (installed maxMessageSize maxStorageSize msecsToJiffies delayWq) before s' pc' ∨
      Releasing before.shared s' pc' := by
  have accounts := intact.accounts distinct
  have early := intact.early
  cases step with
  | raised | notRaised | wakeUp => exact .inl (intact.goes s.barrier rfl rfl False.elim)
  | clearBarrier => exact .inl (intact.goes false rfl rfl False.elim)
  | testWq created => exact .inl (intact.goes s.barrier rfl rfl fun _ => intact.workqueue.symm.trans created)
  | noWorkqueue missing =>
    have works : s.device.wq.works = [] := works_of_no_workqueue intact.reached missing
    have absent : before.shared.dev.delayWq ≠ true := by simp [← intact.workqueue, missing]
    have pendingList := intact.tidy.resolve_left absent
    have left : s.left (.kfree .wqSem) = s.left .testWq := by
      simp [FreeState.left, missing, FreePc.early, FreePc.holds, FreePc.parts, onwards_wqSem]
    exact .inr (intact.releasing (accounts.of_left (by rw [left]) rfl) rfl works pendingList)
  | flush moved => exact .inl (intact.flush moved)
  | @flushed ret =>
    obtain rfl := intact.returns ret rfl
    exact .inl (intact.goes s.barrier rfl rfl fun _ => intact.created trivial)
  | destroyWq drained =>
    have pendingList := intact.spliced (by simp [FreePc.flushing])
    have created := intact.workqueue.trans (intact.created trivial)
    have left : s.left .destroyWq = s.left (.kfree .wqSem) ++ [.workqueue] := by
      simp [FreeState.left, created, FreePc.early, FreePc.holds, FreePc.parts, onwards_wqSem]
    refine .inr (intact.releasing (accounts.free ?_) rfl (intact.drained trivial) pendingList)
    rw [left]
    exact List.perm_append_singleton _ _
  | _ => cases early

theorem Intact.event {event} {device' : State}
    (intact : Intact (installed maxMessageSize maxStorageSize msecsToJiffies delayWq) before s pc)
    (agrees : WorksAgree (asDevice before s pc) (.environment event))
    (happened : device.environment event s.device = some device') :
    Intact (installed maxMessageSize maxStorageSize msecsToJiffies delayWq) before { s with device := device' } pc := by
  have step := environment_cases happened
  have stepped : Step device (asDevice before s pc) (.environment event)
      (asDevice before { s with device := device' } pc) := .environment happened
  refine ⟨intact.early, intact.reached.step agrees stepped.enabled, (event_keeps_listed step).trans intact.listed,
    (step_keeps_workqueue stepped).trans intact.workqueue, intact.released, intact.created,
    intact.tidy.imp_right (event_keeps_spliced step), fun later => event_keeps_spliced step (intact.spliced later),
    fun finished => ?_, intact.returns⟩
  obtain ⟨-, same, -⟩ := event_idle (intact.drained finished) step
  exact same ▸ intact.drained finished

/-! How far there is to go. -/

def WorkPc.rank : WorkPc → Nat
  | .pop => 6
  | .insert _ => 5
  | .print _ => 4
  | .testFlag => 3
  | .listDel => 2
  | .free => 1

def Workqueue.rank (wq : Workqueue) : Nat :=
  8 * wq.timers.length + 7 * wq.queue.length + (wq.running.map fun executed => executed.2.rank).getD 0

def FlushPc.rank : FlushPc → Nat
  | .splice => 15
  | .checkWq => 14
  | .downWq => 13
  | .setFlushing => 12
  | .testEmpty => 11
  | .flush _ _ => 13
  | .wait _ _ => 12
  | .next _ => 11
  | .visit _ _ => 10
  | .drain => 9
  | .clearFlushing => 8
  | .upWq => 7
  | .done _ => 6

def DevicePart.rank : DevicePart → Nat
  | .wqSem => 14
  | .delayList => 12
  | .pendingSem => 11
  | .pendingList => 8
  | .messageSem => 7
  | .messageList => 2
  | .groupDev => 1

def FreePc.rank : FreePc → Nat
  | .testBarrier => 50
  | .clearBarrier => 49
  | .wakeUp => 48
  | .testWq => 47
  | .flush pc => 20 + pc.rank
  | .destroyWq => 15
  | .kfree part => part.rank
  | .warn list => list.rank + 1
  | .testPending => 10
  | .messageListPrint => 6
  | .testMessages => 5
  | .messageDel _ _ => 4
  | .messagePrint _ _ => 8
  | .messageData _ _ => 7
  | .messageFree _ _ => 6
  | .messageNext _ => 5
  | _ => 0

/-- Each listed work still has to be visited. -/
def State.rank (s : State) : Nat := 5 * s.listed.length + 4 * s.dev.delayList.length + s.wq.rank

theorem Workqueue.rank_expire {wq : Workqueue} {work : Work} (armed : work ∈ wq.timers) :
    (wq.expire work).rank + 1 = wq.rank := by
  have shorter := List.length_erase_of_mem armed
  have positive := List.length_pos_of_mem armed
  simp only [Workqueue.rank, Workqueue.expire, List.length_append, List.length_singleton]
  omega

theorem Workqueue.rank_flushDelayedWork (wq : Workqueue) (id : Nat) : (wq.flushDelayedWork id).rank ≤ wq.rank := by
  unfold Workqueue.flushDelayedWork
  split
  · exact Nat.le_refl _
  next work found => exact Nat.le_of_succ_le (Nat.le_of_eq (Workqueue.rank_expire (List.mem_of_find?_eq_some found)))

theorem flush_rank {s s' : State} {pc pc' : FlushPc} (step : FlushStep s pc s' pc')
    (linked : ∀ pos q, pc = .visit pos q → pos ∈ s.dev.delayList) : s'.rank + pc'.rank < s.rank + pc.rank := by
  have listed := (flush_keeps_listed step).length_eq
  unfold State.rank
  rw [listed]
  cases step with
  | @visit pos q =>
    have member := linked pos q rfl
    have shorter := List.length_erase_of_mem member
    have positive := List.length_pos_of_mem member
    simp only [FlushPc.rank, listDel]
    omega
  | @flush pos q =>
    have less := s.wq.rank_flushDelayedWork pos
    simp only [FlushPc.rank]
    omega
  | _ =>
    simp only [FlushPc.rank]
    omega

theorem worker_rank {s s' : State} (step : WorkerStep s s') : s'.rank < s.rank := by
  have listed := (event_keeps_listed (.worker step)).length_eq
  unfold State.rank
  rw [listed]
  cases step with
  | @listDel work running =>
    have shorter : (listDel work.id s.dev.delayList).length ≤ s.dev.delayList.length := List.length_erase_le
    simp only [Workqueue.rank, running, Option.map_some, Option.getD_some, WorkPc.rank]
    omega
  | start idle queued | popEmpty running empty | pop running last | insert running | print running
  | flushing running flag | notFlushing running flag | free running =>
    simp only [Workqueue.rank, *, Option.map_some, Option.map_none, Option.getD_some, Option.getD_none, WorkPc.rank,
      List.length_cons]
    omega

theorem event_rank {s s' : State} {event} (step : EventStep s event s') :
    s'.rank + (if advances (.environment event) then 1 else 0) ≤ s.rank := by
  cases step with
  | expire armed expired =>
    have less := Workqueue.rank_expire armed
    simp only [State.rank, State.listed, Workqueue.carried, Workqueue.running_expire, advances, if_pos]
    omega
  | worker step => exact worker_rank step
  | _ => exact Nat.le_refl _

theorem Intact.rank
    (intact : Intact (installed maxMessageSize maxStorageSize msecsToJiffies delayWq) before s pc)
    (step : FreeStep garbage s pc s' pc') : s'.device.rank + pc'.rank < s.device.rank + pc.rank := by
  have early := intact.early
  cases step with
  | @flush pc device' pc' moved =>
    have linked : ∀ pos q, pc = .visit pos q → pos ∈ s.device.dev.delayList := by
      rintro pos q rfl
      have asserts := (device_linked intact.reached).2 ⟨.revokeDelayedMessages, .revoke (.visit pos q)⟩
        (by simp [asDevice, FreePc.flushing])
      exact asserts.1
    have less := flush_rank (fflushWorkqueue_cases moved) linked
    simp only [FreePc.rank]
    omega
  | raised | notRaised | clearBarrier | wakeUp | testWq | noWorkqueue | flushed | destroyWq =>
    simp only [FreePc.rank, FlushPc.rank, DevicePart.rank]
    omega
  | _ => cases early

theorem Releasing.rank {entry : State} (releasing : Releasing entry s pc) (step : FreeStep garbage s pc s' pc') :
    s'.device.rank + pc'.rank < s.device.rank + pc.rank := by
  have placed := releasing.placed
  cases step with
  | @kfree part =>
    have less : part.next.rank < part.rank := by cases part <;> decide
    exact Nat.add_lt_add_left less _
  | @messageDel pos q =>
    have member := List.mem_of_getLast? placed.1
    have shorter := List.length_erase_of_mem member
    have positive := List.length_pos_of_mem member
    simp only [State.rank, State.listed, Workqueue.carried, listDel, FreePc.rank, List.length_append]
    omega
  | firstPending last => simp [releasing.pendingList] at last
  | warn | noPending | messageListPrint | noMessages | firstMessage | messagePrint | messageData | messageFree
  | lastMessage | nextMessage =>
    simp only [FreePc.rank, DevicePart.rank]
    omega
  | _ => exact placed.elim

end Freeing

/-! Runs. -/

section Run
variable {before : DeviceConfig} {barrier : Bool} {config after : FreeConfig} {act : FreeAct}

/-- `group_free` or the device takes the step, nobody else. -/
theorem freeing_cases {pc : FreePc} (alone : config.calls = [⟨(), pc⟩]) (permitted : FlushAgrees before config act)
    (taken : Step freeing config act after) :
    (∃ garbage pc', act = .move 0 garbage ∧ after.calls = [⟨(), pc'⟩] ∧
        FreeStep garbage config.shared pc after.shared pc') ∨
      ∃ event device', act = .environment event ∧ after = ⟨{ config.shared with device := device' }, [⟨(), pc⟩]⟩ ∧
        device.environment event config.shared.device = some device' ∧
        WorksAgree (asDevice before config.shared pc) (.environment event) := by
  cases taken with
  | enter request => exact permitted.elim
  | @move s left right request state outcome s' state' moved =>
    cases left with
    | nil =>
      cases alone
      exact .inl ⟨outcome, state', rfl, rfl, groupFree_cases moved⟩
    | cons other rest => simp at alone
  | @environment s calls event s' happened =>
    cases alone
    obtain ⟨device', occurred, rfl⟩ := Option.map_eq_some_iff.mp happened
    exact .inr ⟨event, device', rfl, rfl, occurred, permitted ⟨(), pc⟩ (List.mem_singleton_self _)⟩

/-- One of the two stages, and what is left to do in it. -/
def Frees (start before : DeviceConfig) (config : FreeConfig) (rank : Nat) : Prop :=
  ∃ pc, config.calls = [⟨(), pc⟩] ∧ rank = config.shared.device.rank + pc.rank ∧
    (Intact start before config.shared pc ∨ Releasing before.shared config.shared pc)

theorem Frees.step {rank : Nat} (distinct : before.shared.freeables.Nodup)
    (frees : Frees (installed maxMessageSize maxStorageSize msecsToJiffies delayWq) before config rank)
    (permitted : FlushAgrees before config act) (taken : Step freeing config act after) :
    ∃ rank', Frees (installed maxMessageSize maxStorageSize msecsToJiffies delayWq) before after rank' ∧
      rank' + (if advances act then 1 else 0) ≤ rank := by
  obtain ⟨pc, alone, rfl, stage⟩ := frees
  rcases freeing_cases alone permitted taken with
    ⟨garbage, pc', rfl, alone', step⟩ | ⟨event, device', rfl, rfl, happened, agrees⟩
  · rcases stage with intact | releasing
    · exact ⟨_, ⟨pc', alone', rfl, intact.step distinct step⟩, intact.rank step⟩
    · exact ⟨_, ⟨pc', alone', rfl, .inr (releasing.step step)⟩, releasing.rank step⟩
  · have less := event_rank (environment_cases happened)
    refine ⟨_, ⟨pc, rfl, rfl, ?_⟩, ?_⟩
    · rcases stage with intact | releasing
      · exact .inl (intact.event agrees happened)
      · exact .inr (releasing.event (environment_cases happened))
    · simp only
      omega

theorem frees_entered (barrier : Bool)
    (reached : Reaches device WorksAgree (installed maxMessageSize maxStorageSize msecsToJiffies delayWq) before)
    (tidy : before.shared.dev.delayWq = true ∨ before.shared.dev.pendingList = []) :
    Frees (installed maxMessageSize maxStorageSize msecsToJiffies delayWq) before (freeEntered before.shared barrier)
      (before.shared.rank + 50) := by
  have permitted : WorksAgree before (.enter .revokeDelayedMessages) := trivial
  refine ⟨.testBarrier, rfl, rfl, .inl ?_⟩
  refine ⟨rfl, reached.step permitted rfl, .refl _, rfl, rfl, False.elim, tidy, fun later => absurd rfl later, False.elim,
    fun ret same => ?_⟩
  cases same

theorem Frees.run {start : FreeConfig} {trace rank} (distinct : before.shared.freeables.Nodup)
    (frees : Frees (installed maxMessageSize maxStorageSize msecsToJiffies delayWq) before start rank)
    (ran : Runs freeing start trace config) (permitted : ∀ point ∈ trace, FlushAgrees before point.1 point.2) :
    ∃ rank', Frees (installed maxMessageSize maxStorageSize msecsToJiffies delayWq) before config rank' ∧
      trace.countP (fun point => advances point.2) + rank' ≤ rank := by
  induction ran with
  | start => exact ⟨rank, frees, by simp⟩
  | @step trace middle act after ran taken ih =>
    obtain ⟨rank', frees', less⟩ := ih fun point member => permitted point (List.mem_append_left _ member)
    have agrees : FlushAgrees before middle act := permitted _ (List.mem_append_right _ (List.mem_singleton_self _))
    obtain ⟨rank'', frees'', less'⟩ := frees'.step distinct agrees (step_cases taken)
    refine ⟨rank'', frees'', ?_⟩
    have one : [(middle, act)].countP (fun point => advances point.2) = if advances act then 1 else 0 :=
      List.countP_singleton
    rw [List.countP_append, one]
    omega

/-- Without a workqueue the head of a list with messages in it is taken for one of them. -/
theorem stray_released {entry : State} (barrier : Bool) (missing : entry.dev.delayWq = false)
    (pending : entry.dev.pendingList ≠ []) :
    ∃ s q, Alone groupFree (fun _ => false) ⟨entry, barrier, false, []⟩ .testBarrier s (.pendingNext q) ∧
      .stray ∈ s.released := by
  have last : entry.dev.pendingList.getLast? = some (entry.dev.pendingList.getLast pending) :=
    List.getLast?_eq_getLast_of_ne_nil pending
  have frees : ∀ barrier, Alone groupFree (fun _ => false) ⟨entry, barrier, false, []⟩ .testWq
      ⟨entry, barrier, true, [.part .wqSem, .part .delayList, .part .pendingSem, .stray]⟩
      (.pendingNext (listPrev (entry.dev.pendingList.getLast pending) entry.dev.pendingList)) := by
    intro barrier
    refine .step (by simp only [groupFree, missing]; rfl) ?_
    refine .step rfl (.step rfl (.step rfl (.step rfl ?_)))
    refine .step (by simp only [DevicePart.next, groupFree, last]; rfl) ?_
    exact .step rfl (.step rfl (.step rfl .here))
  cases barrier with
  | false => exact ⟨_, _, .step rfl (frees false), by simp⟩
  | true => exact ⟨_, _, .step rfl (.step rfl (.step rfl (frees false))), by simp⟩

/-- `group_free` frees everything once if and only if there is a workqueue, so that the
pending messages are flushed, or there are none. -/
theorem group_free_once_iff (barrier : Bool)
    (reached : Reaches device WorksAgree (installed maxMessageSize maxStorageSize msecsToJiffies delayWq) before)
    (idle : ∀ process ∈ before.calls, process.state.Returned) :
    FreesAll before barrier ↔ before.shared.dev.delayWq = true ∨ before.shared.dev.pendingList = [] := by
  constructor
  · intro frees
    by_contra untidy
    obtain ⟨missing, pending⟩ := not_or.mp untidy
    obtain ⟨s, q, ran, stray⟩ := stray_released barrier (Bool.eq_false_iff.mpr missing) pending
    have arrived : Reaches freeing (FlushAgrees before) (freeEntered before.shared barrier)
        ⟨s, [] ++ [⟨(), .pendingNext q⟩]⟩ := ran.reaches .refl fun _ _ _ => trivial
    have owned := (frees.1 _ arrived ⟨(), .pendingNext q⟩ (by simp)).owned stray
    unfold State.freeables at owned
    split at owned <;> simp at owned
  · intro tidy
    have distinct := freeables_nodup (device_owned reached)
    have entered := frees_entered barrier reached tidy
    refine ⟨?_, before.shared.rank + 50, ?_⟩
    · rintro config ⟨trace, ran, permitted⟩ process member
      obtain ⟨rank, ⟨pc, alone, -, stage⟩, -⟩ := entered.run distinct ran permitted
      rw [alone] at member
      cases List.mem_singleton.mp member
      exact stage.elim (fun intact => intact.freesOnce distinct idle) Releasing.freesOnce
    · intro trace config ran permitted
      obtain ⟨rank, -, less⟩ := entered.run distinct ran permitted
      exact Nat.le_of_add_right_le less

end Run

/-! In the terms of the manager, which takes what `group_free` frees as one. -/

def DevicePart.allocated : DevicePart → Manager.Part
  | .wqSem => .wqSem
  | .delayList => .delayList
  | .pendingSem => .pendingSem
  | .pendingList => .pendingList
  | .messageSem => .messageSem
  | .messageList => .messageList
  | .groupDev => .newGroupDev

/-- What an install has acquired. The messages came later. -/
def Freeable.acquired (id : Nat) : Freeable → Option Manager.Obj
  | .part which => some (.part which.allocated id)
  | .workqueue => some (.delayWq id)
  | .obj _ | .stray => none

theorem freeables_acquired {s : State} {gd : Manager.GroupDev} (same : gd.delayWq = s.dev.delayWq) :
    (s.freeables.filterMap (Freeable.acquired gd.id)).Perm gd.objects := by
  have messages : ((s.listed.flatMap Message.objects).map Freeable.obj).filterMap (Freeable.acquired gd.id) = [] := by
    simp [List.filterMap_map, Function.comp_def, Freeable.acquired]
  have parts : (DevicePart.order.map DevicePart.allocated).Perm (Manager.Part.order.erase .deviceName) := by decide
  rw [State.freeables, List.filterMap_append, List.filterMap_append, messages, List.nil_append,
    Manager.GroupDev.objects, same]
  apply List.Perm.append
  · simpa [List.filterMap_map, Function.comp_def, Freeable.acquired, Manager.parts] using
      parts.map fun part => Manager.Obj.part part gd.id
  · split <;> rfl

/-- A device that is freed gives back what its install acquired. -/
theorem FreesOnce.acquired {entry : State} {s : FreeState} (frees : FreesOnce entry s .done) {gd : Manager.GroupDev}
    (same : gd.delayWq = entry.dev.delayWq) : (s.released.filterMap (Freeable.acquired gd.id)).Perm gd.objects :=
  ((frees.finished rfl).filterMap _).trans (freeables_acquired same)

def freeSteps (count : Nat) : List FreeAct := List.replicate count (.move 0 false)

/-- A message that is stored, and one that is delayed. -/
def heldRun : List DeviceAct :=
  [.enter (.write letters 3)] ++ steps 0 8 ++ [.enter (.setSendDelay 1), proceed 1, .enter (.write letters 4)] ++
    steps 2 11

/-- The flush waits for the work of the second message. -/
def releaseRun : List FreeAct := freeSteps 11 ++ List.replicate 4 (.environment .worker) ++ freeSteps 30

/-- The delayed message was spliced behind the stored one, and the list is freed from its end. -/
def heldFreed : List Freeable :=
  [.workqueue, .part .wqSem, .part .delayList, .part .pendingSem, .part .pendingList, .part .messageSem,
    .obj (.data 1), .obj (.message 1), .obj (.data 0), .obj (.message 0), .part .messageList, .part .groupDev]

theorem group_free_once_heldRun :
    ∃ before config, run device WorksAgree sampleDevice heldRun = some before ∧ before.shared.dev.pendingList ≠ [] ∧
      FreesAll before true ∧
      run freeing (FlushAgrees before) (freeEntered before.shared true) releaseRun = some config ∧
      config.shared.released = heldFreed := by
  have enabled : ∃ before ∈ run device WorksAgree sampleDevice heldRun,
    (∀ process ∈ before.calls, process.state.Returned) ∧ before.shared.dev.delayWq = true ∧
      before.shared.dev.pendingList ≠ [] ∧
      ∃ config ∈ run freeing (FlushAgrees before) (freeEntered before.shared true) releaseRun,
        config.shared.released = heldFreed := by
    decide +kernel
  obtain ⟨before, ran, idle, created, pending, config, freed, released⟩ := enabled
  have frees := (group_free_once_iff true (reaches_of_run .refl ran) idle).mpr (.inl created)
  exact ⟨before, config, ran, pending, frees, freed, released⟩

/-- A delayed write where the workqueue could not be created. -/
def leftRun : List DeviceAct :=
  [.enter (.setSendDelay 1), proceed 0, .enter (.write letters 3)] ++ steps 1 7

theorem group_free_stray :
    ¬ ∀ before barrier, Reaches device Anything (installed 32 64 UInt32.toNat false) before →
      (∀ process ∈ before.calls, process.state.Returned) → FreesAll before barrier := by
  intro frees
  have enabled : ∃ before ∈ run device Anything (installed 32 64 UInt32.toNat false) leftRun,
    (∀ process ∈ before.calls, process.state.Returned) ∧
      ∃ config ∈ run freeing (FlushAgrees before) (freeEntered before.shared false) (freeSteps 10),
        ∃ process ∈ config.calls, ¬ config.shared.released ⊆ before.shared.freeables := by decide +kernel
  obtain ⟨before, ran, idle, config, freed, process, member, stray⟩ := enabled
  have once := (frees before false (reaches_of_run .refl ran) idle).1 config (reaches_of_run .refl freed) process member
  exact stray once.owned

end Tsm
