import Tsm.Conveyor
import Tsm.Device.Transitions

/-! A group device is a conveyor. Every step of the device is one step of the
conveyor seen through `view`, so what the conveyor keeps, the device keeps. -/

namespace Tsm
open Interleaving KernelList

/-- The message a write has been counted for. -/
def WritePc.stored : WritePc → Option Message
  | .pend msg | .addDelayedWork msg | .downWq msg _ | .queueWork msg _ | .listAdd msg _ | .upWq msg
  | .listPrint msg | .traverse msg _ | .print msg => some msg
  | .done _ msg => msg
  | _ => none

def ReadPc.removed : ReadPc → Option Message
  | .copyToUser msg _ | .print msg _ _ | .freeData msg _ _ | .freeMsg msg _ _ => some msg
  | .done _ msg _ => msg
  | .entry _ => none

def acceptedBy : Call → Multiset Message
  | .write pc => pc.stored.toList
  | _ => 0

def removedBy : Call → Multiset Message
  | .read pc => pc.removed.toList
  | _ => 0

/-- Counted by its writer and not inserted yet. -/
def heldBy : Call → Multiset Message
  | .write (.pend msg) => {msg}
  | _ => 0

/-- Inserted in `pending_list` by a writer that has not queued its work yet. -/
def uncoveredBy : Call → Nat
  | .write (.addDelayedWork _) | .write (.downWq _ _) | .write (.queueWork _ _) => 1
  | _ => 0

/-- The message a work has taken from `pending_list` and not inserted yet. -/
def carriedBy : Option (Work × WorkPc) → List Message
  | some (_, .insert msg) => [msg]
  | _ => []

/-- A work that has not done its removal from `pending_list`. -/
def poppingBy : Option (Work × WorkPc) → Nat
  | some (_, .pop) => 1
  | _ => 0

def Workqueue.carried (wq : Workqueue) : List Message := carriedBy wq.running

/-- Works that are due and have not done their removal from `pending_list`. -/
def Workqueue.ready (wq : Workqueue) : Nat := wq.queue.length + poppingBy wq.running

/-- Queued works that have not done their removal from `pending_list`. -/
def Workqueue.outstanding (wq : Workqueue) : Nat := wq.timers.length + wq.ready

def viewOf (s : State) (accepted removed held : Multiset Message) (uncovered : Nat) : Conveyor Message where
  accepted
  held
  pending := s.dev.pendingList
  carried := s.wq.carried
  published := s.dev.messageList
  removed
  count := s.dev.messagesNumber.toNat
  limit := s.maxStorageSize.toNat
  peak := s.history.peak.toNat
  uncovered
  timed := s.wq.timers.map Work.expires
  ready := s.wq.ready
  now := s.jiffies
  pended := s.history.pended
  issued := s.history.issued
  available := s.history.available
  taken := s.history.taken

def view (config : DeviceConfig) : Conveyor Message :=
  viewOf config.shared (total acceptedBy config.calls) (total removedBy config.calls)
    (total heldBy config.calls) (total uncoveredBy config.calls)

/-- The steps of a call that the conveyor tells apart. -/
def Explains (s : State) (call : Call) (outcome : Outcome) : Conveyor.Label → Prop
  | .quiet => True
  | .skip => (∃ msg, call = .write (.addDelayedWork msg)) ∧ (s.dev.delayWq = false ∨ outcome.alloc = false)
  | .cover expires => (∃ msg work, call = .write (.queueWork msg work)) ∧ expires = s.jiffies + s.dev.delay
  | .hurry => ∃ pos q, call = .revoke (.flush pos q)
  | .splice => call = .revoke .splice

section Moves
variable {s s' : State} (accepted removed held : Multiset Message) (uncovered : Nat)

private theorem toNat_max (a b : UInt32) : (max a b).toNat = max a.toNat b.toNat := by
  change (if a ≤ b then b else a).toNat = _
  split
  next less => rw [Nat.max_eq_right (UInt32.le_iff_toNat_le.mp less)]
  next more => rw [Nat.max_eq_left (Nat.le_of_not_le fun less => more (UInt32.le_iff_toNat_le.mpr less))]

/-- A step into a view that is written differently. -/
private theorem stepped_to {v w w' : Conveyor Message} {label} (step : Conveyor.Step v label w)
    (same : w = w') : Conveyor.Step v label w' := same ▸ step

theorem write_refines {outcome pc pc'} (step : WriteStep outcome s pc s' pc') :
    ∃ label, Conveyor.Step
        (viewOf s (acceptedBy (.write pc) + accepted) removed (heldBy (.write pc) + held)
          (uncoveredBy (.write pc) + uncovered)) label
        (viewOf s' (acceptedBy (.write pc') + accepted) removed (heldBy (.write pc') + held)
          (uncoveredBy (.write pc') + uncovered)) ∧
      Explains s (.write pc) outcome label := by
  cases step with
  | @delayed buf length id room copied delay =>
    refine ⟨.quiet, stepped_to (.hold (newMessage s buf length id) (UInt32.lt_iff_toNat_lt.mp room)) ?_, trivial⟩
    simp [viewOf, acceptedBy, heldBy, uncoveredBy, WritePc.stored, count_up room]
  | @immediate buf length id room copied noDelay =>
    refine ⟨.quiet, stepped_to (.insert (newMessage s buf length id) (UInt32.lt_iff_toNat_lt.mp room)) ?_, trivial⟩
    simp [viewOf, acceptedBy, heldBy, uncoveredBy, WritePc.stored, count_up room, listAdd]
  | @pend msg =>
    refine ⟨.quiet, stepped_to (.pend msg held (Multiset.singleton_add msg held)) ?_, trivial⟩
    simp [viewOf, acceptedBy, heldBy, uncoveredBy, WritePc.stored, listAdd, Nat.add_comm]
  | noWorkqueue missing =>
    refine ⟨.skip, stepped_to (.skip uncovered (Nat.add_comm 1 uncovered)) ?_, ⟨_, rfl⟩, .inl missing⟩
    simp [viewOf, acceptedBy, heldBy, uncoveredBy, WritePc.stored]
  | noWork failed =>
    refine ⟨.skip, stepped_to (.skip uncovered (Nat.add_comm 1 uncovered)) ?_, ⟨_, rfl⟩, .inr failed⟩
    simp [viewOf, acceptedBy, heldBy, uncoveredBy, WritePc.stored]
  | @queueWork msg work =>
    refine ⟨.cover (s.jiffies + s.dev.delay), ?_, ⟨_, _, rfl⟩, rfl⟩
    unfold Workqueue.queueDelayedWork
    split
    next zero =>
      rw [zero]
      apply stepped_to (.coverNow uncovered (Nat.add_comm 1 uncovered))
      simp [viewOf, acceptedBy, heldBy, uncoveredBy, WritePc.stored, Workqueue.carried, Workqueue.ready,
        Nat.add_right_comm]
    next positive =>
      apply stepped_to (.cover uncovered (s.jiffies + s.dev.delay) (Nat.add_comm 1 uncovered))
      simp [viewOf, acceptedBy, heldBy, uncoveredBy, WritePc.stored, Workqueue.carried, Workqueue.ready]
  | _ => exact ⟨.quiet, .idle, trivial⟩

theorem read_refines {outcome pc pc'} (step : ReadStep outcome s pc s' pc')
    (balanced : (viewOf s accepted (removedBy (.read pc) + removed) held uncovered).Balanced) :
    Conveyor.Step (viewOf s accepted (removedBy (.read pc) + removed) held uncovered) .quiet
      (viewOf s' accepted (removedBy (.read pc') + removed) held uncovered) := by
  cases step with
  | @remove length msg rest last =>
    have positive : 0 < s.dev.messagesNumber.toNat := by
      have counted := balanced.counted
      simp only [viewOf, last, List.length_append, List.length_singleton] at counted
      omega
    apply stepped_to (.take msg rest last)
    simp [viewOf, removedBy, ReadPc.removed, count_down positive]
  | _ => exact .idle

private theorem expires_erase {timers : List Work} {work : Work} (armed : work ∈ timers) :
    ((timers.map Work.expires : List Nat) : Multiset Nat) =
      work.expires ::ₘ ((timers.erase work).map Work.expires : List Nat) :=
  Multiset.coe_eq_coe.mpr ((List.perm_cons_erase armed).map Work.expires)

theorem flushDelayedWork_refines (pos : Nat) :
    Conveyor.Step (viewOf s accepted removed held uncovered) .hurry
        (viewOf { s with wq := s.wq.flushDelayedWork pos } accepted removed held uncovered) ∨
      s.wq.flushDelayedWork pos = s.wq := by
  unfold Workqueue.flushDelayedWork
  split
  · exact .inr rfl
  next work found =>
    left
    refine stepped_to (.hurry work.expires _ (expires_erase (List.mem_of_find?_eq_some found))) ?_
    simp [viewOf, Workqueue.carried, Workqueue.ready, Nat.add_right_comm]

theorem flush_refines {pc pc'} (step : FlushStep s pc s' pc') :
    ∃ label, Conveyor.Step (viewOf s accepted removed held uncovered) label
        (viewOf s' accepted removed held uncovered) ∧
      ∀ outcome, Explains s (.revoke pc) outcome label := by
  cases step with
  | splice => exact ⟨.splice, .splice, fun _ => rfl⟩
  | @flush pos q =>
    rcases flushDelayedWork_refines accepted removed held uncovered pos with stepped | same
    · exact ⟨.hurry, stepped, fun _ => ⟨pos, q, rfl⟩⟩
    · exact ⟨.quiet, stepped_to .idle (by rw [same]), fun _ => trivial⟩
  | _ => exact ⟨.quiet, .idle, fun _ => trivial⟩

theorem worker_refines (step : WorkerStep s s') :
    Conveyor.Step (viewOf s accepted removed held uncovered) .quiet
      (viewOf s' accepted removed held uncovered) := by
  cases step with
  | start idle queued =>
    apply stepped_to .idle
    simp [viewOf, Workqueue.carried, Workqueue.ready, carriedBy, poppingBy, idle, queued]
  | popEmpty running empty =>
    refine stepped_to (.popEmpty s.wq.queue.length ?_ empty) ?_
    · simp [viewOf, Workqueue.ready, poppingBy, running]
    · simp [viewOf, Workqueue.carried, Workqueue.ready, carriedBy, poppingBy, running]
  | @pop work msg rest running last =>
    refine stepped_to (.pop s.wq.queue.length msg rest ?_ ?_ last) ?_
    · simp [viewOf, Workqueue.ready, poppingBy, running]
    · simp [viewOf, Workqueue.carried, carriedBy, running]
    · simp [viewOf, Workqueue.carried, Workqueue.ready, carriedBy, poppingBy]
  | @insert work msg running =>
    refine stepped_to (.deliver msg ?_) ?_
    · simp [viewOf, Workqueue.carried, carriedBy, running]
    · simp [viewOf, Workqueue.carried, Workqueue.ready, carriedBy, poppingBy, running, listAdd]
  | print running | flushing running flag | notFlushing running flag | listDel running | free running =>
    apply stepped_to .idle
    simp [viewOf, Workqueue.carried, Workqueue.ready, carriedBy, poppingBy, running]

theorem event_refines {event} (step : EventStep s event s') :
    Conveyor.Step (viewOf s accepted removed held uncovered) .quiet
      (viewOf s' accepted removed held uncovered) := by
  cases step with
  | tick => exact .tick
  | maxMessageSize => exact .idle
  | @maxStorageSize value =>
    apply stepped_to (.limit value.toNat)
    simp [viewOf, toNat_max]
  | @expire work armed expired =>
    apply stepped_to (.expire work.expires _ (expires_erase armed) expired)
    simp [viewOf, Workqueue.expire, Workqueue.carried, Workqueue.ready, Nat.add_right_comm]
  | worker step => exact worker_refines accepted removed held uncovered step

theorem move_refines {outcome call call'} (step : MoveStep outcome s call s' call')
    (balanced : (viewOf s (acceptedBy call + accepted) (removedBy call + removed) (heldBy call + held)
      (uncoveredBy call + uncovered)).Balanced) :
    ∃ label, Conveyor.Step
        (viewOf s (acceptedBy call + accepted) (removedBy call + removed) (heldBy call + held)
          (uncoveredBy call + uncovered)) label
        (viewOf s' (acceptedBy call' + accepted) (removedBy call' + removed) (heldBy call' + held)
          (uncoveredBy call' + uncovered)) ∧
      Explains s call outcome label := by
  cases step with
  | write step => exact write_refines accepted (0 + removed) held uncovered step
  | read step => exact ⟨.quiet, read_refines (0 + accepted) removed (0 + held) (0 + uncovered) step balanced, trivial⟩
  | setSendDelay step => cases step <;> exact ⟨.quiet, .idle, trivial⟩
  | revoke step =>
    obtain ⟨label, stepped, explains⟩ :=
      flush_refines (0 + accepted) (0 + removed) (0 + held) (0 + uncovered) step
    exact ⟨label, stepped, explains outcome⟩

end Moves

/-- What the conveyor's label says about the device's step. -/
def Explained (config : DeviceConfig) (act : DeviceAct) : Conveyor.Label → Prop
  | .quiet => True
  | label => ∃ call outcome, mover config act = some (call, outcome) ∧
      Explains config.shared call outcome label

theorem step_refines {before after : DeviceConfig} {act} (balanced : (view before).Balanced)
    (taken : Step device before act after) :
    ∃ label, Conveyor.Step (view before) label (view after) ∧ Explained before act label := by
  cases taken with
  | enter request =>
    refine ⟨.quiet, stepped_to .idle ?_, trivial⟩
    cases request <;> simp [view, device, enter, acceptedBy, removedBy, heldBy, uncoveredBy, WritePc.stored,
      ReadPc.removed]
  | @move s left right request call outcome s' call' moved =>
    simp only [view, total_middle] at balanced ⊢
    obtain ⟨label, stepped, explains⟩ := move_refines _ _ _ _ (move_cases moved) balanced
    refine ⟨label, stepped, ?_⟩
    cases label with
    | quiet => trivial
    | _ => exact ⟨call, outcome, mover_move s left right ⟨request, call⟩ outcome, explains⟩
  | environment happened =>
    exact ⟨.quiet, event_refines _ _ _ _ (environment_cases happened), trivial⟩

/-- A run of the device is a run of the conveyor. What the device's steps are
allowed to do decides what the conveyor's are permitted to do. -/
theorem reaches_refines {allowed : DeviceConfig → DeviceAct → Prop} {start config : DeviceConfig}
    (permits : Conveyor Message → Conveyor.Label → Prop) (initial : (view start).Balanced)
    (transfers : ∀ config act label, Reaches device allowed start config → allowed config act →
      Explained config act label → permits (view config) label)
    (reached : Reaches device allowed start config) :
    (view config).Balanced ∧ Conveyor.Reaches permits (view start) (view config) := by
  refine reached.induct (motive := fun config => (view config).Balanced ∧
    Conveyor.Reaches permits (view start) (view config)) ⟨initial, .refl⟩ ?_
  intro before act after reached ⟨balanced, sofar⟩ permitted taken
  obtain ⟨label, stepped, explained⟩ := step_refines balanced taken
  exact ⟨balanced.step stepped, sofar.tail ⟨label, transfers _ _ _ reached permitted explained, stepped⟩⟩

section Installed
variable {maxMessageSize maxStorageSize : UInt32} {msecsToJiffies : UInt32 → Nat} {delayWq : Bool}

theorem installed_balanced :
    (view (installed maxMessageSize maxStorageSize msecsToJiffies delayWq)).Balanced :=
  ⟨rfl, Nat.zero_le _, Nat.le_refl _⟩

theorem device_balanced {allowed config}
    (reached : Reaches device allowed (installed maxMessageSize maxStorageSize msecsToJiffies delayWq) config) :
    (view config).Balanced :=
  (reaches_refines (fun _ _ => True) installed_balanced (fun _ _ _ _ _ _ => trivial) reached).1

end Installed

end Tsm
