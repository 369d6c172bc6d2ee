import Tsm.Lib.Allocation
import Tsm.Proofs.Refinement

/-! Every object the driver allocates has one owner: a call, a list, the
workqueue, or nobody once it is freed. This holds of every run. -/

namespace Tsm
open Interleaving KernelList Allocation

/-- What a write has allocated and neither published nor freed. A message gets its
number with its buffer, before it is allocated itself. -/
def WritePc.draft : WritePc → List Obj
  | .allocMsg _ _ id | .critical _ _ id | .msgFail id _ => [.message id, .data id]
  | .dataFail id _ => [.data id]
  | .pend msg => msg.objects
  | _ => []

/-- The work a write has allocated and not queued. -/
def WritePc.unqueued : WritePc → List Nat
  | .downWq _ work | .queueWork _ work => [work]
  | _ => []

/-- What a read has unlinked and not freed. -/
def ReadPc.unlinked : ReadPc → List Obj
  | .copyToUser msg _ | .print msg _ _ | .freeData msg _ _ => msg.objects
  | .freeMsg msg _ _ => [.message msg.id]
  | .entry _ | .done _ _ _ => []

def Call.owned : Call → List Obj
  | .write pc => pc.draft ++ pc.unqueued.map .work
  | .read pc => pc.unlinked
  | .setSendDelay _ | .revoke _ => []

def ownedBy (call : Call) : Multiset Obj := call.owned

/-- The works that wait for their timer or for the thread. -/
def Workqueue.waiting (wq : Workqueue) : List Nat := wq.timers.map Work.id ++ wq.queue.map Work.id

/-- All works a workqueue knows of, the one it executes included. -/
def Workqueue.works (wq : Workqueue) : List Nat := wq.waiting ++ wq.running.toList.map (·.1.id)

/-- Messages that no call owns. -/
def State.listed (s : State) : List Message := s.dev.pendingList ++ s.wq.carried ++ s.dev.messageList

def State.objects (s : State) : List Obj :=
  s.listed.flatMap Message.objects ++ s.wq.works.map .work ++ s.freed

/-- Every object in use has one owner, the calls owning `owned` in all. -/
def Owned (s : State) (owned : Multiset Obj) : Prop := Tracked Obj.id s.fresh (owned + s.objects)

/-- Objects may change hands, and owners may forget them. -/
theorem Owned.of_count {s s' : State} {owned owned' : Multiset Obj} (known : Owned s owned)
    (fewer : ∀ obj, owned'.count obj + s'.objects.count obj ≤ owned.count obj + s.objects.count obj)
    (fresh : s'.fresh = s.fresh) : Owned s' owned' := by
  unfold Owned at known ⊢
  rw [fresh]
  exact known.of_count fun obj => by simpa using fewer obj

theorem Owned.alloc {s : State} {owned : Multiset Obj} (known : Owned s owned) {new : List Obj}
    (distinct : new.Nodup) (numbers : ∀ obj ∈ new, obj.id = s.fresh) :
    Owned { s with fresh := s.fresh + 1 } (new + owned) := by
  have tracked := Tracked.alloc (new : Multiset Obj) known (Multiset.coe_nodup.mpr distinct) numbers
  rwa [← add_assoc] at tracked

theorem Owned.not_freed {s : State} {owned : Multiset Obj} (known : Owned s owned) {obj : Obj}
    (mine : obj ∈ owned) : obj ∉ s.freed :=
  fun freed => Tracked.apart known mine (by simp [State.objects, State.listed, freed])

/-- A work the workqueue knows of is not freed, and no call owns it. -/
theorem Owned.works {s : State} {owned : Multiset Obj} (known : Owned s owned) {work : Nat}
    (member : work ∈ s.wq.works) : .work work ∉ owned ∧ .work work ∉ s.freed := by
  have inside : Obj.work work ∈ s.wq.works.map Obj.work := List.mem_map_of_mem member
  have held : Obj.work work ∈ s.objects := List.mem_append_left _ (List.mem_append_right _ inside)
  have objects : s.objects.Nodup := Multiset.coe_nodup.mp (Multiset.nodup_add.mp known.distinct).2.1
  refine ⟨fun mine => known.apart mine held, fun freed => ?_⟩
  exact (List.nodup_append.mp objects).2.2 _ (List.mem_append_right _ inside) _ freed rfl

theorem Owned.listed {s : State} {owned : Multiset Obj} (known : Owned s owned) {msg : Message} {obj : Obj}
    (listed : msg ∈ s.listed) (member : obj ∈ msg.objects) :
    obj ∉ owned ∧ obj ∉ s.freed ∧ obj.id < s.fresh := by
  have inside : obj ∈ s.listed.flatMap Message.objects := List.mem_flatMap.mpr ⟨msg, listed, member⟩
  have held : obj ∈ s.objects := List.mem_append_left _ (List.mem_append_left _ inside)
  have objects : s.objects.Nodup := Multiset.coe_nodup.mp (Multiset.nodup_add.mp known.distinct).2.1
  refine ⟨fun mine => known.apart mine held, ?_, known.numbered obj (Multiset.mem_add.mpr (.inr held))⟩
  exact fun freed => (List.nodup_append.mp objects).2.2 obj (List.mem_append_left _ inside) obj freed rfl

theorem Owned.freed_nodup {s : State} {owned : Multiset Obj} (known : Owned s owned) : s.freed.Nodup := by
  have objects : s.objects.Nodup := Multiset.coe_nodup.mp (Multiset.nodup_add.mp known.distinct).2.1
  exact (List.nodup_append.mp objects).2.1

theorem Owned.works_nodup {s : State} {owned : Multiset Obj} (known : Owned s owned) : s.wq.works.Nodup := by
  have objects : s.objects.Nodup := Multiset.coe_nodup.mp (Multiset.nodup_add.mp known.distinct).2.1
  exact (List.nodup_append.mp (List.nodup_append.mp objects).1).2.1.of_map _

/-! The steps. -/

namespace Workqueue

theorem waiting_queueDelayedWork (wq : Workqueue) (id now delay : Nat) :
    (wq.queueDelayedWork id now delay).waiting.Perm (id :: wq.waiting) := by
  unfold queueDelayedWork
  split
  · simp only [waiting, List.map_append, List.map_cons, List.map_nil, ← List.append_assoc]
    exact List.perm_append_singleton id _
  · exact .refl _

theorem waiting_expire {wq : Workqueue} {work : Work} (armed : work ∈ wq.timers) :
    (wq.expire work).waiting.Perm wq.waiting := by
  have before := (List.perm_cons_erase armed).map Work.id
  simp only [waiting, expire, List.map_append, List.map_cons, List.map_nil, ← List.append_assoc]
  apply (List.perm_append_singleton _ _).trans
  exact (before.append_right (wq.queue.map Work.id)).symm

theorem waiting_flushDelayedWork (wq : Workqueue) (id : Nat) :
    (wq.flushDelayedWork id).waiting.Perm wq.waiting := by
  unfold flushDelayedWork
  split
  · exact .refl _
  next work found => exact waiting_expire (List.mem_of_find?_eq_some found)

end Workqueue

section Steps
variable {s s' : State} {rest : Multiset Obj}

private theorem count_perm {works works' : List Nat} (perm : works'.Perm works) (obj : Obj) :
    (works'.map Obj.work).count obj = (works.map Obj.work).count obj :=
  (perm.map Obj.work).count_eq obj

theorem write_owned {outcome pc pc'} (known : Owned s (ownedBy (.write pc) + rest))
    (step : WriteStep outcome s pc s' pc') : Owned s' (ownedBy (.write pc') + rest) := by
  cases step with
  | allocData allocated =>
    have known : Owned s rest := by
      simpa [ownedBy, Call.owned, WritePc.draft, WritePc.unqueued] using known
    exact known.alloc (by simp [Call.owned, WritePc.draft, WritePc.unqueued])
      (by simp [Call.owned, WritePc.draft, WritePc.unqueued, Obj.id])
  | allocWork created allocated =>
    have known : Owned s rest := by
      simpa [ownedBy, Call.owned, WritePc.draft, WritePc.unqueued] using known
    exact known.alloc (by simp [Call.owned, WritePc.draft, WritePc.unqueued])
      (by simp [Call.owned, WritePc.draft, WritePc.unqueued, Obj.id])
  | @queueWork msg work =>
    refine known.of_count (fun obj => ?_) rfl
    have same := count_perm (s.wq.waiting_queueDelayedWork work s.jiffies s.dev.delay) obj
    simp only [ownedBy, Call.owned, WritePc.draft, WritePc.unqueued, State.objects, State.listed, Workqueue.carried,
      Workqueue.works, Workqueue.running_queueDelayedWork, List.map_append, List.count_append, Multiset.count_add,
      Multiset.coe_count, List.map_cons, List.map_nil, List.count_cons, List.count_nil] at same ⊢
    omega
  | noMsg failed | delayed room copied delay | immediate room copied noDelay | pend | msgFail | dataFail =>
    refine known.of_count (fun obj => ?_) rfl
    simp only [ownedBy, Call.owned, WritePc.draft, WritePc.unqueued, State.objects, State.listed, listAdd, newMessage,
      Message.objects, List.flatMap_append, List.flatMap_cons, List.count_append, Multiset.count_add,
      Multiset.coe_count, List.map_nil, List.count_cons, List.count_nil]
    omega
  | _ => exact known

theorem read_owned {outcome pc pc'} (known : Owned s (ownedBy (.read pc) + rest))
    (step : ReadStep outcome s pc s' pc') : Owned s' (ownedBy (.read pc') + rest) := by
  cases step with
  | remove last =>
    refine known.of_count (fun obj => ?_) rfl
    simp only [ownedBy, Call.owned, ReadPc.unlinked, State.objects, State.listed, last, Message.objects,
      List.flatMap_append, List.flatMap_cons, List.flatMap_nil, List.count_append, Multiset.count_add,
      Multiset.coe_count, List.count_cons, List.count_nil]
    omega
  | fault failed | freeData | freeMsg =>
    refine known.of_count (fun obj => ?_) rfl
    simp only [ownedBy, Call.owned, ReadPc.unlinked, State.objects, State.listed, Message.objects, List.count_append,
      Multiset.count_add, Multiset.coe_count, List.count_cons, List.count_nil]
    omega
  | _ => exact known

theorem flush_owned {pc pc'} (known : Owned s rest) (step : FlushStep s pc s' pc') : Owned s' rest := by
  cases step with
  | splice =>
    refine known.of_count (fun obj => ?_) rfl
    simp only [State.objects, State.listed, listSpliceTail, List.flatMap_append, List.flatMap_nil, List.count_append,
      List.count_nil]
    omega
  | @flush pos q =>
    refine known.of_count (fun obj => ?_) rfl
    have same := count_perm (s.wq.waiting_flushDelayedWork pos) obj
    simp only [State.objects, State.listed, Workqueue.carried, Workqueue.works, Workqueue.running_flushDelayedWork,
      List.map_append, List.count_append]
    omega
  | _ => exact known

theorem worker_owned (known : Owned s rest) (step : WorkerStep s s') : Owned s' rest := by
  cases step with
  | start idle queued | popEmpty running empty | pop running last | insert running | print running
  | flushing running flag | notFlushing running flag | listDel running | free running =>
    refine known.of_count (fun obj => ?_) rfl
    simp only [State.objects, State.listed, Workqueue.works, Workqueue.waiting, Workqueue.carried, carriedBy,
      listAdd, *, List.flatMap_append, List.flatMap_cons, List.flatMap_nil, List.map_append, List.map_cons,
      List.map_nil, Option.toList_some, Option.toList_none, List.count_append, List.count_cons, List.count_nil]
    omega

theorem event_owned {event} (known : Owned s rest) (step : EventStep s event s') : Owned s' rest := by
  cases step with
  | expire armed expired =>
    refine known.of_count (fun obj => ?_) rfl
    have same := count_perm (Workqueue.waiting_expire armed) obj
    simp only [State.objects, State.listed, Workqueue.carried, Workqueue.works, Workqueue.running_expire,
      List.map_append, List.count_append]
    omega
  | worker step => exact worker_owned known step
  | _ => exact known

end Steps

variable {maxMessageSize maxStorageSize : UInt32} {msecsToJiffies : UInt32 → Nat} {delayWq : Bool}

theorem device_owned {allowed config}
    (reached : Reaches device allowed (installed maxMessageSize maxStorageSize msecsToJiffies delayWq) config) :
    Owned config.shared (total ownedBy config.calls) := by
  refine (reached.outline ownedBy Owned (fun _ _ => True) ⟨Tracked.empty, by simp⟩ ?_ ?_ ?_).1
  · intro _ request
    cases request <;> exact ⟨rfl, trivial⟩
  · intro s left right request call outcome s' call' _ _ known _ _ moved
    refine ⟨?_, trivial, fun _ _ => trivial⟩
    cases move_cases moved with
    | write step => exact write_owned known step
    | read step => exact read_owned known step
    | setSendDelay step => cases step <;> exact known
    | revoke step => exact flush_owned known step
  · intro s calls event s' _ _ known _ happened
    exact ⟨event_owned known (environment_cases happened), fun _ _ => trivial⟩

theorem owned_not_freed {allowed config}
    (reached : Reaches device allowed (installed maxMessageSize maxStorageSize msecsToJiffies delayWq) config)
    {process} (member : process ∈ config.calls) {obj} (mine : obj ∈ process.state.owned) :
    obj ∉ config.shared.freed :=
  (device_owned reached).not_freed (mem_total.mpr ⟨process, member, mine⟩)

end Tsm
