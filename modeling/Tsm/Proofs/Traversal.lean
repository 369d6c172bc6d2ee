import Tsm.Proofs.Conservation
import Tsm.Proofs.DelayList

/-! What a flush finds in `delay_list` while it traverses it. Works unlink themselves
under its hands; it still comes to every work that is armed, or is stopped by the
pointers of one that has gone. -/

namespace Tsm
open Interleaving KernelList Allocation

variable {maxMessageSize maxStorageSize : UInt32} {msecsToJiffies : UInt32 → Nat} {delayWq : Bool}

/-- A flush unlinks only works that are linked. The pointers of one that has been
unlinked are poisoned, and the thread that follows them is killed. -/
def VisitsLinked (config : DeviceConfig) (act : DeviceAct) : Prop :=
  ∀ moving ∈ mover config act, ∀ pos q, moving.1 = .revoke (.visit pos q) → pos ∈ config.shared.dev.delayList

theorem visitsLinked_enter (config : DeviceConfig) (request : Request) : VisitsLinked config (.enter request) := by
  simp [VisitsLinked, mover]

theorem visitsLinked_environment (config : DeviceConfig) (event : Event) : VisitsLinked config (.environment event) := by
  simp [VisitsLinked, mover]

/-! No work is listed twice. -/

def unlistedBy : Call → Multiset Nat
  | .write (.downWq _ work) | .write (.queueWork _ work) | .write (.listAdd _ work) => {work}
  | _ => 0

def ListedOnce (s : State) (unlisted : Multiset Nat) : Prop := Tracked id s.fresh (unlisted + s.dev.delayList)

section Steps
variable {s s' : State} {rest : Multiset Nat}

theorem write_listed {outcome pc pc'} (once : ListedOnce s (unlistedBy (.write pc) + rest))
    (step : WriteStep outcome s pc s' pc') : ListedOnce s' (unlistedBy (.write pc') + rest) := by
  cases step with
  | allocData allocated => exact once.skip
  | allocWork created allocated =>
    have once : ListedOnce s rest := by simpa [unlistedBy] using once
    have tracked := Tracked.alloc {s.fresh} once (Multiset.nodup_singleton _) (by simp)
    rwa [← add_assoc] at tracked
  | @listAdd msg work =>
    apply once.of_count
    intro other
    simp only [unlistedBy, listAdd, Multiset.count_add, Multiset.coe_count, List.count_cons, Multiset.count_singleton,
      Multiset.count_zero, beq_iff_eq, eq_comm (a := work)]
    omega
  | _ => exact once

theorem flush_listed {pc pc'} (once : ListedOnce s rest) (step : FlushStep s pc s' pc') : ListedOnce s' rest := by
  cases step with
  | visit =>
    refine once.of_le (Multiset.add_le_add_left ?_)
    exact Multiset.coe_le.mpr List.erase_sublist.subperm
  | _ => exact once

theorem event_listed {event} (once : ListedOnce s rest) (step : EventStep s event s') : ListedOnce s' rest := by
  cases step with
  | worker step =>
    cases step with
    | listDel running =>
      refine once.of_le (Multiset.add_le_add_left ?_)
      exact Multiset.coe_le.mpr List.erase_sublist.subperm
    | _ => exact once
  | _ => exact once

end Steps

theorem device_listed {allowed config}
    (reached : Reaches device allowed (installed maxMessageSize maxStorageSize msecsToJiffies delayWq) config) :
    ListedOnce config.shared (total unlistedBy config.calls) := by
  refine (reached.outline unlistedBy ListedOnce (fun _ _ => True) ⟨Tracked.empty, by simp⟩ ?_ ?_ ?_).1
  · intro _ request
    cases request <;> exact ⟨rfl, trivial⟩
  · intro s left right request call outcome s' call' _ _ once _ _ moved
    refine ⟨?_, trivial, fun _ _ => trivial⟩
    cases move_cases moved with
    | write step => exact write_listed once step
    | read step => cases step <;> exact once
    | setSendDelay step => cases step <;> exact once
    | revoke step => exact flush_listed once step
  · intro s calls event s' _ _ once _ happened
    exact ⟨event_listed once (environment_cases happened), fun _ _ => trivial⟩

theorem ListedOnce.nodup {s : State} {unlisted : Multiset Nat} (once : ListedOnce s unlisted) : s.dev.delayList.Nodup :=
  Multiset.coe_nodup.mp (Multiset.nodup_add.mp once.distinct).2.1

/-! Armed timers belong to listed works, or to one that is about to be listed or flushed. -/

def Armed (s : State) (others : List Nat) : Prop :=
  ∀ work ∈ s.wq.timers, work.id ∈ s.dev.delayList ∨ work.id ∈ others

/-- A traversal goes on from the last work of the list, or from one that has unlinked itself. -/
def Follows (delayList unlinked : List Nat) (q : Option Nat) : Prop :=
  delayList.getLast? = q ∨ ∃ work ∈ q, work ∉ delayList ∧ work ∈ unlinked

theorem Follows.mono {delayList unlinked : List Nat} {q : Option Nat} (follows : Follows delayList unlinked q)
    (work : Nat) : Follows delayList (unlinked ++ [work]) q :=
  follows.imp_right fun ⟨lost, saved, absent, known⟩ => ⟨lost, saved, absent, List.mem_append_left _ known⟩

/-- If the work that unlinks itself is the one the traversal would go on from, that is lost. -/
theorem Follows.unlink {delayList unlinked : List Nat} {q : Option Nat} (follows : Follows delayList unlinked q)
    (distinct : delayList.Nodup) (work : Nat) : Follows (listDel work delayList) (unlinked ++ [work]) q := by
  rcases follows with last | ⟨lost, saved, absent, known⟩
  · by_cases same : delayList.getLast? = some work
    · refine .inr ⟨work, last ▸ same, distinct.not_mem_erase, by simp⟩
    · exact .inl ((getLast?_listDel_of_ne same).trans last)
  · exact .inr ⟨lost, saved, fun member => absent (List.mem_of_mem_erase member), List.mem_append_left _ known⟩

/-- What a call knows of the listed works while it holds `wq_sem`. -/
def Finds (s : State) : Call → Prop
  | .write (.queueWork _ _) | .write (.upWq _) => Armed s []
  | .write (.listAdd _ work) => Armed s [work]
  | .revoke (.visit pos q) => Armed s [] ∧ (pos ∈ s.dev.delayList ∨ pos ∈ s.history.unlinked) ∧
    (pos ∈ s.dev.delayList → Follows (listDel pos s.dev.delayList) s.history.unlinked q)
  | .revoke (.flush pos q) => Armed s [pos] ∧ Follows s.dev.delayList s.history.unlinked q
  | .revoke (.wait _ q) | .revoke (.next q) => Armed s [] ∧ Follows s.dev.delayList s.history.unlinked q
  | .revoke .drain => s.wq.timers = []
  | .revoke .setFlushing | .revoke .testEmpty | .revoke .clearFlushing | .revoke .upWq => Armed s []
  | _ => True

def ArmedUp (s : State) : Prop := s.dev.wqSem ≠ 0 → Armed s []

theorem finds_outside {s : State} {call : Call} (outside : call.inside = 0) : Finds s call := by
  rcases call with pc | pc | pc | pc
  · cases pc <;> trivial
  · trivial
  · trivial
  · cases pc <;> trivial

section Traversal
variable {s s' : State} {others : List Nat}

theorem Armed.none (armed : Armed s []) (empty : s.dev.delayList = []) : s.wq.timers = [] := by
  apply List.eq_nil_iff_forall_not_mem.mpr
  intro work timer
  have listed := armed work timer
  simp [empty] at listed

theorem Armed.of_timers (armed : Armed s others) (timers : s'.wq.timers ⊆ s.wq.timers)
    (delayList : s'.dev.delayList = s.dev.delayList) : Armed s' others := by
  intro work timer
  rw [delayList]
  exact armed work (timers timer)

/-- The timer of the flushed work is cancelled, the others stay armed. -/
theorem mem_timers_flushDelayedWork {wq : Workqueue} (distinct : (wq.timers.map Work.id).Nodup) {pos : Nat}
    {work : Work} (timer : work ∈ (wq.flushDelayedWork pos).timers) : work ∈ wq.timers ∧ work.id ≠ pos := by
  unfold Workqueue.flushDelayedWork at timer
  split at timer
  next none => exact ⟨timer, by simpa using List.find?_eq_none.mp none work timer⟩
  next found some =>
    have kept := List.mem_of_mem_erase timer
    refine ⟨kept, fun same => ?_⟩
    have cancelled : found.id = pos := by simpa using List.find?_some some
    have equal := List.inj_on_of_nodup_map distinct kept (List.mem_of_find?_eq_some some) (same.trans cancelled.symm)
    subst equal
    exact (distinct.of_map _).not_mem_erase timer

theorem write_finds {outcome pc pc'} (exclusive : s.dev.wqSem + (Call.write pc).inside ≤ 1) (up : ArmedUp s)
    (finds : Finds s (.write pc)) (step : WriteStep outcome s pc s' pc') : ArmedUp s' ∧ Finds s' (.write pc') := by
  cases step with
  | downWq positive => exact ⟨fun _ => up positive, up positive⟩
  | @queueWork msg work =>
    have down : s.dev.wqSem = 0 := by
      simp only [Call.inside] at exclusive
      omega
    refine ⟨fun positive => absurd down positive, fun other timer => ?_⟩
    unfold Workqueue.queueDelayedWork at timer
    split at timer
    · exact .inl ((finds other timer).resolve_right List.not_mem_nil)
    · rcases List.mem_cons.mp timer with rfl | timer
      · exact .inr (List.mem_singleton_self _)
      · exact .inl ((finds other timer).resolve_right List.not_mem_nil)
  | @listAdd msg work =>
    have armed : Armed { s with dev.delayList := listAdd work s.dev.delayList } [] := by
      intro other timer
      rcases finds other timer with listed | own
      · exact .inl (List.mem_cons_of_mem _ listed)
      · exact .inl (List.mem_cons.mpr (.inl (List.mem_singleton.mp own)))
    exact ⟨fun _ => armed, armed⟩
  | upWq => exact ⟨fun _ => finds, trivial⟩
  | _ => exact ⟨up, trivial⟩

theorem flush_finds {pc pc'} (exclusive : s.dev.wqSem + (Call.revoke pc).inside ≤ 1) (up : ArmedUp s)
    (finds : Finds s (.revoke pc)) (distinct : s.dev.delayList.Nodup) (timers : (s.wq.timers.map Work.id).Nodup)
    (linked : ∀ pos q, pc = .visit pos q → pos ∈ s.dev.delayList) (step : FlushStep s pc s' pc') :
    ArmedUp s' ∧ Finds s' (.revoke pc') := by
  cases step with
  | downWq positive => exact ⟨fun _ => up positive, up positive⟩
  | setFlushing | clearFlushing => exact ⟨fun _ => finds, finds⟩
  | testEmpty empty => exact ⟨up, Armed.none finds empty⟩
  | first last =>
    exact ⟨up, finds, .inl (List.mem_of_getLast? last), fun _ => .inl (getLast?_listDel_last distinct last)⟩
  | @visit pos q =>
    have down : s.dev.wqSem = 0 := by
      simp only [Call.inside] at exclusive
      omega
    refine ⟨fun positive => absurd down positive, fun work timer => ?_, (finds.2.2 (linked pos q rfl)).mono pos⟩
    by_cases same : work.id = pos
    · exact .inr (List.mem_singleton.mpr same)
    · exact .inl ((List.mem_erase_of_ne same).mpr ((finds.1 work timer).resolve_right List.not_mem_nil))
  | @flush pos q =>
    have armed : Armed { s with wq := s.wq.flushDelayedWork pos } [] := by
      intro work timer
      obtain ⟨timer, other⟩ := mem_timers_flushDelayedWork timers timer
      exact .inl ((finds.1 work timer).resolve_right fun same => other (List.mem_singleton.mp same))
    exact ⟨fun _ => armed, armed, finds.2⟩
  | wait finished => exact ⟨up, finds⟩
  | last =>
    obtain ⟨armed, last | ⟨lost, saved, _⟩⟩ := finds
    · exact ⟨up, armed.none (List.getLast?_eq_none_iff.mp last)⟩
    · cases saved
  | next =>
    obtain ⟨armed, last | ⟨lost, saved, absent, known⟩⟩ := finds
    · exact ⟨up, armed, .inl (List.mem_of_getLast? last), fun _ => .inl (getLast?_listDel_last distinct last)⟩
    · cases saved
      exact ⟨up, armed, .inr known, fun member => absurd member absent⟩
  | drain drained =>
    refine ⟨up, fun work timer => ?_⟩
    rw [show s.wq.timers = [] from finds] at timer
    cases timer
  | upWq => exact ⟨fun _ => finds, trivial⟩
  | _ => exact ⟨up, trivial⟩

theorem Finds.of_timers {call : Call} (finds : Finds s call) (timers : s'.wq.timers ⊆ s.wq.timers)
    (delayList : s'.dev.delayList = s.dev.delayList) (unlinked : s'.history.unlinked = s.history.unlinked) :
    Finds s' call := by
  rcases call with pc | pc | pc | pc
  · cases pc with
    | queueWork _ _ | upWq _ | listAdd _ _ => exact Armed.of_timers finds timers delayList
    | _ => trivial
  · trivial
  · trivial
  · cases pc with
    | visit _ _ | flush _ _ | wait _ _ | next _ =>
      refine ⟨finds.1.of_timers timers delayList, ?_⟩
      rw [delayList, unlinked]
      exact finds.2
    | drain => exact List.subset_nil.mp (finds ▸ timers)
    | setFlushing | testEmpty | clearFlushing | upWq => exact Armed.of_timers finds timers delayList
    | _ => trivial

/-- A work that is not armed can leave the list. -/
theorem Finds.unlink {call : Call} {work : Nat} (finds : Finds s call) (distinct : s.dev.delayList.Nodup)
    (timers : s'.wq.timers = s.wq.timers) (delayList : s'.dev.delayList = listDel work s.dev.delayList)
    (unlinked : s'.history.unlinked = s.history.unlinked ++ [work]) (unarmed : work ∉ s.wq.timers.map Work.id) :
    Finds s' call := by
  have armed : ∀ {others}, Armed s others → Armed s' others := by
    intro others armed other timer
    rw [timers] at timer
    have apart : other.id ≠ work := fun same => unarmed (same ▸ List.mem_map_of_mem timer)
    rw [delayList]
    exact (armed other timer).imp_left fun listed => (List.mem_erase_of_ne apart).mpr listed
  rcases call with pc | pc | pc | pc
  · cases pc with
    | queueWork _ _ | upWq _ | listAdd _ _ => exact armed finds
    | _ => trivial
  · trivial
  · trivial
  · cases pc with
    | visit pos q =>
      refine ⟨armed finds.1, ?_⟩
      rw [delayList, unlinked]
      refine ⟨?_, fun member => ?_⟩
      · by_cases same : pos = work
        · exact .inr (by simp [same])
        · exact finds.2.1.imp (List.mem_erase_of_ne same).mpr (List.mem_append_left _)
      · have follows := finds.2.2 (List.mem_of_mem_erase member)
        rw [listDel, listDel, List.erase_comm]
        exact follows.unlink (distinct.erase pos) work
    | flush _ _ | wait _ _ | next _ =>
      refine ⟨armed finds.1, ?_⟩
      rw [delayList, unlinked]
      exact finds.2.unlink distinct work
    | drain => exact timers.trans finds
    | setFlushing | testEmpty | clearFlushing | upWq => exact armed finds
    | _ => trivial

/-- Timers differ from each other and from the work the thread executes. -/
theorem timers_nodup {wq : Workqueue} (works : wq.works.Nodup) : (wq.timers.map Work.id).Nodup :=
  (List.nodup_append.mp (List.nodup_append.mp works).1).1

theorem running_unarmed {wq : Workqueue} (works : wq.works.Nodup) {work pc} (running : wq.running = some (work, pc)) :
    work.id ∉ wq.timers.map Work.id := by
  intro timer
  exact (List.nodup_append.mp works).2.2 _ (List.mem_append_left _ timer) _ (by simp [running]) rfl

theorem event_finds {event} {calls : List (Process Request Call)} (up : ArmedUp s)
    (distinct : s.dev.delayList.Nodup) (works : s.wq.works.Nodup)
    (finds : ∀ process ∈ calls, Finds s process.state) (step : EventStep s event s') :
    s'.dev.wqSem = s.dev.wqSem ∧ ArmedUp s' ∧ ∀ process ∈ calls, Finds s' process.state := by
  have same : s'.dev.wqSem = s.dev.wqSem → s'.wq.timers ⊆ s.wq.timers → s'.dev.delayList = s.dev.delayList →
      s'.history.unlinked = s.history.unlinked → s'.dev.wqSem = s.dev.wqSem ∧ ArmedUp s' ∧ ∀ process ∈ calls, Finds s' process.state := by
    intro sem timers delayList unlinked
    refine ⟨sem, fun positive => (up (sem ▸ positive)).of_timers timers delayList, fun process member => ?_⟩
    exact (finds process member).of_timers timers delayList unlinked
  cases step with
  | expire armed expired => exact same rfl List.erase_subset rfl rfl
  | worker step =>
    cases step with
    | @listDel work running =>
      have unarmed := running_unarmed works running
      refine ⟨rfl, fun positive => ?_, fun process member => ?_⟩
      · exact (show Finds s (.revoke .upWq) from up positive).unlink distinct rfl rfl rfl unarmed
      · exact (finds process member).unlink distinct rfl rfl rfl unarmed
    | _ => exact same rfl (List.Subset.refl _) rfl rfl
  | _ => exact same rfl (List.Subset.refl _) rfl rfl

theorem finds_stable {outcome call call' other} (step : MoveStep outcome s call s' call')
    (outside : call.inside = 0) (finds : Finds s other) : Finds s' other := by
  cases step with
  | write step => cases step <;> first | exact finds.of_timers (List.Subset.refl _) rfl rfl | cases outside
  | read step => cases step <;> exact finds.of_timers (List.Subset.refl _) rfl rfl
  | setSendDelay step => cases step <;> exact finds.of_timers (List.Subset.refl _) rfl rfl
  | revoke step => cases step <;> first | exact finds.of_timers (List.Subset.refl _) rfl rfl | cases outside

end Traversal

theorem device_finds {config}
    (reached : Reaches device VisitsLinked (installed maxMessageSize maxStorageSize msecsToJiffies delayWq) config) :
    ∀ process ∈ config.calls, Finds config.shared process.state := by
  refine (reached.semaphore (fun s => s.dev.wqSem) Call.inside ArmedUp Finds (fun _ _ => finds_outside)
    ⟨rfl, rfl, fun _ _ timer => (List.not_mem_nil timer).elim⟩ ?_ ?_ ?_).2
  · intro request
    cases request <;> rfl
  · intro s left right request call outcome s' call' reached permitted exclusive up finds moved
    have step := move_cases moved
    have linked : ∀ pos q, call = .revoke (.visit pos q) → pos ∈ s.dev.delayList :=
      permitted (call, outcome) (mover_move _ _ _ _ _)
    have stable : call.inside = 0 → call'.inside = 0 → ∀ other, Finds s other → Finds s' other :=
      fun outside _ other => finds_stable step outside
    suffices ArmedUp s' ∧ Finds s' call' from ⟨move_keeps_wqSem step, this.1, this.2, stable⟩
    cases step with
    | write step => exact write_finds exclusive up finds step
    | read step => cases step <;> exact ⟨up, trivial⟩
    | setSendDelay step => cases step <;> exact ⟨up, trivial⟩
    | revoke step =>
      refine flush_finds exclusive up finds (device_listed reached).nodup (timers_nodup (device_owned reached).works_nodup) ?_ step
      exact fun pos q same => linked pos q (congrArg Call.revoke same)
  · intro s calls event s' reached _ up finds happened
    exact event_finds up (device_listed reached).nodup (device_owned reached).works_nodup finds (environment_cases happened)

end Tsm
