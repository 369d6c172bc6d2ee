import Tsm.Device.Links
import Tsm.Proofs.Traversal

/-! The pointers of `delay_list` hold the sequence that the device records, as long as
no two operations on them overlap. -/

namespace Tsm
open Interleaving KernelList KernelLinks Accesses Allocation

variable {maxMessageSize maxStorageSize : UInt32} {msecsToJiffies : UInt32 → Nat} {delayWq : Bool}

def LinkState.Holds (s : LinkState) : Prop := Ring s.links s.device.dev.delayList s.device.history.unlinked

section Steps
variable {s s' : State} {outcome : Outcome} {call call' : Call}

theorem move_keeps_list (step : MoveStep outcome s call s' call') (notAdd : ∀ msg work, call ≠ .write (.listAdd msg work))
    (notVisit : ∀ pos q, call ≠ .revoke (.visit pos q)) :
    s'.dev.delayList = s.dev.delayList ∧ s'.history.unlinked = s.history.unlinked := by
  cases step with
  | write step =>
    cases step with
    | listAdd => exact absurd rfl (notAdd _ _)
    | _ => exact ⟨rfl, rfl⟩
  | read step => cases step <;> exact ⟨rfl, rfl⟩
  | setSendDelay step => cases step <;> exact ⟨rfl, rfl⟩
  | revoke step =>
    cases step with
    | visit => exact absurd rfl (notVisit _ _)
    | _ => exact ⟨rfl, rfl⟩

theorem environment_keeps_list {event : Event} (step : EventStep s event s') :
    (s'.dev.delayList = s.dev.delayList ∧ s'.history.unlinked = s.history.unlinked ∧
        (event = .worker → s.unlinking = none)) ∨
      ∃ work, event = .worker ∧ s.unlinking = some work ∧ s'.dev.delayList = listDel work s.dev.delayList ∧
        s'.history.unlinked = s.history.unlinked ++ [work] := by
  cases step with
  | worker step =>
    cases step with
    | listDel running => exact .inr ⟨_, rfl, by simp [State.unlinking, running], rfl, rfl⟩
    | start running | popEmpty running | pop running | insert running | print running | flushing running
    | notFlushing running | free running => exact .inl ⟨rfl, rfl, fun _ => by simp [State.unlinking, running]⟩
  | _ => exact .inl ⟨rfl, rfl, by simp⟩

/-- On a ring, the pointers lead a flush and the writers to where the sequence does. -/
theorem linkedMove_simulates {l l' : LinkState} (ring : l.Holds) (finds : Finds l.device call)
    (fresh : ∀ msg work, call = .write (.listAdd msg work) → work ∉ l.device.dev.delayList)
    (moved : linkedMove outcome l call = some (l', call')) :
    l'.Holds ∧ device.move outcome l.device call = some (l'.device, call') ∧
      ∀ pos q, call = .revoke (.visit pos q) → pos ∈ l.device.dev.delayList := by
  unfold linkedMove at moved
  split at moved
  next msg work =>
    cases moved
    exact ⟨ring.insert (fresh msg work rfl), rfl, by simp⟩
  next =>
    split at moved
    next empty =>
      cases moved
      have none : l.device.dev.delayList = [] := ring.next_head.mp empty
      exact ⟨ring, by simp [device, move, fflushWorkqueue, none], by simp⟩
    next entries =>
      have last : (l.links.prev .head).item = l.device.dev.delayList.getLast? := ring.path.prev_last
      split at moved
      next head =>
        have none : l.device.dev.delayList = [] := List.getLast?_eq_none_iff.mp (last.symm.trans (by rw [head]; rfl))
        exact absurd (ring.next_head.mpr none) entries
      next pos entry =>
        cases moved
        have found : l.device.dev.delayList.getLast? = some pos := last.symm.trans (by rw [entry]; rfl)
        rw [ring.prev_entry (.inl (List.mem_of_getLast? found))]
        exact ⟨ring, by simp [device, move, fflushWorkqueue, found], by simp⟩
      · cases moved
  next pos q =>
    split at moved
    · cases moved
    next links deleted =>
      cases moved
      refine ⟨ring.delete deleted, rfl, fun pos' q' same => ?_⟩
      cases same
      exact ring.mem_of_delete deleted finds.2.1
  next pos =>
    cases moved
    have known : pos ∈ l.device.dev.delayList ∨ pos ∈ l.device.history.unlinked := by
      rcases finds.2 with last | ⟨lost, saved, _, unlinked⟩
      · exact .inl (List.mem_of_getLast? last)
      · cases saved
        exact .inr unlinked
    rw [ring.prev_entry known]
    exact ⟨ring, rfl, by simp⟩
  next notAdd _ notVisit _ =>
    obtain ⟨⟨d, c⟩, stepped, equal⟩ := Option.map_eq_some_iff.mp moved
    cases equal
    obtain ⟨delayList, unlinked⟩ := move_keeps_list (move_cases stepped) notAdd notVisit
    refine ⟨?_, stepped, fun pos q same => absurd same (notVisit pos q)⟩
    rw [LinkState.Holds, delayList, unlinked]
    exact ring

theorem linkedEnvironment_simulates {l l' : LinkState} {event : Event} (ring : l.Holds)
    (happened : linkedEnvironment event l = some l') :
    l'.Holds ∧ device.environment event l.device = some l'.device := by
  unfold linkedEnvironment at happened
  split at happened
  next work unlinking =>
    split at happened
    · cases happened
    next links deleted =>
      obtain ⟨d, stepped, equal⟩ := Option.map_eq_some_iff.mp happened
      cases equal
      refine ⟨?_, stepped⟩
      rcases environment_keeps_list (environment_cases stepped) with ⟨_, _, other⟩ | ⟨same, _, leaves, delayList, unlinked⟩
      · exact absurd (unlinking.symm.trans (other rfl)) (by simp)
      · cases unlinking.symm.trans leaves
        rw [LinkState.Holds, delayList, unlinked]
        exact ring.delete deleted
  next outside =>
    obtain ⟨d, stepped, equal⟩ := Option.map_eq_some_iff.mp happened
    cases equal
    refine ⟨?_, stepped⟩
    rcases environment_keeps_list (environment_cases stepped) with ⟨delayList, unlinked, _⟩ | ⟨work, same, leaves, _⟩
    · rw [LinkState.Holds, delayList, unlinked]
      exact ring
    · exact (outside work same leaves).elim

end Steps

/-- A run of the linked device is one of the device itself, in which a flush unlinks
only works that are linked. -/
theorem linked_simulates {start config : Config LinkState Request Call}
    (entered : Reaches device VisitsLinked (installed maxMessageSize maxStorageSize msecsToJiffies delayWq)
      (project LinkState.device id start)) (ring : start.shared.Holds) (reached : Reaches linkedDevice Anything start config) :
    config.shared.Holds ∧
      Reaches device VisitsLinked (project LinkState.device id start) (project LinkState.device id config) := by
  refine reached.simulate LinkState.device id LinkState.Holds ring ?_ ?_ ?_
  · exact fun request => ⟨rfl, fun config => visitsLinked_enter config request⟩
  · intro s left right request call outcome s' call' _ ring simulated moved
    have reached := entered.trans simulated
    have finds : Finds s.device call := device_finds reached ⟨request, call⟩ (by simp [project])
    have fresh : ∀ msg work, call = .write (.listAdd msg work) → work ∉ s.device.dev.delayList := by
      rintro msg work rfl listed
      have adding : ⟨request, .write (.listAdd msg work)⟩ ∈ (project LinkState.device id
          ⟨s, left ++ ⟨request, .write (.listAdd msg work)⟩ :: right⟩).calls := by simp [project]
      have unlisted : work ∈ unlistedBy (.write (.listAdd msg work)) := Multiset.mem_singleton_self work
      exact Tracked.apart (device_listed reached) (mem_total.mpr ⟨_, adding, unlisted⟩) listed
    obtain ⟨ring', moved', linked⟩ := linkedMove_simulates ring finds fresh moved
    refine ⟨ring', .inr ⟨moved', ?_⟩⟩
    rintro moving member pos q visits
    have same : (call, outcome) = moving := by simpa [mover, project] using member
    subst same
    exact linked pos q visits
  · intro s calls event s' _ ring _ happened
    obtain ⟨ring', happened'⟩ := linkedEnvironment_simulates ring happened
    exact ⟨ring', happened', visitsLinked_environment _ _⟩

/-- So is a run of the device with its pointers, if no accesses overlap. -/
theorem pointers_simulate {start config : PointerConfig}
    (entered : Reaches device VisitsLinked (installed maxMessageSize maxStorageSize msecsToJiffies delayWq) (deviceOf start))
    (ordered : linkAccesses.InOrder start) (ring : (linkAccesses.settle start).shared.Holds)
    (reached : Reaches pointerDevice linkAccesses.Alone start config) :
    (linkAccesses.settle config).shared.Holds ∧ Reaches device VisitsLinked (deviceOf start) (deviceOf config) := by
  have erased : ∀ config, project LinkState.device id (linkAccesses.settle config) = deviceOf config :=
    fun config => project_project _ _ _ _ config
  have simulated : (linkAccesses.settle config).shared.Holds ∧
      Reaches device VisitsLinked (project LinkState.device id (linkAccesses.settle start))
        (project LinkState.device id (linkAccesses.settle config)) :=
    linked_simulates (by rwa [erased]) ring (Splitting.refines reached ordered)
  rwa [erased, erased] at simulated

theorem installed_simulates {config : PointerConfig}
    (reached : Reaches pointerDevice linkAccesses.Alone
      (installedPointers maxMessageSize maxStorageSize msecsToJiffies delayWq) config) :
    linkAccesses.InOrder config ∧ (linkAccesses.settle config).shared.Holds ∧
      Reaches device VisitsLinked (installed maxMessageSize maxStorageSize msecsToJiffies delayWq) (deviceOf config) := by
  have start : Reaches device VisitsLinked (installed maxMessageSize maxStorageSize msecsToJiffies delayWq)
      (deviceOf (installedPointers maxMessageSize maxStorageSize msecsToJiffies delayWq)) := .refl
  exact ⟨Splitting.inOrder reached (Splitting.inOrder_start _),
    pointers_simulate start (Splitting.inOrder_start _) ring_init reached⟩

end Tsm
