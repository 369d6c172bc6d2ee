import Tsm.Proofs.Pointers
import Tsm.Proofs.Works

/-! A REVOKE waits for the works and the messages that it finds. -/

namespace Tsm
open Interleaving KernelList KernelLinks Accesses Allocation

variable {maxMessageSize maxStorageSize : UInt32} {msecsToJiffies : UInt32 → Nat} {delayWq : Bool}

/-! One REVOKE, from its entry to its return. -/

/-- The REVOKE has drained the workqueue. -/
def FlushPc.Drained : FlushPc → Prop
  | .clearFlushing | .upWq | .done _ => True
  | _ => False

/-- A message that has left its writer: where it can be once the REVOKE has spliced
the pending messages, and once it has drained the workqueue. -/
structure Swept (config : DeviceConfig) (pc : FlushPc) (msg : Message) : Prop where
  accepted : msg ∈ (view config).accepted
  unheld : msg ∉ (view config).held
  spliced : pc ≠ .splice → msg ∉ (view config).pending
  drained : pc.Drained → msg ∈ (view config).published ∨ msg ∈ (view config).removed

/-- A queued work, which the drain waits for. -/
structure Awaited (s : State) (pc : FlushPc) (work : Nat) : Prop where
  known : work ∈ s.wq.works ∨ .work work ∈ s.freed
  drained : pc.Drained → .work work ∈ s.freed

theorem step_keeps_freed {before after : DeviceConfig} {act} (taken : Step device before act after) :
    before.shared.freed ⊆ after.shared.freed := by
  cases taken with
  | enter request => exact List.Subset.refl _
  | move moved =>
    cases move_cases moved with
    | write step =>
      cases step with
      | msgFail | dataFail => exact List.subset_append_left _ _
      | _ => exact List.Subset.refl _
    | read step =>
      cases step with
      | freeData | freeMsg => exact List.subset_append_left _ _
      | _ => exact List.Subset.refl _
    | setSendDelay step => cases step <;> exact List.Subset.refl _
    | revoke step => cases step <;> exact List.Subset.refl _
  | environment happened =>
    cases environment_cases happened with
    | worker step =>
      cases step with
      | free running => exact List.subset_append_left _ _
      | _ => exact List.Subset.refl _
    | _ => exact List.Subset.refl _

theorem mem_works_of_waiting {wq wq' : Workqueue} {work : Nat} (waiting : wq.waiting ⊆ wq'.waiting)
    (running : wq'.running = wq.running) (member : work ∈ wq.works) : work ∈ wq'.works := by
  rw [Workqueue.works, running]
  exact (List.mem_append.mp member).elim (fun inside => List.mem_append_left _ (waiting inside))
    (List.mem_append_right _)

/-- A work leaves the workqueue when it frees itself, and not before. -/
theorem step_keeps_works {before after : DeviceConfig} {act work} (taken : Step device before act after)
    (member : work ∈ before.shared.wq.works) :
    work ∈ after.shared.wq.works ∨ .work work ∈ after.shared.freed := by
  cases taken with
  | enter request => exact .inl member
  | @move s left right request call outcome s' call' moved =>
    apply Or.inl
    cases move_cases moved with
    | write step =>
      cases step with
      | @queueWork msg id =>
        have waiting := (s.wq.waiting_queueDelayedWork id s.jiffies s.dev.delay).symm.subset
        exact mem_works_of_waiting (fun _ inside => waiting (List.mem_cons_of_mem _ inside))
          (s.wq.running_queueDelayedWork _ _ _) member
      | _ => exact member
    | read step => cases step <;> exact member
    | setSendDelay step => cases step <;> exact member
    | revoke step =>
      cases step with
      | @flush pos q =>
        exact mem_works_of_waiting (s.wq.waiting_flushDelayedWork pos).symm.subset
          (s.wq.running_flushDelayedWork _) member
      | _ => exact member
  | @environment s calls event s' happened =>
    cases environment_cases happened with
    | expire armed expired => exact .inl (mem_works_of_waiting (Workqueue.waiting_expire armed).symm.subset rfl member)
    | worker step =>
      cases step with
      | start idle queued =>
        apply Or.inl
        simpa [Workqueue.works, Workqueue.waiting, idle, queued, or_assoc, or_comm, or_left_comm] using member
      | @free done running =>
        rcases List.mem_append.mp member with waiting | executed
        · exact .inl (List.mem_append_left _ waiting)
        · have same : work = done.id := by simpa [running] using executed
          exact .inr (by simp [same])
      | popEmpty running empty | pop running last | insert running | print running | flushing running flag
      | notFlushing running flag | listDel running =>
        apply Or.inl
        simpa [Workqueue.works, Workqueue.waiting, running] using member
    | _ => exact .inl member

theorem Swept.step {before after : DeviceConfig} {label pc pc' msg} (swept : Swept before pc msg)
    (stepped : Conveyor.Step (view before) label (view after)) (distinct : (view after).accepted.Nodup)
    (spliced : pc = .splice → pc' ≠ .splice → msg ∉ (view after).pending)
    (drained : pc'.Drained → pc.Drained ∨ msg ∈ (view before).published ∨ msg ∈ (view before).removed) :
    Swept after pc' msg := by
  obtain ⟨accepted, unheld⟩ := stepped.settled distinct swept.accepted swept.unheld
  refine ⟨accepted, unheld, fun later => ?_, fun finished => ?_⟩
  · by_cases first : pc = .splice
    · exact spliced first later
    · exact stepped.not_pending swept.unheld (swept.spliced first)
  · exact stepped.keeps_delivered ((drained finished).elim swept.drained id)

theorem Awaited.step {before after : DeviceConfig} {act pc pc' work} (awaited : Awaited before.shared pc work)
    (taken : Step device before act after)
    (drained : pc'.Drained → pc.Drained ∨ .work work ∈ before.shared.freed) : Awaited after.shared pc' work := by
  have freed := step_keeps_freed taken
  refine ⟨?_, fun finished => ?_⟩
  · rcases awaited.known with known | known
    · exact step_keeps_works taken known
    · exact .inr (freed known)
  · exact freed ((drained finished).elim awaited.drained id)

/-- Once the workqueue is drained and no timer is armed there is no work left. -/
theorem works_of_drained {wq : Workqueue} (timers : wq.timers = []) (drained : wq.Drained) : wq.works = [] := by
  simp [Workqueue.works, Workqueue.waiting, timers, drained.1, drained.2]

/-- A message that is in none of the hands the drain waits for has been published. -/
theorem Swept.published {config : DeviceConfig} {pc msg} (swept : Swept config pc msg) (later : pc ≠ .splice)
    (conserved : (view config).Conserved) (idle : config.shared.wq.running = none) :
    msg ∈ (view config).published ∨ msg ∈ (view config).removed := by
  have carried : (view config).carried = [] := by simp [view, viewOf, Workqueue.carried, carriedBy, idle]
  have somewhere := swept.accepted
  rw [conserved, carried] at somewhere
  simpa [swept.unheld, swept.spliced later] using somewhere

theorem flush_drains {s s' : State} {pc pc'} (step : FlushStep s pc s' pc') (drained : pc'.Drained) :
    pc.Drained ∨ pc = .drain ∧ s.wq.Drained ∨ s.dev.delayWq = false := by
  cases step with
  | noWorkqueue missing => exact .inr (.inr missing)
  | drain idle => exact .inr (.inl ⟨rfl, idle⟩)
  | clearFlushing | upWq => exact .inl trivial
  | _ => exact drained.elim

theorem flush_splices {s s' : State} {pc'} (step : FlushStep s .splice s' pc') : s'.dev.pendingList = [] := by
  cases step
  rfl

section Run
variable {before config : DeviceConfig}

/-- What the REVOKE sweeps and awaits, at every point from its entry on. -/
theorem revoke_sweeps
    (reached : Reaches device VisitsLinked (installed maxMessageSize maxStorageSize msecsToJiffies true) before)
    (continued : Reaches device VisitsLinked
      ⟨before.shared, before.calls ++ [⟨.revokeDelayedMessages, .revoke .splice⟩]⟩ config) :
    ∃ pc, config.calls[before.calls.length]? = some ⟨.revokeDelayedMessages, .revoke pc⟩ ∧
      (∀ msg ∈ (view before).accepted, msg ∉ (view before).held → Swept config pc msg) ∧
      ∀ work ∈ before.shared.wq.works, Awaited config.shared pc work := by
  have entered : Reaches device VisitsLinked (installed maxMessageSize maxStorageSize msecsToJiffies true)
      ⟨before.shared, before.calls ++ [⟨.revokeDelayedMessages, .revoke .splice⟩]⟩ :=
    reached.step (visitsLinked_enter _ _) rfl
  refine continued.induct ⟨.splice, by simp, fun msg accepted unheld => ?_, fun work member => ?_⟩ ?_
  · have same : view ⟨before.shared, before.calls ++ [⟨.revokeDelayedMessages, .revoke .splice⟩]⟩ = view before := by
      simp [view, acceptedBy, removedBy, heldBy, uncoveredBy]
    refine ⟨?_, ?_, fun later => absurd rfl later, False.elim⟩
    · rwa [same]
    · rwa [same]
  · exact ⟨.inl member, False.elim⟩
  · rintro middle act after reached ⟨pc, found, swept, awaited⟩ permitted taken
    have reached := entered.trans reached
    obtain ⟨label, stepped, _⟩ := step_refines (device_balanced reached) taken
    have distinct : (view after).accepted.Nodup := accepted_nodup (reached.step permitted taken.enabled)
    rcases taken.follow found with same | ⟨outcome, call, _, moved, found'⟩
    · refine ⟨pc, same, fun msg accepted unheld => ?_, fun work member => ?_⟩
      · exact (swept msg accepted unheld).step stepped distinct (fun first later => absurd first later) .inl
      · exact (awaited work member).step taken .inl
    · cases move_cases moved with
      | @revoke _ s' pc' step =>
        have created : middle.shared.dev.delayWq ≠ false := by simp [device_keeps_workqueue reached]
        refine ⟨pc', found', fun msg accepted unheld => ?_, fun work member => ?_⟩
        · refine (swept msg accepted unheld).step stepped distinct ?_ fun finished => ?_
          · rintro rfl _
            simp [view, viewOf, flush_splices step]
          · rcases flush_drains step finished with earlier | ⟨rfl, drained⟩ | missing
            · exact .inl earlier
            · exact .inr ((swept msg accepted unheld).published (by simp) (device_conserved reached) drained.2)
            · exact absurd missing created
        · apply (awaited work member).step taken
          intro finished
          rcases flush_drains step finished with earlier | ⟨rfl, drained⟩ | missing
          · exact .inl earlier
          · have timers : middle.shared.wq.timers = [] := device_finds reached _ (List.mem_of_getElem? found)
            exact .inr ((awaited work member).known.resolve_left (by simp [works_of_drained timers drained]))
          · exact absurd missing created

/-- A message is in `message_list` or a read has removed it, and nothing else holds it. -/
def Delivered (config : DeviceConfig) (msg : Message) : Prop :=
  (msg ∈ config.shared.dev.messageList ∨ msg ∈ total removedBy config.calls) ∧
    msg ∉ config.shared.dev.pendingList ∧ msg ∉ config.shared.wq.carried

/-- What a REVOKE promises when it returns: of the writes that had returned when it
was entered, the messages are delivered, and the works have run. -/
def RevokeComplete (before after : DeviceConfig) : Prop :=
  (∀ process ∈ before.calls, ∀ ret msg, process.state = .write (.done ret (some msg)) → Delivered after msg) ∧
    ∀ work ∈ before.shared.wq.works, .work work ∈ after.shared.freed ∧ work ∉ after.shared.wq.works

/-- The places of a message exclude each other. -/
theorem delivered_apart {v : Conveyor Message} {msg : Message} (conserved : v.Conserved) (distinct : v.accepted.Nodup)
    (delivered : msg ∈ v.published ∨ msg ∈ v.removed) : msg ∉ v.pending ∧ msg ∉ v.carried := by
  rw [conserved, add_assoc] at distinct
  have later : msg ∈ (v.published : Multiset Message) + v.removed := Multiset.mem_add.mpr delivered
  have apart := (Multiset.nodup_add.mp distinct).2.2
  refine ⟨fun pending => ?_, fun carried => ?_⟩
  · exact Multiset.disjoint_left.mp apart (Multiset.mem_add.mpr (.inl (Multiset.mem_add.mpr (.inr pending)))) later
  · exact Multiset.disjoint_left.mp apart (Multiset.mem_add.mpr (.inr carried)) later

/-- A write that has returned does not hold its message. -/
theorem returned_unheld {allowed}
    (reached : Reaches device allowed (installed maxMessageSize maxStorageSize msecsToJiffies delayWq) before)
    {process} (member : process ∈ before.calls) {ret msg} (returned : process.state = .write (.done ret (some msg))) :
    msg ∈ (view before).accepted ∧ msg ∉ (view before).held := by
  obtain ⟨left, right, split⟩ := List.append_of_mem member
  have distinct := accepted_nodup reached
  rw [split, total_middle, returned] at distinct
  have own : msg ∈ acceptedBy (.write (.done ret (some msg))) := by simp [acceptedBy, WritePc.stored]
  have others := Multiset.disjoint_left.mp (Multiset.nodup_add.mp distinct).2.2 own
  refine ⟨mem_total.mpr ⟨process, member, returned ▸ own⟩, fun held => others ?_⟩
  have holder : msg ∈ total heldBy before.calls := held
  rw [split, total_middle, returned] at holder
  refine Multiset.mem_of_le (total_le ?_ _) (by simpa [heldBy] using holder)
  intro call
  rcases call with pc | pc | pc | pc
  · cases pc <;> first | exact Multiset.zero_le _ | exact le_refl _
  all_goals exact Multiset.zero_le _

end Run

/-- A REVOKE that returns is complete. -/
theorem returned_complete {before after : DeviceConfig}
    (reached : Reaches device VisitsLinked (installed maxMessageSize maxStorageSize msecsToJiffies true) before)
    (continued : Reaches device VisitsLinked
      ⟨before.shared, before.calls ++ [⟨.revokeDelayedMessages, .revoke .splice⟩]⟩ after)
    (returned : after.calls[before.calls.length]? = some ⟨.revokeDelayedMessages, .revoke (.done 0)⟩) :
    RevokeComplete before after := by
  obtain ⟨pc, found, swept, awaited⟩ := revoke_sweeps reached continued
  have final : FlushPc.done 0 = pc := by simpa using returned.symm.trans found
  subst final
  have everything : Reaches device VisitsLinked (installed maxMessageSize maxStorageSize msecsToJiffies true) after :=
    (reached.step (visitsLinked_enter _ _) rfl).trans continued
  refine ⟨?_, ?_⟩
  · intro process member ret msg written
    obtain ⟨accepted, unheld⟩ := returned_unheld reached member written
    have delivered := (swept msg accepted unheld).drained trivial
    exact ⟨delivered, delivered_apart (device_conserved everything) (accepted_nodup everything) delivered⟩
  · intro work queued
    have freed := (awaited work queued).drained trivial
    exact ⟨freed, fun member => ((device_owned everything).works member).2 freed⟩

/-! On the pointers. -/

theorem flush_keeps_delay {s s' : State} {outcome : Outcome} {pc : FlushPc} {call' : Call}
    (moved : device.move outcome s (.revoke pc) = some (s', call')) :
    s'.dev.delay = s.dev.delay ∧ s'.dev.messagesNumber = s.dev.messagesNumber := by
  cases move_cases moved with
  | revoke step => cases step <;> exact ⟨rfl, rfl⟩

theorem linked_flush_keeps_delay {s s' : LinkState} {outcome : Outcome} {pc : FlushPc} {call' : Call}
    (moved : linkedDevice.move outcome s (.revoke pc) = some (s', call')) :
    s'.device.dev.delay = s.device.dev.delay ∧ s'.device.dev.messagesNumber = s.device.dev.messagesNumber := by
  simp only [linkedDevice] at moved
  unfold linkedMove at moved
  split at moved
  next same => cases same
  · split at moved
    · cases moved
      exact ⟨rfl, rfl⟩
    · split at moved <;> cases moved <;> exact ⟨rfl, rfl⟩
  · split at moved
    · cases moved
    · cases moved
      exact ⟨rfl, rfl⟩
  · cases moved
    exact ⟨rfl, rfl⟩
  · obtain ⟨⟨d, c⟩, stepped, equal⟩ := Option.map_eq_some_iff.mp moved
    cases equal
    exact flush_keeps_delay stepped

theorem pointer_flush_keeps_delay {s s' : Threaded LinkState (Links Nat) (ListAccess Nat)} {outcome : Outcome} {pc : FlushPc}
    {place : Option (ListAccess Nat)} {call' : Working Call (ListAccess Nat)}
    (moved : pointerDevice.move outcome s ⟨.revoke pc, place⟩ = some (s', call')) :
    s'.state.device.dev.delay = s.state.device.dev.delay ∧
      s'.state.device.dev.messagesNumber = s.state.device.dev.messagesNumber := by
  cases linkAccesses.move_cases moved with
  | whole plain step => exact linked_flush_keeps_delay step
  | access carries made => exact ⟨rfl, rfl⟩
  | last carries made body =>
    obtain ⟨_, stepped, equal⟩ := Option.map_eq_some_iff.mp body
    cases equal
    exact flush_keeps_delay stepped

theorem worker_keeps_delay {s s' : State} (stepped : worker s = some s') :
    s'.dev.delay = s.dev.delay ∧ s'.dev.messagesNumber = s.dev.messagesNumber := by
  cases worker_cases stepped <;> exact ⟨rfl, rfl⟩

theorem pointer_worker_keeps_delay {s s' : Threaded LinkState (Links Nat) (ListAccess Nat)}
    (happened : pointerDevice.environment .worker s = some s') :
    s'.state.device.dev.delay = s.state.device.dev.delay ∧
      s'.state.device.dev.messagesNumber = s.state.device.dev.messagesNumber := by
  cases linkAccesses.agentMove_cases happened with
  | whole plain step =>
    rw [show linkedDevice.environment linkAccesses.agent s.state = linkEvent .worker s.state from
      linkedEnvironment_idle (.inr (Option.map_eq_none_iff.mp plain))] at step
    obtain ⟨_, stepped, equal⟩ := Option.map_eq_some_iff.mp step
    cases equal
    exact worker_keeps_delay stepped
  | access carries made => exact ⟨rfl, rfl⟩
  | last carries made body =>
    obtain ⟨_, stepped, equal⟩ := Option.map_eq_some_iff.mp body
    cases equal
    exact worker_keeps_delay stepped

def samplePointers : PointerConfig := installedPointers 32 64 UInt32.toNat true

def firstWork (worker : Nat) : List DeviceAct :=
  [.environment .tick, .environment (.expire ⟨1, 1⟩)] ++ List.replicate worker (.environment .worker)

def twoWrites : List DeviceAct :=
  [.enter (.setSendDelay 1), proceed 0, .enter (.write letters 3)] ++ steps 1 15 ++
    [.enter (.setSendDelay 9), proceed 2, .enter (.write letters 4)] ++ steps 3 9

def firedBetweenRun : List DeviceAct := twoWrites ++ firstWork 11 ++ steps 3 6 ++ [.environment .worker]

def firedLaterRun : List DeviceAct := twoWrites ++ steps 3 6 ++ firstWork 12

def revoked (before : PointerConfig) : PointerConfig :=
  ⟨before.shared, before.calls ++ [⟨.revokeDelayedMessages, pointerDevice.enter .revokeDelayedMessages⟩]⟩

def PointerConfig.returns (config : PointerConfig) (call : Nat) : Bool :=
  match config.calls[call]? with
  | some ⟨.revokeDelayedMessages, ⟨.revoke (.done 0), none⟩⟩ => true
  | _ => false

theorem returned_of_returns {config : PointerConfig} {call : Nat} (returns : config.returns call = true) :
    config.calls[call]? = some ⟨.revokeDelayedMessages, ⟨.revoke (.done 0), none⟩⟩ := by
  unfold PointerConfig.returns at returns
  split at returns
  next found => exact found
  · cases returns

/-- The configurations before a REVOKE is entered and after it has taken its steps. -/
def revokeRun (allowed : PointerConfig → DeviceAct → Prop) [∀ config act, Decidable (allowed config act)]
    (writes flush : List DeviceAct) : Option (PointerConfig × PointerConfig) :=
  (run pointerDevice allowed samplePointers writes).bind fun before =>
    (run pointerDevice allowed (revoked before) flush).map fun after => (before, after)

theorem reaches_revokeRun {allowed : PointerConfig → DeviceAct → Prop} [∀ config act, Decidable (allowed config act)]
    {writes flush : List DeviceAct} {before after : PointerConfig} (ran : revokeRun allowed writes flush = some (before, after)) :
    Reaches pointerDevice allowed samplePointers before ∧ Reaches pointerDevice allowed (revoked before) after := by
  obtain ⟨config, written, flushed⟩ := Option.bind_eq_some_iff.mp ran
  obtain ⟨last, flushed, same⟩ := Option.map_eq_some_iff.mp flushed
  cases same
  exact ⟨reaches_of_run .refl written, reaches_of_run .refl flushed⟩

def foundRun : List DeviceAct := steps 4 12 ++ List.replicate 4 (.environment .worker) ++ steps 4 5

end Tsm
