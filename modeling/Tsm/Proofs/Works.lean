import Tsm.Proofs.Refinement

/-! Works and pending messages match by number only. There are always enough
works for the messages, and without a REVOKE none of them is too early as long as
no work is queued ahead of the messages that are due. -/

namespace Tsm
open Interleaving KernelList

variable {maxMessageSize maxStorageSize : UInt32} {msecsToJiffies : UInt32 → Nat} {delayWq : Bool}

/-! No message without a work. -/

def Call.allocatesWork : Call → Bool
  | .write (.addDelayedWork _) => true
  | _ => false

/-- The allocation in `add_delayed_work` succeeds. -/
def WorksAllocated (config : DeviceConfig) (act : DeviceAct) : Prop :=
  ∀ moving ∈ mover config act, moving.1.allocatesWork → moving.2.alloc = true

instance (config : DeviceConfig) (act : DeviceAct) : Decidable (WorksAllocated config act) :=
  inferInstanceAs (Decidable (∀ moving ∈ mover config act, _ → _))

theorem step_keeps_workqueue {before after : DeviceConfig} {act} (taken : Step device before act after) :
    after.shared.dev.delayWq = before.shared.dev.delayWq := by
  cases taken with
  | enter request => rfl
  | move moved =>
    cases move_cases moved with
    | write step => cases step <;> rfl
    | read step => cases step <;> rfl
    | setSendDelay step => cases step <;> rfl
    | revoke step => cases step <;> rfl
  | environment happened =>
    cases environment_cases happened with
    | worker step => cases step <;> rfl
    | _ => rfl

theorem device_keeps_workqueue {allowed config}
    (reached : Reaches device allowed (installed maxMessageSize maxStorageSize msecsToJiffies delayWq) config) :
    config.shared.dev.delayWq = delayWq := by
  refine reached.induct rfl ?_
  intro before act after _ kept _ taken
  exact (step_keeps_workqueue taken).trans kept

def Call.WriteReturned : Call → Prop
  | .write (.done _ _) => True
  | .write _ => False
  | _ => True

private theorem uncovered_of_returned {call : Call} (returned : call.WriteReturned) : uncoveredBy call = 0 := by
  rcases call with pc | pc | pc | pc
  · cases pc <;> first | exact returned.elim | rfl
  all_goals rfl

/-- There are at least as many works that have not done their removal, and writers
about to queue one, as pending messages. -/
theorem pending_covered {config}
    (reached : Reaches device WorksAllocated (installed maxMessageSize maxStorageSize msecsToJiffies true) config) :
    config.shared.dev.pendingList.length ≤ config.shared.wq.outstanding + total uncoveredBy config.calls ∧
      ((∀ process ∈ config.calls, process.state.WriteReturned) → config.shared.wq.outstanding = 0 →
        config.shared.dev.pendingList = []) := by
  have ran := (reaches_refines Conveyor.NoSkip installed_balanced ?_ reached).2
  · have covered : (view config).Covered :=
      ran.keeps (Nat.zero_le _) fun covered allocated stepped => covered.step allocated stepped
    have enough : config.shared.dev.pendingList.length ≤
        config.shared.wq.outstanding + total uncoveredBy config.calls := by
      simpa [Conveyor.Covered, view, viewOf, Workqueue.outstanding] using covered
    refine ⟨enough, ?_⟩
    intro returned idle
    rw [idle, total_eq_zero fun process member => uncovered_of_returned (returned process member)] at enough
    exact List.eq_nil_of_length_eq_zero (Nat.le_zero.mp enough)
  · intro config act label reached allocated explained
    cases label with
    | skip =>
      obtain ⟨call, outcome, moving, ⟨msg, rfl⟩, failed⟩ := explained
      rw [device_keeps_workqueue reached, allocated _ moving rfl] at failed
      simp at failed
    | _ => trivial

/-- Two delayed writes, the first of which has its work done. -/
def coveredRun : List DeviceAct :=
  [.enter (.setSendDelay 1), proceed 0, .enter (.write letters 3)] ++ steps 1 8 ++
    [.enter (.write letters 4)] ++ steps 2 5 ++
    [.environment .tick, .environment (.expire ⟨1, 1⟩), .environment .worker, .environment .worker]

theorem pending_covered_coveredRun :
    ∃ config, run device WorksAllocated sampleDevice coveredRun = some config ∧
      config.shared.dev.pendingList.length ≤ config.shared.wq.outstanding + total uncoveredBy config.calls ∧
      config.shared.dev.pendingList.length = 1 := by
  have enabled : (run device WorksAllocated sampleDevice coveredRun).isSome := by decide
  exact ⟨_, (Option.some_get enabled).symm, (pending_covered (reaches_get enabled)).1, rfl⟩

/-! No message too early. -/

/-- What the step inserts in `message_list` is due. -/
def PublishesDue (before after : DeviceConfig) : Prop :=
  ∀ msg ∈ after.shared.dev.messageList, msg ∉ before.shared.dev.messageList → msg.due ≤ after.shared.jiffies

def Call.revokes : Call → Bool
  | .revoke _ => true
  | _ => false

def NoRevoke (config : DeviceConfig) (act : DeviceAct) : Prop :=
  ∀ moving ∈ mover config act, ¬ moving.1.revokes

/-- How many works will have fired when all those due by `t` have. -/
def Workqueue.dueBy (wq : Workqueue) (t : Nat) : Nat := wq.timers.countP (·.expires ≤ t) + wq.ready

/-- The length of the run of oldest pending messages that are all due by `t`. -/
def oldestDue (pending : List Message) (t : Nat) : Nat := (pending.reverse.takeWhile (·.due ≤ t)).length

def Call.queuesWork : Call → Bool
  | .write (.queueWork _ _) => true
  | _ => false

/-- A work is only queued if the works due by its expiry, this one included, are no
more than the oldest messages due by then, and so at every later expiry. -/
def Paced (config : DeviceConfig) (act : DeviceAct) : Prop :=
  let s := config.shared
  let expires := s.jiffies + s.dev.delay
  ∀ moving ∈ mover config act, moving.1.queuesWork →
    ∀ t ∈ expires :: s.wq.timers.map Work.expires, expires ≤ t →
      s.wq.dueBy t + 1 ≤ oldestDue s.dev.pendingList t

def PacedNoRevoke (config : DeviceConfig) (act : DeviceAct) : Prop := NoRevoke config act ∧ Paced config act

instance (config : DeviceConfig) (act : DeviceAct) : Decidable (NoRevoke config act) :=
  inferInstanceAs (Decidable (∀ moving ∈ mover config act, _))

instance (config : DeviceConfig) (act : DeviceAct) : Decidable (Paced config act) :=
  inferInstanceAs (Decidable (∀ moving ∈ mover config act, _ → ∀ t ∈ _, _ → _))

instance (config : DeviceConfig) (act : DeviceAct) : Decidable (PacedNoRevoke config act) :=
  inferInstanceAs (Decidable (_ ∧ _))

instance (before after : DeviceConfig) : Decidable (PublishesDue before after) :=
  inferInstanceAs (Decidable (∀ msg ∈ _, _))

theorem device_timely {config}
    (reached : Reaches device PacedNoRevoke (installed maxMessageSize maxStorageSize msecsToJiffies delayWq) config) :
    (view config).Timely Message.due := by
  refine (reaches_refines (Conveyor.Patient Message.due) installed_balanced ?_ reached).2.keeps
    ⟨fun _ _ => Nat.zero_le _, by simp [view, viewOf, installed, State.installed, Workqueue.carried, carriedBy]⟩
    fun timely patient stepped => timely.step _ patient stepped
  intro config act label _ permitted explained
  obtain ⟨calm, paced⟩ := permitted
  cases label with
  | cover expires =>
    obtain ⟨call, outcome, moving, ⟨msg, work, rfl⟩, rfl⟩ := explained
    intro t entry after
    have matched := paced _ moving rfl t (by simpa [view, viewOf] using entry) after
    simpa [Conveyor.dueBy, Conveyor.ripe, view, viewOf, Workqueue.dueBy, oldestDue, List.countP_map,
      Function.comp_def] using matched
  | hurry =>
    obtain ⟨call, outcome, moving, pos, q, rfl⟩ := explained
    exact absurd rfl (calm _ moving)
  | splice =>
    obtain ⟨call, outcome, moving, rfl⟩ := explained
    exact absurd rfl (calm _ moving)
  | _ => trivial

/-- The three ways into `message_list`. -/
theorem published_cases {before after : DeviceConfig} {act msg} (taken : Step device before act after)
    (member : msg ∈ after.shared.dev.messageList) (new : msg ∉ before.shared.dev.messageList) :
    (msg.due = before.shared.jiffies ∧ after.shared.jiffies = before.shared.jiffies) ∨
      (msg ∈ before.shared.wq.carried ∧ after.shared.jiffies = before.shared.jiffies) ∨
      ∃ outcome, mover before act = some (.revoke .splice, outcome) := by
  cases taken with
  | enter request => exact absurd member new
  | @move s left right request call outcome s' call' moved =>
    have moving := mover_move (ε := Event) s left right ⟨request, call⟩ outcome
    cases move_cases moved with
    | write step =>
      cases step with
      | immediate room copied noDelay =>
        rcases List.mem_cons.mp member with rfl | old
        · exact .inl ⟨by simp [Message.due, newMessage, noDelay], rfl⟩
        · exact absurd old new
      | _ => exact absurd member new
    | read step =>
      cases step with
      | remove last => exact absurd (last ▸ List.mem_append_left _ member) new
      | _ => exact absurd member new
    | setSendDelay step => cases step <;> exact absurd member new
    | revoke step =>
      cases step with
      | splice => exact .inr (.inr ⟨outcome, moving⟩)
      | _ => exact absurd member new
  | environment happened =>
    cases environment_cases happened with
    | worker step =>
      cases step with
      | insert running =>
        rcases List.mem_cons.mp member with rfl | old
        · exact .inr (.inl ⟨by simp [Workqueue.carried, carriedBy, running], rfl⟩)
        · exact absurd old new
      | _ => exact absurd member new
    | _ => exact absurd member new

theorem publishes_due {before act after}
    (reached : Reaches device PacedNoRevoke (installed maxMessageSize maxStorageSize msecsToJiffies delayWq) before)
    (permitted : PacedNoRevoke before act) (taken : step device before act = some after) :
    PublishesDue before after := by
  intro msg member new
  rcases published_cases (step_cases taken) member new with ⟨due, now⟩ | ⟨carried, now⟩ | ⟨outcome, moving⟩
  · exact Nat.le_of_eq (due.trans now.symm)
  · rw [now]
    exact (device_timely reached).carried msg carried
  · exact absurd rfl (permitted.1 _ moving)

/-- A message with a delay of a hundred, one with a delay of one, and the work of
the second, which fires first and takes the first message. -/
def hastyRun : List DeviceAct :=
  [.enter (.setSendDelay 100), proceed 0, .enter (.write letters 3)] ++ steps 1 10 ++
    [.enter (.setSendDelay 1), proceed 2, .enter (.write letters 4)] ++ steps 3 10 ++
    [.environment .tick, .environment (.expire ⟨3, 1⟩), .environment .worker, .environment .worker]

theorem publishes_early :
    ¬ ∀ before act after, Reaches device NoRevoke sampleDevice before → NoRevoke before act →
      step device before act = some after → PublishesDue before after := by
  intro prompt
  have enabled : (run device NoRevoke sampleDevice hastyRun).isSome := by decide
  have next : (step device ((run device NoRevoke sampleDevice hastyRun).get enabled)
    (.environment .worker)).isSome := by decide +revert
  have wrong : ¬ PublishesDue ((run device NoRevoke sampleDevice hastyRun).get enabled)
    ((step device _ _).get next) := by decide +revert
  exact wrong (prompt _ (.environment .worker) _ (reaches_get enabled) (by decide +revert)
    (Option.some_get next).symm)

/-- The same calls with the delays the other way round. -/
def pacedRun : List DeviceAct :=
  [.enter (.setSendDelay 1), proceed 0, .enter (.write letters 3)] ++ steps 1 10 ++
    [.enter (.setSendDelay 100), proceed 2, .enter (.write letters 4)] ++ steps 3 10 ++
    [.environment .tick, .environment (.expire ⟨1, 1⟩), .environment .worker, .environment .worker]

theorem publishes_due_pacedRun :
    ∃ before after, run device PacedNoRevoke sampleDevice pacedRun = some before ∧
      step device before (.environment .worker) = some after ∧ PublishesDue before after ∧
      before.shared.dev.messageList = [] ∧ after.shared.dev.messageList.map Message.due = [1] := by
  have enabled : (run device PacedNoRevoke sampleDevice pacedRun).isSome := by decide
  have next : (step device ((run device PacedNoRevoke sampleDevice pacedRun).get enabled)
    (.environment .worker)).isSome := by decide +revert
  have permitted : PacedNoRevoke ((run device PacedNoRevoke sampleDevice pacedRun).get enabled)
    (.environment .worker) := by decide +revert
  exact ⟨_, _, (Option.some_get enabled).symm, (Option.some_get next).symm,
    publishes_due (reaches_get enabled) permitted (Option.some_get next).symm, rfl, rfl⟩

end Tsm
