import Tsm.Proofs.Faults

/-! Nobody waits for ever. A call that waits for a semaphore waits for its holder, a
flush that waits for works waits for the thread, and the thread takes `pending_sem`
and `message_sem` only, which nobody holds while he waits for anything but the second.
Unless somebody is killed, who holds what he has acquired for good. -/

namespace Tsm
open Interleaving Sections Faults

def Call.Returned : Call → Prop
  | .write (.done _ _) | .read (.done _ _ _) | .setSendDelay (.done _) | .revoke (.done _) => True
  | _ => False

def Call.returned : Call → Bool
  | .write (.done _ _) | .read (.done _ _ _) | .setSendDelay (.done _) | .revoke (.done _) => true
  | _ => false

theorem Call.returned_iff {call : Call} : call.returned = true ↔ call.Returned := by
  rcases call with pc | pc | pc | pc <;> cases pc <;> simp [Call.returned, Call.Returned]

instance (call : Call) : Decidable call.Returned := decidable_of_iff _ Call.returned_iff

/-- Returned, and nothing is left to release. -/
def Finished (party : Party Call Sem) : Prop := party.state.Returned ∧ party.phase = .taking []

abbrev LocksConfig := Config (World State Sem) Request (Party Call Sem)

/-- The thread has no work to execute or to begin, and nothing to release. -/
def AtRest (world : World State Sem) : Prop :=
  world.shared.wq.Drained ∧ world.phase = .taking []

/-- A call has not finished, or a work that is due. -/
def Unfinished (config : LocksConfig) : Prop :=
  (∃ process ∈ config.calls, ¬ Finished process.state) ∨ ¬ AtRest config.shared

/-- A call or the thread can take a step. -/
abbrev CanStep (config : LocksConfig) : Prop := deviceLocking.CanStep config

def Sem.rank : Sem → Nat
  | .wq => 0
  | .pending => 1
  | .message => 2

instance : Inhabited Outcome := ⟨⟨true, true⟩⟩

theorem deviceLocking_ordered : deviceLocking.Ordered Sem.rank where
  takes call := by
    rcases call with pc | pc | pc | pc
    · cases pc <;> simp [deviceLocking, Call.takes]
    · cases pc <;> simp [deviceLocking, Call.takes]
    · simp [deviceLocking, Call.takes]
    · cases pc <;> simp [deviceLocking, Call.takes, Sem.rank]
  holds call mine held sem taken := by
    have inside : call.inside ≠ 0 := by
      intro outside
      simp [deviceLocking, outside] at held
    rcases call with pc | pc | pc | pc
    · cases pc <;> first | exact absurd rfl inside | cases taken
    · exact absurd rfl inside
    · exact absurd rfl inside
    · cases pc <;> first | exact absurd rfl inside | cases taken
  agentTakes s := by
    simp only [deviceLocking, State.workTakes]
    split <;> simp

section Blocked
variable {s : State} {call : Call}

theorem groupWrite_blocked {outcome pc} (blocked : groupWrite outcome s pc = none) :
    (Call.write pc).Returned ∨ (Call.write pc).takes = [.wq] ∧ (Call.write pc).inside = 0 ∧ s.dev.wqSem = 0 := by
  cases pc with
  | done ret msg => exact .inl trivial
  | downWq msg work =>
    simp only [groupWrite] at blocked
    split at blocked
    next down => exact .inr ⟨rfl, rfl, down⟩
    · cases blocked
  | traverse msg pos => cases pos <;> cases blocked
  | _ =>
    simp only [groupWrite] at blocked
    repeat' split at blocked
    all_goals cases blocked

theorem groupRead_blocked {outcome pc} (blocked : groupRead outcome s pc = none) : (Call.read pc).Returned := by
  cases pc with
  | done ret msg bytes => trivial
  | _ =>
    simp only [groupRead] at blocked
    repeat' split at blocked
    all_goals cases blocked

theorem fflushWorkqueue_blocked {pc} (blocked : fflushWorkqueue s pc = none) :
    (Call.revoke pc).Returned ∨
      ((Call.revoke pc).takes = [.wq] ∧ (Call.revoke pc).inside = 0 ∧ s.dev.wqSem = 0) ∨
      (Call.revoke pc).takes = [] ∧ ¬ s.wq.Drained := by
  cases pc with
  | done ret => exact .inl trivial
  | downWq =>
    simp only [fflushWorkqueue] at blocked
    split at blocked
    next down => exact .inr (.inl ⟨rfl, rfl, down⟩)
    · cases blocked
  | wait pos q =>
    simp only [fflushWorkqueue] at blocked
    split at blocked
    next busy =>
      refine .inr (.inr ⟨rfl, fun drained => ?_⟩)
      simp [Workqueue.Busy, drained.1, drained.2] at busy
    · cases blocked
  | drain =>
    simp only [fflushWorkqueue] at blocked
    split at blocked
    · cases blocked
    next busy => exact .inr (.inr ⟨rfl, busy⟩)
  | next q => cases q <;> cases blocked
  | _ =>
    simp only [fflushWorkqueue] at blocked
    repeat' split at blocked
    all_goals cases blocked

/-- A call that cannot take its step has returned, or waits for `wq_sem` or for the thread. -/
theorem blocked_cases (blocked : ∀ outcome, device.move outcome s call = none) :
    call.Returned ∨ (call.takes = [.wq] ∧ call.inside = 0 ∧ s.dev.wqSem = 0) ∨
      call.takes = [] ∧ ¬ s.wq.Drained := by
  have blocked := blocked default
  rcases call with pc | pc | pc | pc
  · exact (groupWrite_blocked (Option.map_eq_none_iff.mp blocked)).imp_right .inl
  · exact .inl (groupRead_blocked (Option.map_eq_none_iff.mp blocked))
  · cases pc with
    | entry arg =>
      have blocked := Option.map_eq_none_iff.mp blocked
      simp only [setSendDelay] at blocked
      split at blocked <;> cases blocked
    | done ret => exact .inl trivial
  · exact fflushWorkqueue_blocked (Option.map_eq_none_iff.mp blocked)

theorem returned_holds_nothing (returned : call.Returned) : call.takes = [] ∧ call.inside = 0 := by
  rcases call with pc | pc | pc | pc <;> cases pc <;> first | exact ⟨rfl, rfl⟩ | exact returned.elim

/-- A call that is blocked in its step holds no semaphore of a list. -/
theorem wq_of_blocked {party : Party Call Sem} (phase : party.phase = .taking [])
    (blocked : ∀ outcome, device.move outcome s party.state = none) {mine : Sem}
    (held : mine ∈ deviceLocking.held party) : mine = .wq := by
  rw [deviceLocking.held_of_taken phase] at held
  rcases Multiset.mem_add.mp held with held | taken
  · exact Multiset.eq_of_mem_replicate held
  · have taken : mine ∈ party.state.takes := taken
    rcases blocked_cases blocked with returned | ⟨wq, -⟩ | ⟨none, -⟩
    · simp [(returned_holds_nothing returned).1] at taken
    · simpa [wq] using taken
    · simp [none] at taken

/-- The thread is blocked in no step of a work. -/
theorem worker_isSome (busy : ¬ s.wq.Drained) : (device.environment .worker s).isSome := by
  simp only [device, environment, worker]
  split
  · rfl
  next idle =>
    split
    next empty => exact absurd ⟨empty, idle⟩ busy
    · rfl

theorem busy_of_workTakes (takes : s.workTakes ≠ []) : ¬ s.wq.Drained := by
  intro drained
  simp [State.workTakes, drained.2] at takes

end Blocked

section Progress
variable {maxMessageSize maxStorageSize : UInt32} {msecsToJiffies : UInt32 → Nat} {delayWq : Bool}
  {config : LocksConfig}

/-- `wq_sem` is down while a call is inside, and then only one is. -/
theorem device_excludes {allowed} {config : DeviceConfig}
    (reached : Reaches device allowed (installed maxMessageSize maxStorageSize msecsToJiffies delayWq) config) :
    config.shared.dev.wqSem + total Call.inside config.calls = 1 := by
  refine (reached.outline Call.inside (fun s inside => s.dev.wqSem + inside = 1) (fun _ _ => True)
    ⟨rfl, by simp⟩ ?_ ?_ ?_).1
  · intro _ request
    cases request <;> exact ⟨rfl, trivial⟩
  · intro s left right request call outcome s' call' _ _ one _ _ moved
    have same := move_keeps_wqSem (move_cases moved)
    exact ⟨by omega, trivial, fun _ _ => trivial⟩
  · intro s calls event s' _ _ one _ happened
    refine ⟨?_, fun _ _ => trivial⟩
    cases environment_cases happened with
    | worker step => cases step <;> exact one
    | _ => exact one

theorem ready (world : World State Sem) (takes : deviceLocking.agentTakes world.shared ≠ []) :
    (device.environment deviceLocking.agent world.shared).isSome :=
  worker_isSome (busy_of_workTakes takes)

theorem project_reaches (reached : Reaches deviceLocking.locked Anything
      (installedLocks maxMessageSize maxStorageSize msecsToJiffies delayWq) config) :
    Reaches device Anything (installed maxMessageSize maxStorageSize msecsToJiffies delayWq) (Locking.project config) :=
  deviceLocking.locked_refines (reached.mono fun _ _ _ _ => trivial)

theorem expires_of_due {work : Work} (armed : work ∈ config.shared.shared.wq.timers)
    (expired : work.expires ≤ config.shared.shared.jiffies) :
    (step deviceLocking.locked config (.environment (.expire work))).isSome := by
  have other : Event.expire work ≠ deviceLocking.agent := by simp [deviceLocking]
  simp [step, Locking.locked, Locking.environment, other, device, Tsm.environment, armed, expired]

variable (reached : Reaches deviceLocking.locked Anything
  (installedLocks maxMessageSize maxStorageSize msecsToJiffies delayWq) config)
include reached

/-- While `pending_sem` or `message_sem` is down its holder can go on. -/
theorem canStep_of_list_sem {sem : Sem} (taken : config.shared.sems sem = 0) (list : sem ≠ .wq) : CanStep config := by
  have top : ∀ sem : Sem, sem.rank ≤ 2 := fun sem => by cases sem <;> decide
  rcases deviceLocking.canStep_of_taken deviceLocking_ordered 2 top reached (ready _) taken with
    steps | ⟨process, member, mine, held, later, phase, blocked⟩
  · exact steps
  · have wq := wq_of_blocked phase blocked held
    subst wq
    cases sem with
    | wq => exact absurd rfl list
    | pending | message => exact absurd later (by decide)

/-- While there is a work to execute somebody can take a step. -/
theorem canStep_of_work (busy : ¬ AtRest config.shared) : CanStep config := by
  obtain ⟨⟨-, keeps⟩, -⟩ := deviceLocking.locked_keeps reached
  rcases deviceLocking.agent_goes keeps with moves | ⟨next, rest, phase, down⟩ | ⟨phase, blocked⟩
  · exact deviceLocking.canStep_of_agent moves
  · apply canStep_of_list_sem reached down
    rintro rfl
    have inside : Sem.wq :: rest <:+ config.shared.shared.workTakes := by
      have kept := keeps.1
      rwa [phase] at kept
    have taken := inside.subset List.mem_cons_self
    unfold State.workTakes at taken
    split at taken <;> simp at taken
  · have enabled := worker_isSome fun drained => busy ⟨drained, phase⟩
    rw [show device.environment .worker config.shared.shared = none from blocked] at enabled
    cases enabled

/-- A call that has acquired `wq_sem` is the only one inside. -/
theorem wqSem_up {process} (member : process ∈ config.calls) (phase : process.state.phase = .taking [])
    (takes : process.state.state.takes = [.wq]) (outside : process.state.state.inside = 0) :
    config.shared.shared.dev.wqSem ≠ 0 := by
  obtain ⟨⟨exclusive, -⟩, -⟩ := deviceLocking.locked_keeps reached
  obtain ⟨left, right, split⟩ := List.append_of_mem member
  have own : (deviceLocking.held process.state).count .wq = 1 := by
    rw [deviceLocking.held_of_taken phase]
    change (Multiset.replicate process.state.state.inside Sem.wq + (process.state.state.takes : Multiset Sem)).count .wq = 1
    rw [outside, takes]
    rfl
  have others : total (fun party : Party Call Sem => party.state.inside) (left ++ right) = 0 := by
    have once := exclusive .wq
    rw [split, total_middle, Multiset.count_add, Multiset.count_add, own] at once
    have none : (total deviceLocking.held (left ++ right)).count .wq = 0 := by omega
    rw [← Multiset.coe_countAddMonoidHom, total_hom] at none
    refine Nat.le_zero.mp (le_trans (total_le (fun party => ?_) _) (Nat.le_of_eq none))
    have less := Multiset.count_le_of_le Sem.wq (deviceLocking.holds_le_held party)
    simpa [deviceLocking] using less
  have one := device_excludes (project_reaches reached)
  have same : total Call.inside (Locking.project config).calls =
      total (fun party : Party Call Sem => party.state.inside) config.calls := by
    simp [total, Locking.project, Locking.forget, Function.comp_def]
  rw [same, split, total_middle, outside, others] at one
  have positive : config.shared.shared.dev.wqSem = 1 := one
  omega

/-- While a call is blocked in its step and has not returned, somebody can take a step. -/
theorem canStep_of_blocked {process} (member : process ∈ config.calls) (phase : process.state.phase = .taking [])
    (unfinished : ¬ process.state.state.Returned)
    (blocked : ∀ outcome, device.move outcome config.shared.shared process.state.state = none) : CanStep config := by
  rcases blocked_cases blocked with returned | ⟨takes, outside, down⟩ | ⟨-, busy⟩
  · exact absurd returned unfinished
  · exact absurd down (wqSem_up reached member phase takes outside)
  · exact canStep_of_work reached fun rest => busy rest.1

theorem canStep_of_sem {sem : Sem} (taken : config.shared.sems sem = 0) : CanStep config := by
  have top : ∀ sem : Sem, sem.rank ≤ 2 := fun sem => by cases sem <;> decide
  rcases deviceLocking.canStep_of_taken deviceLocking_ordered 2 top reached (ready _) taken with
    steps | ⟨process, member, mine, held, -, phase, blocked⟩
  · exact steps
  · refine canStep_of_blocked reached member phase (fun returned => ?_) blocked
    obtain ⟨takes, outside⟩ := returned_holds_nothing returned
    rw [deviceLocking.held_of_taken phase] at held
    simp [deviceLocking, takes, outside] at held

theorem canStep_of_call {process} (member : process ∈ config.calls) (unfinished : ¬ Finished process.state) :
    CanStep config := by
  obtain ⟨-, keeps⟩ := deviceLocking.locked_keeps reached
  rcases deviceLocking.party_goes (keeps process member) with moves | ⟨next, rest, -, down⟩ | ⟨phase, blocked⟩
  · exact deviceLocking.canStep_of_party member moves
  · exact canStep_of_sem reached down
  · exact canStep_of_blocked reached member phase (fun returned => unfinished ⟨returned, phase⟩) blocked

theorem canStep_of_unfinished (unfinished : Unfinished config) : CanStep config := by
  rcases unfinished with ⟨process, member, unfinished⟩ | busy
  · exact canStep_of_call reached member unfinished
  · exact canStep_of_work reached busy

theorem released_of_finished {process} (member : process ∈ config.calls) (finished : Finished process.state) :
    process.state.downs = process.state.ups := by
  obtain ⟨returned, phase⟩ := finished
  obtain ⟨takes, outside⟩ := returned_holds_nothing returned
  have nothing : deviceLocking.held process.state = 0 := by
    rw [deviceLocking.held_of_taken phase]
    simp [deviceLocking, takes, outside]
  rw [((deviceLocking.locked_keeps reached).2 process member).2, nothing, add_zero]

theorem released_of_idle (idle : config.shared.shared.wq.running = none) (phase : config.shared.phase = .taking []) :
    config.shared.downs = config.shared.ups := by
  have nothing : deviceLocking.agentHeld config.shared = 0 := by
    simp [Locking.agentHeld, phase, deviceLocking, State.workTakes, idle]
  rw [(deviceLocking.locked_keeps reached).1.2.2, nothing, add_zero]

end Progress

/-! With threads that can be killed. -/

/-- The condition on the steps that are not a `down` or an `up`. -/
abbrev SoundLocks (ksize : Nat → Nat) : MortalLocksConfig → DeviceAct → Prop :=
  Spared (deviceLocking.Lifted (Sound ksize))

/-- A call or the thread can take a step. -/
def GoesOn (ksize : Nat → Nat) (config : MortalLocksConfig) : Prop :=
  (∃ call outcome, (step (mortalLocks ksize) config (.move call outcome)).isSome) ∨
    (step (mortalLocks ksize) config (.environment .worker)).isSome

/-- Nobody is killed. -/
theorem locks_unharmed {ksize : Nat → Nat} {maxMessageSize maxStorageSize : UInt32} {msecsToJiffies : UInt32 → Nat}
    {delayWq : Bool} {config : MortalLocksConfig}
    (reached : Reaches (mortalLocks ksize) (SoundLocks ksize)
      (installedMortalLocks maxMessageSize maxStorageSize msecsToJiffies delayWq) config) :
    Unharmed config ∧ Reaches deviceLocking.locked Anything
      (installedLocks maxMessageSize maxStorageSize msecsToJiffies delayWq) (spared config) := by
  have everybody : Unharmed (installedMortalLocks maxMessageSize maxStorageSize msecsToJiffies delayWq) :=
    ⟨rfl, by simp [installedMortalLocks]⟩
  obtain ⟨unharmed, simulated⟩ := unharmed_of_avoids reached everybody fun sofar sound =>
    Hazards.avoided_underLocks fun body => sound_avoids (deviceLocking.locked_refines sofar) (sound body)
  exact ⟨unharmed, simulated.mono fun _ _ _ => trivial⟩

def sampleLocks : MortalLocksConfig := installedMortalLocks 32 64 UInt32.toNat true

/-- A delayed write that returns, and a REVOKE that waits for its work with `wq_sem` down. -/
def waitingRun : List DeviceAct :=
  [.enter (.setSendDelay 1), proceed 0, .enter (.write letters 3)] ++ steps 1 17 ++
    [.enter .revokeDelayedMessages] ++ steps 2 12

theorem not_goesOn {ksize : Nat → Nat} {config : MortalLocksConfig}
    (calls : ∀ process ∈ config.calls, ∀ alloc copy : Bool,
      ((mortalLocks ksize).move ⟨alloc, copy⟩ config.shared process.state).isNone)
    (worker : ((mortalLocks ksize).environment .worker config.shared).isNone) : ¬ GoesOn ksize config := by
  rintro (⟨call, outcome, enabled⟩ | enabled)
  · obtain ⟨after, taken⟩ := Option.isSome_iff_exists.mp enabled
    obtain ⟨process, shared, state, found, moved, _⟩ := step_move taken
    have blocked := calls process (List.mem_of_getElem? found) outcome.alloc outcome.copy
    rw [show (mortalLocks ksize).move ⟨outcome.alloc, outcome.copy⟩ config.shared process.state = some (shared, state) from moved] at blocked
    cases blocked
  · obtain ⟨after, taken⟩ := Option.isSome_iff_exists.mp enabled
    obtain ⟨shared, happened, _⟩ := step_environment taken
    rw [happened] at worker
    cases worker

/-- A work that has found the bit clear, and a REVOKE that unlinks it and waits for it. -/
def killedRun : List DeviceAct :=
  [.enter (.setSendDelay 1), proceed 0, .enter (.write letters 3)] ++ steps 1 17 ++
    [.environment .tick, .environment (.expire ⟨1, 1⟩)] ++ List.replicate 9 (.environment .worker) ++
    [.enter .revokeDelayedMessages] ++ steps 2 12 ++ [.environment .worker]

end Tsm
