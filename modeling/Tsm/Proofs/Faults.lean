import Tsm.Device.Faults
import Tsm.Proofs.DelayList
import Tsm.Proofs.Lifetime

/-! Runs in which nobody is killed: works and flushes agree, reads come last, no
operation on `delay_list` comes between the accesses of another, and the terminator
is stored inside the object of the data. -/

namespace Tsm
open Interleaving KernelList Faults

/-- The next step acquires `wq_sem`. -/
def Call.downsWq : Call → Bool
  | .write (.downWq _ _) | .revoke .downWq => true
  | _ => false

/-- From the test of the bit to the end of `list_del` the thread is alone: nobody holds
`wq_sem`, under which the others use `delay_list`. -/
def UnlinksAlone (config : DeviceConfig) : DeviceAct → Prop
  | .environment .worker => ∀ executed ∈ config.shared.wq.running, executed.2 = .testFlag →
    ¬ Flushing config.shared → config.shared.dev.wqSem ≠ 0
  | act => ∀ moving ∈ mover config act, moving.1.downsWq → config.shared.unlinking = none

/-- The length behind which the next step stores the terminator. -/
def Call.terminates (outcome : Outcome) (s : State) : Call → Option Nat
  | .write (.critical _ length _) =>
    if s.dev.messagesNumber < s.maxStorageSize ∧ outcome.copy = true then some length else none
  | _ => none

def TerminatesInside (ksize : Nat → Nat) (config : DeviceConfig) (act : DeviceAct) : Prop :=
  ∀ moving ∈ mover config act, ∀ length ∈ moving.1.terminates moving.2 config.shared, length < ksize length

structure Sound (ksize : Nat → Nat) (config : DeviceConfig) (act : DeviceAct) : Prop where
  works : WorksAgree config act
  alone : UnlinksAlone config act
  reads : ReadsLast config act
  stores : TerminatesInside ksize config act

instance (config : DeviceConfig) : (act : DeviceAct) → Decidable (UnlinksAlone config act)
  | .environment .worker => inferInstanceAs (Decidable (∀ executed ∈ _, _ → _ → _))
  | .environment .tick | .environment (.maxMessageSize _) | .environment (.maxStorageSize _)
  | .environment (.expire _) | .enter _ | .move _ _ => inferInstanceAs (Decidable (∀ moving ∈ _, _ → _))

instance (ksize : Nat → Nat) (config : DeviceConfig) (act : DeviceAct) : Decidable (TerminatesInside ksize config act) :=
  inferInstanceAs (Decidable (∀ moving ∈ _, ∀ length ∈ _, _))

instance (ksize : Nat → Nat) (config : DeviceConfig) (act : DeviceAct) : Decidable (Sound ksize config act) :=
  decidable_of_iff (WorksAgree config act ∧ UnlinksAlone config act ∧ ReadsLast config act ∧ TerminatesInside ksize config act)
    ⟨fun holds => ⟨holds.1, holds.2.1, holds.2.2.1, holds.2.2.2⟩, fun sound => ⟨sound.1, sound.2, sound.3, sound.4⟩⟩

theorem State.poisoned_of_linked {s : State} {work : Nat} (linked : work ∈ s.dev.delayList) : s.poisoned work = false := by
  simp [State.poisoned, linked]

section Runs
variable {ksize : Nat → Nat} {maxMessageSize maxStorageSize : UInt32} {msecsToJiffies : UInt32 → Nat} {delayWq : Bool}
  {config : DeviceConfig} {act : DeviceAct}

/-- A flush unlinks works that are linked, and a traversal stands on a published message. -/
theorem call_avoids {outcome : Outcome} {call : Call} (linked : Asserts config.shared call)
    (cursor : ∀ pos ∈ call.cursor, pos ∈ config.shared.dev.messageList)
    (inside : ∀ length ∈ call.terminates outcome config.shared, length < ksize length) :
    call.faults ksize outcome config.shared = false := by
  rcases call with pc | pc | pc | pc
  · cases pc with
    | critical buf length id =>
      by_cases stored : config.shared.dev.messagesNumber < config.shared.maxStorageSize ∧ outcome.copy = true
      · have room : length < ksize length := inside length (by simp [Call.terminates, stored])
        simp [Call.faults, Nat.ne_of_gt (Nat.zero_lt_of_lt room)]
      · rcases not_and_or.mp stored with full | failed
        · simp [Call.faults, full]
        · simp [Call.faults, failed]
    | traverse msg pos =>
      cases pos with
      | none => rfl
      | some pos => simp [Call.faults, cursor pos rfl]
    | _ => rfl
  · rfl
  · rfl
  · cases pc with
    | visit pos q => exact State.poisoned_of_linked linked.1
    | _ => rfl

theorem sound_avoids
    (reached : Reaches device (Sound ksize) (installed maxMessageSize maxStorageSize msecsToJiffies delayWq) config)
    (sound : Sound ksize config act) : (deviceFaults ksize).Avoided config act := by
  cases act with
  | enter request => trivial
  | move call outcome =>
    intro process found
    have member := List.mem_of_getElem? (Option.mem_def.mp found)
    have linked := (device_linked (reached.mono fun _ _ sound => sound.works)).2 process member
    have cursor := (device_late (reached.mono fun _ _ sound => sound.reads)).2 process member
    refine call_avoids linked cursor ?_
    exact sound.stores (process.state, outcome) (by simp [mover, Option.mem_def.mp found])
  | environment event =>
    rintro rfl
    change State.workFaults config.shared = false
    unfold State.workFaults State.unlinking
    split
    next work running =>
      have agrees : WorkAgrees config (work, .listDel) := sound.works (work, .listDel) running
      exact State.poisoned_of_linked agrees.1
    · rfl

end Runs

end Tsm
