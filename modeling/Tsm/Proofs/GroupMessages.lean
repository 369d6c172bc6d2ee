import Mathlib.Algebra.Group.Prod
import Tsm.Device.Flags
import Tsm.Proofs.Conservation

/-! The messages of a device whose barrier is in use at the same time. What happens to a
message does not depend on the flags, so the account of messages is kept even in runs
in which updates of the flags overwrite each other. -/

namespace Tsm
open Interleaving LoadStore KernelList

def FlagCall.onDevice : FlagCall → Option Call
  | .device call => some call
  | .sleep _ _ | .awake _ => none

section Cases
variable {s s' : FlagState} {call call' : Updating FlagCall (BitVec 8)} {outcome : Outcome}

/-- A step changes nothing but the flags and the barrier, or is one of a call on the
device that may have found other flags. -/
theorem unlocked_cases (moved : unlockedFlags.move outcome s call = some (s', call')) :
    (call'.state.onDevice = call.state.onDevice ∧ ∃ flags, s'.device = { s.device with dev.flags := flags }) ∨
      ∃ flags before after, call.state = .device before ∧ call'.state = .device after ∧
        MoveStep outcome { s.device with dev.flags := flags } before s'.device after := by
  rcases loadStore_cases moved with ⟨_, rfl, rfl⟩ | ⟨value, _, _, stepped⟩
  · exact .inl ⟨rfl, s'.flags, rfl⟩
  · obtain ⟨state, loaded⟩ := call
    obtain ⟨state', loaded'⟩ := call'
    cases state with
    | device before =>
      obtain ⟨⟨device, after⟩, taken, equal⟩ := Option.map_eq_some_iff.mp stepped
      cases equal
      exact .inr ⟨value, before, after, rfl, rfl, move_cases taken⟩
    | sleep pc since | awake pc =>
      obtain ⟨⟨b, pc'⟩, stepped, equal⟩ := Option.map_eq_some_iff.mp stepped
      cases equal
      exact .inl ⟨rfl, b.flags, rfl⟩

end Cases

/-! The account. -/

/-- What a call contributes to each count of messages. -/
def shares (call : Call) : Multiset Message × Multiset Message × Multiset Message × Nat :=
  (acceptedBy call, removedBy call, heldBy call, uncoveredBy call)

def noShares : Multiset Message × Multiset Message × Multiset Message × Nat := (0, 0, 0, 0)

def messageShares (call : Updating FlagCall (BitVec 8)) : Multiset Message × Multiset Message × Multiset Message × Nat :=
  call.state.onDevice.elim noShares shares

def messageNumbers (call : Updating FlagCall (BitVec 8)) : Multiset Nat := call.state.onDevice.elim 0 numberedBy

/-- The conveyor that a device is for its messages, given what its calls contribute. -/
def conveyorOf (s : State) (counts : Multiset Message × Multiset Message × Multiset Message × Nat) : Conveyor Message :=
  viewOf s counts.1 counts.2.1 counts.2.2.1 counts.2.2.2

/-- It is in order, and has come this far as a conveyor. -/
structure Conveys (start v : Conveyor Message) : Prop where
  balanced : v.Balanced
  conserved : v.Conserved
  reached : Conveyor.Reaches (fun _ _ => True) start v

theorem Conveys.step {start v v' : Conveyor Message} {label} (conveys : Conveys start v) (stepped : Conveyor.Step v label v') :
    Conveys start v' :=
  ⟨conveys.balanced.step stepped, conveys.conserved.step stepped, conveys.reached.tail ⟨label, trivial, stepped⟩⟩

/-! What a call knows of the bytes it moves. -/

def Message.CopiedFrom (buf : Nat → UInt8) (msg : Message) : Prop := msg.data = copyFromUser buf msg.dataSize

/-- A call holds the bytes that its request passed, or that its message has. -/
def Contents : Request → Call → Prop
  | .write buf _, .write pc =>
    match pc with
    | .entry buf' _ | .clamp buf' | .allocData buf' _ | .allocMsg buf' _ _ | .critical buf' _ _ => buf' = buf
    | .msgFail _ _ | .dataFail _ _ => True
    | .done _ stored => ∀ msg ∈ stored, msg.CopiedFrom buf
    | .pend msg | .addDelayedWork msg | .downWq msg _ | .queueWork msg _ | .listAdd msg _ | .upWq msg
    | .listPrint msg | .traverse msg _ | .print msg => msg.CopiedFrom buf
  | .read length, .read pc => Carries 0 (.read length) (.read pc)
  | .setSendDelay _, .setSendDelay _ => True
  | .revokeDelayedMessages, .revoke _ => True
  | _, _ => False

theorem Contents.stored {buf : Nat → UInt8} {length : Nat} {pc : WritePc} {msg : Message}
    (contents : Contents (.write buf length) (.write pc)) (stored : msg ∈ pc.stored) : msg.CopiedFrom buf := by
  cases pc <;> first | (cases stored; exact contents) | exact contents msg stored | cases stored

theorem write_contents {s s' : State} {outcome : Outcome} {request : Request} {pc pc' : WritePc}
    (contents : Contents request (.write pc)) (step : WriteStep outcome s pc s' pc') : Contents request (.write pc') := by
  cases request with
  | write buf length =>
    cases step with
    | invalid empty | noData failed | dataFail => exact fun _ none => by cases none
    | delayed room copied delay | immediate room copied noDelay =>
      cases contents
      simp [Contents, Message.CopiedFrom, newMessage]
    | print =>
      rintro msg ⟨⟩
      exact contents
    | noMsg failed | full full | fault room failed | msgFail => trivial
    | _ => exact contents
  | read _ | setSendDelay _ | revokeDelayedMessages => exact contents.elim

theorem move_contents {s s' : State} {outcome : Outcome} {request : Request} {call call' : Call}
    (contents : Contents request call) (step : MoveStep outcome s call s' call') : Contents request call' := by
  cases step with
  | write step => exact write_contents contents step
  | read step =>
    cases request with
    | read length =>
      -- what a read carries does not depend on the limit
      have carries : Carries s.maxMessageSize (.read length) (.read _) := contents
      exact read_carries carries step
    | write _ _ | setSendDelay _ | revokeDelayedMessages => exact contents.elim
  | setSendDelay step | revoke step => cases request <;> first | exact contents.elim | trivial

/-- As far as the call is one on the device. -/
def FlagContents (request : FlagRequest) (call : FlagCall) : Prop :=
  ∀ moving ∈ call.onDevice, ∃ asked, request = .device asked ∧ Contents asked moving

section Numbers
variable {s s' : State} {rest : Multiset Nat}

theorem move_numbered {outcome : Outcome} {call call' : Call} (numbered : Numbered s (numberedBy call + rest))
    (step : MoveStep outcome s call s' call') : Numbered s' (numberedBy call' + rest) := by
  cases step with
  | write step => exact write_numbered numbered step
  | read step | setSendDelay step | revoke step => cases step <;> exact numbered

theorem event_numbered {event : Event} (numbered : Numbered s rest) (step : EventStep s event s') : Numbered s' rest := by
  cases step with
  | worker step => cases step <;> exact numbered
  | _ => exact numbered

theorem accepted_le_numbered (call : Call) : (acceptedBy call).map Message.id ≤ numberedBy call := by
  cases call with
  | write pc =>
    cases pc with
    | allocMsg _ _ _ | critical _ _ _ => exact Multiset.zero_le _
    | _ => exact le_refl _
  | read _ | setSendDelay _ | revoke _ => exact Multiset.zero_le _

end Numbers

/-! Runs. -/

section Runs
variable {maxMessageSize maxStorageSize : UInt32} {msecsToJiffies : UInt32 → Nat} {delayWq : Bool} {config : FlagConfig}
  {allowed : FlagConfig → FlagAct → Prop}

theorem installed_conveys (s : State) (fresh : s = .installed maxMessageSize maxStorageSize msecsToJiffies delayWq) :
    Conveys (conveyorOf s noShares) (conveyorOf s noShares) := by
  subst fresh
  exact ⟨⟨rfl, Nat.zero_le _, Nat.le_refl _⟩, rfl, .refl⟩

/-- Loads, stores and the barrier commands are no steps of the conveyor, and every
other step is one. -/
theorem messages_convey
    (reached : Reaches unlockedFlags allowed (installedFlags maxMessageSize maxStorageSize msecsToJiffies delayWq) config) :
    Conveys (conveyorOf (.installed maxMessageSize maxStorageSize msecsToJiffies delayWq) noShares)
        (conveyorOf config.shared.device (total messageShares config.calls)) ∧
      ∀ process ∈ config.calls, FlagContents process.request process.state.state := by
  refine reached.outline messageShares
    (fun s counts => Conveys (conveyorOf (.installed maxMessageSize maxStorageSize msecsToJiffies delayWq) noShares)
      (conveyorOf s.device counts))
    (fun _ process => FlagContents process.request process.state.state) ⟨installed_conveys _ rfl, by simp [installedFlags]⟩ ?_ ?_ ?_
  · rintro s (request | request)
    · refine ⟨by cases request <;> rfl, ?_⟩
      rintro moving ⟨⟩
      refine ⟨request, rfl, ?_⟩
      cases request <;> simp [device, enter, Contents, Carries]
    · cases request <;> exact ⟨rfl, fun _ none => by cases none⟩
  · intro s left right request call outcome s' call' _ _ conveys contents others moved
    rcases unlocked_cases moved with ⟨same, flags, device⟩ | ⟨flags, before, after, state, state', step⟩
    · refine ⟨?_, ?_, others⟩
      · rw [device, messageShares, same]
        exact conveys
      · rwa [FlagContents, same]
    · simp only [messageShares, FlagContents, state, state', FlagCall.onDevice, Option.elim_some] at conveys contents ⊢
      obtain ⟨label, stepped, -⟩ := move_refines _ _ _ _ step conveys.balanced
      obtain ⟨asked, rfl, own⟩ := contents before rfl
      refine ⟨conveys.step stepped, ?_, others⟩
      rintro moving ⟨⟩
      exact ⟨asked, rfl, move_contents own step⟩
  · intro s calls event s' _ _ conveys contents happened
    obtain ⟨device, stepped, equal⟩ := Option.map_eq_some_iff.mp happened
    cases equal
    exact ⟨conveys.step (event_refines _ _ _ _ (environment_cases stepped)), contents⟩

/-- Messages are told apart by their numbers. -/
theorem messages_numbered
    (reached : Reaches unlockedFlags allowed (installedFlags maxMessageSize maxStorageSize msecsToJiffies delayWq) config) :
    Numbered config.shared.device (total messageNumbers config.calls) := by
  refine (reached.outline messageNumbers (fun s numbers => Numbered s.device numbers) (fun _ _ => True)
    ⟨Allocation.Tracked.empty, by simp⟩ ?_ ?_ ?_).1
  · rintro s (request | request) <;> cases request <;> exact ⟨rfl, trivial⟩
  · intro s left right request call outcome s' call' _ _ numbered _ _ moved
    refine ⟨?_, trivial, fun _ _ => trivial⟩
    rcases unlocked_cases moved with ⟨same, flags, device⟩ | ⟨flags, before, after, state, state', step⟩
    · rw [device, messageNumbers, same]
      exact numbered
    · simp only [messageNumbers, state, state', FlagCall.onDevice, Option.elim_some] at numbered ⊢
      have numbered : Numbered { s.device with dev.flags := flags } (numberedBy before + _) := numbered
      exact move_numbered numbered step
  · intro s calls event s' _ _ numbered _ happened
    obtain ⟨device, stepped, equal⟩ := Option.map_eq_some_iff.mp happened
    cases equal
    refine ⟨?_, fun _ _ => trivial⟩
    exact event_numbered numbered (environment_cases stepped)

theorem messages_distinct
    (reached : Reaches unlockedFlags allowed (installedFlags maxMessageSize maxStorageSize msecsToJiffies delayWq) config) :
    (total messageShares config.calls).1.Nodup := by
  have accepted := total_hom (AddMonoidHom.fst (Multiset Message) (Multiset Message × Multiset Message × Nat)) messageShares
    config.calls
  simp only [AddMonoidHom.coe_fst] at accepted
  rw [accepted]
  apply Multiset.Nodup.of_map Message.id
  rw [← Multiset.coe_mapAddMonoidHom, total_hom]
  refine Multiset.nodup_of_le (total_le ?_ config.calls) (messages_numbered reached).distinct
  rintro ⟨state, loaded⟩
  cases state with
  | device call => exact accepted_le_numbered call
  | sleep _ _ | awake _ => exact Multiset.zero_le _

end Runs

end Tsm
