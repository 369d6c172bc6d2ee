import Tsm.Proofs.Conservation

/-! The order in which messages become available and are read. Both orders are
lost when a REVOKE splices the pending messages next to the wrong end, or past a
message the worker is about to insert; both are kept by runs that never do. -/

namespace Tsm
open Interleaving KernelList

variable {maxMessageSize maxStorageSize : UInt32} {msecsToJiffies : UInt32 → Nat} {delayWq : Bool}

/-! First in, first out. -/

/-- Reads have removed the messages that became available first, in that order. -/
def ReadInOrder (config : DeviceConfig) : Prop :=
  config.shared.history.taken <+: config.shared.history.available

def Call.splices : Call → Bool
  | .revoke .splice => true
  | _ => false

/-- A REVOKE only splices while `message_list` or `pending_list` is empty. -/
def RevokesAlone (config : DeviceConfig) (act : DeviceAct) : Prop :=
  ∀ moving ∈ mover config act, moving.1.splices →
    config.shared.dev.messageList = [] ∨ config.shared.dev.pendingList = []

instance (config : DeviceConfig) (act : DeviceAct) : Decidable (RevokesAlone config act) :=
  inferInstanceAs (Decidable (∀ moving ∈ mover config act, _ → _ ∨ _))

theorem read_in_order {config}
    (reached : Reaches device RevokesAlone (installed maxMessageSize maxStorageSize msecsToJiffies delayWq) config) :
    ReadInOrder config := by
  have ran := (reaches_refines Conveyor.SpliceAlone installed_balanced ?_ reached).2
  · have fifo : (view config).Fifo := ran.keeps rfl fun fifo alone stepped => fifo.step alone stepped
    exact ⟨_, fifo.symm⟩
  · intro config act label _ alone explained
    cases label with
    | splice =>
      obtain ⟨call, outcome, moving, rfl⟩ := explained
      exact alone _ moving rfl
    | _ => trivial

/-- An immediate write, a delayed one, a REVOKE and a read. -/
def revokedRun : List DeviceAct :=
  [.enter (.write letters 3)] ++ steps 0 4 ++
    [.enter (.setSendDelay 10), proceed 1, .enter (.write letters 4)] ++ steps 2 5 ++
    [.enter .revokeDelayedMessages, proceed 3, .enter (.read 8), proceed 4]

/-- The read removes the message that the REVOKE published, before the one that
was in `message_list` already. -/
theorem read_out_of_order : ¬ ∀ config, Reaches device Anything sampleDevice config → ReadInOrder config := by
  intro ordered
  have enabled : (run device Anything sampleDevice revokedRun).isSome := by decide
  have wrong : ¬ ReadInOrder ((run device Anything sampleDevice revokedRun).get enabled) := by
    unfold ReadInOrder
    decide +revert
  exact wrong (ordered _ (reaches_get enabled))

/-- The same calls, with the first message read before the REVOKE. -/
def readFirstRun : List DeviceAct :=
  [.enter (.write letters 3)] ++ steps 0 4 ++
    [.enter (.read 8), proceed 1, .enter (.setSendDelay 10), proceed 2, .enter (.write letters 4)] ++ steps 3 5 ++
    [.enter .revokeDelayedMessages, proceed 4, .enter (.read 8), proceed 5]

theorem read_in_order_readFirstRun : ∃ config, run device RevokesAlone sampleDevice readFirstRun = some config ∧
    ReadInOrder config ∧ config.shared.history.taken.map Message.id = [0, 1] := by
  have enabled : (run device RevokesAlone sampleDevice readFirstRun).isSome := by decide
  exact ⟨_, (Option.some_get enabled).symm, read_in_order (reaches_get enabled), rfl⟩

/-! Delayed messages are published in the order in which they were written. -/

/-- Delayed messages have entered `message_list` in the order in which they entered
`pending_list`, none before an older one. -/
def PublishedInOrder (config : DeviceConfig) : Prop :=
  config.shared.history.issued <+: config.shared.history.pended

/-- A REVOKE only splices a message while the worker carries none. -/
def RevokesApart (config : DeviceConfig) (act : DeviceAct) : Prop :=
  ∀ moving ∈ mover config act, moving.1.splices →
    config.shared.wq.carried = [] ∨ config.shared.dev.pendingList = []

instance (config : DeviceConfig) (act : DeviceAct) : Decidable (RevokesApart config act) :=
  inferInstanceAs (Decidable (∀ moving ∈ mover config act, _ → _ ∨ _))

theorem published_in_order {config}
    (reached : Reaches device RevokesApart (installed maxMessageSize maxStorageSize msecsToJiffies delayWq) config) :
    PublishedInOrder config := by
  have ran := (reaches_refines Conveyor.SpliceApart installed_balanced ?_ reached).2
  · have ordered : (view config).Ordered := ran.keeps rfl fun ordered apart stepped => ordered.step apart stepped
    exact ⟨_, by rw [← List.append_assoc]; exact ordered.symm⟩
  · intro config act label _ apart explained
    cases label with
    | splice =>
      obtain ⟨call, outcome, moving, rfl⟩ := explained
      exact apart _ moving rfl
    | _ => trivial

/-- The worker takes the first of two pending messages, and a REVOKE publishes the
second before the worker inserts the first. -/
def overtakenRun : List DeviceAct :=
  [.enter (.setSendDelay 1), proceed 0, .enter (.write letters 3)] ++ steps 1 8 ++
    [.enter (.write letters 4)] ++ steps 2 5 ++
    [.environment .tick, .environment (.expire ⟨1, 1⟩), .environment .worker, .environment .worker,
      .enter .revokeDelayedMessages, proceed 3]

theorem published_out_of_order :
    ¬ ∀ config, Reaches device Anything sampleDevice config → PublishedInOrder config := by
  intro ordered
  have enabled : (run device Anything sampleDevice overtakenRun).isSome := by decide
  have wrong : ¬ PublishedInOrder ((run device Anything sampleDevice overtakenRun).get enabled) := by
    unfold PublishedInOrder
    decide +revert
  exact wrong (ordered _ (reaches_get enabled))

/-- The worker moves the first message, and a REVOKE publishes the second. -/
def movedFirstRun : List DeviceAct :=
  [.enter (.setSendDelay 1), proceed 0, .enter (.write letters 3)] ++ steps 1 8 ++
    [.enter (.write letters 4)] ++ steps 2 5 ++
    [.environment .tick, .environment (.expire ⟨1, 1⟩), .environment .worker, .environment .worker,
      .environment .worker, .enter .revokeDelayedMessages, proceed 3]

theorem published_in_order_movedFirstRun :
    ∃ config, run device RevokesApart sampleDevice movedFirstRun = some config ∧
      PublishedInOrder config ∧ config.shared.history.issued.map Message.id = [0, 2] := by
  have enabled : (run device RevokesApart sampleDevice movedFirstRun).isSome := by decide
  exact ⟨_, (Option.some_get enabled).symm, published_in_order (reaches_get enabled), rfl⟩

end Tsm
