import Tsm.Lib.Allocation
import Tsm.Proofs.Refinement

/-! Every message a write was counted for is in one place, and the counter of the
device counts those that no read has removed. -/

namespace Tsm
open Interleaving KernelList Allocation

variable {maxMessageSize maxStorageSize : UInt32} {msecsToJiffies : UInt32 → Nat} {delayWq : Bool}

/-- Messages counted and in neither list: in the hands of a writer or of the worker. -/
def inTransit (config : DeviceConfig) : Nat :=
  (total heldBy config.calls).card + config.shared.wq.carried.length

private theorem read_counts {s s' : State} {outcome length msg} (counted : 0 < s.dev.messagesNumber.toNat)
    (moved : groupRead outcome s (.entry length) = some (s', .copyToUser msg length)) :
    s'.dev.messagesNumber.toNat + 1 = s.dev.messagesNumber.toNat := by
  cases groupRead_cases moved with
  | remove last =>
    simp only [count_down counted]
    omega

private theorem write_counts {s s' : State} {outcome buf length id pc}
    (moved : groupWrite outcome s (.critical buf length id) = some (s', pc)) (stored : pc.stored ≠ none) :
    s'.dev.messagesNumber.toNat = s.dev.messagesNumber.toNat + 1 := by
  cases groupWrite_cases moved with
  | full full | fault room failed => exact absurd rfl stored
  | delayed room copied delay | immediate room copied noDelay => exact count_up room

/-- `messages_number` is exact, its increments and decrements never wrap, and it
stays below the largest limit there has been. -/
theorem messagesNumber_exact {config}
    (reached : Reaches device Anything (installed maxMessageSize maxStorageSize msecsToJiffies delayWq) config) :
    config.shared.dev.messagesNumber.toNat =
        config.shared.dev.messageList.length + config.shared.dev.pendingList.length + inTransit config ∧
      config.shared.dev.messagesNumber ≤ config.shared.history.peak ∧
      (∀ outcome length s' msg,
        groupRead outcome config.shared (.entry length) = some (s', .copyToUser msg length) →
        s'.dev.messagesNumber.toNat + 1 = config.shared.dev.messagesNumber.toNat) ∧
      ∀ outcome buf length id s' pc,
        groupWrite outcome config.shared (.critical buf length id) = some (s', pc) → pc.stored ≠ none →
        s'.dev.messagesNumber.toNat = config.shared.dev.messagesNumber.toNat + 1 := by
  obtain ⟨counted, bounded, -⟩ := device_balanced reached
  simp only [view, viewOf] at counted bounded
  refine ⟨?_, UInt32.le_iff_toNat_le.mpr bounded, ?_, fun _ _ _ _ _ _ => write_counts⟩
  · simp only [inTransit]
    omega
  · intro outcome length s' msg moved
    have positive : 0 < config.shared.dev.messagesNumber.toNat := by
      cases groupRead_cases moved with
      | remove last =>
        simp only [last, List.length_append, List.length_singleton] at counted
        omega
    exact read_counts positive moved

/-- One message read, one pending, and one counted by a writer that stands before
its insertion. -/
def countedRun : List DeviceAct :=
  [.enter (.write letters 3)] ++ steps 0 4 ++
    [.enter (.setSendDelay 10), proceed 1, .enter (.write letters 4)] ++ steps 2 5 ++
    [.enter (.write letters 5)] ++ steps 3 4 ++ [.enter (.read 8), proceed 4]

theorem messagesNumber_exact_countedRun : ∃ config, run device Anything sampleDevice countedRun = some config ∧
    config.shared.dev.messagesNumber.toNat =
      config.shared.dev.messageList.length + config.shared.dev.pendingList.length + inTransit config ∧
    config.shared.dev.messagesNumber = 2 := by
  have enabled : (run device Anything sampleDevice countedRun).isSome := by decide
  refine ⟨_, (Option.some_get enabled).symm, (messagesNumber_exact (reaches_get enabled)).1, ?_⟩
  decide +revert

/-! Numbers of messages. A write takes a fresh number, so no two messages it can
store have the same. -/

def numberedBy : Call → Multiset Nat
  | .write (.allocMsg _ _ id) | .write (.critical _ _ id) => {id}
  | .write pc => (pc.stored.toList : Multiset Message).map Message.id
  | _ => 0

def Numbered (s : State) (numbers : Multiset Nat) : Prop := Tracked id s.fresh numbers

theorem write_numbered {s s' : State} {outcome pc pc'} {rest : Multiset Nat}
    (numbered : Numbered s (numberedBy (.write pc) + rest)) (step : WriteStep outcome s pc s' pc') :
    Numbered s' (numberedBy (.write pc') + rest) := by
  cases step with
  | @allocData buf length allocated =>
    have numbered : Numbered s rest := by simpa [numberedBy, WritePc.stored] using numbered
    exact Tracked.alloc {s.fresh} numbered (Multiset.nodup_singleton _) (by simp)
  | allocWork created allocated => exact Tracked.skip numbered
  | noMsg failed | full full | fault room failed =>
    exact Tracked.of_le numbered (Multiset.add_le_add_right (Multiset.zero_le _))
  | _ => exact numbered

theorem device_numbered {allowed config}
    (reached : Reaches device allowed (installed maxMessageSize maxStorageSize msecsToJiffies delayWq) config) :
    Numbered config.shared (total numberedBy config.calls) := by
  refine (reached.outline numberedBy Numbered (fun _ _ => True) ⟨Tracked.empty, by simp⟩ ?_ ?_ ?_).1
  · intro _ request
    cases request <;> exact ⟨rfl, trivial⟩
  · intro s left right request call outcome s' call' _ _ numbered _ _ moved
    refine ⟨?_, trivial, fun _ _ => trivial⟩
    cases move_cases moved with
    | write step => exact write_numbered numbered step
    | read step => cases step <;> exact numbered
    | setSendDelay step => cases step <;> exact numbered
    | revoke step => cases step <;> exact numbered
  · intro s calls event s' _ _ numbered _ happened
    refine ⟨?_, fun _ _ => trivial⟩
    cases environment_cases happened with
    | worker step => cases step <;> exact numbered
    | _ => exact numbered

theorem accepted_nodup {allowed config}
    (reached : Reaches device allowed (installed maxMessageSize maxStorageSize msecsToJiffies delayWq) config) :
    (total acceptedBy config.calls).Nodup := by
  apply Multiset.Nodup.of_map Message.id
  rw [← Multiset.coe_mapAddMonoidHom, total_hom]
  refine Multiset.nodup_of_le (total_le ?_ config.calls) (device_numbered reached).distinct
  intro call
  rcases call with pc | pc | pc | pc
  · cases pc with
    | critical _ _ id | allocMsg _ _ id => exact Multiset.zero_le _
    | _ => exact (le_refl _ : (_ : Multiset Nat) ≤ _)
  all_goals exact Multiset.zero_le _

/-! Places. -/

theorem device_conserved {allowed config}
    (reached : Reaches device allowed (installed maxMessageSize maxStorageSize msecsToJiffies delayWq) config) :
    (view config).Conserved :=
  (reaches_refines (fun _ _ => True) installed_balanced (fun _ _ _ _ _ _ => trivial) reached).2.keeps
    rfl fun conserved _ stepped => conserved.step stepped

/-- In how many places a message is: with its writer, in `pending_list`, with the
worker, in `message_list`, or removed by a read. -/
def places (config : DeviceConfig) (msg : Message) : Nat :=
  (total heldBy config.calls).count msg + config.shared.dev.pendingList.count msg +
    config.shared.wq.carried.count msg + config.shared.dev.messageList.count msg +
    (total removedBy config.calls).count msg

theorem one_place {allowed config}
    (reached : Reaches device allowed (installed maxMessageSize maxStorageSize msecsToJiffies delayWq) config)
    (msg : Message) : places config msg = if msg ∈ total acceptedBy config.calls then 1 else 0 := by
  have conserved := congrArg (Multiset.count msg) (device_conserved reached)
  simp only [view, viewOf, Multiset.count_add, Multiset.coe_count] at conserved
  rw [places, ← conserved]
  split
  next accepted => exact Multiset.count_eq_one_of_mem (accepted_nodup reached) accepted
  next unknown => exact Multiset.count_eq_zero_of_notMem unknown

/-! Contents. -/

/-- `max_message_size` is not written during the run. -/
def SizeFixed (_ : DeviceConfig) : DeviceAct → Prop
  | .environment (.maxMessageSize _) => False
  | _ => True

instance (config : DeviceConfig) : (act : DeviceAct) → Decidable (SizeFixed config act)
  | .environment (.maxMessageSize _) => isFalse id
  | .environment .tick | .environment (.maxStorageSize _) | .environment (.expire _) | .environment .worker
  | .enter _ | .move _ _ => isTrue trivial

/-- The bytes a write of `length` bytes from `buf` stores. -/
def Stores (limit : UInt32) (buf : Nat → UInt8) (length : Nat) (msg : Message) : Prop :=
  msg.dataSize = min length limit.toNat ∧ msg.data = copyFromUser buf (min length limit.toNat)

/-- What a read that asked for `length` bytes returns for the message it removed. -/
def Delivers (length : Nat) (msg : Message) (ret : Int) (bytes : List UInt8) : Prop :=
  ret = (min length msg.dataSize : Nat) ∧ bytes = msg.data.take (min length msg.dataSize)

/-- What a call knows of its message, from its request on. -/
def Carries (limit : UInt32) : Request → Call → Prop
  | .write buf length, .write pc =>
    match pc with
    | .entry buf' length' => buf' = buf ∧ length' = length
    | .clamp buf' => buf' = buf ∧ limit.toNat < length
    | .allocData buf' length' | .allocMsg buf' length' _ | .critical buf' length' _ =>
      buf' = buf ∧ length' = min length limit.toNat
    | .msgFail _ _ | .dataFail _ _ => True
    | .done _ stored => ∀ msg ∈ stored, Stores limit buf length msg
    | .pend msg | .addDelayedWork msg | .downWq msg _ | .queueWork msg _ | .listAdd msg _ | .upWq msg
    | .listPrint msg | .traverse msg _ | .print msg => Stores limit buf length msg
  | .read length, .read pc =>
    match pc with
    | .entry length' | .copyToUser _ length' => length' = length
    | .print msg length' bytes | .freeData msg length' bytes | .freeMsg msg length' bytes =>
      Delivers length msg length' bytes
    | .done ret removed bytes => ∀ msg ∈ removed, ret = -1 ∨ Delivers length msg ret bytes
  | .setSendDelay _, .setSendDelay _ => True
  | .revokeDelayedMessages, .revoke _ => True
  | _, _ => False

theorem Carries.stores {limit : UInt32} {buf : Nat → UInt8} {length : Nat} {pc : WritePc} {msg : Message}
    (carries : Carries limit (.write buf length) (.write pc)) (stored : msg ∈ pc.stored) :
    Stores limit buf length msg := by
  cases pc <;> first | (cases stored; exact carries) | exact carries msg stored | cases stored

theorem write_carries {s s' : State} {outcome request pc pc'}
    (carries : Carries s.maxMessageSize request (.write pc)) (step : WriteStep outcome s pc s' pc') :
    Carries s'.maxMessageSize request (.write pc') := by
  cases request with
  | write buf length =>
    cases step with
    | invalid empty | noData failed => exact fun _ none => by cases none
    | oversize positive large =>
      obtain ⟨rfl, rfl⟩ := carries
      exact ⟨rfl, large⟩
    | fits positive inside =>
      obtain ⟨rfl, rfl⟩ := carries
      exact ⟨rfl, (Nat.min_eq_left inside).symm⟩
    | clamp =>
      obtain ⟨rfl, large⟩ := carries
      exact ⟨rfl, (Nat.min_eq_right (Nat.le_of_lt large)).symm⟩
    | delayed room copied delay | immediate room copied noDelay =>
      obtain ⟨rfl, rfl⟩ := carries
      exact ⟨rfl, rfl⟩
    | print =>
      intro msg same
      cases same
      exact carries
    | dataFail => exact fun _ none => by cases none
    | noMsg failed | full full | fault room failed | msgFail => trivial
    | _ => exact carries
  | read _ | setSendDelay _ | revokeDelayedMessages => exact carries.elim

theorem read_carries {s s' : State} {outcome request pc pc'}
    (carries : Carries s.maxMessageSize request (.read pc)) (step : ReadStep outcome s pc s' pc') :
    Carries s'.maxMessageSize request (.read pc') := by
  cases request with
  | read length =>
    cases step with
    | empty empty => exact fun _ none => by cases none
    | fault failed => exact fun _ _ => .inl rfl
    | copy copied =>
      cases carries
      exact ⟨rfl, rfl⟩
    | freeMsg =>
      intro msg same
      cases same
      exact .inr carries
    | _ => exact carries
  | write _ _ | setSendDelay _ | revokeDelayedMessages => exact carries.elim

theorem move_keeps_size {s s' : State} {outcome call call'} (step : MoveStep outcome s call s' call') :
    s'.maxMessageSize = s.maxMessageSize := by
  cases step with
  | write step => cases step <;> rfl
  | read step => cases step <;> rfl
  | setSendDelay step => cases step <;> rfl
  | revoke step => cases step <;> rfl

theorem device_carries {config}
    (reached : Reaches device SizeFixed (installed maxMessageSize maxStorageSize msecsToJiffies delayWq) config) :
    config.shared.maxMessageSize = maxMessageSize ∧
      ∀ process ∈ config.calls, Carries maxMessageSize process.request process.state := by
  refine reached.outline (M := Nat) (fun _ => 0) (fun s _ => s.maxMessageSize = maxMessageSize)
    (fun _ process => Carries maxMessageSize process.request process.state) ⟨rfl, by simp [installed]⟩ ?_ ?_ ?_
  · intro _ request
    cases request <;> exact ⟨rfl, by simp [device, enter, Carries]⟩
  · intro s left right request call outcome s' call' _ _ limit carries others moved
    subst limit
    have step := move_cases moved
    have fixed := move_keeps_size step
    refine ⟨fixed, ?_, others⟩
    rw [← fixed]
    cases step with
    | write step => exact write_carries carries step
    | read step => exact read_carries carries step
    | setSendDelay step | revoke step => cases request <;> first | exact carries.elim | trivial
  · intro s calls event s' _ fixed limit carries happened
    refine ⟨?_, carries⟩
    cases environment_cases happened with
    | maxMessageSize => exact fixed.elim
    | worker step => cases step <;> exact limit
    | _ => exact limit

/-- Exactly-once delivery with the right bytes: a message a write was counted for
is in exactly one place and nothing else is anywhere; a stored message holds the
bytes its writer passed, a read that succeeds returns the bytes of the message it
removed, and a write was counted for that message and stored it. -/
theorem exactly_once {config}
    (reached : Reaches device SizeFixed (installed maxMessageSize maxStorageSize msecsToJiffies delayWq) config) :
    (∀ msg, places config msg = if msg ∈ total acceptedBy config.calls then 1 else 0) ∧
      (∀ process ∈ config.calls, ∀ buf length pc, process.request = .write buf length → process.state = .write pc →
        ∀ msg ∈ pc.stored, Stores maxMessageSize buf length msg) ∧
      ∀ process ∈ config.calls, ∀ length ret msg bytes, process.request = .read length →
        process.state = .read (.done ret (some msg) bytes) → ret ≠ -1 →
        Delivers length msg ret bytes ∧
          ∃ writer ∈ config.calls, msg ∈ acceptedBy writer.state ∧
            ∃ buf written, writer.request = .write buf written ∧ Stores maxMessageSize buf written msg := by
  obtain ⟨-, carries⟩ := device_carries reached
  have stores : ∀ process ∈ config.calls, ∀ buf length pc, process.request = .write buf length →
      process.state = .write pc → ∀ msg ∈ pc.stored, Stores maxMessageSize buf length msg := by
    intro process member buf length pc request state msg stored
    have known := carries process member
    rw [request, state] at known
    exact known.stores stored
  refine ⟨one_place reached, stores, ?_⟩
  intro process member length ret msg bytes request state success
  refine ⟨?_, ?_⟩
  · have known := carries process member
    rw [request, state] at known
    exact (known msg rfl).resolve_left success
  · have own : msg ∈ removedBy process.state := by simp [state, removedBy, ReadPc.removed]
    have removed : msg ∈ (view config).removed := mem_total.mpr ⟨process, member, own⟩
    have accepted : msg ∈ (view config).accepted := by
      rw [device_conserved reached]
      exact Multiset.mem_add.mpr (.inr removed)
    obtain ⟨writer, present, stored⟩ := mem_total.mp accepted
    obtain ⟨asked, call⟩ := writer
    cases call with
    | write pc =>
      have known := carries _ present
      cases asked with
      | write buf written =>
        have same : msg ∈ pc.stored := by simpa [acceptedBy] using stored
        exact ⟨_, present, stored, buf, written, rfl, stores _ present buf written pc rfl rfl msg same⟩
      | _ => exact known.elim
    | _ => simp [acceptedBy] at stored

/-- A write of three bytes and a read of two. -/
def deliveredRun : List DeviceAct :=
  [.enter (.write letters 3)] ++ steps 0 4 ++ [.enter (.read 2)] ++ steps 1 5

theorem exactly_once_deliveredRun : ∃ config, run device SizeFixed sampleDevice deliveredRun = some config ∧
    ∃ process ∈ config.calls, ∃ msg, process.state = .read (.done 2 (some msg) [97, 98]) ∧
      Delivers 2 msg 2 [97, 98] := by
  have enabled : (run device SizeFixed sampleDevice deliveredRun).isSome := by decide
  have member := List.mem_of_getElem? (l := ((run device SizeFixed sampleDevice deliveredRun).get enabled).calls)
    (i := 1) rfl
  exact ⟨_, (Option.some_get enabled).symm, _, member, _, rfl,
    ((exactly_once (reaches_get enabled)).2.2 _ member _ _ _ _ rfl rfl (by decide)).1⟩

end Tsm
