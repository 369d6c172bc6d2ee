import Tsm.Proofs.GroupMessages
import Tsm.Proofs.Groups

/-! What the groups are for: threads that have opened the same group exchange messages,
each of which is read once, and nothing passes from one group to another. -/

namespace Tsm.Module
open Interleaving LoadStore Manager

variable {maxMessageSize maxStorageSize : UInt32} {msecsToJiffies : UInt32 → Nat} {config : ModuleConfig} {id : Nat}
  {device : Device}

/-- Whatever is allowed in the module, a group does what a device can do. -/
theorem group_attains {allowed : ModuleConfig → ModuleAct → Prop}
    (reached : Reaches tsm allowed (loaded maxMessageSize maxStorageSize msecsToJiffies) config)
    (present : config.shared.devices id = some device) :
    ∃ limit storage msecs delayWq all, Reaches unlockedFlags Anything (installedFlags limit storage msecs delayWq)
        ⟨device.state, all⟩ ∧
      (all : Multiset (Process FlagRequest DeviceCall)) = groupCalls id config := by
  have free : Reaches tsm (OnDevices Freely) (loaded maxMessageSize maxStorageSize msecsToJiffies) config :=
    reached.mono fun _ _ _ _ _ _ _ _ _ => trivial
  obtain ⟨limit, storage, msecs, delayWq, all, ran, same⟩ := group_reaches free present
  exact ⟨limit, storage, msecs, delayWq, all, ran.mono fun _ _ _ => trivial, same⟩

/-! The account of one group. -/

/-- Where a message of a group is: kept by a read that has removed it, pending, carried by
the worker, in the list, or with a write that is still to be linked. -/
def placesOf (s : Tsm.State) (counts : Multiset Message × Multiset Message × Multiset Message × Nat) (msg : Message) : Nat :=
  counts.2.2.1.count msg + s.dev.pendingList.count msg + s.wq.carried.count msg + s.dev.messageList.count msg +
    counts.2.1.count msg

/-- `messages_number` counts the messages that no read has removed, each message a write
was counted for is in one place, and the whole is a conveyor at work. -/
structure GroupAccount (s : Tsm.State) (counts : Multiset Message × Multiset Message × Multiset Message × Nat) : Prop where
  counted : s.dev.messagesNumber.toNat =
    counts.2.2.1.card + s.dev.pendingList.length + s.wq.carried.length + s.dev.messageList.length
  bounded : s.dev.messagesNumber ≤ s.history.peak
  oncePlaced : ∀ msg, placesOf s counts msg = if msg ∈ counts.1 then 1 else 0
  conveys : ∃ limit storage msecs delayWq,
    Conveyor.Reaches (fun _ _ => True) (conveyorOf (.installed limit storage msecs delayWq) noShares) (conveyorOf s counts)

theorem placed_once (reached : Reaches tsm Anything (loaded maxMessageSize maxStorageSize msecsToJiffies) config)
    (present : config.shared.devices id = some device) (msg : Message) :
    placesOf device.state.device (summed messageShares (groupCalls id config)) msg =
      if msg ∈ (summed messageShares (groupCalls id config)).1 then 1 else 0 := by
  obtain ⟨limit, storage, msecs, delayWq, all, ran, same⟩ := group_attains reached present
  obtain ⟨⟨-, conserved, -⟩, -⟩ := messages_convey ran
  have distinct := messages_distinct ran
  rw [← same, summed_coe]
  have places := congrArg (Multiset.count msg) conserved
  simp only [conveyorOf, viewOf, Multiset.count_add, Multiset.coe_count] at places
  rw [placesOf, ← places]
  split
  next accepted => exact Multiset.count_eq_one_of_mem distinct accepted
  next unknown => exact Multiset.count_eq_zero_of_notMem unknown

/-- Whatever happens to other groups, to the barrier and to the parameters, no message of
a group is lost or doubled. -/
theorem group_account (reached : Reaches tsm Anything (loaded maxMessageSize maxStorageSize msecsToJiffies) config)
    (present : config.shared.devices id = some device) :
    GroupAccount device.state.device (summed messageShares (groupCalls id config)) := by
  have once := placed_once reached present
  obtain ⟨limit, storage, msecs, delayWq, all, ran, same⟩ := group_attains reached present
  obtain ⟨⟨balanced, -, conveys⟩, -⟩ := messages_convey ran
  rw [← same, summed_coe] at once ⊢
  exact ⟨balanced.counted, UInt32.le_iff_toNat_le.mpr balanced.bounded, once, ⟨limit, storage, msecs, delayWq, conveys⟩⟩

/-! Between threads. -/

/-- A write on a file of the group was counted for the message. -/
def Stores (id : Nat) (msg : Message) (process : Process Syscall Call) : Prop :=
  ∃ pc loaded, process.state = .device id ⟨.device (.write pc), loaded⟩ ∧ msg ∈ pc.stored

/-- A read on a file of the group has removed the message. -/
def Removes (id : Nat) (msg : Message) (process : Process Syscall Call) : Prop :=
  ∃ pc loaded, process.state = .device id ⟨.device (.read pc), loaded⟩ ∧ msg ∈ pc.removed

/-- The write was made through a file that is open on the group, and the message holds
the bytes it passed. -/
def WroteTo (config : ModuleConfig) (id : Nat) (msg : Message) (writer : Process Syscall Call) : Prop :=
  ∃ filp buf length, writer.request = .file filp (.write buf length) ∧ config.shared.files[filp]? = some id ∧
    msg.CopiedFrom buf

/-- What a read has returned is its message, cut to the length it asked for. -/
def ReadFrom (config : ModuleConfig) (id : Nat) (msg : Message) (reader : Process Syscall Call) : Prop :=
  ∃ filp length, reader.request = .file filp (.read length) ∧ config.shared.files[filp]? = some id ∧
    ∀ ret bytes loaded, reader.state = .device id ⟨.device (.read (.done ret (some msg) bytes)), loaded⟩ →
      ret = -1 ∨ Delivers length msg ret bytes

def acceptedIn (call : DeviceCall) : Multiset Message := (messageShares call).1

def removedIn (call : DeviceCall) : Multiset Message := (messageShares call).2.1

def heldIn (call : DeviceCall) : Multiset Message := (messageShares call).2.2.1

theorem accepted_summed (calls : Multiset (Process FlagRequest DeviceCall)) :
    (summed messageShares calls).1 = summed acceptedIn calls :=
  summed_hom (AddMonoidHom.fst (Multiset Message) (Multiset Message × Multiset Message × Nat)) messageShares calls

theorem removed_summed (calls : Multiset (Process FlagRequest DeviceCall)) :
    (summed messageShares calls).2.1 = summed removedIn calls :=
  summed_hom ((AddMonoidHom.fst (Multiset Message) (Multiset Message × Nat)).comp
    (AddMonoidHom.snd (Multiset Message) (Multiset Message × Multiset Message × Nat))) messageShares calls

theorem held_summed (calls : Multiset (Process FlagRequest DeviceCall)) :
    (summed messageShares calls).2.2.1 = summed heldIn calls :=
  summed_hom (((AddMonoidHom.fst (Multiset Message) Nat).comp (AddMonoidHom.snd (Multiset Message) (Multiset Message × Nat))).comp
    (AddMonoidHom.snd (Multiset Message) (Multiset Message × Multiset Message × Nat))) messageShares calls

theorem request_read {op : FileOp} {length : Nat} (asks : op.request = some (.device (.read length))) : op = .read length := by
  cases op with
  | read other => cases asks; rfl
  | write _ _ | flush | release => cases asks
  | unlockedIoctl cmd arg =>
    simp only [FileOp.request, groupUnlockedIoctl] at asks
    repeat' split at asks
    all_goals cases asks

theorem request_write {op : FileOp} {buf : Nat → UInt8} {length : Nat}
    (asks : op.request = some (.device (.write buf length))) : op = .write buf length := by
  cases op with
  | write _ _ => cases asks; rfl
  | read _ | flush | release => cases asks
  | unlockedIoctl cmd arg =>
    simp only [FileOp.request, groupUnlockedIoctl] at asks
    repeat' split at asks
    all_goals cases asks

theorem stores_of_accepted {process : Process Syscall Call} {call : DeviceCall} {msg : Message}
    (state : process.state = .device id call) (accepted : msg ∈ acceptedIn call) : Stores id msg process := by
  obtain ⟨moving, loaded⟩ := call
  cases moving with
  | device moving =>
    cases moving with
    | write pc => exact ⟨pc, loaded, state, Option.mem_toList.mp (Multiset.mem_coe.mp accepted)⟩
    | read _ | setSendDelay _ | revoke _ => exact absurd accepted (Multiset.notMem_zero msg)
  | sleep _ _ | awake _ => exact absurd accepted (Multiset.notMem_zero msg)

theorem removes_of_removed {process : Process Syscall Call} {call : DeviceCall} {msg : Message}
    (state : process.state = .device id call) (removed : msg ∈ removedIn call) : Removes id msg process := by
  obtain ⟨moving, loaded⟩ := call
  cases moving with
  | device moving =>
    cases moving with
    | read pc => exact ⟨pc, loaded, state, Option.mem_toList.mp (Multiset.mem_coe.mp removed)⟩
    | write _ | setSendDelay _ | revoke _ => exact absurd removed (Multiset.notMem_zero msg)
  | sleep _ _ | awake _ => exact absurd removed (Multiset.notMem_zero msg)

/-- A write that was counted for the message still holds it. -/
def Holds (id : Nat) (msg : Message) (process : Process Syscall Call) : Prop :=
  ∃ loaded, process.state = .device id ⟨.device (.write (.pend msg)), loaded⟩

theorem holds_of_held {process : Process Syscall Call} {call : DeviceCall} {msg : Message}
    (state : process.state = .device id call) (held : msg ∈ heldIn call) : Holds id msg process := by
  obtain ⟨moving, loaded⟩ := call
  cases moving with
  | device moving =>
    cases moving with
    | write pc =>
      cases pc with
      | pend held' =>
        cases Multiset.mem_singleton.mp held
        exact ⟨loaded, state⟩
      | _ => exact absurd held (Multiset.notMem_zero msg)
    | read _ | setSendDelay _ | revoke _ => exact absurd held (Multiset.notMem_zero msg)
  | sleep _ _ | awake _ => exact absurd held (Multiset.notMem_zero msg)

/-- The message is with its writer, pending, with the worker, or in the list. -/
def InGroup (config : ModuleConfig) (id : Nat) (msg : Message) : Prop :=
  (∃ holder ∈ config.calls, Holds id msg holder) ∨
    ∃ device, config.shared.devices id = some device ∧
      (msg ∈ device.state.device.dev.pendingList ∨ msg ∈ device.state.device.wq.carried ∨
        msg ∈ device.state.device.dev.messageList)

section Calls
variable (reached : Reaches tsm Anything (loaded maxMessageSize maxStorageSize msecsToJiffies) config)
include reached

/-- A call of the module is one of its group, with the same request. -/
theorem groupPart_call {process : Process Syscall Call} (member : process ∈ config.calls) {call : DeviceCall}
    (state : process.state = .device id call) :
    ∃ filp op asked, process.request = .file filp op ∧ config.shared.files[filp]? = some id ∧ op.request = some asked ∧
      groupPart id process = some ⟨asked, call⟩ := by
  have asked := (module_sound reached).2 process member
  obtain ⟨request, _⟩ := process
  subst state
  cases request with
  | file filp op =>
    obtain ⟨request, asks⟩ := Option.isSome_iff_exists.mp asked.2
    exact ⟨filp, op, request, rfl, asked.1, asks, groupPart_file asks⟩
  | tsmIoctl _ _ _ | openFile _ => exact asked.elim

/-- What a call on the group knows of the bytes it moves. -/
theorem call_contents (present : config.shared.devices id = some device) {process : Process FlagRequest DeviceCall}
    (member : process ∈ groupCalls id config) : FlagContents process.request process.state.state := by
  obtain ⟨limit, storage, msecs, delayWq, all, ran, same⟩ := group_attains reached present
  exact (messages_convey ran).2 process (Multiset.mem_coe.mp (same ▸ member))

theorem writer_wrote (present : config.shared.devices id = some device) {writer : Process Syscall Call} {msg : Message}
    (member : writer ∈ config.calls) (stores : Stores id msg writer) : WroteTo config id msg writer := by
  obtain ⟨pc, loaded, state, stored⟩ := stores
  obtain ⟨filp, op, asked, request, opened, asks, part⟩ := groupPart_call reached member state
  obtain ⟨asked, rfl, contents⟩ := call_contents reached present (mem_parts_iff.mpr ⟨writer, member, part⟩) _ rfl
  cases asked with
  | write buf length =>
    cases request_write asks
    exact ⟨filp, buf, length, request, opened, contents.stored stored⟩
  | read _ | setSendDelay _ | revokeDelayedMessages => exact contents.elim

theorem reader_read (present : config.shared.devices id = some device) {reader : Process Syscall Call} {msg : Message}
    (member : reader ∈ config.calls) (removes : Removes id msg reader) : ReadFrom config id msg reader := by
  obtain ⟨pc, loaded, state, -⟩ := removes
  obtain ⟨filp, op, asked, request, opened, asks, part⟩ := groupPart_call reached member state
  obtain ⟨asked, rfl, contents⟩ := call_contents reached present (mem_parts_iff.mpr ⟨reader, member, part⟩) _ rfl
  cases asked with
  | read length =>
    cases request_read asks
    refine ⟨filp, length, request, opened, fun ret bytes loaded' returned => ?_⟩
    rw [state] at returned
    cases returned
    exact contents msg rfl
  | write _ _ | setSendDelay _ | revokeDelayedMessages => exact contents.elim

theorem removed_in {reader : Process Syscall Call} {msg : Message} (member : reader ∈ config.calls) (removes : Removes id msg reader) :
    ∃ asked call, groupPart id reader = some ⟨asked, call⟩ ∧ msg ∈ removedIn call := by
  obtain ⟨pc, loaded, state, removed⟩ := removes
  obtain ⟨_, _, asked, _, _, _, part⟩ := groupPart_call reached member state
  exact ⟨asked, _, part, Multiset.mem_coe.mpr (Option.mem_toList.mpr removed)⟩

/-- What a read has taken a write has left there. -/
theorem removed_stored {reader : Process Syscall Call} {msg : Message} (member : reader ∈ config.calls)
    (removes : Removes id msg reader) (present : config.shared.devices id = some device) :
    ∃ writer ∈ config.calls, Stores id msg writer ∧ WroteTo config id msg writer := by
  obtain ⟨asked, call, part, removed⟩ := removed_in reached member removes
  have account := placed_once reached present msg
  rw [placesOf, accepted_summed, removed_summed] at account
  have counted : 1 ≤ (summed removedIn (groupCalls id config)).count msg :=
    Multiset.one_le_count_iff_mem.mpr (mem_summed.mpr ⟨_, mem_parts_iff.mpr ⟨reader, member, part⟩, removed⟩)
  have accepted : msg ∈ summed acceptedIn (groupCalls id config) := by
    by_contra unknown
    rw [if_neg unknown] at account
    omega
  obtain ⟨⟨_, stored⟩, among, stores⟩ := mem_summed.mp accepted
  obtain ⟨writer, member', part'⟩ := mem_parts_iff.mp among
  have stores : Stores id msg writer := stores_of_accepted (state_of_groupPart part') stores
  exact ⟨writer, member', stores, writer_wrote reached present member' stores⟩

/-- The device of a read that has taken something. -/
theorem removed_present {reader : Process Syscall Call} {msg : Message} (member : reader ∈ config.calls)
    (removes : Removes id msg reader) : ∃ device, config.shared.devices id = some device := by
  obtain ⟨pc, loaded, state, -⟩ := removes
  obtain ⟨_, _, _, _, opened, _⟩ := groupPart_call reached member state
  exact (module_sound reached).1.files id (List.mem_of_getElem? opened)

/-- No other read has taken it too. -/
theorem removed_once {left right : List (Process Syscall Call)} {reader other : Process Syscall Call} {msg : Message}
    (split : config.calls = left ++ reader :: right) (removes : Removes id msg reader) (among : other ∈ left ++ right) :
    ¬ Removes id msg other := by
  intro removesToo
  have member : reader ∈ config.calls := split ▸ List.mem_append_right _ List.mem_cons_self
  obtain ⟨device, present⟩ := removed_present reached member removes
  -- the message would have been removed twice
  obtain ⟨asked, call, part, removed⟩ := removed_in reached member removes
  obtain ⟨asked', call', part', removed'⟩ := removed_in reached (split ▸ mem_of_mem_others among) removesToo
  have once := Multiset.one_le_count_iff_mem.mpr removed
  have again := Multiset.one_le_count_iff_mem.mpr (mem_summed.mpr ⟨_, mem_parts_iff.mpr ⟨other, among, part'⟩, removed'⟩)
  have taken : (summed removedIn (groupCalls id config)).count msg =
      (removedIn call).count msg + (summed removedIn (parts (groupPart id) (left ++ right))).count msg := by
    rw [groupCalls, split, parts_middle, part, optional_some, summed_add, summed_singleton, Multiset.count_add]
  have account := placed_once reached present msg
  rw [placesOf, removed_summed] at account
  split at account <;> omega

/-- What was written to a group either has been read or still is there. -/
theorem stored_placed {writer : Process Syscall Call} {msg : Message} (member : writer ∈ config.calls)
    (stores : Stores id msg writer) : (∃ reader ∈ config.calls, Removes id msg reader) ↔ ¬ InGroup config id msg := by
  obtain ⟨pc, loaded, state, stored⟩ := stores
  obtain ⟨_, _, asked, _, opened, _, part⟩ := groupPart_call reached member state
  obtain ⟨device, present⟩ := (module_sound reached).1.files id (List.mem_of_getElem? opened)
  have account := placed_once reached present msg
  have accepted : msg ∈ summed acceptedIn (groupCalls id config) :=
    mem_summed.mpr ⟨_, mem_parts_iff.mpr ⟨writer, member, part⟩, Multiset.mem_coe.mpr (Option.mem_toList.mpr stored)⟩
  rw [placesOf, accepted_summed, removed_summed, held_summed, if_pos accepted] at account
  have removed : (∃ reader ∈ config.calls, Removes id msg reader) ↔ 1 ≤ (summed removedIn (groupCalls id config)).count msg := by
    rw [Multiset.one_le_count_iff_mem, mem_summed]
    constructor
    · rintro ⟨reader, among, removes⟩
      obtain ⟨asked, call, part, removed⟩ := removed_in reached among removes
      exact ⟨_, mem_parts_iff.mpr ⟨reader, among, part⟩, removed⟩
    · rintro ⟨⟨_, call⟩, among, removed⟩
      obtain ⟨reader, member, part⟩ := mem_parts_iff.mp among
      exact ⟨reader, member, removes_of_removed (state_of_groupPart part) removed⟩
  have held : (∃ holder ∈ config.calls, Holds id msg holder) ↔ 1 ≤ (summed heldIn (groupCalls id config)).count msg := by
    rw [Multiset.one_le_count_iff_mem, mem_summed]
    constructor
    · rintro ⟨holder, among, loaded, state⟩
      obtain ⟨_, _, asked, _, _, _, part⟩ := groupPart_call reached among state
      exact ⟨_, mem_parts_iff.mpr ⟨holder, among, part⟩, Multiset.mem_singleton_self msg⟩
    · rintro ⟨⟨_, call⟩, among, held⟩
      obtain ⟨holder, member, part⟩ := mem_parts_iff.mp among
      exact ⟨holder, member, holds_of_held (state_of_groupPart part) held⟩
  have inside : InGroup config id msg ↔ 1 ≤ (summed heldIn (groupCalls id config)).count msg ∨
      1 ≤ device.state.device.dev.pendingList.count msg ∨ 1 ≤ device.state.device.wq.carried.count msg ∨
        1 ≤ device.state.device.dev.messageList.count msg := by
    simp only [List.one_le_count_iff, ← held, InGroup, present, Option.some.injEq, exists_eq_left']
  rw [removed, inside]
  omega

/-- A message that a read has taken was written to the same group, through a file that
is open on it, the read returns the bytes that were passed, and no other read has taken
the message. -/
theorem reads_own_group {left right : List (Process Syscall Call)} {reader : Process Syscall Call} {msg : Message}
    (split : config.calls = left ++ reader :: right) (removes : Removes id msg reader) :
    ReadFrom config id msg reader ∧ (∃ writer ∈ config.calls, Stores id msg writer ∧ WroteTo config id msg writer) ∧
      ∀ other ∈ left ++ right, ¬ Removes id msg other := by
  have member : reader ∈ config.calls := split ▸ List.mem_append_right _ List.mem_cons_self
  obtain ⟨device, present⟩ := removed_present reached member removes
  exact ⟨reader_read reached present member removes, removed_stored reached member removes present,
    fun other among => removed_once reached split removes among⟩

end Calls

/-- A write through one file of a group, and a read of two bytes through another. -/
def exchangeRun : List ModuleAct :=
  openedRun ++ [.enter (.file 0 (.write letters 3))] ++ moduleSteps 3 5 ++ [.enter (.file 1 (.read 2))] ++ moduleSteps 4 6

theorem reads_own_group_exchangeRun :
    ∃ config, run tsm Anything sampleModule exchangeRun = some config ∧ ∃ reader ∈ config.calls, ∃ msg, Removes 0 msg reader ∧
      ReadFrom config 0 msg reader ∧ ∃ writer ∈ config.calls, Stores 0 msg writer ∧ WroteTo config 0 msg writer := by
  have enabled : (run tsm Anything sampleModule exchangeRun).isSome := by decide
  have member := List.mem_of_getElem? (l := ((run tsm Anything sampleModule exchangeRun).get enabled).calls) (i := 4) rfl
  obtain ⟨left, right, split⟩ := List.append_of_mem member
  have own := reads_own_group (reaches_get enabled) split ⟨_, _, rfl, rfl⟩
  exact ⟨_, (Option.some_get enabled).symm, _, member, _, ⟨_, _, rfl, rfl⟩, own.1, own.2.1⟩

theorem group_account_exchangeRun :
    ∃ config device, run tsm Anything sampleModule exchangeRun = some config ∧ config.shared.devices 0 = some device ∧
      GroupAccount device.state.device (summed messageShares (groupCalls 0 config)) := by
  have enabled : (run tsm Anything sampleModule exchangeRun).isSome := by decide
  have present : ((run tsm Anything sampleModule exchangeRun).get enabled).shared.devices 0 = some _ := rfl
  exact ⟨_, _, (Option.some_get enabled).symm, present, group_account (reaches_get enabled) present⟩

end Tsm.Module
