import Tsm.Device.Transitions
import Tsm.Lib.Linearization
import Tsm.Mailbox

/-! A group device whose delay is zero is a mailbox: its reads and writes return
what they return when they are carried out one at a time, in the order of their
sections under `message_sem`. -/

namespace Tsm
open Interleaving KernelList

def Call.copiesToUser : Call → Bool
  | .read (.copyToUser _ _) => true
  | _ => false

/-- Only reads and writes, with successful copies to their callers and the limits
left alone. -/
def ReadsAndWrites (config : DeviceConfig) : DeviceAct → Prop
  | .enter (.write _ _) | .enter (.read _) => True
  | .enter _ | .environment (.maxMessageSize _) | .environment (.maxStorageSize _) => False
  | .environment _ => True
  | .move call outcome => ∀ process ∈ config.calls[call]?, process.state.copiesToUser → outcome.copy = true

instance (config : DeviceConfig) : (act : DeviceAct) → Decidable (ReadsAndWrites config act)
  | .enter (.write _ _) | .enter (.read _) => isTrue trivial
  | .enter (.setSendDelay _) | .enter .revokeDelayedMessages => isFalse id
  | .environment (.maxMessageSize _) | .environment (.maxStorageSize _) => isFalse id
  | .environment .tick | .environment (.expire _) | .environment .worker => isTrue trivial
  | .move call _ => inferInstanceAs (Decidable (∀ process ∈ config.calls[call]?, _ → _))

/-- A call takes effect in its section under `message_sem`, or where it fails before it. -/
def effect (s : State) : Request → Call → Outcome → Option Operation
  | .write buf length, .write (.entry _ _), _ => if length = 0 then some (.write buf length false) else none
  | .write buf length, .write (.allocData _ _), outcome | .write buf length, .write (.allocMsg _ _ _), outcome =>
    if outcome.alloc then none else some (.write buf length true)
  | .write buf length, .write (.critical _ _ _), outcome =>
    some (.write buf length (s.dev.messagesNumber < s.maxStorageSize && !outcome.copy))
  | .read length, .read (.entry _), _ => some (.read length)
  | _, _, _ => none

def Call.response : Call → Option Response
  | .write (.done ret _) => some ⟨ret, []⟩
  | .read (.done ret _ bytes) => some ⟨ret, bytes⟩
  | _ => none

/-- What a call asks for, whether it fails or not. -/
def Asks : Request → Operation → Prop
  | .write buf length, .write buf' length' _ => buf' = buf ∧ length' = length
  | .read length, .read length' => length' = length
  | _, _ => False

/-- A call that has taken effect, with what it will return. -/
def Promises : Call → Response → Prop
  | .write pc, response =>
    match pc with
    | .msgFail _ ret | .dataFail _ ret | .done ret _ => response = ⟨ret, []⟩
    | .listPrint msg | .traverse msg _ | .print msg => response = ⟨msg.dataSize, []⟩
    | _ => False
  | .read pc, response =>
    match pc with
    | .entry _ => False
    | .copyToUser msg length =>
      response = ⟨(min length msg.dataSize : Nat), msg.data.take (min length msg.dataSize)⟩
    | .print _ length bytes | .freeData _ length bytes | .freeMsg _ length bytes => response = ⟨length, bytes⟩
    | .done ret _ bytes => response = ⟨ret, bytes⟩
  | _, _ => False

/-- The messages of a device without delay, as a mailbox. -/
structure Holds (dev : GroupDev) (box : Mailbox) : Prop where
  noDelay : dev.delay = 0
  counted : dev.messagesNumber.toNat = dev.messageList.length
  whole : ∀ msg ∈ dev.messageList, msg.dataSize = msg.data.length
  messages : dev.messageList.reverse.map Message.data = box

theorem Holds.length {dev : GroupDev} {box : Mailbox} (holds : Holds dev box) :
    box.length = dev.messagesNumber.toNat := by
  rw [← holds.messages, holds.counted, List.length_map, List.length_reverse]

section Points
variable (maxMessageSize maxStorageSize : UInt32)

def Represents (s : State) (box : Mailbox) : Prop :=
  s.maxMessageSize = maxMessageSize ∧ s.maxStorageSize = maxStorageSize ∧ s.wq = ⟨[], [], none⟩ ∧ Holds s.dev box

/-- A call before it takes effect. -/
def Pending : Request → Call → Prop
  | .write buf length, .write pc =>
    match pc with
    | .entry buf' length' => buf' = buf ∧ length' = length
    | .clamp buf' => buf' = buf ∧ maxMessageSize.toNat < length
    | .allocData buf' length' | .allocMsg buf' length' _ | .critical buf' length' _ =>
      buf' = buf ∧ 0 < length ∧ length' = min length maxMessageSize.toNat
    | _ => False
  | .read length, .read pc => pc = .entry length
  | _, _ => False

/-- A step either prepares the effect of its call, or is it. -/
def TakesEffect (s s' : State) (box : Mailbox) (request : Request) (call call' : Call) (outcome : Outcome) : Prop :=
  match effect s request call outcome with
  | none => Represents maxMessageSize maxStorageSize s' box ∧ Pending maxMessageSize request call'
  | some operation =>
    let result := Mailbox.apply maxMessageSize maxStorageSize box operation
    Represents maxMessageSize maxStorageSize s' result.1 ∧ Promises call' result.2 ∧ Asks request operation

variable {maxMessageSize maxStorageSize : UInt32} {s s' : State} {box : Mailbox} {outcome : Outcome}

theorem write_takes_effect {request pc pc'} (represents : Represents maxMessageSize maxStorageSize s box)
    (pending : Pending maxMessageSize request (.write pc)) (step : WriteStep outcome s pc s' pc') :
    TakesEffect maxMessageSize maxStorageSize s s' box request (.write pc) (.write pc') outcome := by
  cases request with
  | write buf length =>
    obtain ⟨size, storage, noWork, holds⟩ := id represents
    cases step with
    | invalid empty =>
      obtain ⟨rfl, rfl⟩ := pending
      subst empty
      simp [TakesEffect, effect, Mailbox.apply, Promises, Asks, represents]
    | oversize positive large =>
      obtain ⟨rfl, rfl⟩ := pending
      rw [size] at large
      simp [TakesEffect, effect, Pending, represents, large, Nat.ne_of_gt positive]
    | fits positive inside =>
      obtain ⟨rfl, rfl⟩ := pending
      rw [size] at inside
      simp [TakesEffect, effect, Pending, represents, positive, inside, Nat.ne_of_gt positive]
    | clamp =>
      obtain ⟨rfl, large⟩ := pending
      refine ⟨represents, rfl, by omega, ?_⟩
      rw [size, Nat.min_eq_right (Nat.le_of_lt large)]
    | noData failed | noMsg failed =>
      obtain ⟨rfl, -, -⟩ := pending
      simp [TakesEffect, effect, failed, Mailbox.apply, Promises, Asks, represents]
    | allocData allocated | allocMsg allocated =>
      simp only [TakesEffect, effect, allocated]
      exact ⟨represents, pending⟩
    | full full =>
      obtain ⟨rfl, positive, -⟩ := pending
      have many : maxStorageSize.toNat ≤ box.length := by
        rw [holds.length, ← storage]
        exact UInt32.le_iff_toNat_le.mp full
      simp [TakesEffect, effect, UInt32.not_lt.mpr full, Mailbox.apply, many, Nat.ne_of_gt positive, Promises, Asks,
        represents]
    | fault room failed =>
      obtain ⟨rfl, -, -⟩ := pending
      simp [TakesEffect, effect, room, failed, Mailbox.apply, Promises, Asks, represents]
    | delayed room copied delay => exact absurd holds.noDelay delay
    | @immediate buffer count id room copied noDelay =>
      obtain ⟨rfl, positive, cut⟩ := pending
      have few : ¬ maxStorageSize.toNat ≤ box.length := by
        rw [holds.length, ← storage, Nat.not_le]
        exact UInt32.lt_iff_toNat_lt.mp room
      have stored : Mailbox.apply maxMessageSize maxStorageSize box (.write buffer length false) =
          (box ++ [copyFromUser buffer count], ⟨count, []⟩) := by
        simp [Mailbox.apply, few, Nat.ne_of_gt positive, cut]
      simp only [TakesEffect, effect, copied, Bool.not_true, Bool.and_false, stored]
      refine ⟨⟨size, storage, noWork, holds.noDelay, ?_, ?_, ?_⟩, rfl, rfl, rfl⟩
      · rw [count_up room, holds.counted]
        rfl
      · intro msg member
        rcases List.mem_cons.mp member with rfl | member
        · simp [newMessage, copyFromUser]
        · exact holds.whole msg member
      · rw [← holds.messages]
        simp [listAdd, newMessage]
    | _ => exact pending.elim
  | _ => exact pending.elim

theorem read_takes_effect {request pc pc'} (represents : Represents maxMessageSize maxStorageSize s box)
    (pending : Pending maxMessageSize request (.read pc)) (step : ReadStep outcome s pc s' pc') :
    TakesEffect maxMessageSize maxStorageSize s s' box request (.read pc) (.read pc') outcome := by
  cases request with
  | read length =>
    obtain ⟨size, storage, noWork, holds⟩ := id represents
    cases pending
    cases step with
    | empty empty =>
      have nothing : box = [] := by rw [← holds.messages, empty]; rfl
      subst nothing
      exact ⟨represents, rfl, rfl⟩
    | @remove _ msg rest last =>
      have messages : box = msg.data :: rest.reverse.map Message.data := by
        simp [← holds.messages, last]
      subst messages
      refine ⟨⟨size, storage, noWork, holds.noDelay, ?_, ?_, rfl⟩, ?_, rfl⟩
      · have counted := holds.counted
        rw [last, List.length_append, List.length_singleton] at counted
        rw [count_down (by omega), counted]
        rfl
      · exact fun other member => holds.whole other (last ▸ List.mem_append_left _ member)
      · have whole := holds.whole msg (by simp [last])
        simp only [Promises, whole]
        rfl
  | _ => exact pending.elim

theorem write_keeps_promise {request pc pc' response} (represents : Represents maxMessageSize maxStorageSize s box)
    (promises : Promises (.write pc) response) (step : WriteStep outcome s pc s' pc') :
    effect s request (.write pc) outcome = none ∧ Represents maxMessageSize maxStorageSize s' box ∧
      Promises (.write pc') response := by
  have unmarked : effect s request (.write pc) outcome = none := by
    cases request <;> cases pc <;> first | rfl | exact promises.elim
  refine ⟨unmarked, ?_⟩
  cases step with
  | msgFail | dataFail | listPrint | follow | traversed | print => exact ⟨represents, promises⟩
  | _ => exact promises.elim

theorem read_keeps_promise {request pc pc' response} (represents : Represents maxMessageSize maxStorageSize s box)
    (promises : Promises (.read pc) response) (copied : ∀ msg length, pc = .copyToUser msg length → outcome.copy = true)
    (step : ReadStep outcome s pc s' pc') :
    effect s request (.read pc) outcome = none ∧ Represents maxMessageSize maxStorageSize s' box ∧
      Promises (.read pc') response := by
  have unmarked : effect s request (.read pc) outcome = none := by
    cases request <;> cases pc <;> first | rfl | exact promises.elim
  refine ⟨unmarked, ?_⟩
  cases step with
  | empty | remove last => exact promises.elim
  | fault failed => exact absurd (copied _ _ rfl) (by simp [failed])
  | _ => exact ⟨represents, promises⟩

theorem event_represents {config : DeviceConfig} {event} (permitted : ReadsAndWrites config (.environment event))
    (represents : Represents maxMessageSize maxStorageSize s box) (step : EventStep s event s') :
    Represents maxMessageSize maxStorageSize s' box := by
  have noWork := represents.2.2.1
  cases step with
  | tick => exact represents
  | maxMessageSize | maxStorageSize => exact permitted.elim
  | expire armed expired => simp [noWork] at armed
  | worker step => cases step <;> simp_all

theorem move_takes_effect {request call call'} (represents : Represents maxMessageSize maxStorageSize s box)
    (pending : Pending maxMessageSize request call) (step : MoveStep outcome s call s' call') :
    TakesEffect maxMessageSize maxStorageSize s s' box request call call' outcome := by
  cases step with
  | write step => exact write_takes_effect represents pending step
  | read step => exact read_takes_effect represents pending step
  | setSendDelay step | revoke step => cases request <;> exact pending.elim

/-- A call that has returned is not pending, and returned what it promised. -/
theorem not_pending_of_response {request : Request} {call : Call} (returned : call.response.isSome) :
    ¬ Pending maxMessageSize request call := by
  intro pending
  unfold Call.response at returned
  split at returned
  · cases request <;> exact pending
  · cases request with
    | read length => cases pending
    | _ => exact pending
  · cases returned

theorem response_of_promises {call : Call} {response : Response} (returned : call.response.isSome)
    (promises : Promises call response) : call.response = some response := by
  unfold Call.response at returned ⊢
  split at returned
  · exact congrArg some promises.symm
  · exact congrArg some promises.symm
  · cases returned

variable (maxMessageSize maxStorageSize) in
/-- The sections under `message_sem` are the commit points of the device. -/
def mailboxPoints : CommitPoints device ReadsAndWrites effect (Mailbox.apply maxMessageSize maxStorageSize) where
  represents := Represents maxMessageSize maxStorageSize
  pending := Pending maxMessageSize
  promises := Promises
  asks := Asks
  enter {config request} permitted := by
    cases request with
    | write buf length => exact ⟨rfl, rfl⟩
    | read length => rfl
    | _ => exact permitted.elim
  idle _ _ represents pending moved unmarked := by
    have taken := move_takes_effect represents pending (move_cases moved)
    rwa [TakesEffect, unmarked] at taken
  commit _ _ represents pending moved marked := by
    have taken := move_takes_effect represents pending (move_cases moved)
    rwa [TakesEffect, marked] at taken
  promised {config index outcome process shared state object response} permitted found represents promises moved := by
    obtain ⟨request, call⟩ := process
    cases move_cases moved with
    | write step => exact write_keeps_promise represents promises step
    | read step =>
      refine read_keeps_promise represents promises ?_ step
      rintro msg length rfl
      exact permitted _ found rfl
    | setSendDelay step | revoke step => exact promises.elim
  event permitted represents happened := event_represents permitted represents (environment_cases happened)

end Points

variable {maxMessageSize maxStorageSize : UInt32} {msecsToJiffies : UInt32 → Nat} {delayWq : Bool}

/-- Every complete history of reads and writes on a device without delay is the
history of a mailbox that carries the calls out in the order of their effects. -/
theorem zero_delay_linearizable {trace config}
    (ran : Runs device (installed maxMessageSize maxStorageSize msecsToJiffies delayWq) trace config)
    (permitted : ∀ point ∈ trace, ReadsAndWrites point.1 point.2)
    (complete : ∀ process ∈ config.calls, process.state.response.isSome) :
    ((commits effect trace).map Prod.fst).Perm (List.range config.calls.length) ∧
      (∀ entry ∈ commits effect trace,
        ∃ process, config.calls[entry.1]? = some process ∧ Asks process.request entry.2) ∧
      ∀ entry ∈ (replay (Mailbox.apply maxMessageSize maxStorageSize) [] (commits effect trace)).2,
        ∃ process, config.calls[entry.1]? = some process ∧ process.state.response = some entry.2 := by
  have agree := (mailboxPoints maxMessageSize maxStorageSize).agrees ran permitted rfl
    ⟨rfl, rfl, rfl, rfl, rfl, by simp [installed, State.installed], rfl⟩
  obtain ⟨once, answers⟩ := agree.complete fun process member => not_pending_of_response (complete process member)
  refine ⟨once, agree.asks, ?_⟩
  intro entry member
  obtain ⟨process, found, promises⟩ := answers entry member
  exact ⟨process, found, response_of_promises (complete process (List.mem_of_getElem? found)) promises⟩

/-- A write, a read that removes its message before the write returns, and an empty write. -/
def mailboxRun : List DeviceAct :=
  [.enter (.write letters 3), .enter (.read 2), .enter (.write letters 0)] ++ steps 0 4 ++ steps 1 1 ++
    steps 2 1 ++ steps 1 4 ++ steps 0 3

theorem zero_delay_linearizable_mailboxRun :
    ∃ trace config, record device sampleDevice mailboxRun = some (trace, config) ∧
      ((commits effect trace).map Prod.fst).Perm (List.range config.calls.length) ∧
      (replay (Mailbox.apply 32 64) [] (commits effect trace)).2 =
        [(0, ⟨3, []⟩), (1, ⟨2, [97, 98]⟩), (2, ⟨-1, []⟩)] := by
  have enabled : (record device sampleDevice mailboxRun).isSome := by decide
  have permitted : ∀ point ∈ ((record device sampleDevice mailboxRun).get enabled).1,
      ReadsAndWrites point.1 point.2 := by decide +revert
  have complete : ∀ process ∈ ((record device sampleDevice mailboxRun).get enabled).2.calls,
      process.state.response.isSome := by decide +revert
  exact ⟨_, _, (Option.some_get enabled).symm,
    (zero_delay_linearizable (runs_get enabled) permitted complete).1, rfl⟩

end Tsm
