import Tsm.Lib.KernelList

/-! What the calls on one group device share: the device itself, the workqueue
that runs its delayed works, the clock, the module parameters and the heap. -/

namespace Tsm

/-! The bit macros of `group_dev.h`, on the `char` that holds the flags. -/

def setBit (var : BitVec 8) (n : Nat) : BitVec 8 := var ||| (1#8 <<< n)

def clearBit (var : BitVec 8) (n : Nat) : BitVec 8 := var &&& ~~~(1#8 <<< n)

def checkBit (var : BitVec 8) (n : Nat) : Bool := (var >>> n) &&& 1#8 == 1#8

def BARRIER_BIT : Nat := 0
def FLUSHING_BIT : Nat := 1

theorem checkBit_eq (var : BitVec 8) (n : Nat) : checkBit var n = var.getLsbD n := by
  rw [checkBit, Bool.eq_iff_iff, beq_iff_eq]
  constructor
  · intro one
    have bit := congrArg (fun bits => BitVec.getLsbD bits 0) one
    simpa using bit
  · intro bit
    ext i inside
    simp only [BitVec.getElem_and, BitVec.getElem_ushiftRight, BitVec.getElem_one]
    rcases Nat.eq_zero_or_pos i with rfl | positive
    · simpa using bit
    · simp [Nat.ne_of_gt positive]

@[simp] theorem checkBit_clearBit (var : BitVec 8) (n : Nat) : checkBit (clearBit var n) n = false := by
  simp [checkBit_eq, clearBit]

theorem checkBit_setBit (var : BitVec 8) {n : Nat} (inside : n < 8) : checkBit (setBit var n) n = true := by
  simp [checkBit_eq, setBit, inside]

/-- The bit that `setBit` and `clearBit` shift into place is zero everywhere else. -/
theorem getLsbD_shifted_of_ne {n m : Nat} (other : m ≠ n) : (1#8 <<< n).getLsbD m = false := by
  rw [BitVec.getLsbD_shiftLeft, BitVec.getLsbD_one]
  rcases Nat.lt_or_gt_of_ne other with before | after
  · simp [before]
  · simp [Nat.sub_ne_zero_of_lt after]

theorem checkBit_setBit_of_ne (var : BitVec 8) {n m : Nat} (other : m ≠ n) :
    checkBit (setBit var n) m = checkBit var m := by
  rw [checkBit_eq, checkBit_eq, setBit, BitVec.getLsbD_or, getLsbD_shifted_of_ne other, Bool.or_false]

theorem checkBit_clearBit_of_ne (var : BitVec 8) {n m : Nat} (other : m ≠ n) :
    checkBit (clearBit var n) m = checkBit var m := by
  rw [checkBit_eq, checkBit_eq, clearBit, BitVec.getLsbD_and, BitVec.getLsbD_not, getLsbD_shifted_of_ne other]
  by_cases inside : m < 8
  · simp [inside]
  · simp [BitVec.getLsbD_of_ge var m (Nat.not_lt.mp inside)]

/-- A heap object the driver allocates per call. A `struct message` and its data
buffer come from one write and share its number. -/
inductive Obj where
  | message (id : Nat)
  | data (id : Nat)
  | work (id : Nat)
  deriving DecidableEq, Repr

def Obj.id : Obj → Nat
  | .message id | .data id | .work id => id

/-- `struct message`. The number stands for its address; `written` and `delay`
are not in the source, they record when it was accepted and the delay then set. -/
structure Message where
  id : Nat
  dataSize : Nat
  data : List UInt8
  written : Nat
  delay : Nat
  deriving DecidableEq, Repr

/-- The jiffy before which a message should stay unavailable. -/
def Message.due (msg : Message) : Nat := msg.written + msg.delay

def Message.objects (msg : Message) : List Obj := [.message msg.id, .data msg.id]

/-- `struct work` once queued, with the expiry of its timer. -/
structure Work where
  id : Nat
  expires : Nat
  deriving DecidableEq, Repr

inductive WorkPc where
  | pop
  | insert (msg : Message)
  | print (msg : Message)
  | testFlag
  | listDel
  | free
  deriving DecidableEq, Repr

/-- A single-threaded workqueue: armed timers, works waiting for the thread, and
the work it executes. -/
structure Workqueue where
  timers : List Work
  queue : List Work
  running : Option (Work × WorkPc)
  deriving DecidableEq, Repr

/-- `struct group_dev`. `messageSem` and `pendingSem` are absent: a section under
them is one step. Works are listed by number. -/
structure GroupDev where
  flags : BitVec 8
  messagesNumber : UInt32
  messageList : List Message
  delay : Nat
  wqSem : Nat
  delayWq : Bool
  delayList : List Nat
  pendingList : List Message
  deriving DecidableEq, Repr

/-- What a run has done so far. Written by the steps, read by none of them. -/
structure History where
  /-- Messages in the order in which they became available to readers. -/
  available : List Message
  taken : List Message
  /-- Delayed messages in the order in which they entered `pending_list`. -/
  pended : List Message
  /-- Delayed messages in the order in which they entered `message_list`. -/
  issued : List Message
  /-- Works in the order in which `list_del` unlinked them. -/
  unlinked : List Nat
  /-- The largest value `max_storage_size` has had. -/
  peak : UInt32
  deriving DecidableEq, Repr

structure State where
  maxMessageSize : UInt32
  maxStorageSize : UInt32
  /-- The kernel's conversion, taken as it is. -/
  msecsToJiffies : UInt32 → Nat
  jiffies : Nat
  dev : GroupDev
  wq : Workqueue
  /-- The first number no object has. -/
  fresh : Nat
  freed : List Obj
  history : History

/-- A group device as `_install_group` leaves it: every list empty, the
semaphore up, and a workqueue unless its creation failed. -/
def State.installed (maxMessageSize maxStorageSize : UInt32) (msecsToJiffies : UInt32 → Nat)
    (delayWq : Bool) : State where
  maxMessageSize
  maxStorageSize
  msecsToJiffies
  jiffies := 0
  dev := {
    flags := 0
    messagesNumber := 0
    messageList := []
    delay := 0
    wqSem := 1
    delayWq
    delayList := []
    pendingList := [] }
  wq := { timers := [], queue := [], running := none }
  fresh := 0
  freed := []
  history := {
    available := []
    taken := []
    pended := []
    issued := []
    unlinked := []
    peak := maxStorageSize }

/-! The 32-bit counter of stored messages, below a limit and above zero. -/

theorem count_up {n limit : UInt32} (room : n < limit) : (n + 1).toNat = n.toNat + 1 := by
  have bound := limit.toNat_lt
  have less := UInt32.lt_iff_toNat_lt.mp room
  rw [UInt32.toNat_add, UInt32.toNat_one, Nat.mod_eq_of_lt (by omega)]

theorem count_down {n : UInt32} (positive : 0 < n.toNat) : (n - 1).toNat = n.toNat - 1 := by
  have bound := n.toNat_lt
  rw [UInt32.toNat_sub, UInt32.toNat_one]
  omega

/-! The workqueue of the kernel, as far as the driver relies on it. -/

namespace Workqueue

/-- `queue_delayed_work`: a zero delay queues the work at once. -/
def queueDelayedWork (wq : Workqueue) (id now delay : Nat) : Workqueue :=
  if delay = 0 then { wq with queue := wq.queue ++ [⟨id, now⟩] }
  else { wq with timers := ⟨id, now + delay⟩ :: wq.timers }

/-- The first half of `flush_delayed_work`: an armed timer is cancelled and its
work queued. A work that is queued, running or done is left alone. -/
def flushDelayedWork (wq : Workqueue) (id : Nat) : Workqueue :=
  match wq.timers.find? (fun work => work.id = id) with
  | none => wq
  | some work => { wq with timers := wq.timers.erase work, queue := wq.queue ++ [work] }

def expire (wq : Workqueue) (work : Work) : Workqueue :=
  { wq with timers := wq.timers.erase work, queue := wq.queue ++ [work] }

@[simp] theorem running_queueDelayedWork (wq : Workqueue) (id now delay : Nat) :
    (wq.queueDelayedWork id now delay).running = wq.running := by
  unfold queueDelayedWork
  split <;> rfl

@[simp] theorem running_flushDelayedWork (wq : Workqueue) (id : Nat) :
    (wq.flushDelayedWork id).running = wq.running := by
  unfold flushDelayedWork
  split <;> rfl

@[simp] theorem running_expire (wq : Workqueue) (work : Work) : (wq.expire work).running = wq.running := rfl

/-- The second half of `flush_delayed_work` waits while this holds. -/
def Busy (wq : Workqueue) (id : Nat) : Prop :=
  (∃ work ∈ wq.queue, work.id = id) ∨ ∃ work ∈ wq.running, work.1.id = id

instance (wq : Workqueue) (id : Nat) : Decidable (wq.Busy id) :=
  inferInstanceAs (Decidable (_ ∨ _))

/-- `drain_workqueue` waits until this holds. -/
def Drained (wq : Workqueue) : Prop := wq.queue = [] ∧ wq.running = none

instance (wq : Workqueue) : Decidable wq.Drained := inferInstanceAs (Decidable (_ ∧ _))

end Workqueue

end Tsm
