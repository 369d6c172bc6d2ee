import Tsm.Device.State

/-! The file operations of a group device and the function its works run, each
as the steps between two points where another thread can be scheduled. A section
under `message_sem` or `pending_sem` is one step; so is every access to a message
outside of them, and every call inside a `wq_sem` section. Pointers that are poisoned or
lead to no object are followed here without harm; Device.Faults says whom they kill. -/

namespace Tsm
open KernelList

/-- What the kernel decides inside a step: whether an allocation succeeds, and
whether a copy from or to the caller's buffer does. -/
structure Outcome where
  alloc : Bool
  copy : Bool
  deriving DecidableEq, Repr

/-! `group_write` and `add_delayed_work`. -/

inductive WritePc where
  | entry (buf : Nat → UInt8) (length : Nat)
  | clamp (buf : Nat → UInt8)
  | allocData (buf : Nat → UInt8) (length : Nat)
  | allocMsg (buf : Nat → UInt8) (length id : Nat)
  | critical (buf : Nat → UInt8) (length id : Nat)
  | pend (msg : Message)
  | addDelayedWork (msg : Message)
  | downWq (msg : Message) (work : Nat)
  | queueWork (msg : Message) (work : Nat)
  | listAdd (msg : Message) (work : Nat)
  | upWq (msg : Message)
  | listPrint (msg : Message)
  | traverse (msg : Message) (pos : Option Message)
  | print (msg : Message)
  | msgFail (id : Nat) (ret : Int)
  | dataFail (id : Nat) (ret : Int)
  /-- The return value, and the message it stored if it stored one. -/
  | done (ret : Int) (msg : Option Message)

/-- The first `length` bytes of the caller's memory at `buf`. -/
def copyFromUser (buf : Nat → UInt8) (length : Nat) : List UInt8 := (List.range length).map buf

def newMessage (s : State) (buf : Nat → UInt8) (length id : Nat) : Message :=
  ⟨id, length, copyFromUser buf length, s.jiffies, s.dev.delay⟩

def groupWrite (outcome : Outcome) (s : State) : WritePc → Option (State × WritePc)
  | .entry buf length =>
    if length ≤ 0 then some (s, .done (-1) none)
    else if length > s.maxMessageSize.toNat then some (s, .clamp buf)
    else some (s, .allocData buf length)
  -- the limit is read a second time for the assignment
  | .clamp buf => some (s, .allocData buf s.maxMessageSize.toNat)
  | .allocData buf length =>
    if outcome.alloc then some ({ s with fresh := s.fresh + 1 }, .allocMsg buf length s.fresh)
    else some (s, .done (-1) none)
  | .allocMsg buf length id =>
    if outcome.alloc then some (s, .critical buf length id)
    else some (s, .dataFail id (-1))
  -- under message_sem; data[length] = 0 kills where kzalloc(0) gave no object (Device.Faults)
  | .critical buf length id =>
    if s.dev.messagesNumber ≥ s.maxStorageSize then some (s, .msgFail id 0)
    else if !outcome.copy then some (s, .msgFail id (-1))
    else
      let msg := newMessage s buf length id
      let s := { s with dev.messagesNumber := s.dev.messagesNumber + 1 }
      if s.dev.delay ≠ 0 then some (s, .pend msg)
      else some ({ s with dev.messageList := listAdd msg s.dev.messageList
                          history.available := s.history.available ++ [msg] }, .listPrint msg)
  -- under pending_sem
  | .pend msg =>
    some ({ s with dev.pendingList := listAdd msg s.dev.pendingList
                   history.pended := s.history.pended ++ [msg] }, .addDelayedWork msg)
  | .addDelayedWork msg =>
    if !s.dev.delayWq then some (s, .print msg)
    else if !outcome.alloc then some (s, .print msg)
    else some ({ s with fresh := s.fresh + 1 }, .downWq msg s.fresh)
  | .downWq msg work =>
    if s.dev.wqSem = 0 then none
    else some ({ s with dev.wqSem := s.dev.wqSem - 1 }, .queueWork msg work)
  | .queueWork msg work =>
    some ({ s with wq := s.wq.queueDelayedWork work s.jiffies s.dev.delay }, .listAdd msg work)
  | .listAdd msg work =>
    some ({ s with dev.delayList := KernelList.listAdd work s.dev.delayList }, .upWq msg)
  | .upWq msg => some ({ s with dev.wqSem := s.dev.wqSem + 1 }, .print msg)
  -- message_list_print, after message_sem was released
  | .listPrint msg => some (s, .traverse msg s.dev.messageList.getLast?)
  | .traverse msg (some pos) => some (s, .traverse msg (listPrev pos s.dev.messageList))
  | .traverse msg none => some (s, .print msg)
  | .print msg => some (s, .done msg.dataSize (some msg))
  -- the goto ladder of the failures
  | .msgFail id ret => some ({ s with freed := s.freed ++ [.message id] }, .dataFail id ret)
  | .dataFail id ret => some ({ s with freed := s.freed ++ [.data id] }, .done ret none)
  | .done _ _ => none

/-! `group_read`. -/

inductive ReadPc where
  | entry (length : Nat)
  | copyToUser (msg : Message) (length : Nat)
  | print (msg : Message) (length : Nat) (bytes : List UInt8)
  | freeData (msg : Message) (length : Nat) (bytes : List UInt8)
  | freeMsg (msg : Message) (length : Nat) (bytes : List UInt8)
  /-- The return value, the message it removed if any, the bytes it delivered. -/
  | done (ret : Int) (msg : Option Message) (bytes : List UInt8)

def groupRead (outcome : Outcome) (s : State) : ReadPc → Option (State × ReadPc)
  -- under message_sem
  | .entry length =>
    match listTakeLast s.dev.messageList with
    | none => some (s, .done 0 none [])
    | some (msg, rest) =>
      some ({ s with dev.messageList := rest
                     dev.messagesNumber := s.dev.messagesNumber - 1
                     history.taken := s.history.taken ++ [msg] }, .copyToUser msg length)
  | .copyToUser msg length =>
    let length := if length > msg.dataSize then msg.dataSize else length
    if !outcome.copy then some (s, .done (-1) (some msg) [])
    else some (s, .print msg length (msg.data.take length))
  | .print msg length bytes => some (s, .freeData msg length bytes)
  | .freeData msg length bytes =>
    some ({ s with freed := s.freed ++ [.data msg.id] }, .freeMsg msg length bytes)
  | .freeMsg msg length bytes =>
    some ({ s with freed := s.freed ++ [.message msg.id] }, .done length (some msg) bytes)
  | .done _ _ _ => none

/-! `fflush_workqueue`, which the REVOKE command runs. -/

inductive FlushPc where
  | splice
  | checkWq
  | downWq
  | setFlushing
  | testEmpty
  | visit (pos : Nat) (q : Option Nat)
  | flush (pos : Nat) (q : Option Nat)
  | wait (pos : Nat) (q : Option Nat)
  | next (q : Option Nat)
  | drain
  | clearFlushing
  | upWq
  | done (ret : Int)
  deriving DecidableEq, Repr

def fflushWorkqueue (s : State) : FlushPc → Option (State × FlushPc)
  -- _fflush_workqueue, under pending_sem and message_sem
  | .splice =>
    some ({ s with dev.messageList := listSpliceTail s.dev.pendingList s.dev.messageList
                   dev.pendingList := []
                   history.available := s.history.available ++ s.dev.pendingList.reverse
                   history.issued := s.history.issued ++ s.dev.pendingList.reverse }, .checkWq)
  | .checkWq => if !s.dev.delayWq then some (s, .done 0) else some (s, .downWq)
  | .downWq =>
    if s.dev.wqSem = 0 then none else some ({ s with dev.wqSem := s.dev.wqSem - 1 }, .setFlushing)
  | .setFlushing => some ({ s with dev.flags := setBit s.dev.flags FLUSHING_BIT }, .testEmpty)
  | .testEmpty =>
    match s.dev.delayList.getLast? with
    | none => some (s, .drain)
    | some pos => some (s, .visit pos (listPrev pos s.dev.delayList))
  | .visit pos q =>
    some ({ s with dev.delayList := listDel pos s.dev.delayList
                   history.unlinked := s.history.unlinked ++ [pos] }, .flush pos q)
  | .flush pos q => some ({ s with wq := s.wq.flushDelayedWork pos }, .wait pos q)
  | .wait pos q => if s.wq.Busy pos then none else some (s, .next q)
  | .next none => some (s, .drain)
  | .next (some pos) => some (s, .visit pos (listPrev pos s.dev.delayList))
  | .drain => if s.wq.Drained then some (s, .clearFlushing) else none
  | .clearFlushing => some ({ s with dev.flags := clearBit s.dev.flags FLUSHING_BIT }, .upWq)
  | .upWq => some ({ s with dev.wqSem := s.dev.wqSem + 1 }, .done 0)
  | .done _ => none

/-! The SET_SEND_DELAY command and `_set_delay`. -/

inductive DelayPc where
  | entry (arg : UInt64)
  | done (ret : Int)
  deriving DecidableEq, Repr

/-- `msecs_to_jiffies` takes an `unsigned int`: the `long` is truncated. -/
def setDelay (s : State) (arg : UInt64) : State :=
  { s with dev.delay := s.msecsToJiffies arg.toUInt32 }

def setSendDelay (s : State) : DelayPc → Option (State × DelayPc)
  | .entry arg => if arg.toInt64 < 0 then some (s, .done (-1)) else some (setDelay s arg, .done 0)
  | .done _ => none

/-! `delayed_work_fun`, on the thread of the workqueue. It takes no `wq_sem`. -/

def delayedWorkFun (s : State) (work : Work) : WorkPc → State
  -- under pending_sem
  | .pop =>
    match listTakeLast s.dev.pendingList with
    | none => { s with wq.running := some (work, .testFlag) }
    | some (msg, rest) => { s with dev.pendingList := rest, wq.running := some (work, .insert msg) }
  -- under message_sem
  | .insert msg =>
    { s with dev.messageList := listAdd msg s.dev.messageList
             history.available := s.history.available ++ [msg]
             history.issued := s.history.issued ++ [msg]
             wq.running := some (work, .print msg) }
  | .print _ => { s with wq.running := some (work, .testFlag) }
  | .testFlag =>
    if checkBit s.dev.flags FLUSHING_BIT then { s with wq.running := some (work, .free) }
    else { s with wq.running := some (work, .listDel) }
  -- without wq_sem; kills the thread if a flush has unlinked the work (Device.Faults)
  | .listDel =>
    { s with dev.delayList := listDel work.id s.dev.delayList
             history.unlinked := s.history.unlinked ++ [work.id]
             wq.running := some (work, .free) }
  | .free => { s with freed := s.freed ++ [.work work.id], wq.running := none }

end Tsm
