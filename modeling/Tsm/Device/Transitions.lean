import Tsm.Device.System

/-! What one step of each call and of the environment can do, with the branch it
took. The proofs about the device split on these cases and leave the functions
they come from alone. -/

namespace Tsm
open KernelList

inductive WriteStep (outcome : Outcome) (s : State) : WritePc → State → WritePc → Prop where
  | invalid {buf length} (empty : length = 0) :
      WriteStep outcome s (.entry buf length) s (.done (-1) none)
  | oversize {buf length} (positive : 0 < length) (large : s.maxMessageSize.toNat < length) :
      WriteStep outcome s (.entry buf length) s (.clamp buf)
  | fits {buf length} (positive : 0 < length) (inside : length ≤ s.maxMessageSize.toNat) :
      WriteStep outcome s (.entry buf length) s (.allocData buf length)
  | clamp {buf} : WriteStep outcome s (.clamp buf) s (.allocData buf s.maxMessageSize.toNat)
  | noData {buf length} (failed : outcome.alloc = false) :
      WriteStep outcome s (.allocData buf length) s (.done (-1) none)
  | allocData {buf length} (allocated : outcome.alloc = true) :
      WriteStep outcome s (.allocData buf length) { s with fresh := s.fresh + 1 }
        (.allocMsg buf length s.fresh)
  | noMsg {buf length id} (failed : outcome.alloc = false) :
      WriteStep outcome s (.allocMsg buf length id) s (.dataFail id (-1))
  | allocMsg {buf length id} (allocated : outcome.alloc = true) :
      WriteStep outcome s (.allocMsg buf length id) s (.critical buf length id)
  | full {buf length id} (full : s.maxStorageSize ≤ s.dev.messagesNumber) :
      WriteStep outcome s (.critical buf length id) s (.msgFail id 0)
  | fault {buf length id} (room : s.dev.messagesNumber < s.maxStorageSize) (failed : outcome.copy = false) :
      WriteStep outcome s (.critical buf length id) s (.msgFail id (-1))
  | delayed {buf length id} (room : s.dev.messagesNumber < s.maxStorageSize) (copied : outcome.copy = true)
      (delay : s.dev.delay ≠ 0) :
      WriteStep outcome s (.critical buf length id)
        { s with dev.messagesNumber := s.dev.messagesNumber + 1 } (.pend (newMessage s buf length id))
  | immediate {buf length id} (room : s.dev.messagesNumber < s.maxStorageSize) (copied : outcome.copy = true)
      (noDelay : s.dev.delay = 0) :
      WriteStep outcome s (.critical buf length id)
        { s with dev.messagesNumber := s.dev.messagesNumber + 1
                 dev.messageList := listAdd (newMessage s buf length id) s.dev.messageList
                 history.available := s.history.available ++ [newMessage s buf length id] }
        (.listPrint (newMessage s buf length id))
  | pend {msg} :
      WriteStep outcome s (.pend msg)
        { s with dev.pendingList := listAdd msg s.dev.pendingList
                 history.pended := s.history.pended ++ [msg] } (.addDelayedWork msg)
  | noWorkqueue {msg} (missing : s.dev.delayWq = false) :
      WriteStep outcome s (.addDelayedWork msg) s (.print msg)
  | noWork {msg} (failed : outcome.alloc = false) : WriteStep outcome s (.addDelayedWork msg) s (.print msg)
  | allocWork {msg} (created : s.dev.delayWq = true) (allocated : outcome.alloc = true) :
      WriteStep outcome s (.addDelayedWork msg) { s with fresh := s.fresh + 1 } (.downWq msg s.fresh)
  | downWq {msg work} (up : s.dev.wqSem ≠ 0) :
      WriteStep outcome s (.downWq msg work) { s with dev.wqSem := s.dev.wqSem - 1 } (.queueWork msg work)
  | queueWork {msg work} :
      WriteStep outcome s (.queueWork msg work)
        { s with wq := s.wq.queueDelayedWork work s.jiffies s.dev.delay } (.listAdd msg work)
  | listAdd {msg work} :
      WriteStep outcome s (.listAdd msg work)
        { s with dev.delayList := KernelList.listAdd work s.dev.delayList } (.upWq msg)
  | upWq {msg} : WriteStep outcome s (.upWq msg) { s with dev.wqSem := s.dev.wqSem + 1 } (.print msg)
  | listPrint {msg} : WriteStep outcome s (.listPrint msg) s (.traverse msg s.dev.messageList.getLast?)
  | follow {msg pos} :
      WriteStep outcome s (.traverse msg (some pos)) s (.traverse msg (listPrev pos s.dev.messageList))
  | traversed {msg} : WriteStep outcome s (.traverse msg none) s (.print msg)
  | print {msg} : WriteStep outcome s (.print msg) s (.done msg.dataSize (some msg))
  | msgFail {id ret} :
      WriteStep outcome s (.msgFail id ret) { s with freed := s.freed ++ [.message id] } (.dataFail id ret)
  | dataFail {id ret} :
      WriteStep outcome s (.dataFail id ret) { s with freed := s.freed ++ [.data id] } (.done ret none)

theorem groupWrite_cases {outcome s pc s' pc'} (moved : groupWrite outcome s pc = some (s', pc')) :
    WriteStep outcome s pc s' pc' := by
  cases pc with
  | entry buf length =>
    simp only [groupWrite] at moved
    split at moved
    next empty => cases moved; exact .invalid (Nat.le_zero.mp empty)
    next positive =>
      split at moved
      next large => cases moved; exact .oversize (Nat.lt_of_not_le positive) large
      next inside => cases moved; exact .fits (Nat.lt_of_not_le positive) (Nat.le_of_not_lt inside)
  | clamp buf => cases moved; exact .clamp
  | allocData buf length =>
    simp only [groupWrite] at moved
    split at moved
    next allocated => cases moved; exact .allocData allocated
    next failed => cases moved; exact .noData (Bool.eq_false_iff.mpr failed)
  | allocMsg buf length id =>
    simp only [groupWrite] at moved
    split at moved
    next allocated => cases moved; exact .allocMsg allocated
    next failed => cases moved; exact .noMsg (Bool.eq_false_iff.mpr failed)
  | critical buf length id =>
    simp only [groupWrite] at moved
    split at moved
    next full => cases moved; exact .full full
    next room =>
      have room := UInt32.not_le.mp room
      split at moved
      next failed => cases moved; exact .fault room (by simpa using failed)
      next copied =>
        have copied : outcome.copy = true := by simpa using copied
        split at moved
        next delay => cases moved; exact .delayed room copied delay
        next noDelay => cases moved; exact .immediate room copied (Decidable.not_not.mp noDelay)
  | pend msg => cases moved; exact .pend
  | addDelayedWork msg =>
    simp only [groupWrite] at moved
    split at moved
    next missing => cases moved; exact .noWorkqueue (by simpa using missing)
    next created =>
      split at moved
      next failed => cases moved; exact .noWork (by simpa using failed)
      next allocated => cases moved; exact .allocWork (by simpa using created) (by simpa using allocated)
  | downWq msg work =>
    simp only [groupWrite] at moved
    split at moved
    · cases moved
    next up => cases moved; exact .downWq up
  | queueWork msg work => cases moved; exact .queueWork
  | listAdd msg work => cases moved; exact .listAdd
  | upWq msg => cases moved; exact .upWq
  | listPrint msg => cases moved; exact .listPrint
  | traverse msg pos =>
    cases pos with
    | none => cases moved; exact .traversed
    | some pos => cases moved; exact .follow
  | print msg => cases moved; exact .print
  | msgFail id ret => cases moved; exact .msgFail
  | dataFail id ret => cases moved; exact .dataFail
  | done ret msg => cases moved

inductive ReadStep (outcome : Outcome) (s : State) : ReadPc → State → ReadPc → Prop where
  | empty {length} (empty : s.dev.messageList = []) :
      ReadStep outcome s (.entry length) s (.done 0 none [])
  | remove {length msg rest} (last : s.dev.messageList = rest ++ [msg]) :
      ReadStep outcome s (.entry length)
        { s with dev.messageList := rest
                 dev.messagesNumber := s.dev.messagesNumber - 1
                 history.taken := s.history.taken ++ [msg] } (.copyToUser msg length)
  | fault {msg length} (failed : outcome.copy = false) :
      ReadStep outcome s (.copyToUser msg length) s (.done (-1) (some msg) [])
  | copy {msg length} (copied : outcome.copy = true) :
      ReadStep outcome s (.copyToUser msg length) s
        (.print msg (min length msg.dataSize) (msg.data.take (min length msg.dataSize)))
  | print {msg length bytes} : ReadStep outcome s (.print msg length bytes) s (.freeData msg length bytes)
  | freeData {msg length bytes} :
      ReadStep outcome s (.freeData msg length bytes) { s with freed := s.freed ++ [.data msg.id] }
        (.freeMsg msg length bytes)
  | freeMsg {msg length bytes} :
      ReadStep outcome s (.freeMsg msg length bytes) { s with freed := s.freed ++ [.message msg.id] }
        (.done length (some msg) bytes)

theorem groupRead_cases {outcome s pc s' pc'} (moved : groupRead outcome s pc = some (s', pc')) :
    ReadStep outcome s pc s' pc' := by
  cases pc with
  | entry length =>
    simp only [groupRead] at moved
    split at moved
    next empty => cases moved; exact .empty (listTakeLast_eq_none empty)
    next msg rest last => cases moved; exact .remove (listTakeLast_eq_some last)
  | copyToUser msg length =>
    have clamped : (if length > msg.dataSize then msg.dataSize else length) = min length msg.dataSize := by
      split <;> omega
    simp only [groupRead, clamped] at moved
    split at moved
    next failed => cases moved; exact .fault (by simpa using failed)
    next copied => cases moved; exact .copy (by simpa using copied)
  | print msg length bytes => cases moved; exact .print
  | freeData msg length bytes => cases moved; exact .freeData
  | freeMsg msg length bytes => cases moved; exact .freeMsg
  | done ret msg bytes => cases moved

inductive FlushStep (s : State) : FlushPc → State → FlushPc → Prop where
  | splice :
      FlushStep s .splice
        { s with dev.messageList := listSpliceTail s.dev.pendingList s.dev.messageList
                 dev.pendingList := []
                 history.available := s.history.available ++ s.dev.pendingList.reverse
                 history.issued := s.history.issued ++ s.dev.pendingList.reverse } .checkWq
  | noWorkqueue (missing : s.dev.delayWq = false) : FlushStep s .checkWq s (.done 0)
  | checkWq (created : s.dev.delayWq = true) : FlushStep s .checkWq s .downWq
  | downWq (up : s.dev.wqSem ≠ 0) :
      FlushStep s .downWq { s with dev.wqSem := s.dev.wqSem - 1 } .setFlushing
  | setFlushing :
      FlushStep s .setFlushing { s with dev.flags := setBit s.dev.flags FLUSHING_BIT } .testEmpty
  | testEmpty (empty : s.dev.delayList = []) : FlushStep s .testEmpty s .drain
  | first {pos} (last : s.dev.delayList.getLast? = some pos) :
      FlushStep s .testEmpty s (.visit pos (listPrev pos s.dev.delayList))
  | visit {pos q} :
      FlushStep s (.visit pos q)
        { s with dev.delayList := listDel pos s.dev.delayList
                 history.unlinked := s.history.unlinked ++ [pos] } (.flush pos q)
  | flush {pos q} : FlushStep s (.flush pos q) { s with wq := s.wq.flushDelayedWork pos } (.wait pos q)
  | wait {pos q} (finished : ¬ s.wq.Busy pos) : FlushStep s (.wait pos q) s (.next q)
  | last : FlushStep s (.next none) s .drain
  | next {pos} : FlushStep s (.next (some pos)) s (.visit pos (listPrev pos s.dev.delayList))
  | drain (drained : s.wq.Drained) : FlushStep s .drain s .clearFlushing
  | clearFlushing :
      FlushStep s .clearFlushing { s with dev.flags := clearBit s.dev.flags FLUSHING_BIT } .upWq
  | upWq : FlushStep s .upWq { s with dev.wqSem := s.dev.wqSem + 1 } (.done 0)

theorem fflushWorkqueue_cases {s pc s' pc'} (moved : fflushWorkqueue s pc = some (s', pc')) :
    FlushStep s pc s' pc' := by
  cases pc with
  | splice => cases moved; exact .splice
  | checkWq =>
    simp only [fflushWorkqueue] at moved
    split at moved
    next missing => cases moved; exact .noWorkqueue (by simpa using missing)
    next created => cases moved; exact .checkWq (by simpa using created)
  | downWq =>
    simp only [fflushWorkqueue] at moved
    split at moved
    · cases moved
    next up => cases moved; exact .downWq up
  | setFlushing => cases moved; exact .setFlushing
  | testEmpty =>
    simp only [fflushWorkqueue] at moved
    split at moved
    next empty => cases moved; exact .testEmpty (List.getLast?_eq_none_iff.mp empty)
    next pos last => cases moved; exact .first last
  | visit pos q => cases moved; exact .visit
  | flush pos q => cases moved; exact .flush
  | wait pos q =>
    simp only [fflushWorkqueue] at moved
    split at moved
    · cases moved
    next finished => cases moved; exact .wait finished
  | next q =>
    cases q with
    | none => cases moved; exact .last
    | some pos => cases moved; exact .next
  | drain =>
    simp only [fflushWorkqueue] at moved
    split at moved
    next drained => cases moved; exact .drain drained
    · cases moved
  | clearFlushing => cases moved; exact .clearFlushing
  | upWq => cases moved; exact .upWq
  | done ret => cases moved

inductive DelayStep (s : State) : DelayPc → State → DelayPc → Prop where
  | negative {arg : UInt64} (negative : arg.toInt64 < 0) : DelayStep s (.entry arg) s (.done (-1))
  | setDelay {arg : UInt64} (accepted : ¬ arg.toInt64 < 0) :
      DelayStep s (.entry arg) (setDelay s arg) (.done 0)

theorem setSendDelay_cases {s pc s' pc'} (moved : setSendDelay s pc = some (s', pc')) :
    DelayStep s pc s' pc' := by
  cases pc with
  | entry arg =>
    simp only [setSendDelay] at moved
    split at moved
    next negative => cases moved; exact .negative negative
    next accepted => cases moved; exact .setDelay accepted
  | done ret => cases moved

inductive MoveStep (outcome : Outcome) (s : State) : Call → State → Call → Prop where
  | write {pc s' pc'} (step : WriteStep outcome s pc s' pc') :
      MoveStep outcome s (.write pc) s' (.write pc')
  | read {pc s' pc'} (step : ReadStep outcome s pc s' pc') : MoveStep outcome s (.read pc) s' (.read pc')
  | setSendDelay {pc s' pc'} (step : DelayStep s pc s' pc') :
      MoveStep outcome s (.setSendDelay pc) s' (.setSendDelay pc')
  | revoke {pc s' pc'} (step : FlushStep s pc s' pc') : MoveStep outcome s (.revoke pc) s' (.revoke pc')

theorem move_cases {outcome s call s' call'} (moved : device.move outcome s call = some (s', call')) :
    MoveStep outcome s call s' call' := by
  cases call with
  | write pc =>
    obtain ⟨⟨_, _⟩, stepped, equal⟩ := Option.map_eq_some_iff.mp moved
    cases equal
    exact .write (groupWrite_cases stepped)
  | read pc =>
    obtain ⟨⟨_, _⟩, stepped, equal⟩ := Option.map_eq_some_iff.mp moved
    cases equal
    exact .read (groupRead_cases stepped)
  | setSendDelay pc =>
    obtain ⟨⟨_, _⟩, stepped, equal⟩ := Option.map_eq_some_iff.mp moved
    cases equal
    exact .setSendDelay (setSendDelay_cases stepped)
  | revoke pc =>
    obtain ⟨⟨_, _⟩, stepped, equal⟩ := Option.map_eq_some_iff.mp moved
    cases equal
    exact .revoke (fflushWorkqueue_cases stepped)

/-- `wq_sem` is down while a call is inside, and for nobody else. -/
theorem move_keeps_wqSem {s s' : State} {outcome call call'} (step : MoveStep outcome s call s' call') :
    s'.dev.wqSem + call'.inside = s.dev.wqSem + call.inside := by
  cases step with
  | write step =>
    cases step with
    | downWq up =>
      simp only [Call.inside]
      omega
    | _ => rfl
  | read step => cases step <;> rfl
  | setSendDelay step => cases step <;> rfl
  | revoke step =>
    cases step with
    | downWq up =>
      simp only [Call.inside]
      omega
    | _ => rfl

/-- The steps of the workqueue's thread, `delayed_work_fun` included. -/
inductive WorkerStep (s : State) : State → Prop where
  | start {work rest} (idle : s.wq.running = none) (queued : s.wq.queue = work :: rest) :
      WorkerStep s { s with wq.queue := rest, wq.running := some (work, .pop) }
  | popEmpty {work} (running : s.wq.running = some (work, .pop)) (empty : s.dev.pendingList = []) :
      WorkerStep s { s with wq.running := some (work, .testFlag) }
  | pop {work msg rest} (running : s.wq.running = some (work, .pop))
      (last : s.dev.pendingList = rest ++ [msg]) :
      WorkerStep s { s with dev.pendingList := rest, wq.running := some (work, .insert msg) }
  | insert {work msg} (running : s.wq.running = some (work, .insert msg)) :
      WorkerStep s
        { s with dev.messageList := listAdd msg s.dev.messageList
                 history.available := s.history.available ++ [msg]
                 history.issued := s.history.issued ++ [msg]
                 wq.running := some (work, .print msg) }
  | print {work msg} (running : s.wq.running = some (work, .print msg)) :
      WorkerStep s { s with wq.running := some (work, .testFlag) }
  | flushing {work} (running : s.wq.running = some (work, .testFlag))
      (flag : checkBit s.dev.flags FLUSHING_BIT = true) :
      WorkerStep s { s with wq.running := some (work, .free) }
  | notFlushing {work} (running : s.wq.running = some (work, .testFlag))
      (flag : checkBit s.dev.flags FLUSHING_BIT = false) :
      WorkerStep s { s with wq.running := some (work, .listDel) }
  | listDel {work} (running : s.wq.running = some (work, .listDel)) :
      WorkerStep s
        { s with dev.delayList := listDel work.id s.dev.delayList
                 history.unlinked := s.history.unlinked ++ [work.id]
                 wq.running := some (work, .free) }
  | free {work} (running : s.wq.running = some (work, .free)) :
      WorkerStep s { s with freed := s.freed ++ [.work work.id], wq.running := none }

theorem worker_cases {s s'} (stepped : worker s = some s') : WorkerStep s s' := by
  unfold worker at stepped
  split at stepped
  next work pc running =>
    cases stepped
    cases pc with
    | pop =>
      simp only [delayedWorkFun]
      split
      next empty => exact .popEmpty running (listTakeLast_eq_none empty)
      next msg rest last => exact .pop running (listTakeLast_eq_some last)
    | insert msg => exact .insert running
    | print msg => exact .print running
    | testFlag =>
      simp only [delayedWorkFun]
      split
      next flag => exact .flushing running flag
      next flag => exact .notFlushing running (Bool.eq_false_iff.mpr flag)
    | listDel => exact .listDel running
    | free => exact .free running
  next idle =>
    split at stepped
    · cases stepped
    next work rest queued =>
      cases stepped
      exact .start idle queued

inductive EventStep (s : State) : Event → State → Prop where
  | tick : EventStep s .tick { s with jiffies := s.jiffies + 1 }
  | maxMessageSize {value} : EventStep s (.maxMessageSize value) { s with maxMessageSize := value }
  | maxStorageSize {value} :
      EventStep s (.maxStorageSize value)
        { s with maxStorageSize := value, history.peak := max s.history.peak value }
  | expire {work} (armed : work ∈ s.wq.timers) (expired : work.expires ≤ s.jiffies) :
      EventStep s (.expire work) { s with wq := s.wq.expire work }
  | worker {s'} (step : WorkerStep s s') : EventStep s .worker s'

theorem environment_cases {event s s'} (happened : device.environment event s = some s') :
    EventStep s event s' := by
  cases event with
  | tick => cases happened; exact .tick
  | maxMessageSize value => cases happened; exact .maxMessageSize
  | maxStorageSize value => cases happened; exact .maxStorageSize
  | expire work =>
    simp only [device, environment] at happened
    split at happened
    next possible => cases happened; exact .expire possible.1 possible.2
    · cases happened
  | worker => exact .worker (worker_cases happened)

end Tsm
