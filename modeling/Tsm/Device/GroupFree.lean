import Tsm.Device.Transitions

/-! `group_free`, on a device that no call uses any more. Its workqueue may still be
at work, until it is flushed and destroyed. -/

namespace Tsm
open Interleaving KernelList

/-- What `_install_group` has allocated for a device. -/
inductive DevicePart where
  | wqSem
  | delayList
  | pendingSem
  | pendingList
  | messageSem
  | messageList
  | groupDev
  deriving DecidableEq, Repr

/-- In the order in which they are freed. -/
def DevicePart.order : List DevicePart :=
  [.wqSem, .delayList, .pendingSem, .pendingList, .messageSem, .messageList, .groupDev]

/-- This part and those that are freed after it. -/
def DevicePart.onwards (part : DevicePart) : List DevicePart := order.dropWhile (· ≠ part)

inductive Freeable where
  | obj (obj : Obj)
  | part (part : DevicePart)
  | workqueue
  /-- Nothing that belongs to the device. -/
  | stray
  deriving DecidableEq, Repr

structure FreeState where
  device : State
  /-- The `BARRIER_BIT` of the flags. The calls in `device` leave it alone. -/
  barrier : Bool
  /-- The head of `pending_list` has been passed to `list_del`. -/
  headDeleted : Bool
  /-- What has been passed to `kfree`, and to `destroy_workqueue`. -/
  released : List Freeable

inductive FreePc where
  | testBarrier
  | clearBarrier
  | wakeUp
  | testWq
  | flush (pc : FlushPc)
  | destroyWq
  | kfree (part : DevicePart)
  /-- The list should be empty by now. -/
  | warn (list : DevicePart)
  | testPending
  | pendingDel (q : Option Message)
  | pendingData (q : Option Message)
  | pendingFree (q : Option Message)
  | pendingNext (q : Option Message)
  | messageListPrint
  | testMessages
  | messageDel (pos : Message) (q : Option Message)
  | messagePrint (pos : Message) (q : Option Message)
  | messageData (pos : Message) (q : Option Message)
  | messageFree (pos : Message) (q : Option Message)
  | messageNext (q : Option Message)
  | done
  /-- The thread followed a poisoned pointer, and is killed. -/
  | oops
  deriving DecidableEq, Repr

/-- What follows once this part is freed. -/
def DevicePart.next : DevicePart → FreePc
  | .wqSem => .warn .delayList
  | .delayList => .kfree .pendingSem
  | .pendingSem => .testPending
  | .pendingList => .kfree .messageSem
  | .messageSem => .messageListPrint
  | .messageList => .kfree .groupDev
  | .groupDev => .done

/-- No pointer of an installed device is null, but `delay_wq` may be. What lies in
front of the head of `pending_list` may be zero or not. -/
def groupFree (garbage : Bool) (s : FreeState) : FreePc → Option (FreeState × FreePc)
  | .testBarrier => if s.barrier then some (s, .clearBarrier) else some (s, .testWq)
  | .clearBarrier => some ({ s with barrier := false }, .wakeUp)
  | .wakeUp => some (s, .testWq)
  | .testWq => if s.device.dev.delayWq then some (s, .flush .splice) else some (s, .kfree .wqSem)
  | .flush (.done _) => some (s, .destroyWq)
  | .flush pc => (fflushWorkqueue s.device pc).map fun (device, pc) => ({ s with device }, .flush pc)
  -- destroy_workqueue drains it once more
  | .destroyWq =>
    if s.device.wq.Drained then some ({ s with released := s.released ++ [.workqueue] }, .kfree .wqSem) else none
  | .kfree part => some ({ s with released := s.released ++ [.part part] }, part.next)
  | .warn list => some (s, .kfree list)
  | .testPending =>
    match s.device.dev.pendingList.getLast? with
    | none => some (s, .warn .pendingList)
    | some pos => some (s, .pendingDel (listPrev pos s.device.dev.pendingList))
  -- the message is not the one at `pos`, but the one whose list member the head would be
  | .pendingDel q => if s.headDeleted then some (s, .oops) else some ({ s with headDeleted := true }, .pendingData q)
  | .pendingData q =>
    if garbage then some ({ s with released := s.released ++ [.stray] }, .pendingFree q) else some (s, .pendingFree q)
  | .pendingFree q => some ({ s with released := s.released ++ [.stray] }, .pendingNext q)
  | .pendingNext none => some (s, .warn .pendingList)
  | .pendingNext (some pos) => some (s, .pendingDel (listPrev pos s.device.dev.pendingList))
  | .messageListPrint => some (s, .testMessages)
  | .testMessages =>
    match s.device.dev.messageList.getLast? with
    | none => some (s, .warn .messageList)
    | some pos => some (s, .messageDel pos (listPrev pos s.device.dev.messageList))
  | .messageDel pos q =>
    some ({ s with device.dev.messageList := listDel pos s.device.dev.messageList }, .messagePrint pos q)
  | .messagePrint pos q => some (s, .messageData pos q)
  | .messageData pos q => some ({ s with released := s.released ++ [.obj (.data pos.id)] }, .messageFree pos q)
  | .messageFree pos q => some ({ s with released := s.released ++ [.obj (.message pos.id)] }, .messageNext q)
  | .messageNext none => some (s, .warn .messageList)
  | .messageNext (some pos) => some (s, .messageDel pos (listPrev pos s.device.dev.messageList))
  | .done | .oops => none

/-- The one call is `group_free`, the events are those of the device. -/
def freeing : System FreeState Unit FreePc Bool Event where
  enter _ := .testBarrier
  move := groupFree
  environment event s := (device.environment event s.device).map fun device => { s with device }

abbrev FreeConfig := Config FreeState Unit FreePc
abbrev FreeAct := Act Unit Bool Event

def freeEntered (entry : State) (barrier : Bool) : FreeConfig := ⟨⟨entry, barrier, false, []⟩, [⟨(), .testBarrier⟩]⟩

/-! What one of its steps can do. -/

inductive FreeStep (garbage : Bool) (s : FreeState) : FreePc → FreeState → FreePc → Prop where
  | raised (up : s.barrier = true) : FreeStep garbage s .testBarrier s .clearBarrier
  | notRaised (down : s.barrier = false) : FreeStep garbage s .testBarrier s .testWq
  | clearBarrier : FreeStep garbage s .clearBarrier { s with barrier := false } .wakeUp
  | wakeUp : FreeStep garbage s .wakeUp s .testWq
  | testWq (created : s.device.dev.delayWq = true) : FreeStep garbage s .testWq s (.flush .splice)
  | noWorkqueue (missing : s.device.dev.delayWq = false) : FreeStep garbage s .testWq s (.kfree .wqSem)
  | flush {pc device pc'} (moved : fflushWorkqueue s.device pc = some (device, pc')) :
      FreeStep garbage s (.flush pc) { s with device } (.flush pc')
  | flushed {ret} : FreeStep garbage s (.flush (.done ret)) s .destroyWq
  | destroyWq (drained : s.device.wq.Drained) :
      FreeStep garbage s .destroyWq { s with released := s.released ++ [.workqueue] } (.kfree .wqSem)
  | kfree {part} : FreeStep garbage s (.kfree part) { s with released := s.released ++ [.part part] } part.next
  | warn {list} : FreeStep garbage s (.warn list) s (.kfree list)
  | noPending (empty : s.device.dev.pendingList = []) : FreeStep garbage s .testPending s (.warn .pendingList)
  | firstPending {pos} (last : s.device.dev.pendingList.getLast? = some pos) :
      FreeStep garbage s .testPending s (.pendingDel (listPrev pos s.device.dev.pendingList))
  | poisoned {q} (deleted : s.headDeleted = true) : FreeStep garbage s (.pendingDel q) s .oops
  | pendingDel {q} (linked : s.headDeleted = false) :
      FreeStep garbage s (.pendingDel q) { s with headDeleted := true } (.pendingData q)
  | pendingData {q} (nonzero : garbage = true) :
      FreeStep garbage s (.pendingData q) { s with released := s.released ++ [.stray] } (.pendingFree q)
  | noPendingData {q} (zero : garbage = false) : FreeStep garbage s (.pendingData q) s (.pendingFree q)
  | pendingFree {q} :
      FreeStep garbage s (.pendingFree q) { s with released := s.released ++ [.stray] } (.pendingNext q)
  | lastPending : FreeStep garbage s (.pendingNext none) s (.warn .pendingList)
  | nextPending {pos} :
      FreeStep garbage s (.pendingNext (some pos)) s (.pendingDel (listPrev pos s.device.dev.pendingList))
  | messageListPrint : FreeStep garbage s .messageListPrint s .testMessages
  | noMessages (empty : s.device.dev.messageList = []) : FreeStep garbage s .testMessages s (.warn .messageList)
  | firstMessage {pos} (last : s.device.dev.messageList.getLast? = some pos) :
      FreeStep garbage s .testMessages s (.messageDel pos (listPrev pos s.device.dev.messageList))
  | messageDel {pos q} :
      FreeStep garbage s (.messageDel pos q)
        { s with device.dev.messageList := listDel pos s.device.dev.messageList } (.messagePrint pos q)
  | messagePrint {pos q} : FreeStep garbage s (.messagePrint pos q) s (.messageData pos q)
  | messageData {pos q} :
      FreeStep garbage s (.messageData pos q) { s with released := s.released ++ [.obj (.data pos.id)] }
        (.messageFree pos q)
  | messageFree {pos q} :
      FreeStep garbage s (.messageFree pos q) { s with released := s.released ++ [.obj (.message pos.id)] }
        (.messageNext q)
  | lastMessage : FreeStep garbage s (.messageNext none) s (.warn .messageList)
  | nextMessage {pos} :
      FreeStep garbage s (.messageNext (some pos)) s (.messageDel pos (listPrev pos s.device.dev.messageList))

theorem groupFree_flush {garbage : Bool} {s : FreeState} {pc : FlushPc} (unreturned : ∀ ret, pc ≠ .done ret) :
    groupFree garbage s (.flush pc) =
      (fflushWorkqueue s.device pc).map fun (device, pc) => ({ s with device }, .flush pc) := by
  cases pc with
  | done ret => exact absurd rfl (unreturned ret)
  | _ => rfl

theorem groupFree_cases {garbage s pc s' pc'} (moved : groupFree garbage s pc = some (s', pc')) :
    FreeStep garbage s pc s' pc' := by
  cases pc with
  | testBarrier =>
    simp only [groupFree] at moved
    split at moved
    next up => cases moved; exact .raised up
    next down => cases moved; exact .notRaised (by simpa using down)
  | clearBarrier => cases moved; exact .clearBarrier
  | wakeUp => cases moved; exact .wakeUp
  | testWq =>
    simp only [groupFree] at moved
    split at moved
    next created => cases moved; exact .testWq created
    next missing => cases moved; exact .noWorkqueue (by simpa using missing)
  | flush pc =>
    by_cases returned : ∃ ret, pc = .done ret
    · obtain ⟨ret, rfl⟩ := returned
      cases moved
      exact .flushed
    · rw [groupFree_flush fun ret same => returned ⟨ret, same⟩] at moved
      obtain ⟨⟨device, next⟩, stepped, equal⟩ := Option.map_eq_some_iff.mp moved
      cases equal
      exact .flush stepped
  | destroyWq =>
    simp only [groupFree] at moved
    split at moved
    next drained => cases moved; exact .destroyWq drained
    · cases moved
  | kfree part => cases moved; exact .kfree
  | warn list => cases moved; exact .warn
  | testPending =>
    simp only [groupFree] at moved
    split at moved
    next empty => cases moved; exact .noPending (List.getLast?_eq_none_iff.mp empty)
    next pos last => cases moved; exact .firstPending last
  | pendingDel q =>
    simp only [groupFree] at moved
    split at moved
    next deleted => cases moved; exact .poisoned deleted
    next linked => cases moved; exact .pendingDel (by simpa using linked)
  | pendingData q =>
    simp only [groupFree] at moved
    split at moved
    next nonzero => cases moved; exact .pendingData nonzero
    next zero => cases moved; exact .noPendingData (by simpa using zero)
  | pendingFree q => cases moved; exact .pendingFree
  | pendingNext q =>
    cases q with
    | none => cases moved; exact .lastPending
    | some pos => cases moved; exact .nextPending
  | messageListPrint => cases moved; exact .messageListPrint
  | testMessages =>
    simp only [groupFree] at moved
    split at moved
    next empty => cases moved; exact .noMessages (List.getLast?_eq_none_iff.mp empty)
    next pos last => cases moved; exact .firstMessage last
  | messageDel pos q => cases moved; exact .messageDel
  | messagePrint pos q => cases moved; exact .messagePrint
  | messageData pos q => cases moved; exact .messageData
  | messageFree pos q => cases moved; exact .messageFree
  | messageNext q =>
    cases q with
    | none => cases moved; exact .lastMessage
    | some pos => cases moved; exact .nextMessage
  | done => cases moved
  | oops => cases moved

end Tsm
