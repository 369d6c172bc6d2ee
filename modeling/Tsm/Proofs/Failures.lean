import Tsm.Lib.Sequential
import Tsm.Proofs.Ownership

/-! One read or one write from its entry to its return, with every outcome of its
allocations and of its copy. What it returns does not always tell what it did. -/

namespace Tsm
open Sequential KernelList

/-! A read. -/

def readOutcome (copy : Bool) (_ : ReadPc) : Outcome := ⟨true, copy⟩

/-- A read that fails leaves the messages alone, and what left the list is freed. -/
def ReadLosesNothing (s s' : State) (ret : Int) : Prop :=
  (ret = -1 → s'.dev.messageList = s.dev.messageList ∧ s'.dev.messagesNumber = s.dev.messagesNumber) ∧
    ∃ left, s.dev.messageList = s'.dev.messageList ++ left ∧
      s'.freed.Perm (s.freed ++ left.flatMap Message.objects)

/-- A read at one of its points: the message it has unlinked, and what it has freed of it. -/
def ReadOutline (copy : Bool) (s s' : State) : ReadPc → Prop
  | .entry _ => s' = s
  | .copyToUser msg _ => s.dev.messageList = s'.dev.messageList ++ [msg] ∧ s'.freed = s.freed
  | .print msg _ _ | .freeData msg _ _ =>
    copy = true ∧ s.dev.messageList = s'.dev.messageList ++ [msg] ∧ s'.freed = s.freed
  | .freeMsg msg _ _ =>
    copy = true ∧ s.dev.messageList = s'.dev.messageList ++ [msg] ∧ s'.freed = s.freed ++ [.data msg.id]
  | .done ret none _ => ret = 0 ∧ s' = s ∧ s.dev.messageList = []
  | .done ret (some msg) _ =>
    s.dev.messageList = s'.dev.messageList ++ [msg] ∧
      (copy = true ∧ 0 ≤ ret ∧ s'.freed = s.freed ++ [.data msg.id] ++ [.message msg.id] ∨
        copy = false ∧ ret = -1 ∧ s'.freed = s.freed)

theorem readOutline_step {copy : Bool} {s shared shared' : State} {pc pc'} (outline : ReadOutline copy s shared pc)
    (step : ReadStep (readOutcome copy pc) shared pc shared' pc') : ReadOutline copy s shared' pc' := by
  cases step with
  | empty empty =>
    cases outline
    exact ⟨rfl, rfl, empty⟩
  | remove last =>
    cases outline
    exact ⟨last, rfl⟩
  | fault failed => exact ⟨outline.1, .inr ⟨failed, rfl, outline.2⟩⟩
  | copy copied => exact ⟨copied, outline⟩
  | print => exact outline
  | freeData => exact ⟨outline.1, outline.2.1, congrArg (· ++ [_]) outline.2.2⟩
  | freeMsg => exact ⟨outline.2.1, .inl ⟨outline.1, Int.natCast_nonneg _, congrArg (· ++ [_]) outline.2.2⟩⟩

theorem read_outline {copy : Bool} {s s' : State} {length : Nat} {pc}
    (ran : Alone groupRead (readOutcome copy) s (.entry length) s' pc) : ReadOutline copy s s' pc :=
  ran.outline (ReadOutline copy s) rfl fun outline moved => readOutline_step outline (groupRead_cases moved)

/-- What a read delivers is a prefix of the message it has removed. -/
def ReadDelivers (length : Nat) : ReadPc → Prop
  | .entry size | .copyToUser _ size => size = length
  | .print msg size bytes | .freeData msg size bytes | .freeMsg msg size bytes =>
    size = min length msg.dataSize ∧ bytes = msg.data.take (min length msg.dataSize)
  | .done ret (some msg) bytes =>
    ret = -1 ∨ ret = min length msg.dataSize ∧ bytes = msg.data.take (min length msg.dataSize)
  | .done _ none _ => True

theorem read_delivers {choose : ReadPc → Outcome} {s s' : State} {length : Nat} {pc}
    (ran : Alone groupRead choose s (.entry length) s' pc) : ReadDelivers length pc := by
  apply ran.outline (fun _ => ReadDelivers length) rfl
  intro shared pc shared' pc' delivers moved
  cases groupRead_cases moved with
  | empty => trivial
  | remove => exact delivers
  | fault => exact .inl rfl
  | copy =>
    obtain rfl := delivers
    exact ⟨rfl, rfl⟩
  | print | freeData => exact delivers
  | freeMsg => exact .inr ⟨congrArg Nat.cast delivers.1, delivers.2⟩

def ReadPc.phase : ReadPc → Nat
  | .entry _ => 5
  | .copyToUser _ _ => 4
  | .print _ _ _ => 3
  | .freeData _ _ _ => 2
  | .freeMsg _ _ _ => 1
  | .done _ _ _ => 0

theorem read_returns (copy : Bool) (s : State) (length : Nat) :
    ∃ s' pc, Alone groupRead (readOutcome copy) s (.entry length) s' pc ∧ pc.phase = 0 := by
  refine returns (fun _ _ => True) (fun pc : ReadPc => pc.phase = 0) (fun _ pc => pc.phase) trivial ?_ ?_
  · intro shared pc _
    cases pc with
    | entry length =>
      right
      rw [groupRead]
      split <;> rfl
    | copyToUser msg length =>
      right
      simp only [groupRead]
      split <;> rfl
    | done ret msg bytes => exact .inl rfl
    | _ => exact .inr rfl
  · intro shared pc shared' pc' _ moved
    refine ⟨trivial, ?_⟩
    cases groupRead_cases moved with
    | _ => simp [ReadPc.phase]

/-- A read that returns has lost nothing, unless there was a message and its copy failed. -/
theorem read_loses_nothing {copy : Bool} {s s' : State} {length : Nat} {ret msg bytes}
    (ran : Alone groupRead (readOutcome copy) s (.entry length) s' (.done ret msg bytes)) :
    ReadLosesNothing s s' ret ↔ s.dev.messageList = [] ∨ copy = true := by
  have outline := read_outline ran
  cases msg with
  | none =>
    obtain ⟨rfl, rfl, empty⟩ := outline
    exact ⟨fun _ => .inl empty, fun _ => ⟨fun _ => ⟨rfl, rfl⟩, [], by simp, by simp⟩⟩
  | some msg =>
    obtain ⟨unlinked, ⟨copied, positive, freed⟩ | ⟨failed, rfl, freed⟩⟩ := outline
    · refine ⟨fun _ => .inr copied, fun _ => ⟨fun negative => by omega, [msg], unlinked, ?_⟩⟩
      rw [freed, List.append_assoc]
      exact (List.Perm.swap _ _ []).append_left s.freed
    · refine ⟨fun kept => ?_, fun sound => ?_⟩
      · have same := (kept.1 rfl).1
        rw [unlinked] at same
        simp at same
      · rw [unlinked, failed] at sound
        simp at sound

/-- The sample device after a write of three bytes. -/
def storedState : State :=
  (runAlone groupWrite (fun _ => ⟨true, true⟩) 8 sampleDevice.shared (.entry letters 3)).1

theorem read_loses_message :
    ¬ ∀ copy s s' length ret msg bytes,
      Alone groupRead (readOutcome copy) s (.entry length) s' (.done ret msg bytes) → ReadLosesNothing s s' ret := by
  intro lossless
  have ran := runAlone_alone groupRead (readOutcome false) 2 storedState (.entry 8)
  have kept := lossless _ _ _ _ _ _ _ ran
  exact absurd (congrArg List.length (kept.1 rfl).1) (by decide)

theorem read_loses_nothing_copied :
    ∃ s', Alone groupRead (readOutcome true) storedState (.entry 2) s' (.done 2 storedState.dev.messageList[0]? [97, 98]) ∧
      ReadLosesNothing storedState s' 2 ∧ s'.dev.messageList = [] ∧ s'.freed = [.data 0, .message 0] := by
  have ran := runAlone_alone groupRead (readOutcome true) 5 storedState (.entry 2)
  exact ⟨_, ran, (read_loses_nothing ran).mpr (.inr rfl), rfl, rfl⟩

/-! A write. -/

/-- Whether `kzalloc` of the data and of the message, `copy_from_user` and `kmalloc`
of the work succeed. -/
structure WriteOutcomes where
  data : Bool
  msg : Bool
  copy : Bool
  work : Bool
  deriving DecidableEq, Repr

namespace WriteOutcomes

def resolve (outcomes : WriteOutcomes) : WritePc → Outcome
  | .allocData _ _ => ⟨outcomes.data, outcomes.copy⟩
  | .allocMsg _ _ _ => ⟨outcomes.msg, outcomes.copy⟩
  | .addDelayedWork _ => ⟨outcomes.work, outcomes.copy⟩
  | _ => ⟨true, outcomes.copy⟩

/-- The buffers a write of `length` bytes allocates. -/
def buffers (outcomes : WriteOutcomes) (length id : Nat) : List Obj :=
  if length = 0 ∨ outcomes.data = false then []
  else if outcomes.msg = false then [.data id]
  else [.message id, .data id]

/-- The write gets past every test that makes it give up. -/
def Stored (outcomes : WriteOutcomes) (s : State) (length : Nat) : Prop :=
  0 < length ∧ outcomes.data = true ∧ outcomes.msg = true ∧ s.dev.messagesNumber < s.maxStorageSize ∧
    outcomes.copy = true

instance (outcomes : WriteOutcomes) (s : State) (length : Nat) : Decidable (outcomes.Stored s length) :=
  inferInstanceAs (Decidable (_ ∧ _ ∧ _ ∧ _ ∧ _))

end WriteOutcomes

/-- A message with these bytes is counted, and is in `message_list`, or in
`pending_list` with a new work for it. -/
def StoresBytes (s s' : State) (bytes : List UInt8) : Prop :=
  s'.dev.messagesNumber.toNat = s.dev.messagesNumber.toNat + 1 ∧
    ∃ msg : Message, msg.data = bytes ∧ msg.dataSize = bytes.length ∧
      (s'.dev.messageList = listAdd msg s.dev.messageList ∧ s'.dev.pendingList = s.dev.pendingList ∧
          s'.dev.delayList = s.dev.delayList ∧ s'.wq = s.wq ∨
        s'.dev.messageList = s.dev.messageList ∧ s'.dev.pendingList = listAdd msg s.dev.pendingList ∧
          ∃ work, s'.dev.delayList = listAdd work s.dev.delayList ∧ s'.wq.works.Perm (work :: s.wq.works))

/-- What a write returns tells what it did. -/
def StoresOrKeeps (outcomes : WriteOutcomes) (s s' : State) (buf : Nat → UInt8) (length : Nat) (ret : Int) : Prop :=
  (0 < ret → ret = min length s.maxMessageSize.toNat ∧
      StoresBytes s s' (copyFromUser buf (min length s.maxMessageSize.toNat))) ∧
    (ret ≤ 0 → s'.dev = s.dev ∧ s'.wq = s.wq ∧ s'.freed.Perm (s.freed ++ outcomes.buffers length s.fresh))

/-- A write that stores a message stores one byte at least, and covers it if it is delayed. -/
def WriteReported (outcomes : WriteOutcomes) (s : State) (length : Nat) : Prop :=
  outcomes.Stored s length →
    0 < s.maxMessageSize ∧ (s.dev.delay = 0 ∨ s.dev.delayWq = true ∧ outcomes.work = true)

instance (outcomes : WriteOutcomes) (s : State) (length : Nat) : Decidable (WriteReported outcomes s length) :=
  inferInstanceAs (Decidable (_ → _))

section Write
variable (outcomes : WriteOutcomes) (s : State) (buf : Nat → UInt8) (length : Nat)

/-- The message a write enters in a list. -/
def writtenMessage : Message := newMessage s buf (min length s.maxMessageSize.toNat) s.fresh

/-! The device at the points of a write: counted, then published, or pending and
then covered. -/

def countedDev : GroupDev := { s.dev with messagesNumber := s.dev.messagesNumber + 1 }

def publishedDev : GroupDev :=
  { countedDev s with messageList := listAdd (writtenMessage s buf length) s.dev.messageList }

def pendedDev : GroupDev :=
  { countedDev s with pendingList := listAdd (writtenMessage s buf length) s.dev.pendingList }

def coveredDev : GroupDev :=
  { pendedDev s buf length with delayList := listAdd (s.fresh + 1) s.dev.delayList }

def coveredWq : Workqueue := s.wq.queueDelayedWork (s.fresh + 1) s.jiffies s.dev.delay

/-- What a write may change, the history apart. -/
def WriteAt (s' : State) (fresh : Nat) (dev : GroupDev) (wq : Workqueue) (freed : List Obj) : Prop :=
  ∃ history, s' = { s with fresh, dev, wq, freed, history }

/-- What has become of a stored message. -/
def WriteEnd (s' : State) : Prop :=
  if s.dev.delay = 0 then WriteAt s s' (s.fresh + 1) (publishedDev s buf length) s.wq s.freed
  else if s.dev.delayWq = true ∧ outcomes.work = true then
    WriteAt s s' (s.fresh + 2) (coveredDev s buf length) (coveredWq s) s.freed
  else WriteAt s s' (s.fresh + 1) (pendedDev s buf length) s.wq s.freed

/-- A write whose buffers are allocated, `id` being their number. -/
structure WriteAllocated (s' : State) (from' : Nat → UInt8) (size id : Nat) : Prop where
  reached : WriteAt s s' (s.fresh + 1) s.dev s.wq s.freed
  buf : from' = buf
  size : size = min length s.maxMessageSize.toNat
  id : id = s.fresh
  positive : 0 < length
  data : outcomes.data = true

/-- A write that puts its message in `pending_list`. -/
structure WriteDelayed (msg : Message) : Prop where
  msg : msg = writtenMessage s buf length
  stored : outcomes.Stored s length
  delay : s.dev.delay ≠ 0

/-- A write that covers its message, which has allocated the work. -/
structure WriteCovering (msg : Message) (work : Nat) : Prop extends WriteDelayed outcomes s buf length msg where
  work : work = s.fresh + 1
  created : s.dev.delayWq = true
  allocated : outcomes.work = true

def WriteOutline (s' : State) : WritePc → Prop
  | .entry from' size => s' = s ∧ from' = buf ∧ size = length
  | .clamp from' => s' = s ∧ from' = buf ∧ s.maxMessageSize.toNat < length
  | .allocData from' size => s' = s ∧ from' = buf ∧ 0 < length ∧ size = min length s.maxMessageSize.toNat
  | .allocMsg from' size id => WriteAllocated outcomes s buf length s' from' size id
  | .critical from' size id => WriteAllocated outcomes s buf length s' from' size id ∧ outcomes.msg = true
  | .pend msg =>
    WriteDelayed outcomes s buf length msg ∧ WriteAt s s' (s.fresh + 1) (countedDev s) s.wq s.freed
  | .addDelayedWork msg =>
    WriteDelayed outcomes s buf length msg ∧ WriteAt s s' (s.fresh + 1) (pendedDev s buf length) s.wq s.freed
  | .downWq msg work =>
    WriteCovering outcomes s buf length msg work ∧ WriteAt s s' (s.fresh + 2) (pendedDev s buf length) s.wq s.freed
  | .queueWork msg work =>
    WriteCovering outcomes s buf length msg work ∧ s.dev.wqSem ≠ 0 ∧
      WriteAt s s' (s.fresh + 2) { pendedDev s buf length with wqSem := s.dev.wqSem - 1 } s.wq s.freed
  | .listAdd msg work =>
    WriteCovering outcomes s buf length msg work ∧ s.dev.wqSem ≠ 0 ∧
      WriteAt s s' (s.fresh + 2) { pendedDev s buf length with wqSem := s.dev.wqSem - 1 } (coveredWq s) s.freed
  | .upWq msg =>
    WriteCovering outcomes s buf length msg (s.fresh + 1) ∧ s.dev.wqSem ≠ 0 ∧
      WriteAt s s' (s.fresh + 2) { coveredDev s buf length with wqSem := s.dev.wqSem - 1 } (coveredWq s) s.freed
  | .listPrint msg | .traverse msg _ =>
    msg = writtenMessage s buf length ∧ outcomes.Stored s length ∧ s.dev.delay = 0 ∧
      WriteAt s s' (s.fresh + 1) (publishedDev s buf length) s.wq s.freed
  | .print msg => msg = writtenMessage s buf length ∧ outcomes.Stored s length ∧ WriteEnd outcomes s buf length s'
  | .msgFail id ret =>
    ¬ outcomes.Stored s length ∧ ret ≤ 0 ∧ WriteAt s s' (s.fresh + 1) s.dev s.wq s.freed ∧
      [.message id, .data id] = outcomes.buffers length s.fresh
  | .dataFail id ret =>
    ¬ outcomes.Stored s length ∧ ret ≤ 0 ∧ ∃ freed,
      WriteAt s s' (s.fresh + 1) s.dev s.wq (s.freed ++ freed) ∧
        freed ++ [.data id] = outcomes.buffers length s.fresh
  | .done ret none =>
    ¬ outcomes.Stored s length ∧ ret ≤ 0 ∧ ∃ fresh,
      WriteAt s s' fresh s.dev s.wq (s.freed ++ outcomes.buffers length s.fresh)
  | .done ret (some msg) =>
    msg = writtenMessage s buf length ∧ ret = min length s.maxMessageSize.toNat ∧ outcomes.Stored s length ∧
      WriteEnd outcomes s buf length s'

variable {outcomes s buf length} {s' shared shared' : State}

theorem writeOutline_step {pc pc'} (outline : WriteOutline outcomes s buf length shared pc)
    (step : WriteStep (outcomes.resolve pc) shared pc shared' pc') :
    WriteOutline outcomes s buf length shared' pc' := by
  cases step with
  | invalid empty =>
    obtain ⟨rfl, rfl, rfl⟩ := outline
    refine ⟨fun stored => absurd stored.1 (by omega), by decide, shared.fresh, shared.history, ?_⟩
    simp [WriteOutcomes.buffers, empty]
  | oversize positive large =>
    obtain ⟨rfl, rfl, rfl⟩ := outline
    exact ⟨rfl, rfl, large⟩
  | fits positive inside =>
    obtain ⟨rfl, rfl, rfl⟩ := outline
    exact ⟨rfl, rfl, positive, (Nat.min_eq_left inside).symm⟩
  | clamp =>
    obtain ⟨rfl, rfl, large⟩ := outline
    exact ⟨rfl, rfl, Nat.zero_lt_of_lt large, (Nat.min_eq_right (Nat.le_of_lt large)).symm⟩
  | noData failed =>
    obtain ⟨rfl, rfl, positive, rfl⟩ := outline
    have failed : outcomes.data = false := failed
    refine ⟨fun stored => absurd (failed.symm.trans stored.2.1) Bool.false_ne_true, by decide, shared.fresh,
      shared.history, ?_⟩
    simp [WriteOutcomes.buffers, failed]
  | allocData allocated =>
    obtain ⟨rfl, rfl, positive, rfl⟩ := outline
    exact ⟨⟨shared.history, rfl⟩, rfl, rfl, rfl, positive, allocated⟩
  | noMsg failed =>
    obtain ⟨reached, rfl, rfl, rfl, positive, data⟩ := outline
    have failed : outcomes.msg = false := failed
    refine ⟨fun stored => absurd (failed.symm.trans stored.2.2.1) Bool.false_ne_true, by decide, [], by simpa using reached, ?_⟩
    simp [WriteOutcomes.buffers, Nat.ne_of_gt positive, data, failed]
  | allocMsg allocated => exact ⟨outline, allocated⟩
  | full full =>
    obtain ⟨⟨⟨history, rfl⟩, rfl, rfl, rfl, positive, data⟩, msg⟩ := outline
    refine ⟨fun stored => absurd stored.2.2.2.1 (UInt32.not_lt.mpr full), by decide, ⟨history, rfl⟩, ?_⟩
    simp [WriteOutcomes.buffers, Nat.ne_of_gt positive, data, msg]
  | fault room failed =>
    obtain ⟨⟨⟨history, rfl⟩, rfl, rfl, rfl, positive, data⟩, msg⟩ := outline
    have failed : outcomes.copy = false := failed
    refine ⟨fun stored => absurd (failed.symm.trans stored.2.2.2.2) Bool.false_ne_true, by decide, ⟨history, rfl⟩, ?_⟩
    simp [WriteOutcomes.buffers, Nat.ne_of_gt positive, data, msg]
  | delayed room copied delay =>
    obtain ⟨⟨⟨history, rfl⟩, rfl, rfl, rfl, positive, data⟩, msg⟩ := outline
    exact ⟨⟨rfl, ⟨positive, data, msg, room, copied⟩, delay⟩, history, rfl⟩
  | immediate room copied noDelay =>
    obtain ⟨⟨⟨history, rfl⟩, rfl, rfl, rfl, positive, data⟩, msg⟩ := outline
    exact ⟨rfl, ⟨positive, data, msg, room, copied⟩, noDelay, _, rfl⟩
  | pend =>
    obtain ⟨delayed, history, rfl⟩ := outline
    obtain rfl := delayed.msg
    exact ⟨delayed, _, rfl⟩
  | noWorkqueue missing =>
    obtain ⟨delayed, history, rfl⟩ := outline
    have missing : s.dev.delayWq = false := missing
    refine ⟨delayed.msg, delayed.stored, ?_⟩
    rw [WriteEnd, if_neg delayed.delay, if_neg (by simp [missing])]
    exact ⟨history, rfl⟩
  | noWork failed =>
    obtain ⟨delayed, history, rfl⟩ := outline
    have failed : outcomes.work = false := failed
    refine ⟨delayed.msg, delayed.stored, ?_⟩
    rw [WriteEnd, if_neg delayed.delay, if_neg (by simp [failed])]
    exact ⟨history, rfl⟩
  | allocWork created allocated =>
    obtain ⟨delayed, history, rfl⟩ := outline
    exact ⟨⟨delayed, rfl, created, allocated⟩, history, rfl⟩
  | downWq up =>
    obtain ⟨covering, history, rfl⟩ := outline
    exact ⟨covering, up, history, rfl⟩
  | queueWork =>
    obtain ⟨covering, up, history, rfl⟩ := outline
    obtain rfl := covering.work
    exact ⟨covering, up, history, rfl⟩
  | listAdd =>
    obtain ⟨covering, up, history, rfl⟩ := outline
    obtain rfl := covering.work
    exact ⟨covering, up, history, rfl⟩
  | upWq =>
    obtain ⟨covering, up, history, rfl⟩ := outline
    refine ⟨covering.msg, covering.stored, ?_⟩
    rw [WriteEnd, if_neg covering.delay, if_pos ⟨covering.created, covering.allocated⟩]
    refine ⟨history, ?_⟩
    have restored : s.dev.wqSem - 1 + 1 = s.dev.wqSem := Nat.sub_one_add_one up
    simp [coveredDev, pendedDev, countedDev, restored]
  | listPrint | follow => exact outline
  | traversed =>
    obtain ⟨msg, stored, noDelay, reached⟩ := outline
    exact ⟨msg, stored, by rwa [WriteEnd, if_pos noDelay]⟩
  | print =>
    obtain ⟨rfl, stored, ended⟩ := outline
    exact ⟨rfl, rfl, stored, ended⟩
  | msgFail =>
    obtain ⟨kept, negative, ⟨history, rfl⟩, buffers⟩ := outline
    exact ⟨kept, negative, [_], ⟨history, rfl⟩, buffers⟩
  | dataFail =>
    obtain ⟨kept, negative, freed, ⟨history, rfl⟩, buffers⟩ := outline
    refine ⟨kept, negative, s.fresh + 1, history, ?_⟩
    rw [← buffers, ← List.append_assoc]

theorem write_outline {pc} (ran : Alone groupWrite outcomes.resolve s (.entry buf length) s' pc) :
    WriteOutline outcomes s buf length s' pc :=
  ran.outline (WriteOutline outcomes s buf length) ⟨rfl, rfl, rfl⟩ fun outline moved =>
    writeOutline_step outline (groupWrite_cases moved)

theorem WriteEnd.counts (ended : WriteEnd outcomes s buf length s') :
    s'.dev.messagesNumber = s.dev.messagesNumber + 1 := by
  unfold WriteEnd at ended
  split at ended
  · obtain ⟨history, rfl⟩ := ended
    rfl
  · split at ended
    · obtain ⟨history, rfl⟩ := ended
      rfl
    · obtain ⟨history, rfl⟩ := ended
      rfl

/-- A stored message is found in a list, with a work unless it is in `message_list`. -/
theorem WriteEnd.stores (ended : WriteEnd outcomes s buf length s') (stored : outcomes.Stored s length)
    (covered : s.dev.delay = 0 ∨ s.dev.delayWq = true ∧ outcomes.work = true) :
    StoresBytes s s' (copyFromUser buf (min length s.maxMessageSize.toNat)) := by
  refine ⟨by rw [ended.counts, count_up stored.2.2.2.1], writtenMessage s buf length, rfl, ?_, ?_⟩
  · simp [writtenMessage, newMessage, copyFromUser]
  · unfold WriteEnd at ended
    split at ended
    next noDelay =>
      obtain ⟨history, rfl⟩ := ended
      exact .inl ⟨rfl, rfl, rfl, rfl⟩
    next delay =>
      have created := covered.resolve_left delay
      rw [if_pos created] at ended
      obtain ⟨history, rfl⟩ := ended
      refine .inr ⟨rfl, rfl, s.fresh + 1, rfl, ?_⟩
      have waiting := s.wq.waiting_queueDelayedWork (s.fresh + 1) s.jiffies s.dev.delay
      simpa [Workqueue.works, coveredWq] using waiting.append_right (s.wq.running.toList.map (·.1.id))

/-- A delayed message without a workqueue or without a work stays pending alone. -/
theorem WriteEnd.stranded (ended : WriteEnd outcomes s buf length s') (delay : s.dev.delay ≠ 0)
    (uncovered : ¬ (s.dev.delayWq = true ∧ outcomes.work = true)) (bytes : List UInt8) : ¬ StoresBytes s s' bytes := by
  rw [WriteEnd, if_neg delay, if_neg uncovered] at ended
  obtain ⟨history, rfl⟩ := ended
  rintro ⟨_, msg, _, _, ⟨published, _⟩ | ⟨_, _, work, listed, _⟩⟩
  · exact absurd (congrArg List.length published) (by simp [pendedDev, countedDev, listAdd])
  · exact absurd (congrArg List.length listed) (by simp [pendedDev, countedDev, listAdd])

end Write

/-- What a write returns tells what it did, unless it stores an empty message or
leaves a delayed one without a work. -/
theorem write_stores_or_keeps {outcomes : WriteOutcomes} {s s' : State} {buf : Nat → UInt8} {length : Nat}
    {ret : Int} {msg : Option Message}
    (ran : Alone groupWrite outcomes.resolve s (.entry buf length) s' (.done ret msg)) :
    StoresOrKeeps outcomes s s' buf length ret ↔ WriteReported outcomes s length := by
  have outline := write_outline ran
  cases msg with
  | none =>
    obtain ⟨kept, negative, fresh, history, rfl⟩ := outline
    exact ⟨fun _ stored => absurd stored kept, fun _ => ⟨fun positive => by omega, fun _ => ⟨rfl, rfl, .refl _⟩⟩⟩
  | some msg =>
    obtain ⟨_, rfl, stored, ended⟩ := outline
    have positive := stored.1
    by_cases empty : s.maxMessageSize.toNat = 0
    · have none : ¬ 0 < s.maxMessageSize := by simp [UInt32.lt_iff_toNat_lt, empty]
      refine ⟨fun told => ?_, fun sound => absurd (sound stored).1 none⟩
      have kept := congrArg (fun dev => dev.messagesNumber.toNat) (told.2 (by omega)).1
      rw [ended.counts, count_up stored.2.2.2.1] at kept
      omega
    · have some : 0 < s.maxMessageSize := by
        rw [UInt32.lt_iff_toNat_lt]
        exact Nat.pos_of_ne_zero empty
      refine ⟨fun told _ => ⟨some, ?_⟩, fun sound => ?_⟩
      · apply or_iff_not_imp_left.mpr
        intro delay
        by_contra uncovered
        exact ended.stranded delay uncovered _ (told.1 (by omega)).2
      · exact ⟨fun _ => ⟨rfl, ended.stores stored (sound stored).2⟩, fun negative => by omega⟩

/-- A device whose workqueue was not created, with a delay set. -/
def strandedState : State := setDelay (State.installed 32 64 UInt32.toNat false) 1

theorem write_strands_message :
    ¬ ∀ outcomes s s' buf length ret msg,
      Alone groupWrite (WriteOutcomes.resolve outcomes) s (.entry buf length) s' (.done ret msg) →
        StoresOrKeeps outcomes s s' buf length ret := by
  intro told
  have ran := runAlone_alone groupWrite (WriteOutcomes.resolve ⟨true, true, true, true⟩) 7 strandedState (.entry letters 3)
  have stored := (told _ _ _ _ _ _ _ ran).1 (by decide)
  obtain ⟨_, _, _, _, ⟨published, _⟩ | ⟨_, _, work, listed, _⟩⟩ := stored.2
  · exact List.cons_ne_nil _ _ published.symm
  · exact List.cons_ne_nil _ _ listed.symm

/-- The same write where the workqueue exists. -/
theorem write_stores_or_keeps_covered :
    ∃ s' msg, Alone groupWrite (WriteOutcomes.resolve ⟨true, true, true, true⟩) (setDelay sampleDevice.shared 1)
        (.entry letters 3) s' (.done 3 msg) ∧
      StoresOrKeeps ⟨true, true, true, true⟩ (setDelay sampleDevice.shared 1) s' letters 3 3 ∧
      s'.dev.pendingList.map Message.data = [[97, 98, 99]] ∧ s'.dev.delayList = [1] := by
  have ran := runAlone_alone groupWrite (WriteOutcomes.resolve ⟨true, true, true, true⟩) 11
    (setDelay sampleDevice.shared 1) (.entry letters 3)
  exact ⟨_, _, ran, (write_stores_or_keeps ran).mpr (by decide), rfl, rfl⟩

end Tsm
