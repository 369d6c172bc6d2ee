import Tsm.Proofs.Ownership

/-! Uses of messages after they may have been freed. A writer and the worker still
access a message they have published, and a traversal stands on nodes that others
may unlink. Nothing goes wrong as long as no read is faster than them. -/

namespace Tsm
open Interleaving KernelList

/-! What a step accesses. -/

/-- The list nodes of some messages, which lie inside them. -/
def nodes (messages : List Message) : List Obj := messages.map fun msg => .message msg.id

def WritePc.touches (s : State) : WritePc → List Obj
  | .critical _ _ id => .message id :: .data id :: nodes s.dev.messageList
  | .pend msg => .message msg.id :: nodes s.dev.pendingList
  -- a debug build prints the message as well
  | .traverse _ (some pos) => pos.objects
  | .print msg => [.data msg.id]
  | .msgFail id _ => [.message id]
  | .dataFail id _ => [.data id]
  | _ => []

def ReadPc.touches (s : State) : ReadPc → List Obj
  | .entry _ => nodes s.dev.messageList
  | .copyToUser msg _ | .print msg _ _ | .freeData msg _ _ => msg.objects
  | .freeMsg msg _ _ => [.message msg.id]
  | .done _ _ _ => []

def FlushPc.touches (s : State) : FlushPc → List Obj
  | .splice => nodes s.dev.pendingList ++ nodes s.dev.messageList
  | _ => []

/-- The messages, nodes and buffers that the next step of a call reads, writes,
links, unlinks or frees. -/
def Call.touches (s : State) : Call → List Obj
  | .write pc => pc.touches s
  | .read pc => pc.touches s
  | .setSendDelay _ => []
  | .revoke pc => pc.touches s

/-- The same for the next step of the work the thread executes. -/
def State.workTouches (s : State) : List Obj :=
  match s.wq.running with
  | some (_, .pop) => nodes s.dev.pendingList
  | some (_, .insert msg) => .message msg.id :: nodes s.dev.messageList
  | some (_, .print msg) => msg.objects
  | _ => []

/-- The node a traversal stands on. -/
def Call.cursor : Call → Option Message
  | .write (.traverse _ pos) => pos
  | _ => none

/-- No step accesses what was freed, no traversal stands on a node that was
unlinked, and nothing was freed twice. -/
def UsesLive (config : DeviceConfig) : Prop :=
  (∀ process ∈ config.calls, ∀ obj ∈ process.state.touches config.shared, obj ∉ config.shared.freed) ∧
    (∀ obj ∈ config.shared.workTouches, obj ∉ config.shared.freed) ∧
    (∀ process ∈ config.calls, ∀ pos ∈ process.state.cursor, pos ∈ config.shared.dev.messageList) ∧
    config.shared.freed.Nodup

instance (config : DeviceConfig) : Decidable (UsesLive config) := inferInstanceAs (Decidable (_ ∧ _ ∧ _ ∧ _))

/-! Accesses to messages that others may free. -/

/-- The buffer a write still prints once its message is published. -/
def Call.late : Call → List Obj
  | .write pc =>
    match pc with
    | .addDelayedWork msg | .downWq msg _ | .queueWork msg _ | .listAdd msg _ | .upWq msg | .listPrint msg
    | .traverse msg _ | .print msg => [.data msg.id]
    | _ => []
  | _ => []

def State.workLate (s : State) : List Obj :=
  match s.wq.running with
  | some (_, .print msg) => msg.objects
  | _ => []

def Call.unlinks (s : State) : Call → Option Message
  | .read (.entry _) => s.dev.messageList.getLast?
  | _ => none

def Call.frees : Call → Option Obj
  | .read (.freeData msg _ _) => some (.data msg.id)
  | .read (.freeMsg msg _ _) => some (.message msg.id)
  | _ => none

def Late (config : DeviceConfig) (obj : Obj) : Prop :=
  (∃ process ∈ config.calls, obj ∈ process.state.late) ∨ obj ∈ config.shared.workLate

instance (config : DeviceConfig) (obj : Obj) : Decidable (Late config obj) :=
  inferInstanceAs (Decidable (_ ∨ _))

/-- A read unlinks no message a traversal stands on, and frees nothing that its
publisher still accesses. -/
def ReadsLast (config : DeviceConfig) (act : DeviceAct) : Prop :=
  ∀ moving ∈ mover config act,
    (∀ msg ∈ moving.1.unlinks config.shared, ∀ process ∈ config.calls, process.state.cursor ≠ some msg) ∧
      ∀ obj ∈ moving.1.frees, ¬ Late config obj

instance (config : DeviceConfig) (act : DeviceAct) : Decidable (ReadsLast config act) :=
  inferInstanceAs (Decidable (∀ moving ∈ mover config act, _ ∧ _))

/-! Cursors. -/

section Cursors
variable {s s' : State}

theorem move_keeps_published {outcome call call' pos} (step : MoveStep outcome s call s' call')
    (member : pos ∈ s.dev.messageList)
    (behind : ∀ length, call = .read (.entry length) → s.dev.messageList.getLast? ≠ some pos) :
    pos ∈ s'.dev.messageList := by
  cases step with
  | write step =>
    cases step with
    | immediate room copied noDelay => exact List.mem_cons_of_mem _ member
    | _ => exact member
  | read step =>
    cases step with
    | @remove length msg rest last =>
      have other := behind length rfl
      rw [last] at member other
      rcases List.mem_append.mp member with member | same
      · exact member
      · rw [List.mem_singleton.mp same, List.getLast?_concat] at other
        exact absurd rfl other
    | _ => exact member
  | setSendDelay step => cases step <;> exact member
  | revoke step =>
    cases step with
    | splice => exact List.mem_append_left _ member
    | _ => exact member

theorem event_keeps_published {event pos} (step : EventStep s event s') (member : pos ∈ s.dev.messageList) :
    pos ∈ s'.dev.messageList := by
  cases step with
  | worker step =>
    cases step with
    | insert running => exact List.mem_cons_of_mem _ member
    | _ => exact member
  | _ => exact member

theorem write_cursor {outcome pc pc' pos} (step : WriteStep outcome s pc s' pc')
    (cursor : (Call.write pc').cursor = some pos) : pos ∈ s'.dev.messageList := by
  cases step with
  | listPrint => exact List.mem_of_getLast? cursor
  | follow => exact listPrev_mem cursor
  | _ => cases cursor

end Cursors

/-! Late accesses are to live objects. -/

def Call.drafts : Call → List Obj
  | .write pc => pc.draft
  | _ => []

def lateBy (call : Call) : Multiset Obj × Multiset Obj := (call.drafts, call.late)

/-- An object of a message that is neither freed nor about to be freed by its writer. -/
structure Accessible (s : State) (drafts : Multiset Obj) (obj : Obj) : Prop where
  published : obj ∉ drafts
  unfreed : obj ∉ s.freed
  numbered : obj.id < s.fresh
  ofMessage : ∀ work, obj ≠ .work work

def LateLive (s : State) (drafts late : Multiset Obj) : Prop :=
  ∀ obj, obj ∈ late ∨ obj ∈ s.workLate → Accessible s drafts obj

private theorem drafts_le_owned (calls : List (Process Request Call)) :
    (total lateBy calls).1 ≤ total ownedBy calls := by
  have split := total_hom (AddMonoidHom.fst (Multiset Obj) (Multiset Obj)) lateBy calls
  rw [AddMonoidHom.coe_fst] at split
  rw [split]
  refine total_le ?_ calls
  intro call
  cases call with
  | write pc => exact Multiset.coe_le.mpr (List.sublist_append_left _ _).subperm
  | _ => exact Multiset.zero_le _

section Late
variable {s s' : State} {owned drafts late : Multiset Obj}

theorem Accessible.of_le {drafts' : Multiset Obj} {obj : Obj} (live : Accessible s drafts obj)
    (less : drafts' ≤ drafts) (freed : s'.freed = s.freed) (fresh : s.fresh ≤ s'.fresh) :
    Accessible s' drafts' obj :=
  ⟨fun draft => live.published (Multiset.mem_of_le less draft), freed ▸ live.unfreed,
    Nat.lt_of_lt_of_le live.numbered fresh, live.ofMessage⟩

/-- What a list holds or a read has unlinked is accessible, and so is what a write
is about to publish. -/
theorem Owned.accessible {mine : Multiset Obj} {obj : Obj} (known : Owned s (mine + owned)) (less : drafts ≤ owned)
    (member : obj ∈ mine) (ofMessage : ∀ work, obj ≠ .work work) : Accessible s drafts obj := by
  refine ⟨?_, known.not_freed (Multiset.mem_add.mpr (.inl member)), known.numbered obj (by simp [member]), ofMessage⟩
  rw [Owned, add_assoc] at known
  exact fun draft => known.apart member (Multiset.mem_add.mpr (.inl (Multiset.mem_of_le less draft)))

private theorem ofMessage_of_mem {msg : Message} {obj : Obj} (member : obj ∈ msg.objects) (work : Nat) :
    obj ≠ .work work := by
  rcases List.mem_pair.mp member with rfl | rfl <;> simp

theorem LateLive.of_le {drafts' late' : Multiset Obj} (live : LateLive s drafts late) (less : drafts' ≤ drafts)
    (fewer : late' ≤ late) (same : s'.workLate = s.workLate) (freed : s'.freed = s.freed)
    (fresh : s.fresh ≤ s'.fresh) : LateLive s' drafts' late' := by
  intro obj member
  rw [same] at member
  exact (live obj (member.imp_left (Multiset.mem_of_le fewer))).of_le less freed fresh

/-- A draft is published, and its buffer still accessed. -/
theorem LateLive.publish {id : Nat} {mine drafts' late' : Multiset Obj} (live : LateLive s (mine + drafts) late)
    (known : Owned s (mine + owned)) (less : drafts ≤ owned) (buffer : .data id ∈ mine) (fewer : drafts' ≤ drafts)
    (accessed : ∀ obj ∈ late', obj = .data id ∨ obj ∈ late) (same : s'.workLate = s.workLate)
    (freed : s'.freed = s.freed) (fresh : s'.fresh = s.fresh) : LateLive s' drafts' late' := by
  intro obj member
  rw [same] at member
  have cases : obj = .data id ∨ obj ∈ late ∨ obj ∈ s.workLate := by
    rcases member with member | member
    · exact (accessed obj member).imp_right .inl
    · exact .inr (.inr member)
  rcases cases with rfl | member
  · exact (known.accessible less buffer (by simp)).of_le fewer freed (Nat.le_of_eq fresh.symm)
  · have fewer : drafts' ≤ mine + drafts := le_trans fewer (Multiset.le_add_left _ _)
    exact (live obj member).of_le fewer freed (Nat.le_of_eq fresh.symm)

theorem LateLive.free {drafts' : Multiset Obj} {freed : Obj} (live : LateLive s drafts late)
    (unused : ¬ (freed ∈ late ∨ freed ∈ s.workLate)) (less : drafts' ≤ drafts)
    (same : s'.workLate = s.workLate) (frees : s'.freed = s.freed ++ [freed]) (fresh : s'.fresh = s.fresh) :
    LateLive s' drafts' late := by
  intro obj member
  rw [same] at member
  obtain ⟨published, unfreed, numbered, ofMessage⟩ := live obj member
  refine ⟨fun draft => published (Multiset.mem_of_le less draft), ?_, fresh ▸ numbered, ofMessage⟩
  rw [frees]
  intro freed
  rcases List.mem_append.mp freed with freed | freed
  · exact unfreed freed
  · rw [List.mem_singleton.mp freed] at member
    exact unused member

theorem write_late {outcome pc pc'}
    (live : LateLive s ((Call.write pc).drafts + drafts) ((Call.write pc).late + late))
    (known : Owned s (ownedBy (.write pc) + owned)) (less : drafts ≤ owned) (step : WriteStep outcome s pc s' pc') :
    LateLive s' ((Call.write pc').drafts + drafts) ((Call.write pc').late + late) := by
  cases step with
  | allocData allocated =>
    intro obj member
    obtain ⟨published, unfreed, numbered, ofMessage⟩ := live obj member
    refine ⟨?_, unfreed, Nat.lt_succ_of_lt numbered, ofMessage⟩
    intro draft
    rcases Multiset.mem_add.mp draft with new | old
    · rcases List.mem_pair.mp new with rfl | rfl <;> exact Nat.lt_irrefl _ numbered
    · exact published (Multiset.mem_add.mpr (.inr old))
  | allocWork created allocated => exact live.of_le (le_refl _) (le_refl _) rfl rfl (Nat.le_succ _)
  | immediate room copied noDelay | pend =>
    exact live.publish known less (List.mem_cons_of_mem _ List.mem_cons_self) (le_of_eq (zero_add _))
      (by simp [Call.late, newMessage]) rfl rfl rfl
  | queueWork => exact live.of_le (le_refl _) (le_refl _) (by simp [State.workLate]) rfl (Nat.le_refl _)
  | print => exact live.of_le (le_refl _) (Multiset.add_le_add_right (Multiset.zero_le _)) rfl rfl (Nat.le_refl _)
  | noMsg failed =>
    refine live.of_le ?_ (le_refl _) rfl rfl (Nat.le_refl _)
    exact Multiset.add_le_add_right (Multiset.coe_le.mpr (List.sublist_cons_self _ _).subperm)
  | @msgFail id ret =>
    refine live.free (fun accessed => ?_) ?_ rfl rfl rfl
    · exact (live _ accessed).published (Multiset.mem_add.mpr (.inl List.mem_cons_self))
    · exact Multiset.add_le_add_right (Multiset.coe_le.mpr (List.sublist_cons_self _ _).subperm)
  | @dataFail id ret =>
    refine live.free (fun accessed => ?_) ?_ rfl rfl rfl
    · exact (live _ accessed).published (Multiset.mem_add.mpr (.inl List.mem_cons_self))
    · exact Multiset.add_le_add_right (Multiset.zero_le _)
  | _ => exact live.of_le (le_refl _) (le_refl _) rfl rfl (Nat.le_refl _)

theorem read_late {outcome pc pc'} (live : LateLive s drafts late)
    (last : ∀ obj ∈ (Call.read pc).frees, ¬ (obj ∈ late ∨ obj ∈ s.workLate))
    (step : ReadStep outcome s pc s' pc') : LateLive s' drafts late := by
  cases step with
  | freeData | freeMsg => exact live.free (last _ rfl) (le_refl _) rfl rfl rfl
  | _ => exact live.of_le (le_refl _) (le_refl _) rfl rfl (Nat.le_refl _)

theorem flush_late {pc pc'} (live : LateLive s drafts late) (step : FlushStep s pc s' pc') :
    LateLive s' drafts late := by
  cases step with
  | flush => exact live.of_le (le_refl _) (le_refl _) (by simp [State.workLate]) rfl (Nat.le_refl _)
  | _ => exact live.of_le (le_refl _) (le_refl _) rfl rfl (Nat.le_refl _)

private theorem LateLive.leave (live : LateLive s drafts late) (idle : s'.workLate = []) (freed : s'.freed = s.freed)
    (fresh : s'.fresh = s.fresh) : LateLive s' drafts late := by
  intro obj member
  rcases member with member | member
  · exact (live obj (.inl member)).of_le (le_refl _) freed (Nat.le_of_eq fresh.symm)
  · simp [idle] at member

theorem worker_late (live : LateLive s drafts late) (known : Owned s owned) (less : drafts ≤ owned)
    (step : WorkerStep s s') : LateLive s' drafts late := by
  cases step with
  | @insert work msg running =>
    intro obj member
    rcases member with member | member
    · exact (live obj (.inl member)).of_le (le_refl _) rfl (Nat.le_refl _)
    · have listed : msg ∈ s.listed := by simp [State.listed, Workqueue.carried, carriedBy, running]
      obtain ⟨others, unfreed, numbered⟩ := known.listed listed member
      exact ⟨fun draft => others (Multiset.mem_of_le less draft), unfreed, numbered, ofMessage_of_mem member⟩
  | free running =>
    intro obj member
    simp only [State.workLate, or_false, List.not_mem_nil] at member
    obtain ⟨published, unfreed, numbered, ofMessage⟩ := live obj (.inl member)
    exact ⟨published, by simp [unfreed, ofMessage], numbered, ofMessage⟩
  | start idle queued | popEmpty running empty | pop running last | print running | flushing running flag
  | notFlushing running flag | listDel running => exact live.leave rfl rfl rfl

theorem event_late {event} (live : LateLive s drafts late) (known : Owned s owned) (less : drafts ≤ owned)
    (step : EventStep s event s') : LateLive s' drafts late := by
  cases step with
  | worker step => exact worker_late live known less step
  | _ => exact live.of_le (le_refl _) (le_refl _) rfl rfl (Nat.le_refl _)

end Late

private theorem mem_late {calls : List (Process Request Call)} {obj : Obj} :
    obj ∈ (total lateBy calls).2 ↔ ∃ process ∈ calls, obj ∈ process.state.late := by
  have split := total_hom (AddMonoidHom.snd (Multiset Obj) (Multiset Obj)) lateBy calls
  rw [AddMonoidHom.coe_snd] at split
  rw [split]
  exact mem_total

variable {maxMessageSize maxStorageSize : UInt32} {msecsToJiffies : UInt32 → Nat} {delayWq : Bool}

theorem device_late {config}
    (reached : Reaches device ReadsLast (installed maxMessageSize maxStorageSize msecsToJiffies delayWq) config) :
    LateLive config.shared (total lateBy config.calls).1 (total lateBy config.calls).2 ∧
      ∀ process ∈ config.calls, ∀ pos ∈ process.state.cursor, pos ∈ config.shared.dev.messageList := by
  refine reached.outline lateBy (fun s shares => LateLive s shares.1 shares.2)
    (fun s process => ∀ pos ∈ process.state.cursor, pos ∈ s.dev.messageList) ⟨?_, by simp [installed]⟩ ?_ ?_ ?_
  · intro obj member
    simp [installed, State.installed, State.workLate] at member
  · intro _ request
    cases request <;> exact ⟨rfl, fun _ none => by cases none⟩
  · intro s left right request call outcome s' call' reached permitted live cursor cursors moved
    have known := device_owned reached
    rw [total_middle] at known
    have step := move_cases moved
    refine ⟨?_, ?_, ?_⟩
    · cases step with
      | write step => exact write_late live known (drafts_le_owned _) step
      | @read pc s' pc' step =>
        refine read_late live ?_ step
        intro obj frees
        have unused := (permitted _ (mover_move _ _ _ _ _)).2 obj frees
        rintro (accessed | accessed)
        · obtain ⟨process, member, accessed⟩ := mem_late.mp (by rwa [← zero_add (total lateBy (left ++ right)).2])
          exact unused (.inl ⟨process, mem_of_mem_others member, accessed⟩)
        · exact unused (.inr accessed)
      | setSendDelay step => cases step <;> exact live.of_le (le_refl _) (le_refl _) rfl rfl (Nat.le_refl _)
      | revoke step => exact flush_late live step
    · intro pos found
      cases step with
      | write step => exact write_cursor step found
      | _ => cases found
    · intro process member pos found
      apply move_keeps_published step (cursors process member pos found)
      rintro length rfl
      intro last
      exact (permitted _ (mover_move _ _ _ _ _)).1 pos last process (mem_of_mem_others member) found
  · intro s calls event s' reached _ live cursors happened
    have step := environment_cases happened
    exact ⟨event_late live (device_owned reached) (drafts_le_owned _) step,
      fun process member pos found => event_keeps_published step (cursors process member pos found)⟩

private theorem of_mem_nodes {messages : List Message} {obj : Obj} (member : obj ∈ nodes messages) :
    ∃ msg ∈ messages, obj ∈ msg.objects := by
  obtain ⟨msg, listed, rfl⟩ := List.mem_map.mp member
  exact ⟨msg, listed, List.mem_cons_self⟩

/-- A call accesses what it owns, what is listed, the node its traversal stands on
and the buffer it still prints. -/
theorem touches_cases {s : State} {call : Call} {obj : Obj} (touched : obj ∈ call.touches s) :
    obj ∈ call.owned ∨ (∃ msg ∈ s.listed, obj ∈ msg.objects) ∨ (∃ pos ∈ call.cursor, obj ∈ pos.objects) ∨
      obj ∈ call.late := by
  have pending : obj ∈ nodes s.dev.pendingList → ∃ msg ∈ s.listed, obj ∈ msg.objects := by
    intro member
    obtain ⟨msg, listed, inside⟩ := of_mem_nodes member
    exact ⟨msg, by simp [State.listed, listed], inside⟩
  have published : obj ∈ nodes s.dev.messageList → ∃ msg ∈ s.listed, obj ∈ msg.objects := by
    intro member
    obtain ⟨msg, listed, inside⟩ := of_mem_nodes member
    exact ⟨msg, by simp [State.listed, listed], inside⟩
  cases call with
  | write pc =>
    cases pc with
    | critical buf length id =>
      simp only [Call.touches, WritePc.touches, List.mem_cons] at touched
      rcases touched with rfl | rfl | node
      · exact .inl (by simp [Call.owned, WritePc.draft])
      · exact .inl (by simp [Call.owned, WritePc.draft])
      · exact .inr (.inl (published node))
    | pend msg =>
      rcases List.mem_cons.mp touched with rfl | node
      · exact .inl (by simp [Call.owned, WritePc.draft, Message.objects])
      · exact .inr (.inl (pending node))
    | traverse msg pos =>
      cases pos with
      | none => cases touched
      | some pos => exact .inr (.inr (.inl ⟨pos, rfl, touched⟩))
    | print msg => exact .inr (.inr (.inr touched))
    | msgFail id ret => exact .inl (List.mem_append_left _ (by simp_all [Call.touches, WritePc.touches, WritePc.draft]))
    | dataFail id ret => exact .inl (List.mem_append_left _ touched)
    | _ => cases touched
  | read pc =>
    cases pc with
    | entry length => exact .inr (.inl (published touched))
    | _ => exact .inl touched
  | setSendDelay pc => cases touched
  | revoke pc =>
    cases pc with
    | splice => exact .inr (.inl ((List.mem_append.mp touched).elim pending published))
    | _ => cases touched

theorem workTouches_cases {s : State} {obj : Obj} (touched : obj ∈ s.workTouches) :
    (∃ msg ∈ s.listed, obj ∈ msg.objects) ∨ obj ∈ s.workLate := by
  unfold State.workTouches at touched
  split at touched
  · obtain ⟨msg, listed, inside⟩ := of_mem_nodes touched
    exact .inl ⟨msg, by simp [State.listed, listed], inside⟩
  next work msg running =>
    rcases List.mem_cons.mp touched with rfl | touched
    · exact .inl ⟨msg, by simp [State.listed, Workqueue.carried, carriedBy, running], List.mem_cons_self⟩
    · obtain ⟨other, listed, inside⟩ := of_mem_nodes touched
      exact .inl ⟨other, by simp [State.listed, listed], inside⟩
  next work msg running =>
    right
    simpa only [State.workLate, running] using touched
  · cases touched

/-- If reads come last, nothing is used after it was freed. -/
theorem uses_live {config}
    (reached : Reaches device ReadsLast (installed maxMessageSize maxStorageSize msecsToJiffies delayWq) config) :
    UsesLive config := by
  have known := device_owned reached
  obtain ⟨live, cursors⟩ := device_late reached
  refine ⟨?_, ?_, cursors, known.freed_nodup⟩
  · intro process member obj touched
    rcases touches_cases touched with mine | ⟨msg, listed, inside⟩ | ⟨pos, cursor, inside⟩ | accessed
    · exact owned_not_freed reached member mine
    · exact (known.listed listed inside).2.1
    · have listed := cursors process member pos cursor
      exact (known.listed (by simp [State.listed, listed]) inside).2.1
    · exact (live obj (.inl (mem_late.mpr ⟨process, member, accessed⟩))).unfreed
  · intro obj touched
    rcases workTouches_cases touched with ⟨msg, listed, inside⟩ | accessed
    · exact (known.listed listed inside).2.1
    · exact (live obj (.inr accessed)).unfreed

/-- A write publishes a message, and a read frees it before the write prints it. -/
def freedRun : List DeviceAct :=
  [.enter (.write letters 3)] ++ steps 0 4 ++ [.enter (.read 8)] ++ steps 1 5 ++ steps 0 2

theorem uses_freed : ¬ ∀ config, Reaches device Anything sampleDevice config → UsesLive config := by
  intro safe
  have enabled : (run device Anything sampleDevice freedRun).isSome := by decide
  have wrong : ¬ UsesLive ((run device Anything sampleDevice freedRun).get enabled) := by decide +revert
  exact wrong (safe _ (reaches_get enabled))

/-- The same calls, with the write printing first. -/
def printedRun : List DeviceAct :=
  [.enter (.write letters 3)] ++ steps 0 8 ++ [.enter (.read 8)] ++ steps 1 5

theorem uses_live_printedRun : ∃ config, run device ReadsLast sampleDevice printedRun = some config ∧
    UsesLive config ∧ config.shared.freed = [.data 0, .message 0] := by
  have enabled : (run device ReadsLast sampleDevice printedRun).isSome := by decide
  exact ⟨_, (Option.some_get enabled).symm, uses_live (reaches_get enabled), rfl⟩

end Tsm
