import Tsm.Proofs.Ownership

/-! The works in `delay_list`. A work is unlinked by the flush that executes it or
by itself, and it tells which from `FLUSHING_BIT`. It is freed too early, or
unlinked twice, when the bit and the list disagree; never otherwise. -/

namespace Tsm
open Interleaving KernelList

/-- The works a flush is about to unlink or to flush, its saved cursor included. -/
def Call.ahead : Call → List Nat
  | .revoke (.visit pos q) | .revoke (.flush pos q) => pos :: q.toList
  | .revoke (.wait _ q) | .revoke (.next q) => q.toList
  | _ => []

/-- No work is freed that is listed or ahead of a flush, and none is unlinked twice. -/
def WorksLive (config : DeviceConfig) : Prop :=
  (∀ work ∈ config.shared.dev.delayList, .work work ∉ config.shared.freed) ∧
    config.shared.history.unlinked.Nodup ∧
    ∀ process ∈ config.calls, ∀ work ∈ process.state.ahead, .work work ∉ config.shared.freed

instance (config : DeviceConfig) : Decidable (WorksLive config) := inferInstanceAs (Decidable (_ ∧ _ ∧ _))

def Flushing (s : State) : Prop := checkBit s.dev.flags FLUSHING_BIT = true

instance (s : State) : Decidable (Flushing s) := inferInstanceAs (Decidable (_ = _))

/-- A work that finds the bit set was unlinked already, a work that unlinks itself
is linked, and neither is ahead of a flush. -/
def WorkAgrees (config : DeviceConfig) : Work × WorkPc → Prop
  | (work, .testFlag) => Flushing config.shared →
    work.id ∉ config.shared.dev.delayList ∧ ∀ process ∈ config.calls, work.id ∉ process.state.ahead
  | (work, .listDel) =>
    work.id ∈ config.shared.dev.delayList ∧ ∀ process ∈ config.calls, work.id ∉ process.state.ahead
  | _ => True

instance (config : DeviceConfig) : (executed : Work × WorkPc) → Decidable (WorkAgrees config executed)
  | (_, .testFlag) => inferInstanceAs (Decidable (_ → _ ∧ _))
  | (_, .listDel) => inferInstanceAs (Decidable (_ ∧ _))
  | (_, .pop) | (_, .insert _) | (_, .print _) | (_, .free) => isTrue trivial

def WorksAgree (config : DeviceConfig) : DeviceAct → Prop
  | .environment .worker => ∀ executed ∈ config.shared.wq.running, WorkAgrees config executed
  | _ => True

instance (config : DeviceConfig) : (act : DeviceAct) → Decidable (WorksAgree config act)
  | .environment .worker => inferInstanceAs (Decidable (∀ executed ∈ _, _))
  | .environment .tick | .environment (.maxMessageSize _) | .environment (.maxStorageSize _)
  | .environment (.expire _) | .enter _ | .move _ _ => isTrue trivial

/-! The invariant. -/

def unfinishedBy : Option (Work × WorkPc) → List Nat
  | none | some (_, .free) => []
  | some (work, _) => [work.id]

/-- The works that have not decided to free themselves. -/
def Workqueue.unfinished (wq : Workqueue) : List Nat := wq.waiting ++ unfinishedBy wq.running

theorem Workqueue.unfinished_works {wq : Workqueue} {work : Nat} (member : work ∈ wq.unfinished) :
    work ∈ wq.works := by
  rcases List.mem_append.mp member with member | member
  · exact List.mem_append_left _ member
  · apply List.mem_append_right _
    unfold unfinishedBy at member
    split at member
    · cases member
    · cases member
    next running => simpa [running] using member

/-- What holds whoever holds `wq_sem`. -/
structure Linked (delayList unlinked : List Nat) (wq : Workqueue) (freed : List Obj) : Prop where
  distinct : (delayList ++ unlinked).Nodup
  unfinished : ∀ work ∈ delayList, work ∈ wq.unfinished
  known : ∀ work ∈ unlinked, work ∈ wq.works ∨ .work work ∈ freed

def LinkedUp (s : State) : Prop :=
  Linked s.dev.delayList s.history.unlinked s.wq s.freed ∧ (s.dev.wqSem ≠ 0 → ¬ Flushing s)

/-- What a call knows while it holds `wq_sem`. -/
def Asserts (s : State) : Call → Prop
  | .write (.queueWork _ _) | .write (.upWq _) | .revoke .upWq => ¬ Flushing s
  | .write (.listAdd _ work) =>
    ¬ Flushing s ∧ work ∉ s.dev.delayList ∧ work ∉ s.history.unlinked ∧ work ∈ s.wq.unfinished
  | .revoke (.visit pos q) => pos ∈ s.dev.delayList ∧ ∀ next ∈ q, next ∈ s.dev.delayList ∧ next ≠ pos
  | .revoke (.flush pos q) => pos ∈ s.wq.unfinished ∧ ∀ next ∈ q, next ∈ s.dev.delayList
  | .revoke (.wait _ q) | .revoke (.next q) => ∀ next ∈ q, next ∈ s.dev.delayList
  | _ => True

theorem asserts_outside {s : State} {call : Call} (outside : call.inside = 0) : Asserts s call := by
  rcases call with pc | pc | pc | pc
  · cases pc <;> trivial
  · trivial
  · trivial
  · cases pc <;> trivial

section Steps
variable {s s' : State} {delayList unlinked : List Nat} {wq wq' : Workqueue} {freed freed' : List Obj}

theorem Linked.mono (linked : Linked delayList unlinked wq freed) (unfinished : wq.unfinished ⊆ wq'.unfinished)
    (works : wq.works ⊆ wq'.works) (freed : freed ⊆ freed') : Linked delayList unlinked wq' freed' :=
  ⟨linked.distinct, fun work member => unfinished (linked.unfinished work member),
    fun work member => (linked.known work member).imp (fun known => works known) fun known => freed known⟩

theorem Linked.frees (linked : Linked delayList unlinked wq freed) (obj : Obj) :
    Linked delayList unlinked wq (freed ++ [obj]) :=
  linked.mono (List.Subset.refl _) (List.Subset.refl _) (List.subset_append_left _ _)

/-- No work leaves the workqueue, and its thread goes on with the same. -/
theorem Linked.of_waiting (linked : Linked delayList unlinked wq freed) (waiting : wq.waiting ⊆ wq'.waiting)
    (running : wq'.running = wq.running) : Linked delayList unlinked wq' freed := by
  have more : ∀ others : List Nat, wq.waiting ++ others ⊆ wq'.waiting ++ others := fun others =>
    List.append_subset.mpr ⟨List.subset_append_of_subset_left _ waiting, List.subset_append_right _ _⟩
  refine linked.mono ?_ ?_ (List.Subset.refl _)
  · unfold Workqueue.unfinished
    rw [running]
    exact more _
  · unfold Workqueue.works
    rw [running]
    exact more _

theorem unfinished_cases {work pc} (running : wq.running = some (work, pc)) {other : Nat}
    (member : other ∈ wq.unfinished) : other ∈ wq.waiting ∨ other = work.id := by
  rcases List.mem_append.mp member with waiting | member
  · exact .inl waiting
  · rw [running] at member
    unfold unfinishedBy at member
    split at member
    · cases member
    · cases member
    next same =>
      cases same
      exact .inr (List.mem_singleton.mp member)

theorem Linked.finish {work pc} (linked : Linked delayList unlinked wq freed) (running : wq.running = some (work, pc))
    (unlisted : work.id ∉ delayList) :
    Linked delayList unlinked { wq with running := some (work, .free) } freed := by
  refine ⟨linked.distinct, ?_, ?_⟩
  · intro other listed
    rcases unfinished_cases running (linked.unfinished other listed) with waiting | rfl
    · exact List.mem_append_left _ waiting
    · exact absurd listed unlisted
  · simpa [Workqueue.works, Workqueue.waiting, running] using linked.known

theorem Linked.free {work} (linked : Linked delayList unlinked wq freed) (running : wq.running = some (work, .free)) :
    Linked delayList unlinked { wq with running := none } (freed ++ [.work work.id]) := by
  refine ⟨linked.distinct, ?_, ?_⟩
  · simpa [Workqueue.unfinished, Workqueue.waiting, unfinishedBy, running] using linked.unfinished
  · intro other once
    rcases linked.known other once with known | known
    · rcases List.mem_append.mp known with waiting | executed
      · exact .inl (List.mem_append_left _ waiting)
      · have same : other = work.id := by simpa [running] using executed
        exact .inr (by simp [same])
    · exact .inr (List.mem_append_left _ known)

theorem Linked.unlink {work : Nat} (linked : Linked delayList unlinked wq freed) (member : work ∈ delayList) :
    Linked (listDel work delayList) (unlinked ++ [work]) wq freed := by
  refine ⟨?_, fun other listed => linked.unfinished other (List.mem_of_mem_erase listed), ?_⟩
  · have moved : (listDel work delayList ++ (unlinked ++ [work])).Perm (delayList ++ unlinked) := by
      rw [← List.append_assoc]
      apply (List.perm_append_singleton _ _).trans
      exact (List.perm_cons_erase member).symm.append_right unlinked
    exact moved.nodup_iff.mpr linked.distinct
  · intro other listed
    rcases List.mem_append.mp listed with listed | listed
    · exact linked.known other listed
    · rw [List.mem_singleton.mp listed]
      exact .inl (Workqueue.unfinished_works (linked.unfinished work member))

theorem Linked.nodup (linked : Linked delayList unlinked wq freed) : delayList.Nodup :=
  (List.nodup_append.mp linked.distinct).1

theorem Linked.link {work : Nat} (linked : Linked delayList unlinked wq freed) (new : work ∉ delayList)
    (once : work ∉ unlinked) (unfinished : work ∈ wq.unfinished) :
    Linked (listAdd work delayList) unlinked wq freed := by
  refine ⟨?_, ?_, linked.known⟩
  · exact List.nodup_cons.mpr ⟨by simp [new, once], linked.distinct⟩
  · intro other listed
    rcases List.mem_cons.mp listed with rfl | listed
    · exact unfinished
    · exact linked.unfinished other listed

theorem write_section {owned : Multiset Obj} {outcome pc pc'} (known : Owned s (ownedBy (.write pc) + owned))
    (linked : LinkedUp s) (asserts : Asserts s (.write pc)) (step : WriteStep outcome s pc s' pc') :
    s'.dev.wqSem + (Call.write pc').inside = s.dev.wqSem + (Call.write pc).inside ∧ LinkedUp s' ∧
      Asserts s' (.write pc') := by
  obtain ⟨linked, up⟩ := linked
  cases step with
  | downWq positive =>
    refine ⟨?_, ⟨linked, fun _ => up positive⟩, up positive⟩
    simp only [Call.inside]
    omega
  | @queueWork msg work =>
    have mine : .work work ∈ ownedBy (.write (.queueWork msg work)) + owned :=
      Multiset.mem_add.mpr (.inl (by simp [ownedBy, Call.owned, WritePc.unqueued]))
    have unknown : work ∉ s.wq.works := fun member => (known.works member).1 mine
    have waiting := (s.wq.waiting_queueDelayedWork work s.jiffies s.dev.delay).symm.subset
    have running := s.wq.running_queueDelayedWork work s.jiffies s.dev.delay
    have more : s.wq.waiting ⊆ (s.wq.queueDelayedWork work s.jiffies s.dev.delay).waiting :=
      fun other member => waiting (List.mem_cons_of_mem _ member)
    refine ⟨rfl, ⟨linked.of_waiting more running, up⟩, asserts, ?_, ?_, ?_⟩
    · exact fun listed => unknown (Workqueue.unfinished_works (linked.unfinished work listed))
    · intro once
      exact (linked.known work once).elim unknown (known.not_freed mine)
    · exact List.mem_append_left _ (waiting List.mem_cons_self)
  | listAdd =>
    obtain ⟨calm, new, once, unfinished⟩ := asserts
    exact ⟨rfl, ⟨linked.link new once unfinished, up⟩, calm⟩
  | upWq => exact ⟨rfl, ⟨linked, fun _ => asserts⟩, trivial⟩
  | msgFail | dataFail => exact ⟨rfl, ⟨linked.frees _, up⟩, trivial⟩
  | _ => exact ⟨rfl, ⟨linked, up⟩, trivial⟩

theorem flush_section {pc pc'} (exclusive : s.dev.wqSem + (Call.revoke pc).inside ≤ 1) (linked : LinkedUp s)
    (asserts : Asserts s (.revoke pc)) (step : FlushStep s pc s' pc') :
    s'.dev.wqSem + (Call.revoke pc').inside = s.dev.wqSem + (Call.revoke pc).inside ∧ LinkedUp s' ∧
      Asserts s' (.revoke pc') := by
  obtain ⟨linked, up⟩ := linked
  cases step with
  | downWq positive =>
    refine ⟨?_, ⟨linked, fun _ => up positive⟩, trivial⟩
    simp only [Call.inside]
    omega
  | setFlushing =>
    have down : s.dev.wqSem = 0 := by
      simp only [Call.inside] at exclusive
      omega
    exact ⟨rfl, ⟨linked, fun positive => absurd down positive⟩, trivial⟩
  | first last =>
    refine ⟨rfl, ⟨linked, up⟩, List.mem_of_getLast? last, ?_⟩
    exact fun next found => ⟨listPrev_mem found, listPrev_ne linked.nodup found⟩
  | @visit pos q =>
    obtain ⟨listed, saved⟩ := asserts
    refine ⟨rfl, ⟨linked.unlink listed, up⟩, linked.unfinished pos listed, ?_⟩
    exact fun next found => (List.mem_erase_of_ne (saved next found).2).mpr (saved next found).1
  | @flush pos q =>
    have waiting := (s.wq.waiting_flushDelayedWork pos).symm.subset
    exact ⟨rfl, ⟨linked.of_waiting waiting (s.wq.running_flushDelayedWork pos), up⟩, asserts.2⟩
  | wait finished => exact ⟨rfl, ⟨linked, up⟩, asserts⟩
  | @next pos =>
    refine ⟨rfl, ⟨linked, up⟩, asserts pos rfl, ?_⟩
    exact fun next found => ⟨listPrev_mem found, listPrev_ne linked.nodup found⟩
  | clearFlushing =>
    have calm := Bool.eq_false_iff.mp (checkBit_clearBit s.dev.flags FLUSHING_BIT)
    exact ⟨rfl, ⟨linked, fun _ => calm⟩, calm⟩
  | upWq => exact ⟨rfl, ⟨linked, fun _ => asserts⟩, trivial⟩
  | _ => exact ⟨rfl, ⟨linked, up⟩, trivial⟩

theorem Asserts.of_ahead {call : Call} (asserts : Asserts s call) {work : Nat} (ahead : work ∈ call.ahead) :
    work ∈ s.dev.delayList ∨ work ∈ s.wq.unfinished := by
  rcases call with pc | pc | pc | pc
  · cases ahead
  · cases ahead
  · cases ahead
  · cases pc with
    | visit pos q =>
      rcases List.mem_cons.mp ahead with rfl | saved
      · exact .inl asserts.1
      · exact .inl (asserts.2 work (by simpa using saved)).1
    | flush pos q =>
      -- the flush has unlinked this one, and has still to wait for it
      rcases List.mem_cons.mp ahead with rfl | saved
      · exact .inr asserts.1
      · exact .inl (asserts.2 work (by simpa using saved))
    | wait pos q => exact .inl (asserts work (by simpa [Call.ahead] using ahead))
    | next q => exact .inl (asserts work (by simpa [Call.ahead] using ahead))
    | _ => cases ahead

/-- What a call asserts survives a step that leaves the works ahead of it alone. -/
theorem Asserts.keep {call : Call} (asserts : Asserts s call) (flags : s'.dev.flags = s.dev.flags)
    (listed : ∀ work ∈ call.ahead, work ∈ s.dev.delayList → work ∈ s'.dev.delayList)
    (fewer : s'.dev.delayList ⊆ s.dev.delayList)
    (once : ∀ work ∈ s'.history.unlinked, work ∈ s.history.unlinked ∨ work ∈ s.dev.delayList)
    (unfinished : ∀ work ∈ s.wq.unfinished,
      work ∈ s'.wq.unfinished ∨ work ∉ call.ahead ∧ (Flushing s ∨ work ∈ s.dev.delayList)) : Asserts s' call := by
  have calmer : ¬ Flushing s → ¬ Flushing s' := by
    unfold Flushing
    rw [flags]
    exact id
  rcases call with pc | pc | pc | pc
  · cases pc with
    | queueWork msg work | upWq msg => exact calmer asserts
    | listAdd msg work =>
      obtain ⟨calm, new, unused, running⟩ := asserts
      refine ⟨calmer calm, fun member => new (fewer member), ?_, ?_⟩
      · exact fun member => (once work member).elim unused new
      · exact (unfinished work running).resolve_right fun gone => gone.2.elim calm new
    | _ => trivial
  · trivial
  · trivial
  · cases pc with
    | visit pos q =>
      refine ⟨listed pos List.mem_cons_self asserts.1, fun next found => ⟨?_, (asserts.2 next found).2⟩⟩
      exact listed next (by simp [Call.ahead, Option.mem_def.mp found]) (asserts.2 next found).1
    | flush pos q =>
      refine ⟨(unfinished pos asserts.1).resolve_right fun gone => gone.1 List.mem_cons_self, fun next found => ?_⟩
      exact listed next (by simp [Call.ahead, Option.mem_def.mp found]) (asserts.2 next found)
    | wait pos q =>
      exact fun next found => listed next (by simp [Call.ahead, Option.mem_def.mp found]) (asserts next found)
    | next q =>
      exact fun next found => listed next (by simp [Call.ahead, Option.mem_def.mp found]) (asserts next found)
    | upWq => exact calmer asserts
    | _ => trivial

/-- A step that changes neither the list nor the bit, and finishes no work. -/
theorem Asserts.go_on {call : Call} (asserts : Asserts s call) (flags : s'.dev.flags = s.dev.flags)
    (delayList : s'.dev.delayList = s.dev.delayList) (unlinked : s'.history.unlinked = s.history.unlinked)
    (unfinished : s.wq.unfinished ⊆ s'.wq.unfinished) : Asserts s' call := by
  refine asserts.keep flags ?_ ?_ ?_ fun work running => .inl (unfinished running)
  · exact fun work _ listed => delayList ▸ listed
  · exact fun work listed => delayList ▸ listed
  · exact fun work once => .inl (unlinked ▸ once)

theorem asserts_stable {outcome call call' other} (step : MoveStep outcome s call s' call')
    (outside : call.inside = 0) (asserts : Asserts s other) : Asserts s' other := by
  cases step with
  | write step => cases step <;> first | exact asserts.go_on rfl rfl rfl (List.Subset.refl _) | cases outside
  | read step => cases step <;> exact asserts.go_on rfl rfl rfl (List.Subset.refl _)
  | setSendDelay step => cases step <;> exact asserts.go_on rfl rfl rfl (List.Subset.refl _)
  | revoke step => cases step <;> first | exact asserts.go_on rfl rfl rfl (List.Subset.refl _) | cases outside

theorem worker_section {calls : List (Process Request Call)} (linked : LinkedUp s)
    (agree : WorksAgree ⟨s, calls⟩ (.environment .worker)) (asserts : ∀ process ∈ calls, Asserts s process.state)
    (step : WorkerStep s s') :
    s'.dev.wqSem = s.dev.wqSem ∧ LinkedUp s' ∧ ∀ process ∈ calls, Asserts s' process.state := by
  obtain ⟨linked, up⟩ := linked
  cases step with
  | @start work rest idle queued =>
    have same : ({ s.wq with queue := rest, running := some (work, .pop) } : Workqueue).unfinished.Perm
        s.wq.unfinished := by
      simp only [Workqueue.unfinished, Workqueue.waiting, unfinishedBy, idle, queued, List.map_cons, List.append_nil,
        List.append_assoc]
      exact (List.perm_append_singleton work.id (rest.map Work.id)).append_left _
    have works : ({ s.wq with queue := rest, running := some (work, .pop) } : Workqueue).works.Perm s.wq.works := by
      simp only [Workqueue.works, Workqueue.waiting, idle, queued, List.map_cons, List.append_assoc,
        Option.toList_none, Option.toList_some, List.map_nil, List.append_nil]
      exact (List.perm_append_singleton work.id (rest.map Work.id)).append_left _
    exact ⟨rfl, ⟨linked.mono same.symm.subset works.symm.subset (List.Subset.refl _), up⟩,
      fun process member => (asserts process member).go_on rfl rfl rfl same.symm.subset⟩
  | @flushing work running flag =>
    obtain ⟨unlisted, behind⟩ := agree _ running flag
    refine ⟨rfl, ⟨linked.finish running unlisted, up⟩, fun process member => ?_⟩
    refine (asserts process member).keep rfl (fun _ _ listed => listed) (fun _ listed => listed)
      (fun _ once => .inl once) fun other unfinished => ?_
    rcases unfinished_cases running unfinished with waiting | rfl
    · exact .inl (List.mem_append_left _ waiting)
    · exact .inr ⟨behind process member, .inl flag⟩
  | @listDel work running =>
    obtain ⟨listed, behind⟩ := agree _ running
    have unlisted : work.id ∉ listDel work.id s.dev.delayList := linked.nodup.not_mem_erase
    refine ⟨rfl, ⟨(linked.unlink listed).finish running unlisted, up⟩, fun process member => ?_⟩
    refine (asserts process member).keep rfl ?_ (fun _ kept => List.mem_of_mem_erase kept) ?_ ?_
    · intro other ahead listed
      refine (List.mem_erase_of_ne ?_).mpr listed
      rintro rfl
      exact behind process member ahead
    · intro other once
      rcases List.mem_append.mp once with once | once
      · exact .inl once
      · exact .inr (List.mem_singleton.mp once ▸ listed)
    · intro other unfinished
      rcases unfinished_cases running unfinished with waiting | rfl
      · exact .inl (List.mem_append_left _ waiting)
      · exact .inr ⟨behind process member, .inr listed⟩
  | @free work running =>
    refine ⟨rfl, ⟨linked.free running, up⟩, fun process member => (asserts process member).go_on rfl rfl rfl ?_⟩
    simp [Workqueue.unfinished, Workqueue.waiting, unfinishedBy, running]
  | popEmpty running empty | pop running last | insert running | print running | notFlushing running flag =>
    refine ⟨rfl, ⟨linked.mono ?_ ?_ (List.Subset.refl _), up⟩,
      fun process member => (asserts process member).go_on rfl rfl rfl ?_⟩
    all_goals simp [Workqueue.unfinished, Workqueue.works, Workqueue.waiting, unfinishedBy, running]

theorem event_section {event} {calls : List (Process Request Call)} (linked : LinkedUp s)
    (agree : WorksAgree ⟨s, calls⟩ (.environment event)) (asserts : ∀ process ∈ calls, Asserts s process.state)
    (step : EventStep s event s') :
    s'.dev.wqSem = s.dev.wqSem ∧ LinkedUp s' ∧ ∀ process ∈ calls, Asserts s' process.state := by
  cases step with
  | @expire work armed expired =>
    have waiting := (Workqueue.waiting_expire armed).symm.subset
    refine ⟨rfl, ⟨linked.1.of_waiting waiting rfl, linked.2⟩,
      fun process member => (asserts process member).go_on rfl rfl rfl ?_⟩
    exact List.append_subset.mpr ⟨List.subset_append_of_subset_left _ waiting, List.subset_append_right _ _⟩
  | worker step => exact worker_section linked agree asserts step
  | _ =>
    exact ⟨rfl, linked, fun process member => (asserts process member).go_on rfl rfl rfl (List.Subset.refl _)⟩

end Steps

variable {maxMessageSize maxStorageSize : UInt32} {msecsToJiffies : UInt32 → Nat} {delayWq : Bool}

theorem device_linked {config}
    (reached : Reaches device WorksAgree (installed maxMessageSize maxStorageSize msecsToJiffies delayWq) config) :
    LinkedUp config.shared ∧ ∀ process ∈ config.calls, Asserts config.shared process.state := by
  refine reached.semaphore (fun s => s.dev.wqSem) Call.inside LinkedUp Asserts (fun _ _ => asserts_outside)
    ⟨rfl, rfl, ⟨?_, ?_⟩⟩ ?_ ?_ ?_
  · exact ⟨List.nodup_nil, fun _ listed => (List.not_mem_nil listed).elim, fun _ once => (List.not_mem_nil once).elim⟩
  · intro _ flushing
    exact absurd (show checkBit 0 FLUSHING_BIT = true from flushing) (by decide)
  · intro request
    cases request <;> rfl
  · intro s left right request call outcome s' call' reached permitted exclusive linked asserts moved
    have step := move_cases moved
    have stable : call.inside = 0 → call'.inside = 0 → ∀ other, Asserts s other → Asserts s' other :=
      fun outside _ other => asserts_stable step outside
    have known := device_owned reached
    rw [total_middle] at known
    suffices s'.dev.wqSem + call'.inside = s.dev.wqSem + call.inside ∧ LinkedUp s' ∧ Asserts s' call' by
      exact ⟨this.1, this.2.1, this.2.2, stable⟩
    cases step with
    | write step => exact write_section known linked asserts step
    | read step =>
      cases step with
      | freeData | freeMsg => exact ⟨rfl, ⟨linked.1.frees _, linked.2⟩, trivial⟩
      | _ => exact ⟨rfl, linked, trivial⟩
    | setSendDelay step => cases step <;> exact ⟨rfl, linked, trivial⟩
    | revoke step => exact flush_section exclusive linked asserts step
  · intro s calls event s' _ permitted linked asserts happened
    exact event_section linked permitted asserts (environment_cases happened)

/-- If the works and the flushes agree, no work is freed or unlinked behind the
back of the other. -/
theorem works_live {config}
    (reached : Reaches device WorksAgree (installed maxMessageSize maxStorageSize msecsToJiffies delayWq) config) :
    WorksLive config := by
  obtain ⟨⟨linked, -⟩, asserts⟩ := device_linked reached
  have unfreed : ∀ work ∈ config.shared.wq.unfinished, .work work ∉ config.shared.freed :=
    fun work unfinished => ((device_owned reached).works (Workqueue.unfinished_works unfinished)).2
  have unfreedList := fun work listed => unfreed work (linked.unfinished work listed)
  refine ⟨unfreedList, (List.nodup_append.mp linked.distinct).2.1, ?_⟩
  intro process member work ahead
  rcases (asserts process member).of_ahead ahead with listed | unfinished
  · exact unfreedList work listed
  · exact unfreed work unfinished

/-- A work that fires before its writer has listed it. -/
def firedRun : List DeviceAct :=
  [.enter (.setSendDelay 1), proceed 0, .enter (.write letters 3)] ++ steps 1 8 ++
    [.environment .tick, .environment (.expire ⟨1, 1⟩)] ++ List.replicate 7 (.environment .worker) ++ steps 1 1

theorem works_freed : ¬ ∀ config, Reaches device Anything sampleDevice config → WorksLive config := by
  intro safe
  have enabled : (run device Anything sampleDevice firedRun).isSome := by decide
  have wrong : ¬ WorksLive ((run device Anything sampleDevice firedRun).get enabled) := by decide +revert
  exact wrong (safe _ (reaches_get enabled))

/-- Two works: one fires once it is listed, the other is flushed. -/
def flushedRun : List DeviceAct :=
  [.enter (.setSendDelay 1), proceed 0, .enter (.write letters 3)] ++ steps 1 11 ++
    [.enter (.write letters 4)] ++ steps 2 11 ++
    [.environment .tick, .environment (.expire ⟨1, 1⟩)] ++ List.replicate 7 (.environment .worker) ++
    [.enter .revokeDelayedMessages] ++ steps 3 7 ++ List.replicate 4 (.environment .worker) ++ steps 3 4

theorem works_live_flushedRun : ∃ config, run device WorksAgree sampleDevice flushedRun = some config ∧
    WorksLive config ∧ config.shared.history.unlinked = [1, 3] ∧ config.shared.freed = [.work 1, .work 3] := by
  have enabled : (run device WorksAgree sampleDevice flushedRun).isSome := by decide
  exact ⟨_, (Option.some_get enabled).symm, works_live (reaches_get enabled), rfl, rfl⟩

end Tsm
