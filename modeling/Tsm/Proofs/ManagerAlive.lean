import Tsm.Proofs.Teardown

/-! Whether the manager is there when it is used. Nobody looks at the result of
`init_group_devs`, so that all depends on the allocations of the first install. -/

namespace Tsm.Manager
open Interleaving Sequential

/-- A call of `install_group`, with the outcomes of its allocations. -/
structure InstallArgs where
  outcome : Outcome
  groupDesc : Option UInt8
  stack : Stack

namespace InstallArgs

def Runs (args : InstallArgs) (s s' : State) (pc : InstallPc) : Prop :=
  Alone installGroup (fun _ => args.outcome) s (.entry args.groupDesc args.stack) s' pc

/-- The allocations of `init_group_devs` succeed, if it is called. -/
def AllocatesManager (args : InstallArgs) : Prop := args.outcome.groupDevs = true ∧ args.outcome.groupDevsList = true

end InstallArgs

/-- The call has returned, or was killed. -/
def InstallPc.ended : InstallPc → Bool
  | .done _ | .oops => true
  | _ => false

/-- Calls one after the other, from the load of the module. -/
inductive InTurn : List InstallArgs → State → Prop where
  | loaded : InTurn [] .loaded
  | call {calls s args s' pc} (earlier : InTurn calls s) (ran : args.Runs s s' pc) (ended : pc.ended = true) :
      InTurn (calls ++ [args]) s'

/-- What `group_free` frees of a device. -/
def GroupDev.objects (gd : GroupDev) : List Obj :=
  parts gd.id (Part.order.erase .deviceName) ++ if gd.delayWq then [.delayWq gd.id] else []

/-- No manager and no part of a device was freed twice. -/
def Unload.FreedOnce (u : Unload) : Prop :=
  u.registry.freedManagers.Nodup ∧ (u.registry.released ++ u.freed.flatMap GroupDev.objects).Nodup

/-- The calls come to an end without an access to a manager that is null or freed. A
call that cannot allocate the manager fails and leaves the next a chance. What the
calls and the exit of the module free they free once, also where it is killed. -/
structure ManagerSafe (calls : List InstallArgs) : Prop where
  ended : ∃ s, InTurn calls s
  used : ∀ earlier args later s s', calls = earlier ++ args :: later → InTurn earlier s → ¬ args.Runs s s' .oops
  failed : ∀ earlier args later s s' pc, calls = earlier ++ args :: later → InTurn earlier s → s.groupDevs = none →
    args.groupDesc.isSome → ¬ args.AllocatesManager → args.Runs s s' pc → pc.ended = true →
      pc = .done (-1) ∧ ∃ again s'', InstallArgs.Runs again s' s'' (.done 0)
  freed : ∀ s, InTurn calls s → s.freedManagers.Nodup ∧ s.released.Nodup
  unloaded : ∀ s, InTurn calls s →
    (∀ last, ¬ Alone (fun _ : Unit => groupFreeAll) (fun _ => ()) (unload s) .entry last .oops) ∧
      ∃ last final, Exits (unload s) .entry last final ∧
        ((∃ left, final = .done left) ∨ final = .killed ∧ s.groupDevClass = .error) ∧ last.FreedOnce

/-- The first call with a descriptor can allocate the manager and its list. -/
def ManagerAllocated (calls : List InstallArgs) : Prop :=
  ∀ earlier args later, calls = earlier ++ args :: later → (∀ before ∈ earlier, before.groupDesc = none) →
    args.groupDesc.isSome → args.AllocatesManager

theorem ended_stuck {outcome : Outcome} {s : State} {pc : InstallPc} (ended : pc.ended = true) : installGroup outcome s pc = none := by
  cases pc with
  | done ret | oops => rfl
  | _ => cases ended

/-- When the first allocation fails, the same call uses the manager all the same. -/
theorem killed_of_unallocated {outcome : Outcome} {desc : UInt8} (stack : Stack)
    (missing : ¬ (outcome.groupDevs = true ∧ outcome.groupDevsList = true)) :
    ∃ s, Alone installGroup (fun _ => outcome) .loaded (.entry (some desc) stack) s .oops := by
  have unprepared : State.loaded.prepared outcome = .loaded := by
    rw [← Bool.and_eq_true_iff] at missing
    exact if_neg missing
  have null : (State.loaded.prepared outcome).manager = none := by
    rw [unprepared]
    rfl
  obtain ⟨s, killed⟩ := killed_unprepared null
  exact ⟨s, killed stack⟩

/-- Calls without a descriptor do nothing. -/
theorem inTurn_nothing {calls : List InstallArgs} (nothing : ∀ args ∈ calls, args.groupDesc = none) : InTurn calls .loaded := by
  induction calls using List.reverseRecOn with
  | nil => exact .loaded
  | append_singleton calls args ih =>
    have ran : args.Runs .loaded .loaded (.done (-1)) := by
      rw [InstallArgs.Runs, nothing args (by simp)]
      exact .step rfl .here
    exact .call (ih fun args member => nothing args (List.mem_append_left _ member)) ran rfl

/-! Otherwise it is there from then on. -/

/-- Nothing but names and failed devices has been freed. -/
structure Settled (released : List Obj) (fresh : Nat) (devices : List GroupDev) : Prop where
  once : released.Nodup
  earlier : ∀ obj ∈ released, ∃ part id, obj = .part part id ∧ id < fresh
  numbered : ∀ gd ∈ devices, gd.id < fresh
  kept : ∀ gd ∈ devices, ∀ part, .part part gd.id ∈ released → part = .deviceName
  distinct : (devices.map GroupDev.id).Nodup

/-- The manager is there as soon as it was asked for. -/
inductive Alive (calls : List InstallArgs) (s : State) : Prop where
  | loaded (nothing : ∀ args ∈ calls, args.groupDesc = none) (same : s = .loaded)
  | registered {pointer manager devices} (registered : Registered s pointer manager devices)
      (settled : Settled s.released s.fresh devices) (kept : s.freedManagers = [])

section Calls
variable {calls : List InstallArgs} {args : InstallArgs} {s last : State} {pointer : Nat} {manager : GroupDevices}
  {devices : List GroupDev} {released : List Obj} {fresh : Nat} {which : List Part}

theorem mem_parts {id : Nat} {part : Part} {other : Nat} (member : Obj.part part other ∈ parts id which) :
    part ∈ which ∧ other = id := by
  obtain ⟨_, inside, same⟩ := List.mem_map.mp member
  cases same
  exact ⟨inside, rfl⟩

theorem Settled.below (settled : Settled released fresh devices) {part : Part} {id : Nat} (freed : .part part id ∈ released) :
    id < fresh := by
  obtain ⟨_, _, same, below⟩ := settled.earlier _ freed
  cases same
  exact below

/-- Objects of the next device are freed. -/
theorem Settled.lose (settled : Settled released fresh devices) (distinct : which.Nodup) :
    Settled (released ++ parts fresh which) (fresh + 1) devices where
  once := by
    refine List.nodup_append'.mpr ⟨settled.once, parts_nodup distinct, ?_⟩
    intro obj before member
    obtain ⟨part, id, rfl, below⟩ := settled.earlier obj before
    exact Nat.ne_of_lt below (mem_parts member).2
  earlier := by
    intro obj member
    rcases List.mem_append.mp member with before | member
    · obtain ⟨part, id, same, below⟩ := settled.earlier obj before
      exact ⟨part, id, same, Nat.lt_succ_of_lt below⟩
    · obtain ⟨part, _, rfl⟩ := List.mem_map.mp member
      exact ⟨part, fresh, rfl, Nat.lt_succ_self fresh⟩
  numbered gd member := Nat.lt_succ_of_lt (settled.numbered gd member)
  kept := by
    intro gd member part freed
    rcases List.mem_append.mp freed with before | freed
    · exact settled.kept gd member part before
    · exact absurd (mem_parts freed).2 (Nat.ne_of_lt (settled.numbered gd member))
  distinct := settled.distinct

/-- The next device is listed. -/
theorem Settled.list {gd : GroupDev} (settled : Settled released fresh devices) (number : gd.id = fresh) :
    Settled (released ++ parts fresh [.deviceName]) (fresh + 1) (gd :: devices) := by
  obtain ⟨once, earlier, numbered, kept, distinct⟩ := settled.lose (List.nodup_singleton Part.deviceName)
  refine ⟨once, earlier, ?_, ?_, ?_⟩
  · intro other member
    rcases List.mem_cons.mp member with rfl | member
    · rw [number]
      exact Nat.lt_succ_self fresh
    · exact numbered other member
  · intro other member part freed
    rcases List.mem_cons.mp member with rfl | member
    · rcases List.mem_append.mp freed with before | freed
      · exact absurd number (Nat.ne_of_lt (settled.below before))
      · exact List.mem_singleton.mp (mem_parts freed).1
    · exact kept other member part freed
  · rw [List.map_cons, List.nodup_cons, number]
    refine ⟨fun member => ?_, distinct⟩
    obtain ⟨other, inside, same⟩ := List.mem_map.mp member
    exact Nat.ne_of_lt (settled.numbered other inside) same

theorem Settled.leaves (settled : Settled s.released s.fresh devices) (kept : s.freedManagers = [])
    (leaves : Leaves (s.released, s.fresh + 1, s.freedManagers) pointer s.fresh devices last) : Alive calls last := by
  cases leaves with
  | @failed manager which registered distinct same =>
    simp only [State.ledger, Prod.mk.injEq] at same
    obtain ⟨released, fresh, freed⟩ := same
    refine .registered registered ?_ (freed.trans kept)
    rw [released, fresh]
    exact settled.lose distinct
  | built registered number same =>
    simp only [State.ledger, Prod.mk.injEq] at same
    obtain ⟨released, fresh, freed⟩ := same
    refine .registered registered ?_ (freed.trans kept)
    rw [released, fresh]
    exact settled.list number

/-- An install with a manager leaves one. -/
theorem Alive.install {outcome : Outcome} {desc : UInt8} {stack : Stack} (registered : Registered s pointer manager devices)
    (settled : Settled s.released s.fresh devices) (kept : s.freedManagers = []) :
    Alive calls (installAlone outcome s pointer manager devices desc stack).1 := by
  rcases registered.install outcome desc stack with same | leaves
  · rw [same]
    exact .registered registered settled kept
  · exact settled.leaves kept leaves

theorem ManagerAllocated.earlier (allocated : ManagerAllocated (calls ++ [args])) : ManagerAllocated calls := by
  intro earlier other later same
  exact allocated earlier other (later ++ [args]) (by simp [same])

/-- One more call, which returns. -/
theorem Alive.call (alive : Alive calls s) (allocated : ManagerAllocated (calls ++ [args])) :
    ∃ last ret, args.Runs s last (.done ret) ∧ Alive (calls ++ [args]) last := by
  obtain ⟨outcome, groupDesc, stack⟩ := args
  cases groupDesc with
  | none =>
    refine ⟨s, -1, .step rfl .here, ?_⟩
    cases alive with
    | loaded nothing same => exact .loaded (by simpa [or_imp, forall_and] using nothing) same
    | registered registered settled kept => exact .registered registered settled kept
  | some desc =>
    cases alive with
    | loaded nothing same =>
      subst same
      obtain ⟨made, listMade⟩ := allocated calls _ [] rfl nothing rfl
      have first := registered_loaded
      refine ⟨_, _, (ends_loaded made listMade).mpr ((ends_getGroup first.points first.list).mpr rfl), ?_⟩
      exact .install first ⟨.nil, by simp [State.allocated, State.loaded], by simp, by simp, by simp⟩ rfl
    | registered registered settled kept =>
      exact ⟨_, _, (install_computes registered.points registered.list).mpr rfl, .install registered settled kept⟩

/-- A call that has ended was not killed. -/
theorem Alive.ended {s' : State} {pc : InstallPc} (alive : Alive calls s) (allocated : ManagerAllocated (calls ++ [args]))
    (ran : args.Runs s s' pc) (ended : pc.ended = true) : (∃ ret, pc = .done ret) ∧ Alive (calls ++ [args]) s' := by
  obtain ⟨last, ret, returns, alive'⟩ := alive.call allocated
  obtain ⟨rfl, rfl⟩ := returns.unique ran rfl (ended_stuck ended)
  exact ⟨⟨ret, rfl⟩, alive'⟩

theorem InTurn.alive (turn : InTurn calls s) (allocated : ManagerAllocated calls) : Alive calls s := by
  induction turn with
  | loaded => exact .loaded (by simp) rfl
  | call _ ran ended ih => exact ((ih allocated.earlier).ended allocated ran ended).2

theorem exists_inTurn (allocated : ManagerAllocated calls) : ∃ s, InTurn calls s := by
  induction calls using List.reverseRecOn with
  | nil => exact ⟨.loaded, .loaded⟩
  | append_singleton calls args ih =>
    obtain ⟨s, turn⟩ := ih allocated.earlier
    obtain ⟨last, ret, ran, _⟩ := (turn.alive allocated.earlier).call allocated
    exact ⟨last, turn.call ran rfl⟩

/-! The exit of the module. -/

/-- The number of the device that the object belongs to. -/
def Obj.number : Obj → Option Nat
  | .part _ id | .delayWq id => some id
  | .region _ => none

theorem objects_number {gd : GroupDev} {obj : Obj} (member : obj ∈ gd.objects) : obj.number = some gd.id := by
  rcases List.mem_append.mp member with member | member
  · obtain ⟨part, inside, rfl⟩ := List.mem_map.mp member
    rfl
  · split at member
    · rw [List.mem_singleton.mp member, Obj.number]
    · cases member

theorem name_not_object {gd : GroupDev} {id : Nat} : .part .deviceName id ∉ gd.objects := by
  intro member
  rcases List.mem_append.mp member with member | member
  · exact absurd (mem_parts member).1 (by decide)
  · split at member
    · cases List.mem_singleton.mp member
    · cases member

theorem objects_nodup (gd : GroupDev) : gd.objects.Nodup := by
  refine List.nodup_append'.mpr ⟨parts_nodup (Part.order_nodup.erase _), ?_, ?_⟩
  · split
    · exact List.nodup_singleton _
    · exact List.nodup_nil
  · intro obj part wq
    obtain ⟨_, _, rfl⟩ := List.mem_map.mp part
    split at wq
    · cases List.mem_singleton.mp wq
    · cases wq

/-- The parts of the devices, freed behind all that the installs have freed. -/
theorem Settled.freed_once (settled : Settled released fresh devices) :
    (released ++ devices.reverse.flatMap GroupDev.objects).Nodup := by
  have apart : devices.reverse.Pairwise fun gd other => List.Disjoint gd.objects other.objects := by
    have distinct : devices.reverse.Pairwise fun gd other => gd.id ≠ other.id :=
      List.pairwise_map.mp (by rw [List.map_reverse]; exact List.nodup_reverse.mpr settled.distinct)
    apply distinct.imp
    intro gd other differs obj member member'
    exact differs (Option.some.inj ((objects_number member).symm.trans (objects_number member')))
  refine List.nodup_append'.mpr ⟨settled.once, List.nodup_flatMap.mpr ⟨fun gd _ => objects_nodup gd, apart⟩, ?_⟩
  intro obj before member
  obtain ⟨gd, listed, inside⟩ := List.mem_flatMap.mp member
  obtain ⟨part, id, rfl, _⟩ := settled.earlier obj before
  obtain rfl : gd.id = id := Option.some.inj (objects_number inside).symm
  rw [settled.kept gd (List.mem_reverse.mp listed) part before] at inside
  exact name_not_object inside

theorem Alive.unloads (alive : Alive calls s) :
    ∃ last final, Exits (unload s) .entry last final ∧
      ((∃ left, final = .done left) ∨ final = .killed ∧ s.groupDevClass = .error) ∧ last.FreedOnce := by
  cases alive with
  | loaded _ same =>
    subst same
    exact ⟨unload .loaded, .done 0, (exits_step (by rfl)).mpr ((exits_stuck rfl).mpr ⟨rfl, rfl⟩), .inl ⟨0, rfl⟩, .nil, .nil⟩
  | @registered pointer manager devices registered settled kept =>
    by_cases usable : s.groupDevClass = .error → devices = []
    · refine ⟨_, _, (frees_registered registered usable).mpr ⟨rfl, rfl⟩, .inl ⟨_, rfl⟩, ?_, ?_⟩
      · simp [kept]
      · exact settled.freed_once
    · obtain ⟨error, listed⟩ := Classical.not_imp.mp usable
      obtain ⟨rest, killed⟩ := killed_registered registered error listed
      refine ⟨_, _, killed, .inr ⟨rfl, error⟩, ?_, ?_⟩
      · simp [kept, State.store]
      · simpa [unload, State.store] using settled.once

end Calls

/-- The manager is never used null or freed exactly when the first call that needs it
can allocate it. -/
theorem manager_safe_iff (calls : List InstallArgs) : ManagerSafe calls ↔ ManagerAllocated calls := by
  constructor
  · rintro safe earlier ⟨outcome, groupDesc, stack⟩ later same nothing asked
    obtain ⟨desc, rfl⟩ := Option.isSome_iff_exists.mp asked
    by_contra missing
    obtain ⟨s, killed⟩ := killed_of_unallocated stack missing
    exact safe.used earlier _ later _ s same (inTurn_nothing nothing) killed
  · intro allocated
    have before : ∀ {earlier args later}, calls = earlier ++ args :: later → ManagerAllocated (earlier ++ [args]) := by
      rintro earlier args later rfl first other rest same
      apply allocated first other (rest ++ later)
      rw [← List.cons_append, ← List.append_assoc, ← same, List.append_assoc, List.singleton_append]
    refine ⟨exists_inTurn allocated, ?_, ?_, ?_, ?_⟩
    · intro earlier args later s s' same turn killed
      have allocated' := before same
      obtain ⟨⟨ret, returned⟩, _⟩ := (turn.alive allocated'.earlier).ended allocated' killed rfl
      cases returned
    · intro earlier args later s s' pc same turn null asked missing
      cases turn.alive (before same).earlier with
      | loaded nothing _ => exact absurd (allocated earlier args later same nothing asked) missing
      | registered registered => exact absurd (manager_eq_some.mp registered.points).1 (by simp [null])
    · intro s turn
      cases turn.alive allocated with
      | loaded _ same =>
        subst same
        exact ⟨.nil, .nil⟩
      | registered _ settled kept => exact ⟨by simp [kept], settled.once⟩
    · intro s turn
      obtain ⟨last, final, exits, ends, once⟩ := (turn.alive allocated).unloads
      refine ⟨fun last' used => ?_, last, final, exits, ends, once⟩
      obtain ⟨_, rfl⟩ := exits.unique ⟨used, rfl⟩
      simp at ends

/-- A first install without memory for the list of devices. -/
def unlisted : InstallArgs := ⟨{ granted firstRegion with groupDevsList := false }, some 3, ⟨0, 0⟩⟩

theorem manager_used_freed : ¬ ∀ calls, ManagerSafe calls := by
  intro safe
  have killed : unlisted.Runs .loaded _ .oops :=
    runAlone_alone installGroup (fun _ => unlisted.outcome) 7 .loaded (.entry unlisted.groupDesc unlisted.stack)
  exact (safe [unlisted]).used [] unlisted [] _ _ rfl .loaded killed

end Tsm.Manager
