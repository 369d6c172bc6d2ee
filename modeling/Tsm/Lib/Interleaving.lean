import Mathlib.Algebra.BigOperators.Group.List.Basic
import Mathlib.Algebra.Order.BigOperators.Group.List
import Mathlib.Algebra.Order.Group.Nat
import Mathlib.Algebra.Order.Group.Multiset

/-! Calls on one shared object, interleaved one local step at a time. A system
says how a call is entered, what one step of a call does to the shared state and
to the call, and which events happen on their own. Any number of calls may be in
progress. The rules at the end prove invariants of all runs from obligations on
single steps. -/

namespace Interleaving

variable {σ ρ κ ω ε : Type*}

/-- A call in progress, or returned, with the request it was entered with. -/
structure Process (ρ κ : Type*) where
  request : ρ
  state : κ

structure Config (σ ρ κ : Type*) where
  shared : σ
  calls : List (Process ρ κ)

/-- `ω` resolves what the environment decides inside a step (does an allocation
succeed), `ε` are the events that no call performs. -/
structure System (σ ρ κ ω ε : Type*) where
  enter : ρ → κ
  move : ω → σ → κ → Option (σ × κ)
  environment : ε → σ → Option σ

inductive Act (ρ ω ε : Type*) where
  | enter (request : ρ)
  | move (call : Nat) (outcome : ω)
  | environment (event : ε)

def step (system : System σ ρ κ ω ε) (config : Config σ ρ κ) : Act ρ ω ε → Option (Config σ ρ κ)
  | .enter request => some ⟨config.shared, config.calls ++ [⟨request, system.enter request⟩]⟩
  | .move call outcome =>
    match config.calls[call]? with
    | none => none
    | some process =>
      match system.move outcome config.shared process.state with
      | none => none
      | some (shared, state) => some ⟨shared, config.calls.set call ⟨process.request, state⟩⟩
  | .environment event =>
    match system.environment event config.shared with
    | none => none
    | some shared => some ⟨shared, config.calls⟩

/-- Everything a step can do, with the moving call split out of the pool. -/
inductive Step (system : System σ ρ κ ω ε) : Config σ ρ κ → Act ρ ω ε → Config σ ρ κ → Prop where
  | enter {shared calls} (request : ρ) :
      Step system ⟨shared, calls⟩ (.enter request) ⟨shared, calls ++ [⟨request, system.enter request⟩]⟩
  | move {shared left right request state outcome shared' state'}
      (moved : system.move outcome shared state = some (shared', state')) :
      Step system ⟨shared, left ++ ⟨request, state⟩ :: right⟩ (.move left.length outcome)
        ⟨shared', left ++ ⟨request, state'⟩ :: right⟩
  | environment {shared calls event shared'} (happened : system.environment event shared = some shared') :
      Step system ⟨shared, calls⟩ (.environment event) ⟨shared', calls⟩

private theorem split_at {α : Type*} {items : List α} {index : Nat} {item : α}
    (found : items[index]? = some item) :
    ∃ left right, items = left ++ item :: right ∧ left.length = index := by
  obtain ⟨inside, rfl⟩ := List.getElem?_eq_some_iff.mp found
  refine ⟨items.take index, items.drop (index + 1), ?_, List.length_take_of_le (Nat.le_of_lt inside)⟩
  rw [List.getElem_cons_drop, List.take_append_drop]

theorem step_move {system : System σ ρ κ ω ε} {before call outcome after}
    (taken : step system before (.move call outcome) = some after) :
    ∃ process shared state, before.calls[call]? = some process ∧
      system.move outcome before.shared process.state = some (shared, state) ∧
      after = ⟨shared, before.calls.set call ⟨process.request, state⟩⟩ := by
  simp only [step] at taken
  split at taken
  · cases taken
  next process found =>
    split at taken
    · cases taken
    next shared state moved =>
      cases taken
      exact ⟨process, shared, state, found, moved, rfl⟩

theorem step_environment {system : System σ ρ κ ω ε} {before event after}
    (taken : step system before (.environment event) = some after) :
    ∃ shared, system.environment event before.shared = some shared ∧ after = ⟨shared, before.calls⟩ := by
  simp only [step] at taken
  split at taken
  · cases taken
  next shared happened =>
    cases taken
    exact ⟨shared, happened, rfl⟩

theorem step_cases {system : System σ ρ κ ω ε} {before act after}
    (taken : step system before act = some after) : Step system before act after := by
  obtain ⟨shared, calls⟩ := before
  cases act with
  | enter request =>
    cases taken
    exact .enter request
  | move call outcome =>
    obtain ⟨process, shared', state', found, moved, rfl⟩ := step_move taken
    obtain ⟨left, right, rfl, rfl⟩ := split_at found
    rw [List.set_append_right _ _ (Nat.le_refl _), Nat.sub_self, List.set_cons_zero]
    exact .move moved
  | environment event =>
    obtain ⟨shared', happened, rfl⟩ := step_environment taken
    exact .environment happened

/-- The local state of the call that a step moves, and how its choices are resolved. -/
def mover (config : Config σ ρ κ) : Act ρ ω ε → Option (κ × ω)
  | .move call outcome => config.calls[call]?.map fun process => (process.state, outcome)
  | .enter _ | .environment _ => none

@[simp] theorem mover_move (shared : σ) (left right : List (Process ρ κ)) (process : Process ρ κ)
    (outcome : ω) :
    mover ⟨shared, left ++ process :: right⟩ (.move left.length outcome : Act ρ ω ε) =
      some (process.state, outcome) := by
  simp [mover]

theorem mem_of_mem_others {left right : List (Process ρ κ)} {process other : Process ρ κ}
    (member : other ∈ left ++ right) : other ∈ left ++ process :: right :=
  ((List.sublist_cons_self process right).append_left left).subset member

theorem Step.enabled {system : System σ ρ κ ω ε} {before after : Config σ ρ κ} {act : Act ρ ω ε}
    (taken : Step system before act after) : step system before act = some after := by
  cases taken with
  | enter request => rfl
  | move moved => simp [step, moved]
  | environment happened => simp [step, happened]

/-- One call, followed through a step: it stays as it is unless it is the one that moves. -/
theorem Step.follow {system : System σ ρ κ ω ε} {before after : Config σ ρ κ} {act : Act ρ ω ε}
    (taken : Step system before act after) {index : Nat} {request : ρ} {state : κ}
    (found : before.calls[index]? = some ⟨request, state⟩) :
    after.calls[index]? = some ⟨request, state⟩ ∨
      ∃ outcome state', mover before act = some (state, outcome) ∧
        system.move outcome before.shared state = some (after.shared, state') ∧
        after.calls[index]? = some ⟨request, state'⟩ := by
  cases taken with
  | enter asked =>
    obtain ⟨inside, _⟩ := List.getElem?_eq_some_iff.mp found
    exact .inl (by simpa [List.getElem?_append_left inside] using found)
  | @move shared left right asked moving outcome shared' state' moved =>
    by_cases same : left.length = index
    · subst same
      have process : (⟨asked, moving⟩ : Process ρ κ) = ⟨request, state⟩ := by simpa using found
      cases process
      exact .inr ⟨outcome, state', mover_move _ _ _ _ _, moved, by simp⟩
    · apply Or.inl
      rw [← found]
      simp only [List.getElem?_append]
      split
      · rfl
      next beyond =>
        obtain ⟨offset, positive⟩ := Nat.exists_eq_succ_of_ne_zero (show index - left.length ≠ 0 by omega)
        simp [positive]
  | environment happened => exact .inl found

/-- One call, followed back through a step: it was there, it has moved, or it is new. -/
theorem Step.origin {system : System σ ρ κ ω ε} {before after : Config σ ρ κ} {act : Act ρ ω ε}
    (taken : Step system before act after) {index : Nat} {request : ρ} {state : κ}
    (found : after.calls[index]? = some ⟨request, state⟩) :
    before.calls[index]? = some ⟨request, state⟩ ∨ state = system.enter request ∨
      ∃ outcome earlier, act = .move index outcome ∧ before.calls[index]? = some ⟨request, earlier⟩ ∧
        system.move outcome before.shared earlier = some (after.shared, state) := by
  cases taken with
  | @enter shared calls asked =>
    by_cases old : index < calls.length
    · exact .inl (by simpa [List.getElem?_append_left old] using found)
    · rw [List.getElem?_append_right (Nat.le_of_not_lt old)] at found
      cases List.mem_singleton.mp (List.mem_of_getElem? found)
      exact .inr (.inl rfl)
  | @move shared left right asked moving outcome shared' state' moved =>
    by_cases same : left.length = index
    · subst same
      have process : (⟨asked, state'⟩ : Process ρ κ) = ⟨request, state⟩ := by simpa using found
      cases process
      exact .inr (.inr ⟨outcome, moving, rfl, by simp, moved⟩)
    · apply Or.inl
      rw [← found]
      simp only [List.getElem?_append]
      split
      · rfl
      next beyond =>
        obtain ⟨offset, positive⟩ := Nat.exists_eq_succ_of_ne_zero (show index - left.length ≠ 0 by omega)
        simp [positive]
  | environment happened => exact .inl found

/-! Runs. The trace keeps every configuration a step was taken from. -/

inductive Runs (system : System σ ρ κ ω ε) (start : Config σ ρ κ) :
    List (Config σ ρ κ × Act ρ ω ε) → Config σ ρ κ → Prop where
  | start : Runs system start [] start
  | step {trace before act after} (ran : Runs system start trace before)
      (taken : step system before act = some after) : Runs system start (trace ++ [(before, act)]) after

/-- Reached by a run all of whose steps are allowed where they are taken. -/
def Reaches (system : System σ ρ κ ω ε) (allowed : Config σ ρ κ → Act ρ ω ε → Prop)
    (start config : Config σ ρ κ) : Prop :=
  ∃ trace, Runs system start trace config ∧ ∀ point ∈ trace, allowed point.1 point.2

def Anything (_ : Config σ ρ κ) (_ : Act ρ ω ε) : Prop := True

instance : ∀ (config : Config σ ρ κ) (act : Act ρ ω ε), Decidable (Anything config act) :=
  fun _ _ => inferInstanceAs (Decidable True)

variable {system : System σ ρ κ ω ε} {allowed : Config σ ρ κ → Act ρ ω ε → Prop}
  {start config : Config σ ρ κ}

theorem Reaches.refl : Reaches system allowed start start := ⟨[], .start, by simp⟩

theorem Reaches.step {before act after} (reached : Reaches system allowed start before)
    (permitted : allowed before act) (taken : step system before act = some after) :
    Reaches system allowed start after := by
  obtain ⟨trace, ran, all⟩ := reached
  refine ⟨_, ran.step taken, ?_⟩
  intro point member
  rcases List.mem_append.mp member with member | member
  · exact all point member
  · rw [List.mem_singleton.mp member]
    exact permitted

/-- Induction along a run, one `Step` at a time. -/
@[elab_as_elim]
theorem Reaches.induct {motive : Config σ ρ κ → Prop} {config : Config σ ρ κ}
    (reached : Reaches system allowed start config) (initial : motive start)
    (next : ∀ before act after, Reaches system allowed start before → motive before →
      allowed before act → Step system before act after → motive after) : motive config := by
  obtain ⟨trace, ran, all⟩ := reached
  induction ran with
  | start => exact initial
  | step ran taken ih =>
    have earlier := fun point member => all point (List.mem_append_left _ member)
    exact next _ _ _ ⟨_, ran, earlier⟩ (ih earlier) (all _ (List.mem_append_right _ (List.mem_singleton_self _)))
      (step_cases taken)

theorem Reaches.mono {allowed' : Config σ ρ κ → Act ρ ω ε → Prop} (reached : Reaches system allowed start config)
    (weaker : ∀ config act, allowed config act → allowed' config act) : Reaches system allowed' start config := by
  obtain ⟨trace, ran, all⟩ := reached
  exact ⟨trace, ran, fun point member => weaker _ _ (all point member)⟩

theorem Reaches.trans {middle : Config σ ρ κ} (first : Reaches system allowed start middle)
    (second : Reaches system allowed middle config) : Reaches system allowed start config := by
  obtain ⟨trace, ran, all⟩ := second
  induction ran with
  | start => exact first
  | step ran taken ih =>
    refine (ih fun point member => all point (List.mem_append_left _ member)).step ?_ taken
    exact all _ (List.mem_append_right _ (List.mem_singleton_self _))

/-! Simulation. The states and calls of one system stand for those of another, and
each of its steps for a step of the other or for none. -/

section Simulation
variable {σ' κ' : Type*} {abstract : System σ' ρ κ' ω ε} {allowed' : Config σ' ρ κ' → Act ρ ω ε → Prop}

def project (state : σ → σ') (call : κ → κ') (config : Config σ ρ κ) : Config σ' ρ κ' :=
  ⟨state config.shared, config.calls.map fun process => ⟨process.request, call process.state⟩⟩

theorem project_project {σ₂ κ₂ : Type*} (state : σ → σ') (call : κ → κ') (state₂ : σ' → σ₂) (call₂ : κ' → κ₂)
    (config : Config σ ρ κ) : project state₂ call₂ (project state call config) =
      project (fun shared => state₂ (state shared)) (fun moving => call₂ (call moving)) config := by
  simp [project]

/-- `keeps` is an invariant of the shared state that the simulation needs, and can use
what is known of the run it has simulated so far. -/
theorem Reaches.simulate (reached : Reaches system allowed start config) (state : σ → σ') (call : κ → κ')
    (keeps : σ → Prop) (initial : keeps start.shared)
    (enters : ∀ request, call (system.enter request) = abstract.enter request ∧ ∀ config, allowed' config (.enter request))
    (moves : ∀ {shared left right request moving outcome shared' moving'},
      allowed ⟨shared, left ++ ⟨request, moving⟩ :: right⟩ (.move left.length outcome) → keeps shared →
      Reaches abstract allowed' (project state call start)
        (project state call ⟨shared, left ++ ⟨request, moving⟩ :: right⟩) →
      system.move outcome shared moving = some (shared', moving') →
      keeps shared' ∧ (state shared' = state shared ∧ call moving' = call moving ∨
        abstract.move outcome (state shared) (call moving) = some (state shared', call moving') ∧
          allowed' (project state call ⟨shared, left ++ ⟨request, moving⟩ :: right⟩) (.move left.length outcome)))
    (happens : ∀ {shared calls event shared'}, allowed ⟨shared, calls⟩ (.environment event) → keeps shared →
      Reaches abstract allowed' (project state call start) (project state call ⟨shared, calls⟩) →
      system.environment event shared = some shared' →
      keeps shared' ∧ abstract.environment event (state shared) = some (state shared') ∧
        allowed' (project state call ⟨shared, calls⟩) (.environment event)) :
    keeps config.shared ∧ Reaches abstract allowed' (project state call start) (project state call config) := by
  refine reached.induct ⟨initial, .refl⟩ ?_
  intro before act after _ ⟨kept, simulated⟩ permitted taken
  cases taken with
  | @enter shared calls request =>
    obtain ⟨same, any⟩ := enters request
    let earlier := (project state call ⟨shared, calls⟩).calls
    have entered : Step abstract ⟨state shared, earlier⟩ (.enter request)
      ⟨state shared, earlier ++ [⟨request, abstract.enter request⟩]⟩ := .enter request
    exact ⟨kept, simulated.step (any _) (by simpa [project, earlier, same] using entered.enabled)⟩
  | @move shared left right request moving outcome shared' moving' moved =>
    obtain ⟨kept', ⟨same, stays⟩ | ⟨moved', permitted'⟩⟩ := moves permitted kept simulated moved
    · exact ⟨kept', by simpa [project, same, stays] using simulated⟩
    · let before := (project state call ⟨shared, left⟩).calls
      let after := (project state call ⟨shared, right⟩).calls
      have stepped : Step abstract ⟨state shared, before ++ ⟨request, call moving⟩ :: after⟩ (.move before.length outcome)
        ⟨state shared', before ++ ⟨request, call moving'⟩ :: after⟩ := .move moved'
      exact ⟨kept', simulated.step permitted' (by simpa [project, before, after] using stepped.enabled)⟩
  | environment happened =>
    obtain ⟨kept', happened', permitted'⟩ := happens permitted kept simulated happened
    exact ⟨kept', simulated.step permitted' (Step.environment happened').enabled⟩

end Simulation

/-- Runs a schedule, and stops where a step is not allowed or not enabled. -/
def run (system : System σ ρ κ ω ε) (allowed : Config σ ρ κ → Act ρ ω ε → Prop)
    [∀ config act, Decidable (allowed config act)] (config : Config σ ρ κ) :
    List (Act ρ ω ε) → Option (Config σ ρ κ)
  | [] => some config
  | act :: rest =>
    if allowed config act then
      match step system config act with
      | none => none
      | some after => run system allowed after rest
    else none

theorem reaches_of_run [∀ config act, Decidable (allowed config act)] {acts : List (Act ρ ω ε)}
    {after} (reached : Reaches system allowed start config)
    (ran : run system allowed config acts = some after) : Reaches system allowed start after := by
  induction acts generalizing config with
  | nil =>
    cases ran
    exact reached
  | cons act rest ih =>
    simp only [run] at ran
    split at ran
    next permitted =>
      split at ran
      · cases ran
      next middle taken => exact ih (reached.step permitted taken) ran
    · cases ran

theorem reaches_get [∀ config act, Decidable (allowed config act)] {acts : List (Act ρ ω ε)}
    (enabled : (run system allowed start acts).isSome) :
    Reaches system allowed start ((run system allowed start acts).get enabled) :=
  reaches_of_run .refl (Option.some_get enabled).symm

def record (system : System σ ρ κ ω ε) (config : Config σ ρ κ) :
    List (Act ρ ω ε) → Option (List (Config σ ρ κ × Act ρ ω ε) × Config σ ρ κ)
  | [] => some ([], config)
  | act :: rest =>
    match step system config act with
    | none => none
    | some after =>
      match record system after rest with
      | none => none
      | some (trace, last) => some ((config, act) :: trace, last)

theorem runs_of_record {acts : List (Act ρ ω ε)} {earlier trace last} (ran : Runs system start earlier config)
    (recorded : record system config acts = some (trace, last)) : Runs system start (earlier ++ trace) last := by
  induction acts generalizing config earlier trace with
  | nil =>
    cases recorded
    simpa using ran
  | cons act rest ih =>
    simp only [record] at recorded
    split at recorded
    · cases recorded
    next after taken =>
      split at recorded
      · cases recorded
      next later last recordedLater =>
        cases recorded
        simpa using ih (ran.step taken) recordedLater

theorem runs_get {acts : List (Act ρ ω ε)} (enabled : (record system start acts).isSome) :
    Runs system start ((record system start acts).get enabled).1 ((record system start acts).get enabled).2 :=
  runs_of_record .start (Option.some_get enabled).symm

/-! Accounting. A share of some commutative monoid is attached to each local
state, and an invariant speaks about the shared state and the sum of all shares. -/

section Accounting
variable {M : Type*} [AddCommMonoid M]

def total (share : κ → M) (calls : List (Process ρ κ)) : M :=
  (calls.map fun process => share process.state).sum

@[simp] theorem total_nil (share : κ → M) : total share ([] : List (Process ρ κ)) = 0 := rfl

@[simp] theorem total_append (share : κ → M) (left right : List (Process ρ κ)) :
    total share (left ++ right) = total share left + total share right := by
  simp [total]

@[simp] theorem total_cons (share : κ → M) (process : Process ρ κ) (rest : List (Process ρ κ)) :
    total share (process :: rest) = share process.state + total share rest := by
  simp [total]

theorem total_middle (share : κ → M) (left right : List (Process ρ κ)) (process : Process ρ κ) :
    total share (left ++ process :: right) = share process.state + total share (left ++ right) := by
  simp only [total_append, total_cons]
  exact add_left_comm _ _ _

theorem total_eq_zero {share : κ → M} {calls : List (Process ρ κ)}
    (nothing : ∀ process ∈ calls, share process.state = 0) : total share calls = 0 := by
  induction calls with
  | nil => rfl
  | cons process rest ih =>
    rw [total_cons, nothing process (by simp), ih fun other member => nothing other (by simp [member]), add_zero]

theorem total_hom {N : Type*} [AddCommMonoid N] (hom : M →+ N) (share : κ → M) (calls : List (Process ρ κ)) :
    hom (total share calls) = total (fun state => hom (share state)) calls := by
  induction calls with
  | nil => exact map_zero hom
  | cons process rest ih => rw [total_cons, map_add, ih, total_cons]

theorem total_le [Preorder M] [AddLeftMono M] {share other : κ → M}
    (less : ∀ state, share state ≤ other state) (calls : List (Process ρ κ)) :
    total share calls ≤ total other calls := by
  induction calls with
  | nil => exact le_refl _
  | cons process rest ih =>
    rw [total_cons, total_cons]
    exact add_le_add (less _) ih

theorem mem_total {α : Type*} {share : κ → Multiset α} {calls : List (Process ρ κ)} {item : α} :
    item ∈ total share calls ↔ ∃ process ∈ calls, item ∈ share process.state := by
  induction calls with
  | nil => simp
  | cons process rest ih => simp [ih]

theorem total_pos {share : κ → Nat} {calls : List (Process ρ κ)} :
    0 < total share calls ↔ ∃ process ∈ calls, 0 < share process.state := by
  induction calls with
  | nil => simp
  | cons process rest ih => simp [← ih]

theorem le_total {share : κ → Nat} {calls : List (Process ρ κ)} {process : Process ρ κ}
    (member : process ∈ calls) : share process.state ≤ total share calls :=
  List.single_le_sum (fun _ _ => Nat.zero_le _) _ (List.mem_map_of_mem (f := fun process => share process.state) member)

/-- A proof outline: `balance` speaks about the shared state and the sum of all
shares, `holds` is asserted of each call and must survive the steps of the others.
What is known of reachable configurations can be used at each step. -/
theorem Reaches.outline (reached : Reaches system allowed start config) (share : κ → M)
    (balance : σ → M → Prop) (holds : σ → Process ρ κ → Prop)
    (initial : balance start.shared (total share start.calls) ∧
      ∀ process ∈ start.calls, holds start.shared process)
    (enters : ∀ shared request, share (system.enter request) = 0 ∧
      holds shared ⟨request, system.enter request⟩)
    (moves : ∀ {shared left right request state outcome shared' state'},
      Reaches system allowed start ⟨shared, left ++ ⟨request, state⟩ :: right⟩ →
      allowed ⟨shared, left ++ ⟨request, state⟩ :: right⟩ (.move left.length outcome) →
      balance shared (share state + total share (left ++ right)) →
      holds shared ⟨request, state⟩ → (∀ process ∈ left ++ right, holds shared process) →
      system.move outcome shared state = some (shared', state') →
      balance shared' (share state' + total share (left ++ right)) ∧
        holds shared' ⟨request, state'⟩ ∧ ∀ process ∈ left ++ right, holds shared' process)
    (happens : ∀ {shared calls event shared'}, Reaches system allowed start ⟨shared, calls⟩ →
      allowed ⟨shared, calls⟩ (.environment event) →
      balance shared (total share calls) → (∀ process ∈ calls, holds shared process) →
      system.environment event shared = some shared' →
      balance shared' (total share calls) ∧ ∀ process ∈ calls, holds shared' process) :
    balance config.shared (total share config.calls) ∧ ∀ process ∈ config.calls, holds config.shared process := by
  refine reached.induct initial ?_
  intro before act after reached kept permitted taken
  cases taken with
  | @enter shared calls request =>
    obtain ⟨balanced, asserted⟩ := kept
    obtain ⟨nothing, entered⟩ := enters shared request
    refine ⟨by simpa [nothing] using balanced, ?_⟩
    intro process member
    rcases List.mem_append.mp member with member | member
    · exact asserted process member
    · rw [List.mem_singleton.mp member]
      exact entered
  | @move shared left right request state outcome shared' state' moved =>
    obtain ⟨balanced, asserted⟩ := kept
    simp only [total_middle] at balanced ⊢
    have own := asserted ⟨request, state⟩ (by simp)
    have others := fun process (member : process ∈ left ++ right) => asserted process (mem_of_mem_others member)
    obtain ⟨balanced', own', others'⟩ := moves reached permitted balanced own others moved
    refine ⟨balanced', ?_⟩
    intro process member
    rcases List.mem_append.mp member with member | member
    · exact others' process (List.mem_append_left _ member)
    · rcases List.mem_cons.mp member with rfl | member
      · exact own'
      · exact others' process (List.mem_append_right _ member)
  | environment happened => exact happens reached permitted kept.1 kept.2 happened

end Accounting

/-- What is true of a call when it is entered, and of what its steps make of it, is true
of every call. -/
theorem Reaches.calls_keep (reached : Reaches system allowed start config) (holds : Process ρ κ → Prop) (initial : start.calls = [])
    (enters : ∀ request, holds ⟨request, system.enter request⟩)
    (moves : ∀ {shared request state outcome shared' state'}, holds ⟨request, state⟩ →
      system.move outcome shared state = some (shared', state') → holds ⟨request, state'⟩) :
    ∀ process ∈ config.calls, holds process := by
  refine (reached.outline (fun _ => 0) (fun _ (_ : Nat) => True) (fun _ => holds) ⟨trivial, by simp [initial]⟩ ?_ ?_ ?_).2
  · exact fun _ request => ⟨rfl, enters request⟩
  · exact fun _ _ _ own others moved => ⟨trivial, moves own moved, others⟩
  · exact fun _ _ _ asserted _ => ⟨trivial, asserted⟩

/-- Sections under a semaphore: a call inside excludes all others, so what it
asserts only has to survive the steps that nobody takes inside, and the events. -/
theorem Reaches.semaphore (reached : Reaches system allowed start config) (sem : σ → Nat) (inside : κ → Nat)
    (inv : σ → Prop) (asserts : σ → κ → Prop)
    (outside : ∀ shared state, inside state = 0 → asserts shared state)
    (initial : sem start.shared = 1 ∧ start.calls = [] ∧ inv start.shared)
    (enters : ∀ request, inside (system.enter request) = 0)
    (moves : ∀ {shared left right request state outcome shared' state'},
      Reaches system allowed start ⟨shared, left ++ ⟨request, state⟩ :: right⟩ →
      allowed ⟨shared, left ++ ⟨request, state⟩ :: right⟩ (.move left.length outcome) →
      sem shared + inside state ≤ 1 → inv shared → asserts shared state →
      system.move outcome shared state = some (shared', state') →
      sem shared' + inside state' = sem shared + inside state ∧ inv shared' ∧ asserts shared' state' ∧
        (inside state = 0 → inside state' = 0 → ∀ other, asserts shared other → asserts shared' other))
    (happens : ∀ {shared calls event shared'}, Reaches system allowed start ⟨shared, calls⟩ →
      allowed ⟨shared, calls⟩ (.environment event) → inv shared →
      (∀ process ∈ calls, asserts shared process.state) → system.environment event shared = some shared' →
      sem shared' = sem shared ∧ inv shared' ∧ ∀ process ∈ calls, asserts shared' process.state) :
    inv config.shared ∧ ∀ process ∈ config.calls, asserts config.shared process.state := by
  have outlined := reached.outline inside (fun shared held => sem shared + held = 1 ∧ inv shared)
    (fun shared process => asserts shared process.state) ?_ ?_ ?_ ?_
  · exact ⟨outlined.1.2, outlined.2⟩
  · obtain ⟨up, none, kept⟩ := initial
    simp [up, none, kept]
  · exact fun shared request => ⟨enters request, outside _ _ (enters request)⟩
  · intro shared left right request state outcome shared' state' reached permitted ⟨one, kept⟩ own others moved
    obtain ⟨same, kept', own', stable⟩ := moves reached permitted (by omega) kept own moved
    refine ⟨⟨by omega, kept'⟩, own', ?_⟩
    intro process member
    have less : inside process.state ≤ total inside (left ++ right) := le_total member
    by_cases apart : inside state = 0 ∧ inside state' = 0
    · exact stable apart.1 apart.2 _ (others process member)
    · exact outside _ _ (by omega)
  · intro shared calls event shared' reached permitted ⟨one, kept⟩ asserted happened
    obtain ⟨same, kept', asserted'⟩ := happens reached permitted kept asserted happened
    exact ⟨⟨by omega, kept'⟩, asserted'⟩

end Interleaving
