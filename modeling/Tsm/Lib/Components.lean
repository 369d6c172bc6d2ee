import Mathlib.Algebra.BigOperators.Group.Multiset.Basic
import Tsm.Lib.Interleaving

/-! Systems that are part of a larger one. A call of the whole is a call of the
component once it has come to it, and the component itself may come into being on the
way. A step of the whole is then at most one step of the component, and what the
component goes through is a run of its own, in which its calls are entered in the
order in which they came to it. -/

namespace Interleaving

variable {σ ρ κ ω ε : Type*}

/-- What a step may do depends on the call it moves and on the shared state alone. -/
def Local (permits : σ → κ → ω → Prop) (config : Config σ ρ κ) (act : Act ρ ω ε) : Prop :=
  ∀ moving ∈ mover config act, permits config.shared moving.1 moving.2

instance (permits : σ → κ → ω → Prop) [∀ shared state outcome, Decidable (permits shared state outcome)]
    (config : Config σ ρ κ) (act : Act ρ ω ε) : Decidable (Local permits config act) :=
  inferInstanceAs (Decidable (∀ moving ∈ mover config act, _))

def Freely (_ : σ) (_ : κ) (_ : ω) : Prop := True

/-- No call is forgotten. -/
theorem Step.keeps_request {system : System σ ρ κ ω ε} {before after : Config σ ρ κ} {act : Act ρ ω ε}
    (taken : Step system before act after) {process : Process ρ κ} (member : process ∈ before.calls) :
    ∃ later ∈ after.calls, later.request = process.request := by
  obtain ⟨index, found⟩ := List.mem_iff_getElem?.mp member
  rcases taken.follow found with stays | ⟨_, state, _, _, moved⟩
  · exact ⟨process, List.mem_of_getElem? stays, rfl⟩
  · exact ⟨⟨process.request, state⟩, List.mem_of_getElem? moved, rfl⟩

/-- Reached with these calls, in whatever order they were entered. -/
def Attains (system : System σ ρ κ ω ε) (allowed : Config σ ρ κ → Act ρ ω ε → Prop) (start : Config σ ρ κ) (shared : σ)
    (calls : Multiset (Process ρ κ)) : Prop :=
  ∃ all : List (Process ρ κ), Reaches system allowed start ⟨shared, all⟩ ∧ (all : Multiset (Process ρ κ)) = calls

section Attains
variable {system : System σ ρ κ ω ε} {permits : σ → κ → ω → Prop} {start : Config σ ρ κ} {shared shared' : σ}
  {calls rest : Multiset (Process ρ κ)} {request : ρ} {state state' : κ} {outcome : ω} {event : ε}

theorem Attains.enter (attained : Attains system (Local permits) start shared calls) (request : ρ) :
    Attains system (Local permits) start shared (⟨request, system.enter request⟩ ::ₘ calls) := by
  obtain ⟨all, reached, rfl⟩ := attained
  have stepped : Step system ⟨shared, all⟩ (.enter request) ⟨shared, all ++ [⟨request, system.enter request⟩]⟩ :=
    .enter request
  refine ⟨_, reached.step ?_ stepped.enabled, ?_⟩
  · simp [Local, mover]
  · rw [← Multiset.coe_add, add_comm]
    rfl

theorem Attains.move (attained : Attains system (Local permits) start shared (⟨request, state⟩ ::ₘ rest))
    (permitted : permits shared state outcome) (moved : system.move outcome shared state = some (shared', state')) :
    Attains system (Local permits) start shared' (⟨request, state'⟩ ::ₘ rest) := by
  obtain ⟨all, reached, same⟩ := attained
  have member : ⟨request, state⟩ ∈ all := by
    rw [← Multiset.mem_coe, same]
    exact Multiset.mem_cons_self _ _
  obtain ⟨left, right, rfl⟩ := List.append_of_mem member
  have others : ((left ++ right : List (Process ρ κ)) : Multiset (Process ρ κ)) = rest := by
    apply (Multiset.cons_inj_right (⟨request, state⟩ : Process ρ κ)).mp
    rw [← same]
    exact Multiset.coe_eq_coe.mpr List.perm_middle.symm
  have stepped : Step system ⟨shared, left ++ ⟨request, state⟩ :: right⟩ (.move left.length outcome)
    ⟨shared', left ++ ⟨request, state'⟩ :: right⟩ := .move moved
  refine ⟨_, reached.step ?_ stepped.enabled, ?_⟩
  · intro moving found
    rw [mover_move, Option.mem_some_iff] at found
    cases found
    exact permitted
  · rw [← others]
    exact Multiset.coe_eq_coe.mpr List.perm_middle

theorem Attains.environment (attained : Attains system (Local permits) start shared calls)
    (happened : system.environment event shared = some shared') :
    Attains system (Local permits) start shared' calls := by
  obtain ⟨all, reached, rfl⟩ := attained
  have stepped : Step system ⟨shared, all⟩ (.environment event) ⟨shared', all⟩ := .environment happened
  refine ⟨all, reached.step ?_ stepped.enabled, rfl⟩
  simp [Local, mover]

theorem Attains.anything {allowed : Config σ ρ κ → Act ρ ω ε → Prop} (attained : Attains system allowed start shared calls) :
    Attains system Anything start shared calls := by
  obtain ⟨all, reached, same⟩ := attained
  exact ⟨all, reached.mono fun _ _ _ => trivial, same⟩

end Attains

/-! The component seen from the whole: its state, if it has come into being, and the
calls that have come to it. -/

section Gather
variable {ρ' κ' : Type*} {share : Process ρ κ → Multiset (Process ρ' κ')}

def gather (share : Process ρ κ → Multiset (Process ρ' κ')) (calls : List (Process ρ κ)) : Multiset (Process ρ' κ') :=
  (calls.map share).sum

@[simp] theorem gather_nil : gather share [] = 0 := rfl

@[simp] theorem gather_append (left right : List (Process ρ κ)) :
    gather share (left ++ right) = gather share left + gather share right := by
  simp [gather]

@[simp] theorem gather_cons (process : Process ρ κ) (calls : List (Process ρ κ)) :
    gather share (process :: calls) = share process + gather share calls := by
  simp [gather]

theorem gather_middle (left right : List (Process ρ κ)) (process : Process ρ κ) :
    gather share (left ++ process :: right) = share process + gather share (left ++ right) := by
  rw [gather_append, gather_cons, gather_append, add_left_comm]

theorem mem_gather {calls : List (Process ρ κ)} {part : Process ρ' κ'} :
    part ∈ gather share calls ↔ ∃ whole ∈ calls, part ∈ share whole := by
  induction calls with
  | nil => simp
  | cons process calls ih => simp [ih]

end Gather

/-! Often a call of the whole is at most one of the component. -/

section Parts
variable {ρ' κ' : Type*} {part : Process ρ κ → Option (Process ρ' κ')}

def parts (part : Process ρ κ → Option (Process ρ' κ')) (calls : List (Process ρ κ)) : Multiset (Process ρ' κ') :=
  (calls.filterMap part : List (Process ρ' κ'))

/-- None or one. -/
def optional (part : Option (Process ρ' κ')) : Multiset (Process ρ' κ') := (part.toList : List (Process ρ' κ'))

@[simp] theorem optional_none : optional (none : Option (Process ρ' κ')) = 0 := rfl

@[simp] theorem optional_some (process : Process ρ' κ') : optional (some process) = {process} := rfl

@[simp] theorem parts_nil : parts part [] = 0 := rfl

theorem gather_optional (calls : List (Process ρ κ)) : gather (fun process => optional (part process)) calls = parts part calls := by
  induction calls with
  | nil => rfl
  | cons process calls ih =>
    rw [gather_cons, ih, parts, parts, List.filterMap_cons]
    split
    next absent => simp [absent]
    next present => simp [present]

theorem parts_middle (left right : List (Process ρ κ)) (process : Process ρ κ) :
    parts part (left ++ process :: right) = optional (part process) + parts part (left ++ right) := by
  simp only [← gather_optional, gather_middle]

theorem mem_parts_iff {calls : List (Process ρ κ)} {process : Process ρ' κ'} :
    process ∈ parts part calls ↔ ∃ whole ∈ calls, part whole = some process := by
  simp [parts]

/-- A component of a component. -/
theorem parts_parts {ρ₂ κ₂ : Type*} {part' : Process ρ' κ' → Option (Process ρ₂ κ₂)} {calls : List (Process ρ κ)}
    {all : List (Process ρ' κ')} (same : (all : Multiset (Process ρ' κ')) = parts part calls) :
    parts part' all = parts (fun process => (part process).bind part') calls := by
  rw [parts, ← Multiset.filterMap_coe, same, parts, Multiset.filterMap_coe, List.filterMap_filterMap, parts]

end Parts

/-- The sum of all shares. -/
def summed {M : Type*} [AddCommMonoid M] (share : κ → M) (calls : Multiset (Process ρ κ)) : M :=
  (calls.map fun process => share process.state).sum

theorem summed_coe {M : Type*} [AddCommMonoid M] (share : κ → M) (calls : List (Process ρ κ)) :
    summed share (calls : Multiset (Process ρ κ)) = total share calls := by
  simp [summed, total]

@[simp] theorem summed_singleton {M : Type*} [AddCommMonoid M] (share : κ → M) (process : Process ρ κ) :
    summed share {process} = share process.state := by
  simp [summed]

@[simp] theorem summed_add {M : Type*} [AddCommMonoid M] (share : κ → M) (calls others : Multiset (Process ρ κ)) :
    summed share (calls + others) = summed share calls + summed share others := by
  simp [summed]

theorem summed_hom {M N : Type*} [AddCommMonoid M] [AddCommMonoid N] (hom : M →+ N) (share : κ → M)
    (calls : Multiset (Process ρ κ)) : hom (summed share calls) = summed (fun state => hom (share state)) calls := by
  simp [summed, map_multiset_sum]

theorem mem_summed {M : Type*} {share : κ → Multiset M} {calls : Multiset (Process ρ κ)} {item : M} :
    item ∈ summed share calls ↔ ∃ process ∈ calls, item ∈ share process.state := by
  induction calls using Quotient.inductionOn with
  | h calls => exact (summed_coe share calls).symm ▸ mem_total

/-- In being, it has come this far from where it was born. -/
def Lives (system : System σ ρ κ ω ε) (permits : σ → κ → ω → Prop) (born : σ → Prop) :
    Option σ → Multiset (Process ρ κ) → Prop
  | none, calls => calls = 0
  | some shared, calls => ∃ first, born first ∧ Attains system (Local permits) ⟨first, []⟩ shared calls

/-- What a step of the whole can do to the component and to the calls that belong to the
call that moves. -/
inductive Shifts (system : System σ ρ κ ω ε) (permits : σ → κ → ω → Prop) (born : σ → Prop) :
    Option σ → Multiset (Process ρ κ) → Option σ → Multiset (Process ρ κ) → Prop where
  | stays (component part) : Shifts system permits born component part component part
  | joins (shared) (request : ρ) (part) :
      Shifts system permits born (some shared) part (some shared) (⟨request, system.enter request⟩ ::ₘ part)
  | moves {shared request state outcome shared' state'} (part) (permitted : permits shared state outcome)
      (moved : system.move outcome shared state = some (shared', state')) :
      Shifts system permits born (some shared) (⟨request, state⟩ ::ₘ part) (some shared') (⟨request, state'⟩ ::ₘ part)
  | happens {shared event shared'} (part) (happened : system.environment event shared = some shared') :
      Shifts system permits born (some shared) part (some shared') part
  | born {shared} (first : born shared) : Shifts system permits born none 0 (some shared) 0

/-- The same where it is at most one call. -/
inductive Shift (system : System σ ρ κ ω ε) (permits : σ → κ → ω → Prop) (born : σ → Prop) :
    Option σ → Option (Process ρ κ) → Option σ → Option (Process ρ κ) → Prop where
  | stays (component part) : Shift system permits born component part component part
  | joins (shared) (request : ρ) :
      Shift system permits born (some shared) none (some shared) (some ⟨request, system.enter request⟩)
  | moves {shared request state outcome shared' state'} (permitted : permits shared state outcome)
      (moved : system.move outcome shared state = some (shared', state')) :
      Shift system permits born (some shared) (some ⟨request, state⟩) (some shared') (some ⟨request, state'⟩)
  | happens {shared event shared'} (part) (happened : system.environment event shared = some shared') :
      Shift system permits born (some shared) part (some shared') part
  | born {shared} (first : born shared) : Shift system permits born none none (some shared) none

section Component
variable {σ' ρ' κ' ω' ε' : Type*} {component : System σ' ρ' κ' ω' ε'} {permits : σ' → κ' → ω' → Prop}
  {born : σ' → Prop}

theorem Shift.all {state state' : Option σ'} {part part' : Option (Process ρ' κ')}
    (shift : Shift component permits born state part state' part') :
    Shifts component permits born state (optional part) state' (optional part') := by
  cases shift with
  | stays => exact .stays _ _
  | joins shared request => exact .joins shared request 0
  | moves permitted moved => exact .moves 0 permitted moved
  | happens part happened => exact .happens _ happened
  | born first => exact .born first

theorem Lives.shift {state state' : Option σ'} {part part' rest : Multiset (Process ρ' κ')}
    (lives : Lives component permits born state (part + rest)) (shift : Shifts component permits born state part state' part') :
    Lives component permits born state' (part' + rest) := by
  cases shift with
  | stays => exact lives
  | joins shared request =>
    obtain ⟨first, origin, attained⟩ := lives
    rw [Multiset.cons_add]
    exact ⟨first, origin, attained.enter request⟩
  | moves part permitted moved =>
    obtain ⟨first, origin, attained⟩ := lives
    rw [Multiset.cons_add] at attained ⊢
    exact ⟨first, origin, attained.move permitted moved⟩
  | happens part happened =>
    obtain ⟨first, origin, attained⟩ := lives
    exact ⟨first, origin, attained.environment happened⟩
  | @born shared first =>
    have nothing : 0 + rest = 0 := lives
    rw [zero_add] at nothing ⊢
    exact ⟨shared, first, [], .refl, nothing.symm⟩

variable {system : System σ ρ κ ω ε} {allowed : Config σ ρ κ → Act ρ ω ε → Prop} {start config : Config σ ρ κ}

/-- A component whose state and calls every step of the whole shifts lives a life of
its own. What is known of the whole can be used at each step. -/
theorem Reaches.lives_among (reached : Reaches system allowed start config) (view : σ → Option σ')
    (share : Process ρ κ → Multiset (Process ρ' κ'))
    (initial : start.calls = [] ∧ ∀ first ∈ view start.shared, born first)
    (enters : ∀ shared request,
      Shifts component permits born (view shared) 0 (view shared) (share ⟨request, system.enter request⟩))
    (moves : ∀ {shared left right request state outcome shared' state'},
      Reaches system allowed start ⟨shared, left ++ ⟨request, state⟩ :: right⟩ →
      allowed ⟨shared, left ++ ⟨request, state⟩ :: right⟩ (.move left.length outcome) →
      system.move outcome shared state = some (shared', state') →
      Shifts component permits born (view shared) (share ⟨request, state⟩) (view shared') (share ⟨request, state'⟩))
    (happens : ∀ {shared calls event shared'}, Reaches system allowed start ⟨shared, calls⟩ →
      system.environment event shared = some shared' → Shifts component permits born (view shared) 0 (view shared') 0) :
    Lives component permits born (view config.shared) (gather share config.calls) := by
  refine reached.induct ?_ ?_
  · obtain ⟨none, origin⟩ := initial
    rw [none, gather_nil]
    cases found : view start.shared with
    | none => rfl
    | some first => exact ⟨first, origin first found, [], .refl, rfl⟩
  · intro before act after reached lives permitted taken
    cases taken with
    | @enter shared calls request =>
      rw [← zero_add (gather share calls)] at lives
      have joined := lives.shift (enters shared request)
      rwa [gather_append, gather_cons, gather_nil, add_zero, add_comm]
    | move moved =>
      rw [gather_middle] at lives ⊢
      exact lives.shift (moves reached permitted moved)
    | @environment shared calls event shared' happened =>
      rw [← zero_add (gather share calls)] at lives ⊢
      exact lives.shift (happens reached happened)

/-- The same where a call of the whole is at most one of the component. -/
theorem Reaches.lives (reached : Reaches system allowed start config) (view : σ → Option σ')
    (part : Process ρ κ → Option (Process ρ' κ'))
    (initial : start.calls = [] ∧ ∀ first ∈ view start.shared, born first)
    (enters : ∀ shared request,
      Shift component permits born (view shared) none (view shared) (part ⟨request, system.enter request⟩))
    (moves : ∀ {shared left right request state outcome shared' state'},
      Reaches system allowed start ⟨shared, left ++ ⟨request, state⟩ :: right⟩ →
      allowed ⟨shared, left ++ ⟨request, state⟩ :: right⟩ (.move left.length outcome) →
      system.move outcome shared state = some (shared', state') →
      Shift component permits born (view shared) (part ⟨request, state⟩) (view shared') (part ⟨request, state'⟩))
    (happens : ∀ {shared calls event shared'}, Reaches system allowed start ⟨shared, calls⟩ →
      system.environment event shared = some shared' →
      Shift component permits born (view shared) none (view shared') none) :
    Lives component permits born (view config.shared) (parts part config.calls) := by
  rw [← gather_optional]
  refine reached.lives_among view (fun process => optional (part process)) initial ?_ ?_ ?_
  · exact fun shared request => (enters shared request).all
  · exact fun reached permitted moved => (moves reached permitted moved).all
  · exact fun reached happened => (happens reached happened).all

end Component

end Interleaving
