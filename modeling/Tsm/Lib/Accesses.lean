import Tsm.Lib.Interleaving

/-! Operations made of several accesses. Some steps of a system carry out an operation
on a memory; here each of them makes its loads and stores one at a time, and the steps
of others come in between. A run in which no access comes between those of another
operation is one of the system itself. -/

namespace Accesses
open Interleaving

variable {σ ρ κ ω ε μ π : Type*}

/-- What a step does with the memory. -/
inductive Use (π : Type*) where
  | nothing
  | reads
  | carries (operation : π)
  deriving DecidableEq

/-- Where an operation can stand after some of its accesses, and the memory then. `next`
makes the next access, and says where the operation stands unless it is over. -/
inductive Partly (next : π → μ → Option (μ × Option π)) (operation : π) (memory : μ) : π → μ → Prop where
  | begins : Partly next operation memory operation memory
  | access {place now place' now'} (earlier : Partly next operation memory place now)
      (made : next place now = some (now', some place')) : Partly next operation memory place' now'

/-- A system whose steps use a memory, calls and a background thread. Whoever cannot make
his next access stays where he is. -/
structure Splitting (system : System σ ρ κ ω ε) (μ π : Type*) where
  get : σ → μ
  put : μ → σ → σ
  put_get : ∀ shared, put (get shared) shared = shared
  get_put : ∀ memory shared, get (put memory shared) = memory
  put_put : ∀ first second shared, put second (put first shared) = put second shared
  next : π → μ → Option (μ × Option π)
  uses : κ → Use π
  agent : ε
  carried : σ → Option π
  /-- What is left of a step when its operation is over. -/
  body : ω → σ → κ → Option (σ × κ)
  agentBody : σ → Option σ
  idle : ∀ {state}, uses state = .nothing → ∀ outcome memory shared,
    system.move outcome (put memory shared) state =
      (system.move outcome shared state).map fun (shared, state) => (put memory shared, state)
  reads : ∀ {outcome shared state shared' state'}, uses state = .reads →
    system.move outcome shared state = some (shared', state') → get shared' = get shared
  carries : ∀ {state operation place shared now memory}, uses state = .carries operation →
    Partly next operation (get shared) place now → next place now = some (memory, none) →
    ∀ outcome, system.move outcome shared state = body outcome (put memory shared) state
  happens : ∀ {event shared}, event ≠ agent ∨ carried shared = none → ∀ memory,
    system.environment event (put memory shared) = (system.environment event shared).map (put memory)
  agentCarries : ∀ {operation place shared now memory}, carried shared = some operation →
    Partly next operation (get shared) place now → next place now = some (memory, none) →
    system.environment agent shared = agentBody (put memory shared)
  carried_put : ∀ memory shared, carried (put memory shared) = carried shared
  carried_move : ∀ {outcome shared state shared' state'}, uses state = .nothing →
    system.move outcome shared state = some (shared', state') → carried shared' = carried shared
  carried_event : ∀ {event shared shared'}, event ≠ agent →
    system.environment event shared = some shared' → carried shared' = carried shared

/-- A call, and where the operation of its next step stands if that has begun. -/
structure Working (κ π : Type*) where
  state : κ
  place : Option π

/-- The same for the background thread. `settled` records the memory without the accesses
of an operation that is not over; no step reads it. -/
structure Threaded (σ μ π : Type*) where
  state : σ
  place : Option π
  settled : μ

namespace Splitting
variable {system : System σ ρ κ ω ε} (splitting : Splitting system μ π)

def move (outcome : ω) (shared : Threaded σ μ π) (call : Working κ π) : Option (Threaded σ μ π × Working κ π) :=
  match splitting.uses call.state with
  | .carries operation =>
    match splitting.next (call.place.getD operation) (splitting.get shared.state) with
    | none => none
    | some (memory, some place) => some ({ shared with state := splitting.put memory shared.state }, ⟨call.state, some place⟩)
    | some (memory, none) =>
      (splitting.body outcome (splitting.put memory shared.state) call.state).map fun (state, call) =>
        (⟨state, shared.place, splitting.get state⟩, ⟨call, none⟩)
  | .nothing | .reads =>
    (system.move outcome shared.state call.state).map fun (state, call) => ({ shared with state }, ⟨call, none⟩)

def agentMove (shared : Threaded σ μ π) : Option (Threaded σ μ π) :=
  match splitting.carried shared.state with
  | some operation =>
    match splitting.next (shared.place.getD operation) (splitting.get shared.state) with
    | none => none
    | some (memory, some place) => some { shared with state := splitting.put memory shared.state, place := some place }
    | some (memory, none) =>
      (splitting.agentBody (splitting.put memory shared.state)).map fun state => ⟨state, none, splitting.get state⟩
  | none => (system.environment splitting.agent shared.state).map fun state => { shared with state, place := none }

def environment [DecidableEq ε] (event : ε) (shared : Threaded σ μ π) : Option (Threaded σ μ π) :=
  if event = splitting.agent then splitting.agentMove shared
  else (system.environment event shared.state).map fun state => { shared with state }

def fine [DecidableEq ε] : System (Threaded σ μ π) ρ (Working κ π) ω ε :=
  ⟨fun request => ⟨system.enter request, none⟩, splitting.move, splitting.environment⟩

def start (shared : σ) : Config (Threaded σ μ π) ρ (Working κ π) := ⟨⟨shared, none, splitting.get shared⟩, []⟩

/-- No access is made while the operation of another thread has begun and is not over. -/
def Alone (config : Config (Threaded σ μ π) ρ (Working κ π)) : Act ρ ω ε → Prop
  | .enter _ => True
  | .move call _ => ∀ process ∈ config.calls[call]?, splitting.uses process.state.state ≠ .nothing →
    config.shared.place.isNone ∧ ∀ other ∈ config.calls.eraseIdx call, other.state.place.isNone
  | .environment event => event = splitting.agent → (splitting.carried config.shared.state).isSome →
    ∀ process ∈ config.calls, process.state.place.isNone

instance [DecidableEq π] [DecidableEq ε] (config : Config (Threaded σ μ π) ρ (Working κ π)) : (act : Act ρ ω ε) → Decidable (splitting.Alone config act)
  | .enter _ => isTrue trivial
  | .move _ _ => inferInstanceAs (Decidable (∀ process ∈ _, _ → _ ∧ _))
  | .environment _ => inferInstanceAs (Decidable (_ → _ → _))

/-! What one step can do. -/

inductive CallStep (outcome : ω) (shared : Threaded σ μ π) : Working κ π → Threaded σ μ π → Working κ π → Prop where
  | whole {state place state' shared'} (plain : splitting.uses state = .nothing ∨ splitting.uses state = .reads)
      (moved : system.move outcome shared.state state = some (shared', state')) :
      CallStep outcome shared ⟨state, place⟩ { shared with state := shared' } ⟨state', none⟩
  | access {state place operation memory place'} (carries : splitting.uses state = .carries operation)
      (made : splitting.next (place.getD operation) (splitting.get shared.state) = some (memory, some place')) :
      CallStep outcome shared ⟨state, place⟩ { shared with state := splitting.put memory shared.state } ⟨state, some place'⟩
  | last {state place operation memory shared' state'} (carries : splitting.uses state = .carries operation)
      (made : splitting.next (place.getD operation) (splitting.get shared.state) = some (memory, none))
      (body : splitting.body outcome (splitting.put memory shared.state) state = some (shared', state')) :
      CallStep outcome shared ⟨state, place⟩ ⟨shared', shared.place, splitting.get shared'⟩ ⟨state', none⟩

theorem move_cases {outcome : ω} {shared shared' : Threaded σ μ π} {call call' : Working κ π}
    (moved : splitting.move outcome shared call = some (shared', call')) :
    splitting.CallStep outcome shared call shared' call' := by
  obtain ⟨state, place⟩ := call
  simp only [move] at moved
  split at moved
  next operation carries =>
    split at moved
    · cases moved
    next made => cases moved; exact .access carries made
    next made =>
      obtain ⟨⟨_, _⟩, body, equal⟩ := Option.map_eq_some_iff.mp moved
      cases equal
      exact .last carries made body
  next nothing =>
    obtain ⟨⟨_, _⟩, stepped, equal⟩ := Option.map_eq_some_iff.mp moved
    cases equal
    exact .whole (.inl nothing) stepped
  next reads =>
    obtain ⟨⟨_, _⟩, stepped, equal⟩ := Option.map_eq_some_iff.mp moved
    cases equal
    exact .whole (.inr reads) stepped

inductive AgentStep (shared : Threaded σ μ π) : Threaded σ μ π → Prop where
  | whole {shared'} (plain : splitting.carried shared.state = none)
      (happened : system.environment splitting.agent shared.state = some shared') :
      AgentStep shared { shared with state := shared', place := none }
  | access {operation memory place'} (carries : splitting.carried shared.state = some operation)
      (made : splitting.next (shared.place.getD operation) (splitting.get shared.state) = some (memory, some place')) :
      AgentStep shared { shared with state := splitting.put memory shared.state, place := some place' }
  | last {operation memory shared'} (carries : splitting.carried shared.state = some operation)
      (made : splitting.next (shared.place.getD operation) (splitting.get shared.state) = some (memory, none))
      (body : splitting.agentBody (splitting.put memory shared.state) = some shared') :
      AgentStep shared ⟨shared', none, splitting.get shared'⟩

theorem agentMove_cases {shared shared' : Threaded σ μ π} (moved : splitting.agentMove shared = some shared') :
    splitting.AgentStep shared shared' := by
  simp only [agentMove] at moved
  split at moved
  next operation carries =>
    split at moved
    · cases moved
    next made => cases moved; exact .access carries made
    next made =>
      obtain ⟨_, body, equal⟩ := Option.map_eq_some_iff.mp moved
      cases equal
      exact .last carries made body
  next nothing =>
    obtain ⟨_, happened, equal⟩ := Option.map_eq_some_iff.mp moved
    cases equal
    exact .whole nothing happened

/-! At most one operation has begun, and has led where it stands. -/

def begun (call : Working κ π) : Nat := if call.place.isSome then 1 else 0

theorem begun_eq_zero {call : Working κ π} : begun call = 0 ↔ call.place = none := by
  simp [begun]

def Stands (shared : Threaded σ μ π) (call : Working κ π) : Prop :=
  ∀ place ∈ call.place, ∃ operation, splitting.uses call.state = .carries operation ∧
    Partly splitting.next operation shared.settled place (splitting.get shared.state)

def AgentStands (shared : Threaded σ μ π) : Prop :=
  ∀ place ∈ shared.place, ∃ operation, splitting.carried shared.state = some operation ∧
    Partly splitting.next operation shared.settled place (splitting.get shared.state)

/-- The memory is settled unless an operation has begun, of the thread or of one call. -/
structure Ordered (shared : Threaded σ μ π) (calls : Nat) : Prop where
  once : shared.place = none ∨ calls = 0
  atMost : calls ≤ 1
  settled : shared.place = none → calls = 0 → splitting.get shared.state = shared.settled
  stands : splitting.AgentStands shared

section Steps
variable {splitting} {shared shared' : Threaded σ μ π} {call call' : Working κ π} {others : Nat}

theorem Stands.quiet (stands : splitting.Stands shared call)
    (plain : splitting.uses call.state = .nothing ∨ splitting.uses call.state = .reads) : call.place = none := by
  apply Option.eq_none_iff_forall_ne_some.mpr
  intro place same
  obtain ⟨operation, carries, _⟩ := stands place same
  rcases plain with nothing | reads
  · cases nothing.symm.trans carries
  · cases reads.symm.trans carries

theorem stands_of_none (none : call.place = none) : splitting.Stands shared call := by
  intro place same
  rw [none] at same
  cases same

/-- The accesses of an operation so far, the next one included where it is the first. -/
theorem Stands.partly {operation : π} (stands : splitting.Stands shared call)
    (carries : splitting.uses call.state = .carries operation)
    (settled : call.place = none → splitting.get shared.state = shared.settled) :
    Partly splitting.next operation shared.settled (call.place.getD operation) (splitting.get shared.state) := by
  cases begun : call.place with
  | none =>
    rw [settled begun]
    exact .begins
  | some place =>
    obtain ⟨operation', carries', partly⟩ := stands place begun
    cases carries.symm.trans carries'
    exact partly

theorem AgentStands.partly {operation : π} (stands : splitting.AgentStands shared)
    (carries : splitting.carried shared.state = some operation)
    (settled : shared.place = none → splitting.get shared.state = shared.settled) :
    Partly splitting.next operation shared.settled (shared.place.getD operation) (splitting.get shared.state) := by
  cases begun : shared.place with
  | none =>
    rw [settled begun]
    exact .begins
  | some place =>
    obtain ⟨operation', carries', partly⟩ := stands place begun
    cases carries.symm.trans carries'
    exact partly

/-- A step that does nothing with the memory leaves it as it is. -/
theorem get_of_nothing {outcome : ω} {state : σ} {call : κ} {state' : σ} {call' : κ} (nothing : splitting.uses call = .nothing)
    (moved : system.move outcome state call = some (state', call')) : splitting.get state' = splitting.get state := by
  have same := splitting.idle nothing outcome (splitting.get state) state
  rw [splitting.put_get, moved] at same
  have equal := congrArg (fun result => result.map fun (state, _) => splitting.get state) same
  simpa [splitting.get_put] using equal

theorem get_of_event {event : ε} {state state' : σ} (other : event ≠ splitting.agent ∨ splitting.carried state = none)
    (happened : system.environment event state = some state') : splitting.get state' = splitting.get state := by
  have same := splitting.happens other (splitting.get state)
  rw [splitting.put_get, happened] at same
  have equal := congrArg (Option.map splitting.get) same
  simpa [splitting.get_put] using equal

theorem call_keeps {outcome : ω} (ordered : splitting.Ordered shared (begun call + others)) (stands : splitting.Stands shared call)
    (alone : splitting.uses call.state ≠ .nothing → shared.place = none ∧ others = 0)
    (step : splitting.CallStep outcome shared call shared' call') :
    splitting.Ordered shared' (begun call' + others) ∧ splitting.Stands shared' call' := by
  obtain ⟨once, atMost, settled, agent⟩ := ordered
  cases step with
  | @whole state place state' shared' plain moved =>
    have quiet : place = none := stands.quiet plain
    subst quiet
    have same : splitting.get shared' = splitting.get shared.state :=
      plain.elim (fun nothing => get_of_nothing nothing moved) (fun reads => splitting.reads reads moved)
    refine ⟨⟨once, atMost, fun none calls => same.trans (settled none calls), ?_⟩, stands_of_none rfl⟩
    intro place begun
    obtain ⟨operation, carries, partly⟩ := agent place begun
    rcases plain with nothing | reads
    · exact ⟨operation, (splitting.carried_move nothing moved).trans carries, same ▸ partly⟩
    · exact absurd begun (by simp [(alone (by simp [reads])).1])
  | @access state place operation memory place' carries made =>
    obtain ⟨idle, none⟩ := alone (by simp [carries])
    subst none
    have partly := stands.partly carries fun quiet => settled idle (begun_eq_zero.mpr quiet)
    refine ⟨⟨.inl idle, by simp [begun], by simp [begun], ?_⟩, ?_⟩
    · intro place begun
      exact absurd begun (by simp [idle])
    · intro stood same
      cases same
      refine ⟨operation, carries, ?_⟩
      rw [splitting.get_put]
      exact partly.access made
  | @last state place operation memory shared' state' carries made body =>
    obtain ⟨idle, none⟩ := alone (by simp [carries])
    subst none
    refine ⟨⟨.inl idle, by simp [begun], fun _ _ => rfl, ?_⟩, stands_of_none rfl⟩
    intro place begun
    exact absurd begun (by simp [idle])

theorem agent_keeps (ordered : splitting.Ordered shared others)
    (alone : (splitting.carried shared.state).isSome → others = 0) (step : splitting.AgentStep shared shared') :
    splitting.Ordered shared' others ∧
      (others ≠ 0 → shared'.settled = shared.settled ∧ splitting.get shared'.state = splitting.get shared.state) := by
  obtain ⟨once, atMost, settled, agent⟩ := ordered
  cases step with
  | @whole shared' plain happened =>
    have idle : shared.place = none := by
      apply Option.eq_none_iff_forall_ne_some.mpr
      intro place same
      obtain ⟨operation, carries, _⟩ := agent place same
      cases plain.symm.trans carries
    have same := get_of_event (.inr plain) happened
    refine ⟨⟨.inl rfl, atMost, fun _ calls => same.trans (settled idle calls), fun place begun => by cases begun⟩, fun _ => ⟨rfl, same⟩⟩
  | @access operation memory place' carries made =>
    have none : others = 0 := alone (by simp [carries])
    subst none
    have partly := agent.partly carries fun idle => settled idle rfl
    refine ⟨⟨.inr rfl, atMost, by simp, ?_⟩, by simp⟩
    intro place same
    cases same
    refine ⟨operation, (splitting.carried_put _ _).trans carries, ?_⟩
    rw [splitting.get_put]
    exact partly.access made
  | @last operation memory shared' carries made body =>
    have none : others = 0 := alone (by simp [carries])
    exact ⟨⟨.inl rfl, atMost, fun _ _ => rfl, fun place begun => by cases begun⟩, fun some => absurd none some⟩

end Steps

section Runs
variable {splitting} {start config : Config (Threaded σ μ π) ρ (Working κ π)}

/-- What holds in every configuration of a run without overlaps. -/
def InOrder (splitting : Splitting system μ π) (config : Config (Threaded σ μ π) ρ (Working κ π)) : Prop :=
  splitting.Ordered config.shared (total begun config.calls) ∧ ∀ process ∈ config.calls, splitting.Stands config.shared process.state

theorem inOrder_start (shared : σ) : splitting.InOrder (splitting.start shared : Config (Threaded σ μ π) ρ (Working κ π)) := by
  refine ⟨⟨.inl rfl, by simp [Splitting.start], fun _ _ => rfl, fun place begun => by cases begun⟩, by simp [Splitting.start]⟩

theorem others_quiet {others : List (Process ρ (Working κ π))} (none : ∀ other ∈ others, other.state.place.isNone) :
    total begun others = 0 :=
  total_eq_zero fun process member => begun_eq_zero.mpr (Option.isNone_iff_eq_none.mp (none process member))

theorem alone_move {shared : Threaded σ μ π} {left right : List (Process ρ (Working κ π))} {process : Process ρ (Working κ π)}
    {outcome : ω} (alone : splitting.Alone ⟨shared, left ++ process :: right⟩ (.move left.length outcome))
    (uses : splitting.uses process.state.state ≠ .nothing) :
    shared.place = none ∧ ∀ other ∈ left ++ right, other.state.place.isNone := by
  obtain ⟨idle, others⟩ := alone process (by simp) uses
  refine ⟨Option.isNone_iff_eq_none.mp idle, fun other member => others other ?_⟩
  simpa [List.eraseIdx_append_of_length_le] using member

theorem inOrder [DecidableEq ε] (reached : Reaches splitting.fine splitting.Alone start config) (initial : splitting.InOrder start) :
    splitting.InOrder config := by
  refine reached.outline begun splitting.Ordered (fun shared process => splitting.Stands shared process.state) initial ?_ ?_ ?_
  · exact fun _ request => ⟨rfl, stands_of_none rfl⟩
  · intro shared left right request call outcome shared' call' _ alone ordered stands others moved
    have step := splitting.move_cases moved
    have alone' : splitting.uses call.state ≠ .nothing → shared.place = none ∧ ∀ other ∈ left ++ right, other.state.place.isNone :=
      alone_move alone
    obtain ⟨ordered', stands'⟩ := call_keeps ordered stands (fun uses => (alone' uses).imp_right others_quiet) step
    refine ⟨ordered', stands', fun process member => ?_⟩
    by_cases nothing : splitting.uses call.state = .nothing
    · cases step with
      | whole plain body =>
        intro place begun
        obtain ⟨operation, carries, partly⟩ := others process member place begun
        exact ⟨operation, carries, (get_of_nothing nothing body) ▸ partly⟩
      | access carries made | last carries made body => cases nothing.symm.trans carries
    · exact stands_of_none (Option.isNone_iff_eq_none.mp ((alone' nothing).2 process member))
  · intro shared calls event shared' _ alone ordered stands happened
    simp only [fine, environment] at happened
    split at happened
    next same =>
      subst same
      have quiet : (splitting.carried shared.state).isSome → total begun calls = 0 := fun carries =>
        others_quiet (alone rfl carries)
      obtain ⟨ordered', kept⟩ := agent_keeps ordered quiet (splitting.agentMove_cases happened)
      refine ⟨ordered', fun process member place begun => ?_⟩
      obtain ⟨operation, carries, partly⟩ := stands process member place begun
      have some : total Splitting.begun calls ≠ 0 := by
        have less : Splitting.begun process.state ≤ total Splitting.begun calls := le_total member
        rw [Splitting.begun, if_pos (by simp [Option.mem_def.mp begun])] at less
        omega
      obtain ⟨settled, same⟩ := kept some
      exact ⟨operation, carries, by rwa [settled, same]⟩
    next other =>
      obtain ⟨state', stepped, equal⟩ := Option.map_eq_some_iff.mp happened
      cases equal
      have same := get_of_event (.inl other) stepped
      obtain ⟨once, atMost, settled, agent⟩ := ordered
      refine ⟨⟨once, atMost, fun none calls => same.trans (settled none calls), fun place begun => ?_⟩, fun process member place begun => ?_⟩
      · obtain ⟨operation, carries, partly⟩ := agent place begun
        exact ⟨operation, (splitting.carried_event other stepped).trans carries, same ▸ partly⟩
      · obtain ⟨operation, carries, partly⟩ := stands process member place begun
        exact ⟨operation, carries, same ▸ partly⟩

/-- The system as it is without the accesses of operations that are not over. -/
def settle (splitting : Splitting system μ π) : Config (Threaded σ μ π) ρ (Working κ π) → Config σ ρ κ :=
  project (fun shared => splitting.put shared.settled shared.state) Working.state

theorem put_settled {shared : Threaded σ μ π} (settled : splitting.get shared.state = shared.settled) :
    splitting.put shared.settled shared.state = shared.state := by
  rw [← settled, splitting.put_get]

/-- The whole step of a call, when its last access is made. -/
theorem call_simulates {outcome : ω} {shared shared' : Threaded σ μ π} {call call' : Working κ π} {others : Nat}
    (ordered : splitting.Ordered shared (begun call + others)) (stands : splitting.Stands shared call)
    (alone : splitting.uses call.state ≠ .nothing → shared.place = none ∧ others = 0)
    (step : splitting.CallStep outcome shared call shared' call') :
    (splitting.put shared'.settled shared'.state = splitting.put shared.settled shared.state ∧ call'.state = call.state) ∨
      system.move outcome (splitting.put shared.settled shared.state) call.state =
        some (splitting.put shared'.settled shared'.state, call'.state) := by
  cases step with
  | @whole state place state' shared' plain moved =>
    apply Or.inr
    rcases plain with nothing | reads
    · rw [splitting.idle nothing, moved]
      rfl
    · obtain ⟨idle, none⟩ := alone (by simp [reads])
      have quiet : place = Option.none := stands.quiet (.inr reads)
      have settled := ordered.settled idle (by simp [begun, quiet, none])
      have settled' : splitting.get shared' = shared.settled := (splitting.reads reads moved).trans settled
      change system.move outcome (splitting.put shared.settled shared.state) state = some (splitting.put shared.settled shared', state')
      rw [put_settled settled, ← settled', splitting.put_get]
      exact moved
  | access carries made => exact .inl ⟨splitting.put_put _ _ _, rfl⟩
  | @last state place operation memory shared' state' carries made body =>
    obtain ⟨idle, none⟩ := alone (by simp [carries])
    have partly := stands.partly carries fun quiet => ordered.settled idle (by simp [begun_eq_zero.mpr quiet, none])
    rw [← splitting.get_put shared.settled shared.state] at partly
    have whole := splitting.carries carries partly made outcome
    rw [splitting.put_put, body] at whole
    exact .inr (by rw [whole, splitting.put_get])

theorem agent_simulates {shared shared' : Threaded σ μ π} {others : Nat} (ordered : splitting.Ordered shared others)
    (alone : (splitting.carried shared.state).isSome → others = 0) (step : splitting.AgentStep shared shared') :
    splitting.put shared'.settled shared'.state = splitting.put shared.settled shared.state ∨
      system.environment splitting.agent (splitting.put shared.settled shared.state) =
        some (splitting.put shared'.settled shared'.state) := by
  cases step with
  | whole plain happened => exact .inr (by rw [splitting.happens (.inr plain), happened]; rfl)
  | access carries made => exact .inl (splitting.put_put _ _ _)
  | @last operation memory shared' carries made body =>
    have partly := ordered.stands.partly carries fun idle => ordered.settled idle (alone (by simp [carries]))
    rw [← splitting.get_put shared.settled shared.state] at partly
    have whole := splitting.agentCarries ((splitting.carried_put _ _).trans carries) partly made
    rw [splitting.put_put, body] at whole
    exact .inr (by rw [whole, splitting.put_get])

/-- A run in which nobody's accesses overlap is one of the system itself. -/
theorem refines [DecidableEq ε] (reached : Reaches splitting.fine splitting.Alone start config) (initial : splitting.InOrder start) :
    Reaches system Anything (splitting.settle start) (splitting.settle config) := by
  refine reached.induct .refl ?_
  intro before act after reached sofar alone taken
  have ordered := inOrder reached initial
  cases taken with
  | @enter shared calls request =>
    have entered := sofar.step (show Anything _ (.enter request) from trivial) rfl
    simpa [settle, project, fine] using entered
  | @move shared left right request call outcome shared' call' moved =>
    obtain ⟨balanced, stands⟩ := ordered
    rw [total_middle] at balanced
    have quiet : splitting.uses call.state ≠ .nothing → shared.place = none ∧ total begun (left ++ right) = 0 :=
      fun uses => (alone_move alone uses).imp_right others_quiet
    rcases call_simulates balanced (stands ⟨request, call⟩ (by simp)) quiet (splitting.move_cases moved) with ⟨same, stays⟩ | whole
    · simpa [settle, project, same, stays] using sofar
    · let before := (splitting.settle ⟨shared, left⟩).calls
      let after := (splitting.settle ⟨shared, right⟩).calls
      have stepped : Step system ⟨splitting.put shared.settled shared.state, before ++ ⟨request, call.state⟩ :: after⟩
        (.move before.length outcome)
        ⟨splitting.put shared'.settled shared'.state, before ++ ⟨request, call'.state⟩ :: after⟩ := .move whole
      exact sofar.step (show Anything _ (.move left.length outcome) from trivial) (by
        simpa [settle, project, before, after] using stepped.enabled)
  | @environment shared calls event shared' happened =>
    simp only [fine, environment] at happened
    split at happened
    next same =>
      subst same
      have quiet : (splitting.carried shared.state).isSome → total begun calls = 0 := fun carries =>
        others_quiet (alone rfl carries)
      rcases agent_simulates ordered.1 quiet (splitting.agentMove_cases happened) with same | whole
      · simpa [settle, project, same] using sofar
      · have stepped : Step system (splitting.settle ⟨shared, calls⟩) (.environment splitting.agent)
          ⟨splitting.put shared'.settled shared'.state, (splitting.settle ⟨shared, calls⟩).calls⟩ := .environment whole
        exact sofar.step (show Anything _ (.environment splitting.agent) from trivial) stepped.enabled
    next other =>
      obtain ⟨state', body, equal⟩ := Option.map_eq_some_iff.mp happened
      cases equal
      have whole : system.environment event (splitting.put shared.settled shared.state) =
          some (splitting.put shared.settled state') := by
        rw [splitting.happens (.inl other), body]
        rfl
      have stepped : Step system (splitting.settle ⟨shared, calls⟩) (.environment event)
        ⟨splitting.put shared.settled state', (splitting.settle ⟨shared, calls⟩).calls⟩ := .environment whole
      exact sofar.step (show Anything _ (.environment event) from trivial) stepped.enabled

end Runs

end Splitting

end Accesses
