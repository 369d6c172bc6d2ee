import Mathlib.Data.Multiset.AddSub
import Mathlib.Logic.Function.Basic
import Tsm.Lib.Interleaving

/-! Steps that run under binary semaphores. A system whose steps are whole sections
becomes one in which each `down` and each `up` is a step of its own, for its calls
and for one background thread. The runs of the second are runs of the first, the
semaphores are held by one party at a time, and somebody can always go on. -/

namespace Sections
open Interleaving

variable {σ ρ κ ω ε L : Type*}

/-- The semaphores under which each step is taken, in the order in which they are
acquired. A call releases after its step what it does not hold any longer. -/
structure Locking (system : System σ ρ κ ω ε) (L : Type*) where
  takes : κ → List L
  gives : κ → List L
  holds : κ → Multiset L
  agent : ε
  agentTakes : σ → List L
  entered : ∀ request, holds (system.enter request) = 0
  moved : ∀ {outcome shared state shared' state'}, system.move outcome shared state = some (shared', state') →
    holds state + takes state = gives state + holds state' ∧ agentTakes shared' = agentTakes shared
  happened : ∀ {event shared shared'}, event ≠ agent → system.environment event shared = some shared' →
    agentTakes shared' = agentTakes shared

/-- The semaphores still to acquire before a step, or still to release after it. -/
inductive Phase (L : Type*) where
  | taking (rest : List L)
  | giving (rest : List L)
  deriving DecidableEq, Repr

/-- Releases what is left, and goes on with the section of the next step. -/
def Phase.after (gives takes : List L) : Phase L :=
  match gives with
  | [] => .taking takes
  | gives => .giving gives

/-- Everything is acquired: what comes next is the step itself. -/
def Phase.taken : Phase L → Bool
  | .taking [] => true
  | _ => false

theorem Phase.taken_iff {phase : Phase L} : phase.taken = true ↔ phase = .taking [] := by
  rcases phase with (_ | _) | _ <;> simp [Phase.taken]

/-- A call in its sections. `downs` and `ups` record what it has acquired and released. -/
structure Party (κ L : Type*) where
  state : κ
  phase : Phase L
  downs : Multiset L
  ups : Multiset L

structure World (σ L : Type*) where
  shared : σ
  sems : L → Nat
  /-- The background thread. -/
  phase : Phase L
  downs : Multiset L
  ups : Multiset L

variable [DecidableEq L] {system : System σ ρ κ ω ε}

def down (sems : L → Nat) (sem : L) : L → Nat := Function.update sems sem (sems sem - 1)

def up (sems : L → Nat) (sem : L) : L → Nat := Function.update sems sem (sems sem + 1)

namespace Locking

def enter (locking : Locking system L) (request : ρ) : Party κ L :=
  ⟨system.enter request, .taking (locking.takes (system.enter request)), 0, 0⟩

def move (locking : Locking system L) (outcome : ω) (world : World σ L) (party : Party κ L) :
    Option (World σ L × Party κ L) :=
  match party.phase with
  | .taking (sem :: rest) =>
    if world.sems sem = 0 then none
    else some ({ world with sems := down world.sems sem },
      { party with phase := .taking rest, downs := sem ::ₘ party.downs })
  | .taking [] =>
    match system.move outcome world.shared party.state with
    | none => none
    | some (shared, state) =>
      some ({ world with shared },
        { party with state, phase := .after (locking.gives party.state) (locking.takes state) })
  | .giving (sem :: rest) =>
    some ({ world with sems := up world.sems sem },
      { party with phase := .after rest (locking.takes party.state), ups := sem ::ₘ party.ups })
  | .giving [] => none

/-- The thread holds nothing between its steps. -/
def agentMove (locking : Locking system L) (world : World σ L) : Option (World σ L) :=
  match world.phase with
  | .taking (sem :: rest) =>
    if world.sems sem = 0 then none
    else some { world with sems := down world.sems sem, phase := .taking rest, downs := sem ::ₘ world.downs }
  | .taking [] =>
    match system.environment locking.agent world.shared with
    | none => none
    | some shared =>
      some { world with shared, phase := .after (locking.agentTakes world.shared) (locking.agentTakes shared) }
  | .giving (sem :: rest) =>
    some { world with sems := up world.sems sem
                      phase := .after rest (locking.agentTakes world.shared)
                      ups := sem ::ₘ world.ups }
  | .giving [] => none

def environment [DecidableEq ε] (locking : Locking system L) (event : ε) (world : World σ L) : Option (World σ L) :=
  if event = locking.agent then locking.agentMove world
  else
    match system.environment event world.shared with
    | none => none
    | some shared => some { world with shared }

def locked [DecidableEq ε] (locking : Locking system L) : System (World σ L) ρ (Party κ L) ω ε :=
  ⟨locking.enter, locking.move, locking.environment⟩

/-- Nobody has acquired anything. -/
def start (locking : Locking system L) (shared : σ) : Config (World σ L) ρ (Party κ L) :=
  ⟨⟨shared, fun _ => 1, .taking (locking.agentTakes shared), 0, 0⟩, []⟩

variable (locking : Locking system L)

/-! What one step can do. -/

inductive PartyStep (outcome : ω) (world : World σ L) : Party κ L → World σ L → Party κ L → Prop where
  | down {state sem rest downs ups} (free : world.sems sem ≠ 0) :
      PartyStep outcome world ⟨state, .taking (sem :: rest), downs, ups⟩ { world with sems := down world.sems sem }
        ⟨state, .taking rest, sem ::ₘ downs, ups⟩
  | body {state downs ups shared' state'} (moved : system.move outcome world.shared state = some (shared', state')) :
      PartyStep outcome world ⟨state, .taking [], downs, ups⟩ { world with shared := shared' }
        ⟨state', .after (locking.gives state) (locking.takes state'), downs, ups⟩
  | up {state sem rest downs ups} :
      PartyStep outcome world ⟨state, .giving (sem :: rest), downs, ups⟩ { world with sems := up world.sems sem }
        ⟨state, .after rest (locking.takes state), downs, sem ::ₘ ups⟩

theorem move_cases {outcome : ω} {world world' : World σ L} {party party' : Party κ L}
    (moved : locking.move outcome world party = some (world', party')) :
    PartyStep locking outcome world party world' party' := by
  obtain ⟨state, phase, downs, ups⟩ := party
  unfold move at moved
  split at moved
  next sem rest same =>
    cases same
    split at moved
    · cases moved
    next free => cases moved; exact .down free
  next same =>
    cases same
    split at moved
    · cases moved
    next body => cases moved; exact .body body
  next same => cases same; cases moved; exact .up
  · cases moved

inductive AgentStep (world : World σ L) : World σ L → Prop where
  | down {sem rest} (phase : world.phase = .taking (sem :: rest)) (free : world.sems sem ≠ 0) :
      AgentStep world
        { world with sems := down world.sems sem, phase := .taking rest, downs := sem ::ₘ world.downs }
  | body {shared'} (phase : world.phase = .taking [])
      (happened : system.environment locking.agent world.shared = some shared') :
      AgentStep world
        { world with shared := shared'
                     phase := .after (locking.agentTakes world.shared) (locking.agentTakes shared') }
  | up {sem rest} (phase : world.phase = .giving (sem :: rest)) :
      AgentStep world
        { world with sems := up world.sems sem
                     phase := .after rest (locking.agentTakes world.shared)
                     ups := sem ::ₘ world.ups }

theorem agentMove_cases {world world' : World σ L} (moved : locking.agentMove world = some world') :
    AgentStep locking world world' := by
  unfold agentMove at moved
  split at moved
  next phase =>
    split at moved
    · cases moved
    next free => cases moved; exact .down phase free
  next phase =>
    split at moved
    · cases moved
    next happened => cases moved; exact .body phase happened
  next phase => cases moved; exact .up phase
  · cases moved

/-! What the parties hold. -/

def held (party : Party κ L) : Multiset L :=
  match party.phase with
  | .taking rest => locking.holds party.state + (locking.takes party.state - rest)
  | .giving rest => locking.holds party.state + rest

def agentHeld (world : World σ L) : Multiset L :=
  match world.phase with
  | .taking rest => locking.agentTakes world.shared - rest
  | .giving rest => rest

/-- What is left of a section is the end of it. -/
def Phase.Of (phase : Phase L) (takes : List L) : Prop :=
  match phase with
  | .taking rest => rest <:+ takes
  | .giving rest => rest ≠ []

/-- A party keeps to its sections, and has acquired what it has released or holds. -/
def Keeps (party : Party κ L) : Prop :=
  Phase.Of party.phase (locking.takes party.state) ∧ party.downs = party.ups + locking.held party

def AgentKeeps (world : World σ L) : Prop :=
  Phase.Of world.phase (locking.agentTakes world.shared) ∧ world.downs = world.ups + locking.agentHeld world

/-- A semaphore is down while it is held, and it is held once. -/
def Exclusive (sems : L → Nat) (held : Multiset L) : Prop := ∀ sem, sems sem + held.count sem = 1

theorem Exclusive.down {sems : L → Nat} {held : Multiset L} {sem : L} (exclusive : Exclusive sems held)
    (free : sems sem ≠ 0) : Exclusive (down sems sem) (sem ::ₘ held) := by
  intro other
  have one := exclusive other
  rw [Sections.down, Function.update_apply, Multiset.count_cons]
  split
  next same =>
    subst same
    omega
  · exact one

theorem Exclusive.up {sems : L → Nat} {held : Multiset L} {sem : L} (exclusive : Exclusive sems (sem ::ₘ held)) :
    Exclusive (up sems sem) held := by
  intro other
  have one := exclusive other
  rw [Multiset.count_cons] at one
  rw [Sections.up, Function.update_apply]
  split
  next same =>
    subst same
    simp only [if_true] at one
    omega
  next apart =>
    rw [if_neg apart] at one
    exact one

omit [DecidableEq L] in
theorem after_of (gives takes : List L) : Phase.Of (.after gives takes) takes := by
  cases gives with
  | nil => exact List.suffix_refl takes
  | cons => exact List.cons_ne_nil _ _

private theorem sub_all (sems : Multiset L) : sems - sems = 0 := by
  ext
  simp

theorem held_taking (state : κ) (rest : List L) (downs ups : Multiset L) :
    locking.held ⟨state, .taking rest, downs, ups⟩ = locking.holds state + (locking.takes state - rest) := rfl

theorem held_giving (state : κ) (rest : List L) (downs ups : Multiset L) :
    locking.held ⟨state, .giving rest, downs, ups⟩ = locking.holds state + rest := rfl

theorem held_of_taken {party : Party κ L} (phase : party.phase = .taking []) :
    locking.held party = locking.holds party.state + locking.takes party.state := by
  obtain ⟨state, _, downs, ups⟩ := party
  cases phase
  rw [held_taking, Multiset.coe_nil, Multiset.sub_zero]

theorem holds_le_held (party : Party κ L) : locking.holds party.state ≤ locking.held party := by
  unfold held
  split <;> exact Multiset.le_add_right _ _

theorem held_after (state : κ) (gives : List L) (downs ups : Multiset L) :
    locking.held ⟨state, .after gives (locking.takes state), downs, ups⟩ = locking.holds state + gives := by
  cases gives with
  | nil => rw [Phase.after, held_taking, sub_all, Multiset.coe_nil]
  | cons => rfl

theorem agentHeld_after (world : World σ L) (gives : List L) :
    locking.agentHeld { world with phase := .after gives (locking.agentTakes world.shared) } = gives := by
  cases gives with
  | nil => exact sub_all _
  | cons => rfl

/-- Acquiring the next semaphore of a section. -/
theorem sub_of_suffix {sem : L} {rest takes : List L} (inside : sem :: rest <:+ takes) :
    (takes - rest : Multiset L) = sem ::ₘ (takes - (sem :: rest : List L)) := by
  obtain ⟨taken, rfl⟩ := inside
  have whole : ((taken ++ sem :: rest : List L) : Multiset L) = (sem ::ₘ taken) + rest := by
    rw [← Multiset.coe_add, ← Multiset.cons_coe, Multiset.add_cons, Multiset.cons_add]
  rw [whole, Multiset.add_sub_cancel_right, ← whole, ← Multiset.coe_add, Multiset.add_sub_cancel_right]

section Steps
variable {world world' : World σ L} {others : Multiset L}

theorem party_keeps {outcome : ω} {party party' : Party κ L}
    (exclusive : Exclusive world.sems (locking.held party + others + locking.agentHeld world))
    (keeps : locking.Keeps party) (agent : locking.AgentKeeps world)
    (step : PartyStep locking outcome world party world' party') :
    Exclusive world'.sems (locking.held party' + others + locking.agentHeld world') ∧
      locking.Keeps party' ∧ locking.AgentKeeps world' := by
  cases step with
  | @down state sem rest downs ups free =>
    obtain ⟨inside, tally⟩ := keeps
    have more : locking.held ⟨state, .taking rest, sem ::ₘ downs, ups⟩ =
        sem ::ₘ locking.held ⟨state, .taking (sem :: rest), downs, ups⟩ := by
      rw [held_taking, held_taking, sub_of_suffix inside, Multiset.add_cons]
    refine ⟨?_, ⟨(List.suffix_cons sem rest).trans inside, ?_⟩, agent⟩
    · rw [more, Multiset.cons_add, Multiset.cons_add]
      exact exclusive.down free
    · rw [more, Multiset.add_cons]
      exact congrArg _ tally
  | @body state downs ups shared' state' moved =>
    obtain ⟨inside, tally⟩ := keeps
    obtain ⟨same, idle⟩ := locking.moved moved
    have kept : locking.held ⟨state', .after (locking.gives state) (locking.takes state'), downs, ups⟩ =
        locking.held ⟨state, .taking [], downs, ups⟩ := by
      rw [held_after, held_taking, Multiset.coe_nil, Multiset.sub_zero, same, add_comm]
    have agentKept : locking.agentHeld { world with shared := shared' } = locking.agentHeld world := by
      simp only [agentHeld, idle]
    refine ⟨?_, ⟨after_of _ _, ?_⟩, ?_, ?_⟩
    · rw [kept, agentKept]
      exact exclusive
    · rw [kept]
      exact tally
    · simp only [idle]
      exact agent.1
    · rw [agentKept]
      exact agent.2
  | @up state sem rest downs ups =>
    obtain ⟨inside, tally⟩ := keeps
    have less : locking.held ⟨state, .giving (sem :: rest), downs, ups⟩ =
        sem ::ₘ locking.held ⟨state, .after rest (locking.takes state), downs, sem ::ₘ ups⟩ := by
      rw [held_giving, held_after, ← Multiset.cons_coe, Multiset.add_cons]
    refine ⟨?_, ⟨after_of _ _, ?_⟩, agent⟩
    · rw [less, Multiset.cons_add, Multiset.cons_add] at exclusive
      exact exclusive.up
    · rw [less, Multiset.add_cons, ← Multiset.cons_add] at tally
      exact tally

theorem agent_keeps (exclusive : Exclusive world.sems (others + locking.agentHeld world))
    (agent : locking.AgentKeeps world) (step : AgentStep locking world world') :
    Exclusive world'.sems (others + locking.agentHeld world') ∧ locking.AgentKeeps world' := by
  obtain ⟨shared, sems, phase, downs, ups⟩ := world
  obtain ⟨inside, tally⟩ := agent
  cases step with
  | @down sem rest taking free =>
    cases taking
    have more : locking.agentHeld ⟨shared, down sems sem, .taking rest, sem ::ₘ downs, ups⟩ =
        sem ::ₘ locking.agentHeld ⟨shared, sems, .taking (sem :: rest), downs, ups⟩ := sub_of_suffix inside
    refine ⟨?_, (List.suffix_cons sem rest).trans inside, ?_⟩
    · rw [more, Multiset.add_cons]
      exact exclusive.down free
    · rw [more, Multiset.add_cons]
      exact congrArg _ tally
  | @body shared' taking happened =>
    cases taking
    have kept : locking.agentHeld ⟨shared', sems, .after (locking.agentTakes shared) (locking.agentTakes shared'), downs, ups⟩ =
        locking.agentHeld ⟨shared, sems, .taking [], downs, ups⟩ := by
      rw [locking.agentHeld_after ⟨shared', sems, .taking [], downs, ups⟩]
      exact (Multiset.sub_zero _).symm
    refine ⟨?_, after_of _ _, ?_⟩
    · rw [kept]
      exact exclusive
    · rw [kept]
      exact tally
  | @up sem rest giving =>
    cases giving
    have less : locking.agentHeld ⟨shared, sems, .giving (sem :: rest), downs, ups⟩ =
        sem ::ₘ locking.agentHeld ⟨shared, up sems sem, .after rest (locking.agentTakes shared), downs, sem ::ₘ ups⟩ := by
      rw [locking.agentHeld_after ⟨shared, up sems sem, .taking [], downs, sem ::ₘ ups⟩]
      rfl
    refine ⟨?_, after_of _ _, ?_⟩
    · rw [less, Multiset.add_cons] at exclusive
      exact exclusive.up
    · rw [less, Multiset.add_cons, ← Multiset.cons_add] at tally
      exact tally

end Steps

/-! Whoever holds a semaphore can go on, or waits for one that is acquired later. -/

/-- The order in which semaphores are acquired, those held between steps first. -/
structure Ordered (rank : L → Nat) : Prop where
  takes : ∀ state, (locking.takes state).Pairwise fun first second => rank first < rank second
  holds : ∀ state, ∀ mine ∈ locking.holds state, ∀ sem ∈ locking.takes state, rank mine < rank sem
  agentTakes : ∀ shared, (locking.agentTakes shared).Pairwise fun first second => rank first < rank second

section Waits
variable {rank : L → Nat} {world : World σ L} {sem : L}

private theorem rank_of_sub {next : L} {rest takes : List L} (inside : next :: rest <:+ takes)
    (ordered : takes.Pairwise fun first second => rank first < rank second)
    (taken : sem ∈ (takes - (next :: rest : List L) : Multiset L)) : rank sem < rank next := by
  obtain ⟨earlier, rfl⟩ := inside
  rw [← Multiset.coe_add, Multiset.add_sub_cancel_right] at taken
  exact (List.pairwise_append.mp ordered).2.2 sem taken next List.mem_cons_self

/-- A party that keeps to its sections can go on, waits for a semaphore, or is
blocked in a step of the system itself. -/
theorem party_goes [Inhabited ω] {party : Party κ L} (keeps : locking.Keeps party) :
    (∃ outcome, (locking.move outcome world party).isSome) ∨
      (∃ next rest, party.phase = .taking (next :: rest) ∧ world.sems next = 0) ∨
      party.phase = .taking [] ∧ ∀ outcome, system.move outcome world.shared party.state = none := by
  obtain ⟨state, phase, downs, ups⟩ := party
  obtain ⟨inside, -⟩ := keeps
  cases phase with
  | giving rest =>
    cases rest with
    | nil => exact absurd rfl inside
    | cons => exact .inl ⟨default, rfl⟩
  | taking rest =>
    cases rest with
    | nil =>
      by_cases blocked : ∀ outcome, system.move outcome world.shared state = none
      · exact .inr (.inr ⟨rfl, blocked⟩)
      · obtain ⟨outcome, moves⟩ := not_forall.mp blocked
        obtain ⟨next, moved⟩ := Option.ne_none_iff_exists'.mp moves
        exact .inl ⟨outcome, by simp [move, moved]⟩
    | cons next rest =>
      by_cases free : world.sems next = 0
      · exact .inr (.inl ⟨next, rest, rfl, free⟩)
      · exact .inl ⟨default, by simp [move, free]⟩

theorem agent_goes (keeps : locking.AgentKeeps world) :
    (locking.agentMove world).isSome ∨
      (∃ next rest, world.phase = .taking (next :: rest) ∧ world.sems next = 0) ∨
      world.phase = .taking [] ∧ system.environment locking.agent world.shared = none := by
  obtain ⟨shared, sems, phase, downs, ups⟩ := world
  obtain ⟨inside, -⟩ := keeps
  cases phase with
  | giving rest =>
    cases rest with
    | nil => exact absurd rfl inside
    | cons => exact .inl rfl
  | taking rest =>
    cases rest with
    | nil =>
      cases happened : system.environment locking.agent shared with
      | none => exact .inr (.inr ⟨rfl, rfl⟩)
      | some next => exact .inl (by simp [agentMove, happened])
    | cons next rest =>
      by_cases free : sems next = 0
      · exact .inr (.inl ⟨next, rest, rfl, free⟩)
      · exact .inl (by simp [agentMove, free])

theorem party_waits {party : Party κ L} (ordered : Ordered locking rank) (keeps : locking.Keeps party)
    (mine : sem ∈ locking.held party) {next rest} (phase : party.phase = .taking (next :: rest)) :
    rank sem < rank next := by
  obtain ⟨state, _, downs, ups⟩ := party
  cases phase
  have inside : next :: rest <:+ locking.takes state := keeps.1
  rw [held_taking] at mine
  rcases Multiset.mem_add.mp mine with held | taken
  · exact ordered.holds state sem held next (inside.subset List.mem_cons_self)
  · exact rank_of_sub inside (ordered.takes state) taken

theorem agent_waits (ordered : Ordered locking rank) (keeps : locking.AgentKeeps world)
    (mine : sem ∈ locking.agentHeld world) {next rest} (phase : world.phase = .taking (next :: rest)) :
    rank sem < rank next := by
  obtain ⟨shared, sems, _, downs, ups⟩ := world
  cases phase
  exact rank_of_sub keeps.1 (ordered.agentTakes shared) mine

end Waits

variable [DecidableEq ε]

/-- Every semaphore is up or held by one party, once; and every party keeps to its
sections and has released what it does not hold. -/
theorem locked_keeps {shared : σ} {config} (reached : Reaches locking.locked Anything (locking.start shared) config) :
    (Exclusive config.shared.sems (total locking.held config.calls + locking.agentHeld config.shared) ∧
      locking.AgentKeeps config.shared) ∧ ∀ process ∈ config.calls, locking.Keeps process.state := by
  refine reached.outline locking.held
    (fun world held => Exclusive world.sems (held + locking.agentHeld world) ∧ locking.AgentKeeps world)
    (fun _ process => locking.Keeps process.state) ?_ ?_ ?_ ?_
  · have nothing : locking.agentHeld (locking.start (ρ := ρ) shared).shared = 0 := sub_all _
    refine ⟨⟨fun sem => ?_, List.suffix_refl _, ?_⟩, by simp [start]⟩
    · rw [nothing]
      rfl
    · rw [nothing]
      rfl
  · intro _ request
    have nothing : locking.held (locking.enter request) = 0 := by
      rw [enter, held_taking, sub_all, locking.entered, add_zero]
    refine ⟨nothing, List.suffix_refl _, ?_⟩
    exact (congrArg (0 + ·) nothing).symm
  · intro world left right request party outcome world' party' _ _ balanced keeps others moved
    have kept := locking.party_keeps balanced.1 keeps balanced.2 (locking.move_cases moved)
    exact ⟨⟨kept.1, kept.2.2⟩, kept.2.1, others⟩
  · intro world calls event world' _ _ balanced keeps happened
    refine ⟨?_, keeps⟩
    simp only [locked, environment] at happened
    split at happened
    · exact locking.agent_keeps balanced.1 balanced.2 (locking.agentMove_cases happened)
    next other =>
      split at happened
      · cases happened
      next shared' happened' =>
        cases happened
        have idle := locking.happened other happened'
        have same : locking.agentHeld { world with shared := shared' } = locking.agentHeld world := by
          simp only [agentHeld, idle]
        refine ⟨?_, ?_, ?_⟩
        · rw [same]
          exact balanced.1
        · simp only [idle]
          exact balanced.2.1
        · rw [same]
          exact balanced.2.2

/-! The runs are runs of the system with whole sections. -/

def forget (process : Process ρ (Party κ L)) : Process ρ κ := ⟨process.request, process.state.state⟩

def project (config : Config (World σ L) ρ (Party κ L)) : Config σ ρ κ :=
  ⟨config.shared.shared, config.calls.map forget⟩

/-- The step is one of the system itself, not a `down` or an `up`. -/
def Body (config : Config (World σ L) ρ (Party κ L)) : Act ρ ω ε → Prop
  | .enter _ => True
  | .move call _ => ∀ process ∈ config.calls[call]?, process.state.phase = .taking []
  | .environment event => event = locking.agent → config.shared.phase = .taking []

instance (config : Config (World σ L) ρ (Party κ L)) : ∀ act : Act ρ ω ε, Decidable (locking.Body config act)
  | .enter _ => isTrue trivial
  | .move _ _ => inferInstanceAs (Decidable (∀ process ∈ _, _))
  | .environment _ => inferInstanceAs (Decidable (_ → _))

/-- A condition on the steps of the system, for those among the steps of its sections. -/
def Lifted (allowed : Config σ ρ κ → Act ρ ω ε → Prop) (config : Config (World σ L) ρ (Party κ L)) (act : Act ρ ω ε) : Prop :=
  locking.Body config act → allowed (project config) act

instance (allowed : Config σ ρ κ → Act ρ ω ε → Prop) [∀ config act, Decidable (allowed config act)]
    (config : Config (World σ L) ρ (Party κ L)) (act : Act ρ ω ε) : Decidable (locking.Lifted allowed config act) :=
  inferInstanceAs (Decidable (_ → _))

theorem locked_refines {allowed : Config σ ρ κ → Act ρ ω ε → Prop} {shared : σ} {config}
    (reached : Reaches locking.locked (locking.Lifted allowed) (locking.start shared) config) :
    Reaches system allowed ⟨shared, []⟩ (project config) := by
  refine reached.induct .refl ?_
  intro before act after _ sofar permitted taken
  cases taken with
  | enter request =>
    have entered := sofar.step (permitted trivial) rfl
    simpa [project, forget, locked, enter] using entered
  | @move world left right request party outcome world' party' moved =>
    cases locking.move_cases moved with
    | down free | up => simpa [project, forget] using sofar
    | @body state _ _ shared' state' body =>
      have stepped : Step system ⟨world.shared, left.map forget ++ ⟨request, state⟩ :: right.map forget⟩
          (.move (left.map (forget (L := L))).length outcome)
          ⟨shared', left.map forget ++ ⟨request, state'⟩ :: right.map forget⟩ := .move body
      rw [List.length_map] at stepped
      exact sofar.step (permitted (by simp [Body])) (by simpa [project, forget] using stepped.enabled)
  | @environment world calls event world' happened =>
    simp only [locked, environment] at happened
    split at happened
    next same =>
      subst same
      cases locking.agentMove_cases happened with
      | down phase free | up phase => exact sofar
      | body phase body => exact sofar.step (permitted fun _ => phase) (Step.environment body).enabled
    next other =>
      split at happened
      · cases happened
      next happened' =>
        cases happened
        exact sofar.step (permitted fun same => absurd same other) (Step.environment happened').enabled

/-- A call or the background thread can take a step. -/
def CanStep (config : Config (World σ L) ρ (Party κ L)) : Prop :=
  (∃ call outcome, (step locking.locked config (.move call outcome)).isSome) ∨
    (step locking.locked config (.environment locking.agent)).isSome

theorem canStep_of_party {config : Config (World σ L) ρ (Party κ L)} {process} (member : process ∈ config.calls)
    (moves : ∃ outcome, (locking.move outcome config.shared process.state).isSome) : locking.CanStep config := by
  obtain ⟨index, found⟩ := List.mem_iff_getElem?.mp member
  obtain ⟨outcome, moves⟩ := moves
  obtain ⟨next, moved⟩ := Option.isSome_iff_exists.mp moves
  refine .inl ⟨index, outcome, ?_⟩
  simp only [step, found, locked, moved]
  rfl

theorem canStep_of_agent {config : Config (World σ L) ρ (Party κ L)}
    (moves : (locking.agentMove config.shared).isSome) : locking.CanStep config := by
  obtain ⟨next, moved⟩ := Option.isSome_iff_exists.mp moves
  exact .inr (by simp [step, locked, environment, moved])

/-- A call that has this semaphore or a later one, and is blocked in a step of the
system itself. -/
def StuckHolder (rank : L → Nat) (config : Config (World σ L) ρ (Party κ L)) (sem : L) : Prop :=
  ∃ process ∈ config.calls, ∃ mine ∈ locking.held process.state, rank sem ≤ rank mine ∧
    process.state.phase = .taking [] ∧
      ∀ outcome, system.move outcome config.shared.shared process.state.state = none

/-- While a semaphore is down somebody can take a step, unless whoever has it is stuck. -/
theorem canStep_of_taken [Inhabited ω] {rank : L → Nat} (ordered : Ordered locking rank) (top : Nat)
    (bounded : ∀ sem, rank sem ≤ top) {shared : σ} {config : Config (World σ L) ρ (Party κ L)}
    (reached : Reaches locking.locked Anything (locking.start shared) config)
    (ready : locking.agentTakes config.shared.shared ≠ [] →
      (system.environment locking.agent config.shared.shared).isSome)
    {sem : L} (taken : config.shared.sems sem = 0) :
    locking.CanStep config ∨ locking.StuckHolder rank config sem := by
  obtain ⟨⟨exclusive, agent⟩, keeps⟩ := locking.locked_keeps reached
  induction gap : top - rank sem using Nat.strongRecOn generalizing sem with
  | ind gap ih =>
    have one := exclusive sem
    have somewhere : sem ∈ total locking.held config.calls + locking.agentHeld config.shared :=
      Multiset.count_pos.mp (by omega)
    have goes : locking.CanStep config ∨ (∃ next, config.shared.sems next = 0 ∧ rank sem < rank next) ∨
        locking.StuckHolder rank config sem := by
      rcases Multiset.mem_add.mp somewhere with held | held
      · obtain ⟨process, member, mine⟩ := mem_total.mp held
        have kept := keeps process member
        rcases locking.party_goes kept with moves | ⟨next, rest, phase, down⟩ | stuck
        · exact .inl (locking.canStep_of_party member moves)
        · exact .inr (.inl ⟨next, down, locking.party_waits ordered kept mine phase⟩)
        · exact .inr (.inr ⟨process, member, sem, mine, Nat.le_refl _, stuck⟩)
      · rcases locking.agent_goes agent with moves | ⟨next, rest, phase, down⟩ | ⟨phase, blocked⟩
        · exact .inl (locking.canStep_of_agent moves)
        · exact .inr (.inl ⟨next, down, locking.agent_waits ordered agent held phase⟩)
        · -- a thread that is blocked in a step of the system has acquired nothing
          have none : locking.agentTakes config.shared.shared = [] := by
            by_contra some
            simp [blocked] at ready
            exact some ready
          simp [agentHeld, phase, none] at held
    rcases goes with steps | ⟨next, down, less⟩ | stuck
    · exact .inl steps
    · -- the holder waits for a semaphore that comes later in the order
      have bound := bounded next
      rcases ih (top - rank next) (by omega) down rfl with steps | ⟨process, member, mine, held, rest⟩
      · exact .inl steps
      · exact .inr ⟨process, member, mine, held, (Nat.le_of_lt less).trans rest.1, rest.2⟩
    · exact .inr stuck

end Locking
end Sections
