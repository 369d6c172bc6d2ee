import Tsm.Lib.Budget
import Tsm.Lib.Sections

/-! Threads that a step can kill. A step that goes through a bad pointer does not
return: the thread is killed where it stands, keeps what it has acquired, and takes
no step any more. In a run without such a step everybody stays alive, and the run is
one of the system in which nobody can be killed. -/

namespace Faults
open Interleaving Sections

variable {σ ρ κ ω ε : Type*}

/-- The steps that kill the call, or the background thread, that takes them. -/
structure Hazards (σ κ ω ε : Type*) where
  call : ω → σ → κ → Bool
  agent : ε
  thread : σ → Bool

/-- A call, or the shared state with the background thread, and whether it was killed. -/
structure Mortal (α : Type*) where
  state : α
  killed : Bool

/-- Nobody was killed yet. -/
abbrev Mortal.alive {α : Type*} (state : α) : Mortal α := ⟨state, false⟩

namespace Hazards

def move (hazards : Hazards σ κ ω ε) (system : System σ ρ κ ω ε) (outcome : ω) (shared : Mortal σ) (call : Mortal κ) :
    Option (Mortal σ × Mortal κ) :=
  if call.killed then none
  else if hazards.call outcome shared.state call.state then some (shared, ⟨call.state, true⟩)
  else (system.move outcome shared.state call.state).map fun (state, call) => (⟨state, shared.killed⟩, .alive call)

def environment [DecidableEq ε] (hazards : Hazards σ κ ω ε) (system : System σ ρ κ ω ε) (event : ε) (shared : Mortal σ) :
    Option (Mortal σ) :=
  if event = hazards.agent ∧ shared.killed then none
  else if event = hazards.agent ∧ hazards.thread shared.state then some ⟨shared.state, true⟩
  else (system.environment event shared.state).map fun state => ⟨state, shared.killed⟩

def mortal [DecidableEq ε] (hazards : Hazards σ κ ω ε) (system : System σ ρ κ ω ε) :
    System (Mortal σ) ρ (Mortal κ) ω ε where
  enter request := .alive (system.enter request)
  move := hazards.move system
  environment := hazards.environment system

/-- The step kills nobody. -/
def Avoided (hazards : Hazards σ κ ω ε) (config : Config σ ρ κ) : Act ρ ω ε → Prop
  | .enter _ => True
  | .move call outcome => ∀ process ∈ config.calls[call]?, hazards.call outcome config.shared process.state = false
  | .environment event => event = hazards.agent → hazards.thread config.shared = false

/-- Where the steps run under semaphores, nobody is killed in a `down` or an `up`. -/
def underLocks (hazards : Hazards σ κ ω ε) (L : Type*) : Hazards (World σ L) (Party κ L) ω ε where
  call outcome world party := party.phase.taken && hazards.call outcome world.shared party.state
  agent := hazards.agent
  thread world := world.phase.taken && hazards.thread world.shared

theorem avoided_underLocks {L : Type*} [DecidableEq L] {hazards : Hazards σ κ ω ε} {system : System σ ρ κ ω ε}
    {locking : Locking system L} {config : Config (World σ L) ρ (Party κ L)} {act}
    (avoided : locking.Body config act → hazards.Avoided (Locking.project config) act) :
    (hazards.underLocks L).Avoided config act := by
  cases act with
  | enter request => trivial
  | move call outcome =>
    intro process found
    by_cases taken : process.state.phase = .taking []
    · have body : locking.Body config (.move call outcome) := by
        intro other there
        cases (Option.mem_def.mp found).symm.trans there
        exact taken
      have safe : hazards.call outcome config.shared.shared process.state.state = false :=
        avoided body (Locking.forget process) (by simp [Locking.project, Option.mem_def.mp found])
      simp [underLocks, safe]
    · simp [underLocks, Phase.taken_iff, taken]
  | environment event =>
    intro agent
    by_cases taken : config.shared.phase = .taking []
    · have safe : hazards.thread config.shared.shared = false := avoided (fun _ => taken) agent
      simp [underLocks, safe]
    · simp [underLocks, Phase.taken_iff, taken]

end Hazards

/-- The same calls in the system in which nobody can be killed. -/
def spared (config : Config (Mortal σ) ρ (Mortal κ)) : Config σ ρ κ := project Mortal.state Mortal.state config

/-- A condition on the steps of the system, for those of the system with faults. -/
def Spared (allowed : Config σ ρ κ → Act ρ ω ε → Prop) (config : Config (Mortal σ) ρ (Mortal κ)) (act : Act ρ ω ε) : Prop :=
  allowed (spared config) act

instance (allowed : Config σ ρ κ → Act ρ ω ε → Prop) [∀ config act, Decidable (allowed config act)]
    (config : Config (Mortal σ) ρ (Mortal κ)) (act : Act ρ ω ε) : Decidable (Spared allowed config act) :=
  inferInstanceAs (Decidable (allowed _ _))

def Unharmed (config : Config (Mortal σ) ρ (Mortal κ)) : Prop :=
  config.shared.killed = false ∧ ∀ process ∈ config.calls, process.state.killed = false

variable [DecidableEq ε] {hazards : Hazards σ κ ω ε} {system : System σ ρ κ ω ε}
  {allowed : Config σ ρ κ → Act ρ ω ε → Prop} {happens : ε → Bool}
  {start before after config : Config (Mortal σ) ρ (Mortal κ)} {act : Act ρ ω ε}

/-- While everybody is alive, a step that kills nobody is one of the system. -/
theorem step_spared (unharmed : Unharmed before) (avoided : hazards.Avoided (spared before) act)
    (taken : Step (hazards.mortal system) before act after) :
    Unharmed after ∧ Step system (spared before) act (spared after) := by
  cases taken with
  | @enter shared calls request =>
    refine ⟨⟨unharmed.1, fun process member => ?_⟩, ?_⟩
    · rcases List.mem_append.mp member with old | new
      · exact unharmed.2 process old
      · rw [List.mem_singleton.mp new]
        rfl
    · have entered : Step system (spared ⟨shared, calls⟩) (.enter request)
        ⟨shared.state, (spared ⟨shared, calls⟩).calls ++ [⟨request, system.enter request⟩]⟩ := .enter request
      simpa [spared, project, Hazards.mortal] using entered
  | @move shared left right request call outcome shared' call' moved =>
    have lives : call.killed = false := unharmed.2 ⟨request, call⟩ (by simp)
    have safe : hazards.call outcome shared.state call.state = false :=
      avoided ⟨request, call.state⟩ (by simp [spared, project])
    simp only [Hazards.mortal, Hazards.move, lives, safe, Bool.false_eq_true, if_false] at moved
    obtain ⟨⟨state', next⟩, body, equal⟩ := Option.map_eq_some_iff.mp moved
    cases equal
    refine ⟨⟨unharmed.1, fun process member => ?_⟩, ?_⟩
    · rcases List.mem_append.mp member with other | member
      · exact unharmed.2 process (List.mem_append_left _ other)
      · rcases List.mem_cons.mp member with rfl | other
        · rfl
        · exact unharmed.2 process (List.mem_append_right _ (List.mem_cons_of_mem _ other))
    · have stepped : Step system
          ⟨shared.state, (spared ⟨shared, left⟩).calls ++ ⟨request, call.state⟩ :: (spared ⟨shared, right⟩).calls⟩
          (.move (spared ⟨shared, left⟩).calls.length outcome)
          ⟨state', (spared ⟨shared, left⟩).calls ++ ⟨request, next⟩ :: (spared ⟨shared, right⟩).calls⟩ := .move body
      simpa [spared, project] using stepped
  | @environment shared calls event shared' happened =>
    have lives : shared.killed = false := unharmed.1
    have safe : ¬ (event = hazards.agent ∧ hazards.thread shared.state = true) := by
      rintro ⟨thread, doomed⟩
      rw [show hazards.thread shared.state = false from avoided thread] at doomed
      cases doomed
    simp only [Hazards.mortal, Hazards.environment, lives, safe, Bool.false_eq_true, and_false, if_false] at happened
    obtain ⟨state', body, equal⟩ := Option.map_eq_some_iff.mp happened
    cases equal
    exact ⟨⟨rfl, unharmed.2⟩, .environment body⟩

/-- While everybody is alive, what can happen in the system can happen, or kills somebody. -/
theorem enabled_of_spared (unharmed : Unharmed config) (enabled : (step system (spared config) act).isSome) :
    (step (hazards.mortal system) config act).isSome := by
  obtain ⟨after, taken⟩ := Option.isSome_iff_exists.mp enabled
  cases act with
  | enter request => rfl
  | move call outcome =>
    obtain ⟨process, shared', state', found, moved, _⟩ := step_move taken
    simp only [spared, project, List.getElem?_map] at found
    obtain ⟨⟨request, mortal⟩, there, rfl⟩ := Option.map_eq_some_iff.mp found
    have lives : mortal.killed = false := unharmed.2 ⟨request, mortal⟩ (List.mem_of_getElem? there)
    have body : system.move outcome config.shared.state mortal.state = some (shared', state') := moved
    by_cases doomed : hazards.call outcome config.shared.state mortal.state
    · simp [step, there, Hazards.mortal, Hazards.move, lives, doomed]
    · simp [step, there, Hazards.mortal, Hazards.move, lives, doomed, body]
  | environment event =>
    obtain ⟨shared', happened, _⟩ := step_environment taken
    have body : system.environment event config.shared.state = some shared' := happened
    by_cases doomed : event = hazards.agent ∧ hazards.thread config.shared.state = true
    · simp [step, Hazards.mortal, Hazards.environment, unharmed.1, doomed.1, doomed.2]
    · simp [step, Hazards.mortal, Hazards.environment, unharmed.1, doomed, body]

/-- In a run that avoids every hazard nobody is killed. -/
theorem unharmed_of_avoids (reached : Reaches (hazards.mortal system) (Spared allowed) start config) (initial : Unharmed start)
    (avoids : ∀ {config act}, Reaches system allowed (spared start) config → allowed config act → hazards.Avoided config act) :
    Unharmed config ∧ Reaches system allowed (spared start) (spared config) := by
  refine reached.induct ⟨initial, .refl⟩ ?_
  intro before act after _ ⟨unharmed, simulated⟩ permitted taken
  obtain ⟨unharmed', taken'⟩ := step_spared unharmed (avoids simulated permitted) taken
  exact ⟨unharmed', simulated.step permitted taken'.enabled⟩

/-- What a run without hazards spends, it spends in the system. -/
def mortalBudget {known : Config σ ρ κ → Prop} (budget : Budget system allowed happens known)
    (avoids : ∀ {config act}, known config → allowed config act → hazards.Avoided config act)
    (counts : happens hazards.agent = true) :
    Budget (hazards.mortal system) (Spared allowed) happens fun config => Unharmed config ∧ known (spared config) where
  left config := budget.left (spared config)
  keeps knows closed taken := by
    obtain ⟨unharmed', taken'⟩ := step_spared knows.1 (avoids knows.2 closed.1) taken
    refine ⟨unharmed', budget.keeps knows.2 ⟨closed.1, ?_⟩ taken'⟩
    exact closed.2
  spends knows permitted taken :=
    budget.spends knows.2 permitted (step_spared knows.1 (avoids knows.2 permitted) taken).2
  idles := by
    intro before event after knows taken idle
    have other : event ≠ hazards.agent := by
      rintro rfl
      rw [counts] at idle
      cases idle
    have avoided : hazards.Avoided (spared before) (.environment event) := fun same => absurd same other
    exact budget.idles knows.2 (step_spared knows.1 avoided taken).2 idle

end Faults
