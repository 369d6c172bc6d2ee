import Tsm.Lib.Components

/-! Programs that use a service. A program takes steps on state of its own and now and
then asks the service, which is a system by itself, and goes on with the answer. All
calls of the program together are one system, in which the service lives a life of its
own: whatever holds in every run of the service holds in it. -/

namespace Service
open Interleaving

variable {σ ρ κ ω ε χ π τ υ θ : Type*}

structure Program (θ χ π ρ τ υ : Type*) where
  enter : θ → π
  /-- One step, with what the program asks of the service at its end. -/
  step : υ → χ → π → Option (χ × π × Option ρ)
  resume : τ → χ → π → χ × π

structure Shared (σ χ : Type*) where
  service : σ
  own : χ

/-- A call of the program: where it is, what it waits for, and what it has been answered. -/
structure Running (π ρ κ : Type*) where
  place : π
  pending : Option (Process ρ κ)
  answered : List (Process ρ κ)

/-- The system they form, given which calls of the service have returned, and what. -/
def served (service : System σ ρ κ ω ε) (answer : κ → Option τ) (program : Program θ χ π ρ τ υ) :
    System (Shared σ χ) θ (Running π ρ κ) (ω × υ) ε where
  enter request := ⟨program.enter request, none, []⟩
  move outcome shared call :=
    match call.pending with
    | none =>
      match program.step outcome.2 shared.own call.place with
      | none => none
      | some (own, place, asks) =>
        some ({ shared with own }, ⟨place, asks.map fun request => ⟨request, service.enter request⟩, call.answered⟩)
    | some asked =>
      match answer asked.state with
      | some value =>
        let (own, place) := program.resume value shared.own call.place
        some ({ shared with own }, ⟨place, none, call.answered ++ [asked]⟩)
      | none =>
        match service.move outcome.1 shared.service asked.state with
        | none => none
        | some (state, moved) => some ({ shared with service := state }, { call with pending := some ⟨asked.request, moved⟩ })
  environment event shared := (service.environment event shared.service).map fun state => { shared with service := state }

variable {service : System σ ρ κ ω ε} {answer : κ → Option τ} {program : Program θ χ π ρ τ υ} {shared shared' : Shared σ χ}
  {call call' : Running π ρ κ} {outcome : ω × υ}

inductive RunStep (service : System σ ρ κ ω ε) (answer : κ → Option τ) (program : Program θ χ π ρ τ υ) (outcome : ω × υ)
    (shared : Shared σ χ) : Running π ρ κ → Shared σ χ → Running π ρ κ → Prop where
  | goes {place answered own place'} (stepped : program.step outcome.2 shared.own place = some (own, place', none)) :
      RunStep service answer program outcome shared ⟨place, none, answered⟩ { shared with own } ⟨place', none, answered⟩
  | asks {place answered own place' request} (stepped : program.step outcome.2 shared.own place = some (own, place', some request)) :
      RunStep service answer program outcome shared ⟨place, none, answered⟩ { shared with own }
        ⟨place', some ⟨request, service.enter request⟩, answered⟩
  | resumes {place answered own place'} {asked : Process ρ κ} {value} (answers : answer asked.state = some value)
      (resumed : program.resume value shared.own place = (own, place')) :
      RunStep service answer program outcome shared ⟨place, some asked, answered⟩ { shared with own }
        ⟨place', none, answered ++ [asked]⟩
  | serves {place answered request state state' moved} (waits : answer state = none)
      (stepped : service.move outcome.1 shared.service state = some (state', moved)) :
      RunStep service answer program outcome shared ⟨place, some ⟨request, state⟩, answered⟩ { shared with service := state' }
        ⟨place, some ⟨request, moved⟩, answered⟩

theorem served_cases (moved : (served service answer program).move outcome shared call = some (shared', call')) :
    RunStep service answer program outcome shared call shared' call' := by
  obtain ⟨place, _ | ⟨request, state⟩, answered⟩ := call
  · simp only [served] at moved
    split at moved
    · cases moved
    next own place' asks stepped =>
      cases asks with
      | none => cases moved; exact .goes stepped
      | some request => cases moved; exact .asks stepped
  · simp only [served] at moved
    split at moved
    next value answers => cases moved; exact .resumes answers rfl
    next waits =>
      split at moved
      · cases moved
      next state' next stepped => cases moved; exact .serves waits stepped

/-! What the service sees. -/

/-- The calls of the service that a call of the program has made. -/
def Running.asked (call : Running π ρ κ) : List (Process ρ κ) := call.pending.toList ++ call.answered

def serviceCalls (process : Process θ (Running π ρ κ)) : Multiset (Process ρ κ) := process.state.asked

/-- The service takes its steps as permitted. -/
def OnService (answer : κ → Option τ) (permits : σ → κ → ω → Prop) :
    Config (Shared σ χ) θ (Running π ρ κ) → Act θ (ω × υ) ε → Prop :=
  Local fun shared call outcome =>
    ∀ asked ∈ call.pending, answer asked.state = none → permits shared.service asked.state outcome.1

instance (answer : κ → Option τ) (permits : σ → κ → ω → Prop) [∀ s call outcome, Decidable (permits s call outcome)]
    (config : Config (Shared σ χ) θ (Running π ρ κ)) (act : Act θ (ω × υ) ε) : Decidable (OnService answer permits config act) :=
  inferInstanceAs (Decidable (Local _ config act))

/-- It is in a run of its own, with all calls that were made, answered or not. -/
theorem service_attains {permits : σ → κ → ω → Prop} {start config : Config (Shared σ χ) θ (Running π ρ κ)}
    (reached : Reaches (served service answer program) (OnService answer permits) start config) (initial : start.calls = []) :
    Attains service (Local permits) ⟨start.shared.service, []⟩ config.shared.service (gather serviceCalls config.calls) := by
  have lives : Lives service permits (· = start.shared.service) (some config.shared.service)
      (gather serviceCalls config.calls) := by
    refine reached.lives_among (fun shared => some shared.service) serviceCalls ⟨initial, ?_⟩ ?_ ?_ ?_
    · exact fun first found => (Option.some_inj.mp found).symm
    · exact fun shared request => .stays _ _
    · intro shared left right request call outcome shared' call' _ permitted moved
      have permitted := permitted (call, outcome) (mover_move _ _ _ _ _)
      cases served_cases moved with
      | goes stepped => exact .stays _ _
      | @asks place answered own place' asking stepped => exact .joins shared.service asking (Multiset.ofList answered)
      | @resumes place answered own place' asked value answers resumed =>
        have same : serviceCalls (⟨request, ⟨place, some asked, answered⟩⟩ : Process θ (Running π ρ κ)) =
            serviceCalls (⟨request, ⟨place', none, answered ++ [asked]⟩⟩ : Process θ (Running π ρ κ)) :=
          Multiset.coe_eq_coe.mpr (List.perm_append_singleton asked answered).symm
        rw [same]
        exact .stays _ _
      | @serves place answered asking state state' moved waits stepped =>
        exact .moves (Multiset.ofList answered) (permitted ⟨asking, state⟩ rfl waits) stepped
    · intro shared calls event shared' _ happened
      obtain ⟨state, stepped, equal⟩ := Option.map_eq_some_iff.mp happened
      cases equal
      exact .happens 0 stepped
  obtain ⟨_, rfl, attained⟩ := lives
  exact attained

end Service
