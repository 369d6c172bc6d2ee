import Tsm.Lib.Interleaving

/-! Updates of a shared variable that no lock protects. Some steps of a system read
the variable and write it back; here each of them is a load and, any number of steps
of others later, a store of what the step makes of the value loaded. -/

namespace LoadStore
open Interleaving

variable {σ ρ κ ω ε W : Type*}

/-- A variable of the shared state. -/
structure Variable (σ W : Type*) where
  get : σ → W
  put : W → σ → σ
  put_get : ∀ shared, put (get shared) shared = shared

/-- A call, with the value it has loaded if its next step is a store. -/
structure Updating (κ W : Type*) where
  state : κ
  loaded : Option W

def loadStore (system : System σ ρ κ ω ε) (var : Variable σ W) (updates : κ → Bool) :
    System σ ρ (Updating κ W) ω ε where
  enter request := ⟨system.enter request, none⟩
  move outcome shared
    | ⟨state, some value⟩ => (system.move outcome (var.put value shared) state).map fun (shared, state) => (shared, ⟨state, none⟩)
    | ⟨state, none⟩ =>
      if updates state then some (shared, ⟨state, some (var.get shared)⟩)
      else (system.move outcome shared state).map fun (shared, state) => (shared, ⟨state, none⟩)
  environment := system.environment

/-- A store finds the variable as `sees` says, given the value that was loaded for it. -/
def StoresSee (sees : σ → κ → W → Prop) (config : Config σ ρ (Updating κ W)) (act : Act ρ ω ε) : Prop :=
  ∀ moving ∈ mover config act, ∀ value ∈ moving.1.loaded, sees config.shared moving.1.state value

instance (sees : σ → κ → W → Prop) [∀ shared state value, Decidable (sees shared state value)]
    (config : Config σ ρ (Updating κ W)) (act : Act ρ ω ε) : Decidable (StoresSee sees config act) :=
  inferInstanceAs (Decidable (∀ moving ∈ mover config act, ∀ value ∈ moving.1.loaded, _))

variable {M : Type*} [AddCommMonoid M] {system : System σ ρ κ ω ε} {var : Variable σ W} {updates : κ → Bool}
  {sees : σ → κ → W → Prop} {start config : Config σ ρ (Updating κ W)}

/-- What one call can do: load, or take a step of the system from the shared state
with its own value in the variable. -/
theorem loadStore_cases {outcome : ω} {shared shared' : σ} {call call' : Updating κ W}
    (moved : (loadStore system var updates).move outcome shared call = some (shared', call')) :
    (updates call.state = true ∧ shared' = shared ∧ call' = ⟨call.state, some (var.get shared)⟩) ∨
      ∃ value, (value ∈ call.loaded ∨ updates call.state = false ∧ value = var.get shared) ∧ call'.loaded = none ∧
        system.move outcome (var.put value shared) call.state = some (shared', call'.state) := by
  obtain ⟨state, _ | value⟩ := call
  · simp only [loadStore] at moved
    split at moved
    next update =>
      cases moved
      exact .inl ⟨update, rfl, rfl⟩
    next keeps =>
      obtain ⟨⟨_, _⟩, stepped, equal⟩ := Option.map_eq_some_iff.mp moved
      cases equal
      exact .inr ⟨_, .inr ⟨Bool.eq_false_iff.mpr keeps, rfl⟩, rfl, by rwa [var.put_get]⟩
  · obtain ⟨⟨_, _⟩, stepped, equal⟩ := Option.map_eq_some_iff.mp moved
    cases equal
    exact .inr ⟨value, .inl rfl, rfl, stepped⟩

/-- A proof outline in terms of the system itself, each of whose steps is taken with
some value in the variable that `sees` allows. -/
theorem outline (reached : Reaches (loadStore system var updates) (StoresSee sees) start config) (share : κ → M)
    (balance : σ → M → Prop) (holds : σ → κ → Prop)
    (initial : balance start.shared 0 ∧ start.calls = [])
    (current : ∀ shared state, sees shared state (var.get shared))
    (enters : ∀ shared request, share (system.enter request) = 0 ∧ holds shared (system.enter request))
    (moves : ∀ {shared value state outcome shared' state' rest},
      sees shared state value → (updates state = false → value = var.get shared) →
      balance shared (share state + rest) → holds shared state →
      system.move outcome (var.put value shared) state = some (shared', state') →
      balance shared' (share state' + rest) ∧ holds shared' state' ∧ ∀ other, holds shared other → holds shared' other)
    (happens : ∀ {shared event shared' rest}, balance shared rest → system.environment event shared = some shared' →
      balance shared' rest ∧ ∀ other, holds shared other → holds shared' other) :
    balance config.shared (total (fun call => share call.state) config.calls) ∧
      ∀ process ∈ config.calls, holds config.shared process.state.state := by
  have outlined := reached.outline (fun call => share call.state) balance
    (fun shared process => holds shared process.state.state ∧
      ∀ value ∈ process.state.loaded, updates process.state.state = true) ?_ ?_ ?_ ?_
  · exact ⟨outlined.1, fun process member => (outlined.2 process member).1⟩
  · simpa [initial.2] using initial.1
  · intro shared request
    obtain ⟨nothing, entered⟩ := enters shared request
    exact ⟨nothing, entered, by simp [loadStore]⟩
  · intro shared left right request call outcome shared' call' _ permitted balanced own others moved
    rcases loadStore_cases moved with ⟨update, rfl, rfl⟩ | ⟨value, seen, fresh, stepped⟩
    · exact ⟨balanced, ⟨own.1, fun _ _ => update⟩, others⟩
    · have sees' : sees shared call.state value := by
        rcases seen with loaded | ⟨_, rfl⟩
        · exact permitted (call, outcome) (mover_move _ _ _ _ _) value loaded
        · exact current shared call.state
      have keeps : updates call.state = false → value = var.get shared := by
        rcases seen with loaded | ⟨_, same⟩
        · exact fun none => absurd (own.2 value loaded) (by simp [none])
        · exact fun _ => same
      obtain ⟨balanced', own', others'⟩ := moves sees' keeps balanced own.1 stepped
      refine ⟨balanced', ⟨own', by simp [fresh]⟩, fun process member => ?_⟩
      exact ⟨others' _ (others process member).1, (others process member).2⟩
  · intro shared calls event shared' _ _ balanced asserted happened
    obtain ⟨balanced', others'⟩ := happens balanced happened
    exact ⟨balanced', fun process member => ⟨others' _ (asserted process member).1, (asserted process member).2⟩⟩

end LoadStore
