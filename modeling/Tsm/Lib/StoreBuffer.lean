import Tsm.Lib.LoadStore

/-! Stores that stay in the buffer of a processor. Some steps of a system store a
variable; here the other calls see the value only when the buffer drains, in a step of
its own, and the call that has stored it can go on before. A step that implies a full
barrier waits for the drain. Meant for calls that store once and do not read the variable
while they have a value pending. -/

namespace StoreBuffer
open Interleaving LoadStore

variable {σ ρ κ ω ε W : Type*}

/-- A call, with the value that it has stored and nobody else sees yet. -/
structure Buffering (κ W : Type*) where
  state : κ
  pending : Option W

inductive Turn (ω : Type*) where
  | proceed (outcome : ω)
  | drain
  deriving DecidableEq, Repr

def storeBuffer (system : System σ ρ κ ω ε) (var : Variable σ W) (stores fences : κ → Bool) :
    System σ ρ (Buffering κ W) (Turn ω) ε where
  enter request := ⟨system.enter request, none⟩
  move
    | .drain, shared, ⟨state, pending⟩ => pending.map fun value => (var.put value shared, ⟨state, none⟩)
    | .proceed outcome, shared, ⟨state, pending⟩ =>
      if fences state = true ∧ pending.isSome then none
      else
        match system.move outcome shared state with
        | none => none
        | some (after, state') =>
          if stores state then some (var.put (var.get shared) after, ⟨state', some (var.get after)⟩)
          else some (after, ⟨state', pending⟩)
  environment := system.environment

/-- Who goes on has no value pending. -/
def Visible (config : Config σ ρ (Buffering κ W)) (act : Act ρ (Turn ω) ε) : Prop :=
  ∀ moving ∈ mover config act, moving.2 ≠ .drain → moving.1.pending = none

instance [DecidableEq ω] (config : Config σ ρ (Buffering κ W)) (act : Act ρ (Turn ω) ε) : Decidable (Visible config act) :=
  inferInstanceAs (Decidable (∀ moving ∈ mover config act, moving.2 ≠ .drain → moving.1.pending = none))

/-- A call without a pending value can go on. -/
theorem visible_of_drained {config : Config σ ρ (Buffering κ W)} {call : Nat} {process : Process ρ (Buffering κ W)} {turn : Turn ω}
    (found : config.calls[call]? = some process) (drained : turn = .drain ∨ process.state.pending = none) :
    Visible config (.move call turn : Act ρ (Turn ω) ε) := by
  intro moving member goes
  simp only [mover, found, Option.map_some, Option.mem_some_iff] at member
  subst member
  exact drained.resolve_left goes

section Steps
variable {system : System σ ρ κ ω ε} {var : Variable σ W} {stores fences : κ → Bool}

inductive BufferStep (system : System σ ρ κ ω ε) (var : Variable σ W) (stores fences : κ → Bool) (shared : σ) :
    Turn ω → Buffering κ W → σ → Buffering κ W → Prop where
  | drain {state value} : BufferStep system var stores fences shared .drain ⟨state, some value⟩ (var.put value shared) ⟨state, none⟩
  | store {outcome state pending after state'} (stored : stores state = true)
      (moved : system.move outcome shared state = some (after, state')) :
      BufferStep system var stores fences shared (.proceed outcome) ⟨state, pending⟩ (var.put (var.get shared) after)
        ⟨state', some (var.get after)⟩
  | proceed {outcome state pending after state'} (keeps : stores state = false) (fenced : fences state = true → pending = none)
      (moved : system.move outcome shared state = some (after, state')) :
      BufferStep system var stores fences shared (.proceed outcome) ⟨state, pending⟩ after ⟨state', pending⟩

theorem storeBuffer_cases {turn : Turn ω} {shared shared' : σ} {call call' : Buffering κ W}
    (moved : (storeBuffer system var stores fences).move turn shared call = some (shared', call')) :
    BufferStep system var stores fences shared turn call shared' call' := by
  obtain ⟨state, pending⟩ := call
  cases turn with
  | drain =>
    obtain ⟨value, rfl, equal⟩ := Option.map_eq_some_iff.mp moved
    cases equal
    exact .drain
  | proceed outcome =>
    simp only [storeBuffer] at moved
    split at moved
    · cases moved
    next free =>
      split at moved
      · cases moved
      next after state' stepped =>
        split at moved
        next stored => cases moved; exact .store stored stepped
        next keeps =>
          cases moved
          refine .proceed (Bool.eq_false_iff.mpr keeps) (fun fenced => ?_) stepped
          by_contra pends
          exact free ⟨fenced, Option.isSome_iff_ne_none.mpr pends⟩

/-- A call without a pending value is blocked where the system blocks it. -/
theorem blocked_of_blocked {outcome : ω} {shared : σ} {state : κ}
    (blocked : (storeBuffer system var stores fences).move (.proceed outcome) shared ⟨state, none⟩ = none) :
    system.move outcome shared state = none := by
  simp only [storeBuffer, Option.isSome_none, Bool.false_eq_true, and_false, if_false] at blocked
  split at blocked
  next stuck => exact stuck
  · split at blocked <;> cases blocked

end Steps

end StoreBuffer
