import Tsm.Lib.Interleaving

/-! A call that runs by itself: from its entry to its return nobody else takes a
step. Its steps are those it takes in an interleaving, and the environment decides
what it decides at each of its points once and for all. -/

namespace Sequential
open Interleaving

variable {σ ρ κ ω ε : Type*}

inductive Alone (move : ω → σ → κ → Option (σ × κ)) (choose : κ → ω) : σ → κ → σ → κ → Prop where
  | here {shared state} : Alone move choose shared state shared state
  | step {shared state shared' state' shared'' state''}
      (moved : move (choose state) shared state = some (shared', state'))
      (rest : Alone move choose shared' state' shared'' state'') :
      Alone move choose shared state shared'' state''

variable {move : ω → σ → κ → Option (σ × κ)} {choose : κ → ω}
  {shared shared' shared'' : σ} {state state' state'' : κ}

/-- A proof outline: what is asserted of the entry and kept by every step holds at
every point of the call, its return included. -/
theorem Alone.outline (asserts : σ → κ → Prop) (ran : Alone move choose shared state shared' state')
    (entered : asserts shared state)
    (steps : ∀ {shared state shared' state'}, asserts shared state →
      move (choose state) shared state = some (shared', state') → asserts shared' state') :
    asserts shared' state' := by
  induction ran with
  | here => exact entered
  | step moved rest ih => exact ih (steps entered moved)

/-! Symbolic execution, up to a point where the call has returned. -/

theorem alone_step (returned : move (choose state'') shared'' state'' = none)
    (moved : move (choose state) shared state = some (shared', state')) :
    Alone move choose shared state shared'' state'' ↔ Alone move choose shared' state' shared'' state'' := by
  constructor
  · intro ran
    cases ran with
    | here => simp [moved] at returned
    | step moved' rest =>
      rw [moved] at moved'
      cases moved'
      exact rest
  · exact .step moved

theorem alone_stuck (stuck : move (choose state) shared state = none) :
    Alone move choose shared state shared' state' ↔ shared' = shared ∧ state' = state := by
  constructor
  · intro ran
    cases ran with
    | here => exact ⟨rfl, rfl⟩
    | step moved rest => simp [stuck] at moved
  · rintro ⟨rfl, rfl⟩
    exact .here

theorem Alone.trans (first : Alone move choose shared state shared' state')
    (second : Alone move choose shared' state' shared'' state'') : Alone move choose shared state shared'' state'' := by
  induction first with
  | here => exact second
  | step moved rest ih => exact .step moved (ih second)

/-- Where the call stops does not depend on how much of it has been done. -/
theorem Alone.continues (ran : Alone move choose shared state shared' state')
    (returned : move (choose state'') shared'' state'' = none) :
    Alone move choose shared state shared'' state'' ↔ Alone move choose shared' state' shared'' state'' := by
  induction ran with
  | here => rfl
  | step moved rest ih => exact (alone_step returned moved).trans ih

/-- A call can stop in one place only. -/
theorem Alone.unique (first : Alone move choose shared state shared' state')
    (second : Alone move choose shared state shared'' state'')
    (returned : move (choose state') shared' state' = none) (returned' : move (choose state'') shared'' state'' = none) :
    shared'' = shared' ∧ state'' = state' :=
  (alone_stuck returned).mp ((first.continues returned').mp second)

/-- The same call as one of the calls of a larger system. -/
theorem Alone.embed {κ' ω' : Type*} {move' : ω' → σ → κ' → Option (σ × κ')} {choose' : κ' → ω'} (call : κ → κ')
    (ran : Alone move choose shared state shared' state')
    (moves : ∀ {shared state shared' state'}, move (choose state) shared state = some (shared', state') →
      move' (choose' (call state)) shared (call state) = some (shared', call state')) :
    Alone move' choose' shared (call state) shared' (call state') := by
  induction ran with
  | here => exact .here
  | step moved rest ih => exact .step (moves moved) ih

/-- What a call does alone it can do after any run. -/
theorem Alone.reaches {system : System σ ρ κ ω ε} {allowed : Config σ ρ κ → Act ρ ω ε → Prop}
    {start : Config σ ρ κ} {calls : List (Process ρ κ)} {request : ρ}
    (ran : Alone system.move choose shared state shared' state')
    (reached : Reaches system allowed start ⟨shared, calls ++ [⟨request, state⟩]⟩)
    (permitted : ∀ config call outcome, allowed config (.move call outcome)) :
    Reaches system allowed start ⟨shared', calls ++ [⟨request, state'⟩]⟩ := by
  induction ran with
  | here => exact reached
  | step moved rest ih => exact ih (reached.step (permitted _ _ _) (Step.move moved).enabled)

/-- A call that asserts enough to go on until it returns, and comes closer to its
return with every step, returns. -/
theorem returns (asserts : σ → κ → Prop) (returned : κ → Prop) (rank : σ → κ → Nat)
    (entered : asserts shared state)
    (enabled : ∀ {shared state}, asserts shared state → returned state ∨ (move (choose state) shared state).isSome)
    (steps : ∀ {shared state shared' state'}, asserts shared state →
      move (choose state) shared state = some (shared', state') →
      asserts shared' state' ∧ rank shared' state' < rank shared state) :
    ∃ shared' state', Alone move choose shared state shared' state' ∧ returned state' := by
  induction bound : rank shared state using Nat.strongRecOn generalizing shared state with
  | ind bound ih =>
    rcases enabled entered with returned | moves
    · exact ⟨shared, state, .here, returned⟩
    · obtain ⟨⟨shared', state'⟩, moved⟩ := Option.isSome_iff_exists.mp moves
      obtain ⟨entered', closer⟩ := steps entered moved
      obtain ⟨last, final, ran, returned⟩ := ih _ (bound ▸ closer) entered' rfl
      exact ⟨last, final, .step moved ran, returned⟩

/-- At most so many steps of the call, fewer if it returns before. -/
def runAlone (move : ω → σ → κ → Option (σ × κ)) (choose : κ → ω) : Nat → σ → κ → σ × κ
  | 0, shared, state => (shared, state)
  | steps + 1, shared, state =>
    match move (choose state) shared state with
    | none => (shared, state)
    | some (shared', state') => runAlone move choose steps shared' state'

theorem runAlone_alone (move : ω → σ → κ → Option (σ × κ)) (choose : κ → ω) (steps : Nat) (shared : σ) (state : κ) :
    Alone move choose shared state (runAlone move choose steps shared state).1
      (runAlone move choose steps shared state).2 := by
  induction steps generalizing shared state with
  | zero => exact .here
  | succ steps ih =>
    rw [runAlone]
    split
    · exact .here
    next shared' state' moved => exact .step moved (ih shared' state')

end Sequential
