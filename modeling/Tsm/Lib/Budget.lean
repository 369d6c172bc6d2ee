import Tsm.Lib.Interleaving

/-! Runs that come to rest. While no new call is entered, the steps that count spend
a budget that no other step refills: a run takes no more of them than the budget it
starts with, and one that goes on while it can ends where none can be taken. All of this
is about the runs whose steps are allowed. -/

namespace Interleaving

variable {σ ρ κ ω ε : Type*}

def NoNewCall (_ : Config σ ρ κ) : Act ρ ω ε → Prop
  | .enter _ => False
  | .move _ _ | .environment _ => True

instance : ∀ (config : Config σ ρ κ) (act : Act ρ ω ε), Decidable (NoNewCall config act)
  | _, .enter _ => isFalse id
  | _, .move _ _ | _, .environment _ => isTrue trivial

/-- The steps that count: those of the calls, and these events. -/
def counted (happens : ε → Bool) : Act ρ ω ε → Bool
  | .enter _ => false
  | .move _ _ => true
  | .environment event => happens event

/-- None of the steps that count is allowed and can be taken. -/
def Rests (system : System σ ρ κ ω ε) (allowed : Config σ ρ κ → Act ρ ω ε → Prop) (happens : ε → Bool)
    (config : Config σ ρ κ) : Prop :=
  ∀ act, counted happens act = true → allowed config act → step system config act = none

/-- A step that is allowed and enters no call. -/
def Closed (allowed : Config σ ρ κ → Act ρ ω ε → Prop) (config : Config σ ρ κ) (act : Act ρ ω ε) : Prop :=
  allowed config act ∧ NoNewCall config act

/-- How many steps that count a trace has. -/
def spent (happens : ε → Bool) (trace : List (Config σ ρ κ × Act ρ ω ε)) : Nat :=
  trace.countP fun point => counted happens point.2

theorem noNewCall_of_counted {happens : ε → Bool} {config : Config σ ρ κ} {act : Act ρ ω ε}
    (counts : counted happens act = true) : NoNewCall config act := by
  cases act with
  | enter request => cases counts
  | move call outcome | environment event => trivial

theorem Rests.blocked {system : System σ ρ κ ω ε} {allowed : Config σ ρ κ → Act ρ ω ε → Prop} {happens : ε → Bool}
    {config : Config σ ρ κ} (rests : Rests system allowed happens config) {process : Process ρ κ}
    (member : process ∈ config.calls) {outcome : ω}
    (permitted : ∀ call, config.calls[call]? = some process → allowed config (.move call outcome)) :
    system.move outcome config.shared process.state = none := by
  obtain ⟨shared, calls⟩ := config
  obtain ⟨left, right, rfl⟩ := List.append_of_mem member
  apply Option.eq_none_iff_forall_ne_some.mpr
  intro after moved
  have stepped : Step system ⟨shared, left ++ ⟨process.request, process.state⟩ :: right⟩ (.move left.length outcome)
    ⟨after.1, left ++ ⟨process.request, after.2⟩ :: right⟩ := .move moved
  have taken := stepped.enabled
  rw [rests (.move left.length outcome) rfl (permitted left.length (by simp))] at taken
  cases taken

theorem Rests.stopped {system : System σ ρ κ ω ε} {allowed : Config σ ρ κ → Act ρ ω ε → Prop} {happens : ε → Bool}
    {config : Config σ ρ κ} (rests : Rests system allowed happens config) {event : ε} (counts : happens event = true)
    (permitted : allowed config (.environment event)) : system.environment event config.shared = none := by
  apply Option.eq_none_iff_forall_ne_some.mpr
  intro after happened
  have stepped : Step system config (.environment event) ⟨after, config.calls⟩ := .environment happened
  have taken := stepped.enabled
  rw [rests (.environment event) counts permitted] at taken
  cases taken

/-- Shares that grow by at most `more` each. -/
theorem total_le_add {share share' : κ → Nat} {more : Nat} {calls : List (Process ρ κ)}
    (grows : ∀ process ∈ calls, share' process.state ≤ share process.state + more) :
    total share' calls ≤ total share calls + more * calls.length := by
  induction calls with
  | nil => simp
  | cons process rest ih =>
    have own := grows process List.mem_cons_self
    have others := ih fun other member => grows other (List.mem_cons_of_mem _ member)
    simp only [total_cons, List.length_cons, Nat.mul_succ]
    omega

/-- Without new calls every run takes at most `bound` of the steps that count, can go on
to where none of them can be taken, and is in order there. -/
structure Settles (system : System σ ρ κ ω ε) (allowed : Config σ ρ κ → Act ρ ω ε → Prop) (happens : ε → Bool)
    (bound : Nat) (inOrder : Config σ ρ κ → Prop) (start : Config σ ρ κ) : Prop where
  bounded : ∀ {trace config}, Runs system start trace config → (∀ point ∈ trace, Closed allowed point.1 point.2) →
    spent happens trace ≤ bound
  rests : ∀ {config}, Reaches system (Closed allowed) start config →
    ∃ last, Reaches system (Closed allowed) config last ∧ Rests system allowed happens last
  inOrder : ∀ {config}, Reaches system (Closed allowed) start config → Rests system allowed happens config → inOrder config

/-- The accounts may use what is known of the configurations. -/
structure Budget (system : System σ ρ κ ω ε) (allowed : Config σ ρ κ → Act ρ ω ε → Prop) (happens : ε → Bool)
    (known : Config σ ρ κ → Prop) where
  left : Config σ ρ κ → Nat
  keeps : ∀ {before act after}, known before → Closed allowed before act → Step system before act after → known after
  spends : ∀ {before act after}, known before → allowed before act → Step system before act after →
    counted happens act = true → left after < left before
  idles : ∀ {before event after}, known before → Step system before (.environment event) after →
    happens event = false → left after ≤ left before

namespace Budget
variable {system : System σ ρ κ ω ε} {allowed : Config σ ρ κ → Act ρ ω ε → Prop} {happens : ε → Bool}
  {known : Config σ ρ κ → Prop} (budget : Budget system allowed happens known) {start config : Config σ ρ κ}
include budget

theorem known_of_reaches (entered : known start) (reached : Reaches system (Closed allowed) start config) : known config :=
  reached.induct entered fun _ _ _ _ earlier closed taken => budget.keeps earlier closed taken

theorem spent_le {trace} (entered : known start) (ran : Runs system start trace config)
    (closed : ∀ point ∈ trace, Closed allowed point.1 point.2) :
    spent happens trace + budget.left config ≤ budget.left start := by
  induction ran with
  | start => simp [spent]
  | @step trace before act after ran taken ih =>
    have earlier := fun point member => closed point (List.mem_append_left _ member)
    obtain ⟨permitted, last⟩ := closed _ (List.mem_append_right _ (List.mem_singleton_self _))
    have knows := budget.known_of_reaches entered ⟨trace, ran, earlier⟩
    have less := ih earlier
    have taken := step_cases taken
    rw [spent, List.countP_append, List.countP_singleton]
    change spent happens trace + _ + _ ≤ _
    split
    next counts =>
      have down := budget.spends knows permitted taken counts
      omega
    next free =>
      cases act with
      | enter request => exact last.elim
      | move call outcome => exact absurd rfl free
      | environment event =>
        have idle := budget.idles knows taken (Bool.eq_false_iff.mpr free)
        omega

/-- A run that goes on while it can ends, because the budget does. -/
theorem comes_to_rest (entered : known config) :
    ∃ last, Reaches system (Closed allowed) config last ∧ Rests system allowed happens last := by
  induction bound : budget.left config using Nat.strongRecOn generalizing config with
  | ind bound ih =>
    by_cases rests : Rests system allowed happens config
    · exact ⟨config, .refl, rests⟩
    · simp only [Rests, not_forall] at rests
      obtain ⟨act, counts, permitted, taken⟩ := rests
      obtain ⟨after, taken⟩ := Option.ne_none_iff_exists'.mp taken
      have closed : Closed allowed config act := ⟨permitted, noNewCall_of_counted counts⟩
      have spends := budget.spends entered permitted (step_cases taken) counts
      obtain ⟨last, reached, rests⟩ := ih _ (bound ▸ spends) (budget.keeps entered closed (step_cases taken)) rfl
      exact ⟨last, (Reaches.refl.step closed taken).trans reached, rests⟩

theorem settles {inOrder : Config σ ρ κ → Prop} (entered : known start)
    (final : ∀ {config}, known config → Rests system allowed happens config → inOrder config) :
    Settles system allowed happens (budget.left start) inOrder start where
  bounded ran closed := Nat.le_trans (Nat.le_add_right _ _) (budget.spent_le entered ran closed)
  rests reached := budget.comes_to_rest (budget.known_of_reaches entered reached)
  inOrder reached rests := final (budget.known_of_reaches entered reached) rests

end Budget

end Interleaving
