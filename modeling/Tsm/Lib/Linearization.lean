import Tsm.Lib.Interleaving
import Mathlib.Data.List.Nodup

/-! Linearization by commit points. Each call of a system takes effect in one of its
own steps. Replaying these effects on a sequential object, in the order in which
the steps were taken, gives every call what it returns. -/

namespace Interleaving

variable {σ ρ κ ω ε τ μ γ : Type*}

/-- Operations carried out one after the other, each on behalf of a call. -/
def replay (apply : τ → μ → τ × γ) : τ → List (Nat × μ) → τ × List (Nat × γ)
  | object, [] => (object, [])
  | object, (call, operation) :: rest =>
    let result := apply object operation
    let last := replay apply result.1 rest
    (last.1, (call, result.2) :: last.2)

theorem replay_concat (apply : τ → μ → τ × γ) (object : τ) (log : List (Nat × μ)) (call : Nat) (operation : μ) :
    replay apply object (log ++ [(call, operation)]) =
      ((apply (replay apply object log).1 operation).1,
        (replay apply object log).2 ++ [(call, (apply (replay apply object log).1 operation).2)]) := by
  induction log generalizing object with
  | nil => rfl
  | cons entry rest ih => simp [replay, ih]

theorem replay_calls (apply : τ → μ → τ × γ) (object : τ) (log : List (Nat × μ)) :
    (replay apply object log).2.map Prod.fst = log.map Prod.fst := by
  induction log generalizing object with
  | nil => rfl
  | cons entry rest ih => simp [replay, ih]

/-- The operation that a step commits, with the call that takes the step. -/
def committed (mark : σ → ρ → κ → ω → Option μ) (point : Config σ ρ κ × Act ρ ω ε) : Option (Nat × μ) :=
  match point.2 with
  | .move call outcome =>
    match point.1.calls[call]? with
    | none => none
    | some process =>
      match mark point.1.shared process.request process.state outcome with
      | none => none
      | some operation => some (call, operation)
  | .enter _ | .environment _ => none

/-- The operations a run commits, in its order. -/
def commits (mark : σ → ρ → κ → ω → Option μ) (trace : List (Config σ ρ κ × Act ρ ω ε)) : List (Nat × μ) :=
  trace.filterMap (committed mark)

theorem commits_concat (mark : σ → ρ → κ → ω → Option μ) (trace : List (Config σ ρ κ × Act ρ ω ε))
    (point : Config σ ρ κ × Act ρ ω ε) :
    commits mark (trace ++ [point]) = commits mark trace ++ (committed mark point).toList := by
  rw [commits, List.filterMap_append]
  cases marked : committed mark point <;> simp [commits, marked]

/-- What there is to show of a system whose calls commit where `mark` says: a call
is pending until it commits, and promises its response from then on. -/
structure CommitPoints (system : System σ ρ κ ω ε) (allowed : Config σ ρ κ → Act ρ ω ε → Prop)
    (mark : σ → ρ → κ → ω → Option μ) (apply : τ → μ → τ × γ) where
  represents : σ → τ → Prop
  pending : ρ → κ → Prop
  promises : κ → γ → Prop
  asks : ρ → μ → Prop
  enter : ∀ {config request}, allowed config (.enter request) → pending request (system.enter request)
  idle : ∀ {config index outcome process shared state object}, allowed config (.move index outcome) →
    config.calls[index]? = some process → represents config.shared object → pending process.request process.state →
    system.move outcome config.shared process.state = some (shared, state) →
    mark config.shared process.request process.state outcome = none →
    represents shared object ∧ pending process.request state
  commit : ∀ {config index outcome process shared state object operation}, allowed config (.move index outcome) →
    config.calls[index]? = some process → represents config.shared object → pending process.request process.state →
    system.move outcome config.shared process.state = some (shared, state) →
    mark config.shared process.request process.state outcome = some operation →
    represents shared (apply object operation).1 ∧ promises state (apply object operation).2 ∧
      asks process.request operation
  promised : ∀ {config index outcome process shared state object response},
    allowed config (.move index outcome) → config.calls[index]? = some process →
    represents config.shared object → promises process.state response →
    system.move outcome config.shared process.state = some (shared, state) →
    mark config.shared process.request process.state outcome = none ∧ represents shared object ∧
      promises state response
  event : ∀ {config event shared object}, allowed config (.environment event) → represents config.shared object →
    system.environment event config.shared = some shared → represents shared object

namespace CommitPoints
variable {system : System σ ρ κ ω ε} {allowed : Config σ ρ κ → Act ρ ω ε → Prop}
  {mark : σ → ρ → κ → ω → Option μ} {apply : τ → μ → τ × γ}

/-- A call is pending and has no response yet, or it promises the one it has. -/
def Fate (points : CommitPoints system allowed mark apply) (responses : List (Nat × γ)) (index : Nat)
    (process : Process ρ κ) : Prop :=
  (points.pending process.request process.state ∧ index ∉ responses.map Prod.fst) ∨
    ∃ response, (index, response) ∈ responses ∧ points.promises process.state response

/-- The object, the responses and the calls agree after a run that committed `log`. -/
structure Agree (points : CommitPoints system allowed mark apply) (object : τ) (log : List (Nat × μ))
    (config : Config σ ρ κ) : Prop where
  represents : points.represents config.shared (replay apply object log).1
  once : (log.map Prod.fst).Nodup
  asks : ∀ entry ∈ log, ∃ process, config.calls[entry.1]? = some process ∧ points.asks process.request entry.2
  fate : ∀ index process, config.calls[index]? = some process →
    points.Fate (replay apply object log).2 index process

private theorem get_concat {α : Type*} {items : List α} {new item : α} {index : Nat}
    (found : (items ++ [new])[index]? = some item) :
    items[index]? = some item ∨ index = items.length ∧ item = new := by
  rcases Nat.lt_trichotomy index items.length with old | same | beyond
  · exact .inl (List.getElem?_append_left old ▸ found)
  · subst same
    rw [List.getElem?_concat_length] at found
    exact .inr ⟨rfl, (Option.some.inj found).symm⟩
  · rw [List.getElem?_eq_none (by simp; omega)] at found
    cases found

private theorem get_set {α : Type*} {items : List α} {new item : α} {index other : Nat}
    (found : (items.set index new)[other]? = some item) :
    other = index ∧ item = new ∨ other ≠ index ∧ items[other]? = some item := by
  by_cases same : other = index
  · subst same
    rw [List.getElem?_set_self (by simpa using (List.getElem?_eq_some_iff.mp found).1)] at found
    exact .inl ⟨rfl, (Option.some.inj found).symm⟩
  · rw [List.getElem?_set_ne (Ne.symm same)] at found
    exact .inr ⟨same, found⟩

variable {points : CommitPoints system allowed mark apply} {object : τ} {log : List (Nat × μ)}
  {before : Config σ ρ κ}

theorem Agree.entry_inside {config : Config σ ρ κ} (agree : points.Agree object log config) {index : Nat}
    (member : index ∈ log.map Prod.fst) : index < config.calls.length := by
  obtain ⟨entry, logged, rfl⟩ := List.mem_map.mp member
  obtain ⟨process, found, -⟩ := agree.asks entry logged
  exact (List.getElem?_eq_some_iff.mp found).1

theorem Agree.enter {request : ρ} (agree : points.Agree object log before)
    (permitted : allowed before (.enter request)) :
    points.Agree object log ⟨before.shared, before.calls ++ [⟨request, system.enter request⟩]⟩ := by
  refine ⟨agree.represents, agree.once, ?_, ?_⟩
  · intro entry member
    obtain ⟨process, found, asked⟩ := agree.asks entry member
    exact ⟨process, by rw [List.getElem?_append_left (List.getElem?_eq_some_iff.mp found).1, found], asked⟩
  · intro index process found
    rcases get_concat found with old | ⟨rfl, rfl⟩
    · exact agree.fate index process old
    · refine .inl ⟨points.enter permitted, ?_⟩
      rw [replay_calls]
      exact fun member => Nat.lt_irrefl _ (agree.entry_inside member)

private theorem asks_set (asks : ρ → Prop) {index : Nat} {process : Process ρ κ} {state : κ}
    {calls : List (Process ρ κ)} (found : calls[index]? = some process) {other : Nat}
    (asked : ∃ process, calls[other]? = some process ∧ asks process.request) :
    ∃ process', (calls.set index ⟨process.request, state⟩)[other]? = some process' ∧ asks process'.request := by
  obtain ⟨another, present, asked⟩ := asked
  by_cases same : other = index
  · subst same
    rw [found] at present
    cases present
    exact ⟨⟨process.request, state⟩, List.getElem?_set_self (List.getElem?_eq_some_iff.mp found).1, asked⟩
  · exact ⟨another, by rw [List.getElem?_set_ne (Ne.symm same), present], asked⟩

theorem Agree.idle {index outcome process shared state} (agree : points.Agree object log before)
    (permitted : allowed before (.move index outcome)) (found : before.calls[index]? = some process)
    (moved : system.move outcome before.shared process.state = some (shared, state))
    (unmarked : mark before.shared process.request process.state outcome = none) :
    points.Agree object log ⟨shared, before.calls.set index ⟨process.request, state⟩⟩ := by
  have own : points.represents shared (replay apply object log).1 ∧
      points.Fate (replay apply object log).2 index ⟨process.request, state⟩ := by
    rcases agree.fate index process found with ⟨pending, silent⟩ | ⟨response, replied, promises⟩
    · obtain ⟨represents, pending⟩ := points.idle permitted found agree.represents pending moved unmarked
      exact ⟨represents, .inl ⟨pending, silent⟩⟩
    · obtain ⟨-, represents, promises⟩ := points.promised permitted found agree.represents promises moved
      exact ⟨represents, .inr ⟨response, replied, promises⟩⟩
  refine ⟨own.1, agree.once, fun entry member => asks_set (points.asks · entry.2) found (agree.asks entry member), ?_⟩
  intro other process' found'
  rcases get_set found' with ⟨rfl, rfl⟩ | ⟨-, found'⟩
  · exact own.2
  · exact agree.fate other process' found'

theorem Agree.commit {index outcome process shared state operation} (agree : points.Agree object log before)
    (permitted : allowed before (.move index outcome)) (found : before.calls[index]? = some process)
    (moved : system.move outcome before.shared process.state = some (shared, state))
    (marked : mark before.shared process.request process.state outcome = some operation) :
    points.Agree object (log ++ [(index, operation)])
      ⟨shared, before.calls.set index ⟨process.request, state⟩⟩ := by
  rcases agree.fate index process found with ⟨pending, silent⟩ | ⟨response, replied, promises⟩
  · obtain ⟨represents, promises, asked⟩ := points.commit permitted found agree.represents pending moved marked
    refine ⟨by rw [replay_concat]; exact represents, ?_, ?_, ?_⟩
    · rw [replay_calls] at silent
      rw [List.map_append]
      refine List.nodup_append.mpr ⟨agree.once, List.nodup_singleton _, ?_⟩
      intro other member _ last equal
      have same : other = index := equal.trans (List.mem_singleton.mp last)
      exact silent (same ▸ member)
    · intro entry member
      rcases List.mem_append.mp member with member | member
      · exact asks_set (points.asks · entry.2) found (agree.asks entry member)
      · rw [List.mem_singleton.mp member]
        exact asks_set (points.asks · operation) found ⟨process, found, asked⟩
    · intro other process' found'
      rw [replay_concat]
      rcases get_set found' with ⟨rfl, rfl⟩ | ⟨different, found'⟩
      · exact .inr ⟨_, by simp, promises⟩
      · rcases agree.fate other process' found' with ⟨pending, silent⟩ | ⟨response, replied, promises⟩
        · exact .inl ⟨pending, by simpa [different] using silent⟩
        · exact .inr ⟨response, List.mem_append_left _ replied, promises⟩
  · obtain ⟨unmarked, -⟩ := points.promised permitted found agree.represents promises moved
    rw [unmarked] at marked
    cases marked

theorem Agree.event {event shared} (agree : points.Agree object log before)
    (permitted : allowed before (.environment event)) (happened : system.environment event before.shared = some shared) :
    points.Agree object log ⟨shared, before.calls⟩ :=
  ⟨points.event permitted agree.represents happened, agree.once, agree.asks, agree.fate⟩

/-- After any run the replay of its commits agrees with the calls. -/
theorem agrees {start config : Config σ ρ κ} {trace} (points : CommitPoints system allowed mark apply)
    (ran : Runs system start trace config) (permitted : ∀ point ∈ trace, allowed point.1 point.2)
    (initial : start.calls = []) (represents : points.represents start.shared object) :
    points.Agree object (commits mark trace) config := by
  induction ran with
  | start => exact ⟨represents, List.nodup_nil, by simp [commits], by simp [initial]⟩
  | @step trace before act after ran taken ih =>
    have agree := ih fun point member => permitted point (List.mem_append_left _ member)
    have allowed := permitted (before, act) (by simp)
    rw [commits_concat]
    cases act with
    | enter request =>
      cases taken
      simpa [committed] using agree.enter allowed
    | move index outcome =>
      obtain ⟨process, shared, state, found, moved, rfl⟩ := step_move taken
      cases marked : mark before.shared process.request process.state outcome with
      | none => simpa [committed, found, marked] using agree.idle allowed found moved marked
      | some operation => simpa [committed, found, marked] using agree.commit allowed found moved marked
    | environment event =>
      obtain ⟨shared, happened, rfl⟩ := step_environment taken
      simpa [committed] using agree.event allowed happened

/-- When no call is pending, every call is in the log once, and has promised what
the replay answers it. -/
theorem Agree.complete {config : Config σ ρ κ} (agree : points.Agree object log config)
    (finished : ∀ process ∈ config.calls, ¬ points.pending process.request process.state) :
    (log.map Prod.fst).Perm (List.range config.calls.length) ∧
      ∀ entry ∈ (replay apply object log).2,
        ∃ process, config.calls[entry.1]? = some process ∧ points.promises process.state entry.2 := by
  have replied : ∀ index process, config.calls[index]? = some process →
      ∃ response, (index, response) ∈ (replay apply object log).2 ∧ points.promises process.state response :=
    fun index process found =>
      (agree.fate index process found).resolve_left fun pending =>
        finished process (List.mem_of_getElem? found) pending.1
  have once : ((replay apply object log).2.map Prod.fst).Nodup := (replay_calls apply object log).symm ▸ agree.once
  refine ⟨(List.perm_ext_iff_of_nodup agree.once List.nodup_range).mpr fun index => ?_, ?_⟩
  · rw [List.mem_range]
    refine ⟨agree.entry_inside, fun inside => ?_⟩
    obtain ⟨response, member, -⟩ := replied index _ (List.getElem?_eq_getElem inside)
    rw [← replay_calls apply object log]
    exact List.mem_map_of_mem member
  · rintro ⟨index, answer⟩ member
    have inside : index ∈ log.map Prod.fst := replay_calls apply object log ▸ List.mem_map_of_mem member
    have found := List.getElem?_eq_getElem (agree.entry_inside inside)
    obtain ⟨response, member', promises⟩ := replied index _ found
    -- the replay answers a call once
    have same := List.inj_on_of_nodup_map once member member' rfl
    cases same
    exact ⟨_, found, promises⟩

end CommitPoints

end Interleaving
