import Mathlib.Data.List.TakeWhile
import Mathlib.Data.Multiset.AddSub
import Mathlib.Data.Multiset.Count
import Mathlib.Logic.Relation
import Mathlib.Order.Lattice.Nat

/-! What a group device is for, without threads or memory: messages wait in a
pending list and move to a published one, where readers take them. A pending
message is moved by a work that does not know which message it moves. -/

namespace Tsm

structure Conveyor (M : Type) where
  /-- Every message ever counted, and where each of them is. -/
  accepted : Multiset M
  held : Multiset M
  pending : List M
  carried : List M
  published : List M
  removed : Multiset M
  count : Nat
  limit : Nat
  peak : Nat
  /-- Pending messages whose writer has not queued a work yet. -/
  uncovered : Nat
  /-- Works: the expiries of those whose timer is armed, and how many are due. -/
  timed : Multiset Nat
  ready : Nat
  now : Nat
  pended : List M
  issued : List M
  available : List M
  taken : List M

namespace Conveyor
variable {M : Type}

/-- Steps that some property depends on are named. -/
inductive Label where
  | quiet
  | skip
  | cover (expires : Nat)
  | hurry
  | splice

inductive Step (v : Conveyor M) : Label → Conveyor M → Prop where
  | idle : Step v .quiet v
  | hold (m : M) (room : v.count < v.limit) :
      Step v .quiet { v with accepted := m ::ₘ v.accepted, held := m ::ₘ v.held, count := v.count + 1 }
  | insert (m : M) (room : v.count < v.limit) :
      Step v .quiet { v with accepted := m ::ₘ v.accepted, published := m :: v.published
                             count := v.count + 1, available := v.available ++ [m] }
  | pend (m : M) (held : Multiset M) (holding : v.held = m ::ₘ held) :
      Step v .quiet { v with held, pending := m :: v.pending, uncovered := v.uncovered + 1
                             pended := v.pended ++ [m] }
  | skip (uncovered : Nat) (owing : v.uncovered = uncovered + 1) : Step v .skip { v with uncovered }
  | cover (uncovered expires : Nat) (owing : v.uncovered = uncovered + 1) :
      Step v (.cover expires) { v with uncovered, timed := expires ::ₘ v.timed }
  | coverNow (uncovered : Nat) (owing : v.uncovered = uncovered + 1) :
      Step v (.cover v.now) { v with uncovered, ready := v.ready + 1 }
  | expire (expires : Nat) (timed : Multiset Nat) (armed : v.timed = expires ::ₘ timed)
      (past : expires ≤ v.now) : Step v .quiet { v with timed, ready := v.ready + 1 }
  | hurry (expires : Nat) (timed : Multiset Nat) (armed : v.timed = expires ::ₘ timed) :
      Step v .hurry { v with timed, ready := v.ready + 1 }
  | popEmpty (ready : Nat) (due : v.ready = ready + 1) (empty : v.pending = []) :
      Step v .quiet { v with ready }
  | pop (ready : Nat) (m : M) (rest : List M) (due : v.ready = ready + 1) (free : v.carried = [])
      (last : v.pending = rest ++ [m]) : Step v .quiet { v with ready, pending := rest, carried := [m] }
  | deliver (m : M) (carrying : v.carried = [m]) :
      Step v .quiet { v with carried := [], published := m :: v.published
                             available := v.available ++ [m], issued := v.issued ++ [m] }
  | splice :
      Step v .splice { v with published := v.published ++ v.pending, pending := []
                              available := v.available ++ v.pending.reverse
                              issued := v.issued ++ v.pending.reverse }
  | take (m : M) (rest : List M) (last : v.published = rest ++ [m]) :
      Step v .quiet { v with published := rest, removed := m ::ₘ v.removed, count := v.count - 1
                             taken := v.taken ++ [m] }
  | tick : Step v .quiet { v with now := v.now + 1 }
  | limit (limit : Nat) : Step v .quiet { v with limit, peak := max v.peak limit }

def Reaches (permits : Conveyor M → Label → Prop) : Conveyor M → Conveyor M → Prop :=
  Relation.ReflTransGen fun v v' => ∃ label, permits v label ∧ Step v label v'

/-- What every permitted step keeps holds wherever the conveyor gets to. -/
theorem Reaches.keeps {permits : Conveyor M → Label → Prop} {start v : Conveyor M}
    (reached : Reaches permits start v) {inv : Conveyor M → Prop} (initial : inv start)
    (kept : ∀ {v label v'}, inv v → permits v label → Step v label v' → inv v') : inv v := by
  induction reached with
  | refl => exact initial
  | tail _ stepped ih =>
    obtain ⟨label, permitted, stepped⟩ := stepped
    exact kept ih permitted stepped

/-! Counting. -/

structure Balanced (v : Conveyor M) : Prop where
  counted : v.count = v.held.card + v.pending.length + v.carried.length + v.published.length
  bounded : v.count ≤ v.peak
  limited : v.limit ≤ v.peak

theorem Balanced.step {v v' : Conveyor M} {label} (balanced : v.Balanced) (stepped : Step v label v') :
    v'.Balanced := by
  obtain ⟨counted, bounded, limited⟩ := balanced
  cases stepped with
  | hold m room =>
    refine ⟨?_, Nat.lt_of_lt_of_le room limited, limited⟩
    simp only [Multiset.card_cons]
    omega
  | insert m room =>
    refine ⟨?_, Nat.lt_of_lt_of_le room limited, limited⟩
    simp only [List.length_cons]
    omega
  | pend m held holding =>
    refine ⟨?_, bounded, limited⟩
    simp only [holding, Multiset.card_cons, List.length_cons] at counted ⊢
    omega
  | pop ready m rest due free last =>
    refine ⟨?_, bounded, limited⟩
    simp only [free, last, List.length_append, List.length_singleton, List.length_nil] at counted ⊢
    omega
  | deliver m carrying =>
    refine ⟨?_, bounded, limited⟩
    simp only [carrying, List.length_cons, List.length_nil] at counted ⊢
    omega
  | splice =>
    refine ⟨?_, bounded, limited⟩
    simp only [List.length_append, List.length_nil]
    omega
  | take m rest last =>
    refine ⟨?_, Nat.le_trans (Nat.sub_le _ _) bounded, limited⟩
    simp only [last, List.length_append, List.length_singleton] at counted ⊢
    omega
  | limit limit => exact ⟨counted, Nat.le_trans bounded (Nat.le_max_left _ _), Nat.le_max_right _ _⟩
  | _ => exact ⟨counted, bounded, limited⟩

/-! Conservation: a message is in one place at a time. -/

def Conserved (v : Conveyor M) : Prop :=
  v.accepted = v.held + v.pending + v.carried + v.published + v.removed

theorem Conserved.step {v v' : Conveyor M} {label} (conserved : v.Conserved) (stepped : Step v label v') :
    v'.Conserved := by
  unfold Conserved at conserved ⊢
  cases stepped with
  | hold m room => simp only [conserved, Multiset.cons_add]
  | insert m room => simp only [conserved, ← Multiset.cons_coe, Multiset.add_cons, Multiset.cons_add]
  | pend m held holding =>
    simp only [conserved, holding, ← Multiset.cons_coe, Multiset.add_cons, Multiset.cons_add]
  | pop ready m rest due free last =>
    simp only [conserved, free, last, ← Multiset.coe_add, Multiset.coe_nil, add_zero, add_assoc]
  | deliver m carrying =>
    simp only [conserved, carrying, ← Multiset.cons_coe, Multiset.coe_nil, Multiset.add_cons,
      Multiset.cons_add, add_zero]
  | splice =>
    simp only [conserved, ← Multiset.coe_add, Multiset.coe_nil, add_zero]
    ac_rfl
  | take m rest last =>
    simp only [conserved, last, ← Multiset.coe_add, Multiset.coe_singleton, ← Multiset.singleton_add]
    ac_rfl
  | _ => exact conserved

/-! Messages only move on. -/

theorem Step.keeps_delivered {v v' : Conveyor M} {label} (stepped : Step v label v') {m : M}
    (delivered : m ∈ v.published ∨ m ∈ v.removed) : m ∈ v'.published ∨ m ∈ v'.removed := by
  cases stepped with
  | insert _ room => exact delivered.imp_left (List.mem_cons_of_mem _)
  | deliver _ carrying => exact delivered.imp_left (List.mem_cons_of_mem _)
  | splice => exact delivered.imp_left (List.mem_append_left _)
  | take taken rest last =>
    rw [last] at delivered
    rcases delivered with published | removed
    · rcases List.mem_append.mp published with kept | own
      · exact .inl kept
      · exact .inr (Multiset.mem_cons.mpr (.inl (List.mem_singleton.mp own)))
    · exact .inr (Multiset.mem_cons_of_mem removed)
  | _ => exact delivered

theorem Step.not_pending {v v' : Conveyor M} {label} (stepped : Step v label v') {m : M} (unheld : m ∉ v.held)
    (gone : m ∉ v.pending) : m ∉ v'.pending := by
  cases stepped with
  | pend other held holding =>
    intro member
    rcases List.mem_cons.mp member with rfl | member
    · exact unheld (holding ▸ Multiset.mem_cons_self _ _)
    · exact gone member
  | pop ready other rest due free last => exact fun member => gone (last ▸ List.mem_append_left _ member)
  | splice => exact List.not_mem_nil
  | _ => exact gone

/-- A message that has left its writer does not return to it, if no other is the same. -/
theorem Step.settled {v v' : Conveyor M} {label} (stepped : Step v label v') (distinct : v'.accepted.Nodup) {m : M}
    (accepted : m ∈ v.accepted) (unheld : m ∉ v.held) : m ∈ v'.accepted ∧ m ∉ v'.held := by
  cases stepped with
  | hold other room =>
    refine ⟨Multiset.mem_cons_of_mem accepted, fun held => ?_⟩
    rcases Multiset.mem_cons.mp held with rfl | held
    · exact (Multiset.nodup_cons.mp distinct).1 accepted
    · exact unheld held
  | insert other room => exact ⟨Multiset.mem_cons_of_mem accepted, unheld⟩
  | pend other held holding => exact ⟨accepted, fun member => unheld (holding ▸ Multiset.mem_cons_of_mem member)⟩
  | _ => exact ⟨accepted, unheld⟩

/-! Order of delivery. -/

/-- Readers take messages in the order in which they became available. -/
def Fifo (v : Conveyor M) : Prop := v.available = v.taken ++ v.published.reverse

def SpliceAlone (v : Conveyor M) : Label → Prop
  | .splice => v.published = [] ∨ v.pending = []
  | _ => True

theorem Fifo.step {v v' : Conveyor M} {label} (fifo : v.Fifo) (alone : SpliceAlone v label)
    (stepped : Step v label v') : v'.Fifo := by
  unfold Fifo at fifo ⊢
  cases stepped with
  | insert m room | deliver m carrying => simp [fifo]
  | splice => rcases alone with empty | empty <;> simp [fifo, empty]
  | take m rest last => simp [fifo, last]
  | _ => exact fifo

/-- Delayed messages are published in the order in which they were written. -/
def Ordered (v : Conveyor M) : Prop := v.pended = v.issued ++ v.carried ++ v.pending.reverse

def SpliceApart (v : Conveyor M) : Label → Prop
  | .splice => v.carried = [] ∨ v.pending = []
  | _ => True

theorem Ordered.step {v v' : Conveyor M} {label} (ordered : v.Ordered) (apart : SpliceApart v label)
    (stepped : Step v label v') : v'.Ordered := by
  unfold Ordered at ordered ⊢
  cases stepped with
  | pend m held holding => simp [ordered]
  | pop ready m rest due free last => simp [ordered, free, last]
  | deliver m carrying => simp [ordered, carrying]
  | splice => rcases apart with empty | empty <;> simp [ordered, empty]
  | _ => exact ordered

/-! Coverage: no pending message without a work that will move it. -/

def Covered (v : Conveyor M) : Prop := v.pending.length ≤ v.timed.card + v.ready + v.uncovered

def NoSkip (_ : Conveyor M) : Label → Prop
  | .skip => False
  | _ => True

theorem Covered.step {v v' : Conveyor M} {label} (covered : v.Covered) (allocated : NoSkip v label)
    (stepped : Step v label v') : v'.Covered := by
  unfold Covered at covered ⊢
  cases stepped with
  | pend m held holding =>
    simp only [List.length_cons]
    omega
  | skip uncovered owing => exact allocated.elim
  | cover uncovered expires owing =>
    simp only [Multiset.card_cons]
    omega
  | coverNow uncovered owing =>
    simp only []
    omega
  | expire expires timed armed past | hurry expires timed armed =>
    simp only [armed, Multiset.card_cons] at covered ⊢
    omega
  | popEmpty ready due empty => simp [empty]
  | pop ready m rest due free last =>
    simp only [last, List.length_append, List.length_singleton] at covered ⊢
    omega
  | splice => simp
  | _ => exact covered

/-! Timing: without a splice no message is published before it is due. -/

section Timing
variable (due : M → Nat)

/-- How many messages could be published one after the other, oldest first, if
each of them had to be due at `t`. -/
def ripe (pending : List M) (t : Nat) : Nat := (pending.reverse.takeWhile fun m => due m ≤ t).length

def dueBy (v : Conveyor M) (t : Nat) : Nat := v.timed.countP (· ≤ t) + v.ready

structure Timely (v : Conveyor M) : Prop where
  ripe : ∀ t, v.now ≤ t → v.dueBy t ≤ ripe due v.pending t
  carried : ∀ m ∈ v.carried, due m ≤ v.now

/-- Nothing is revoked, and a work is only queued if by no expiry from its own on
it would make the works outnumber the oldest pending messages that are due. -/
def Patient (v : Conveyor M) : Label → Prop
  | .cover expires => ∀ t ∈ expires ::ₘ v.timed, expires ≤ t → v.dueBy t + 1 ≤ ripe due v.pending t
  | .hurry | .splice => False
  | _ => True

theorem ripe_le_cons (m : M) (pending : List M) (t : Nat) : ripe due pending t ≤ ripe due (m :: pending) t := by
  unfold ripe
  rw [List.reverse_cons, List.takeWhile_append]
  split
  next all => simp [all]
  · exact Nat.le_refl _

theorem ripe_mono (pending : List M) {t t' : Nat} (later : t ≤ t') : ripe due pending t ≤ ripe due pending t' := by
  unfold ripe
  induction pending.reverse with
  | nil => exact Nat.le_refl _
  | cons m rest ih =>
    simp only [List.takeWhile_cons]
    split
    next expired =>
      have expired : due m ≤ t' := Nat.le_trans (of_decide_eq_true expired) later
      simpa [expired] using ih
    · exact Nat.zero_le _

theorem ripe_append {m : M} {rest : List M} {t : Nat} (positive : 0 < ripe due (rest ++ [m]) t) :
    due m ≤ t ∧ ripe due (rest ++ [m]) t = ripe due rest t + 1 := by
  unfold ripe at positive ⊢
  simp only [List.reverse_append, List.reverse_singleton, List.singleton_append, List.takeWhile_cons] at positive ⊢
  by_cases expired : due m ≤ t
  · simp [expired]
  · simp [expired] at positive

/-- What is counted up to `t` was counted up to the last entry before `t`. -/
theorem exists_last_entry {entries : Multiset Nat} {e t : Nat} (entry : e ∈ entries) (past : e ≤ t) :
    ∃ last ∈ entries, e ≤ last ∧ last ≤ t ∧ entries.countP (· ≤ t) = entries.countP (· ≤ last) := by
  have present : e ∈ entries.toFinset.filter (· ≤ t) := by simp [entry, past]
  obtain ⟨last, member, most⟩ := Finset.exists_max_image _ id ⟨e, present⟩
  simp only [Finset.mem_filter, Multiset.mem_toFinset, id_eq] at member most
  refine ⟨last, member.1, most e ⟨entry, past⟩, member.2, ?_⟩
  apply Multiset.countP_congr rfl
  intro other present
  exact propext ⟨fun before => most other ⟨present, before⟩, fun before => Nat.le_trans before member.2⟩

/-- A work may be queued if the works and the messages match at every expiry. -/
theorem Patient.extends {v : Conveyor M} {expires t : Nat} (patient : Patient due v (.cover expires))
    (past : expires ≤ t) : v.dueBy t + 1 ≤ ripe due v.pending t := by
  obtain ⟨last, entry, after, before, same⟩ :=
    exists_last_entry (Multiset.mem_cons_self expires v.timed) past
  have matched := patient last entry after
  have mono := ripe_mono due v.pending before
  rw [Multiset.countP_cons_of_pos (p := (· ≤ t)) _ past,
    Multiset.countP_cons_of_pos (p := (· ≤ last)) _ after] at same
  unfold dueBy at matched ⊢
  omega

theorem Timely.step {v v' : Conveyor M} {label} (timely : v.Timely due) (patient : Patient due v label)
    (stepped : Step v label v') : v'.Timely due := by
  obtain ⟨ripe, carried⟩ := timely
  unfold dueBy at ripe
  cases stepped with
  | pend m held holding =>
    exact ⟨fun t later => Nat.le_trans (ripe t later) (ripe_le_cons due m _ t), carried⟩
  | cover uncovered expires owing =>
    refine ⟨?_, carried⟩
    intro t later
    unfold dueBy
    by_cases past : expires ≤ t
    · have matched := patient.extends due past
      unfold dueBy at matched
      simp only [Multiset.countP_cons_of_pos (p := (· ≤ t)) _ past]
      omega
    · simp only [Multiset.countP_cons_of_neg (p := (· ≤ t)) _ past]
      exact ripe t later
  | coverNow uncovered owing =>
    refine ⟨?_, carried⟩
    intro t later
    have matched := patient.extends due later
    unfold dueBy at matched ⊢
    simp only []
    omega
  | expire expires timed armed past =>
    simp only [armed] at ripe
    refine ⟨?_, carried⟩
    intro t later
    have before := ripe t later
    rw [Multiset.countP_cons_of_pos (p := (· ≤ t)) _ (Nat.le_trans past later)] at before
    unfold dueBy
    simp only []
    omega
  | hurry expires timed armed => exact patient.elim
  | popEmpty ready dueNow empty =>
    -- a work that is due has a message that is
    have before := ripe v.now (Nat.le_refl _)
    simp only [dueNow, empty, Conveyor.ripe, List.reverse_nil, List.takeWhile_nil, List.length_nil] at before
    omega
  | pop ready m rest dueNow free last =>
    simp only [dueNow, last] at ripe
    refine ⟨?_, ?_⟩
    · intro t later
      have before := ripe t later
      have positive : 0 < Conveyor.ripe due (rest ++ [m]) t := by omega
      have one := (ripe_append due positive).2
      unfold dueBy
      simp only []
      omega
    · intro other member
      rw [List.mem_singleton.mp member]
      have before := ripe v.now (Nat.le_refl _)
      have positive : 0 < Conveyor.ripe due (rest ++ [m]) v.now := by omega
      exact (ripe_append due positive).1
  | deliver m carrying => exact ⟨ripe, by simp⟩
  | splice => exact patient.elim
  | tick =>
    exact ⟨fun t later => ripe t (Nat.le_trans (Nat.le_succ _) later),
      fun m member => Nat.le_trans (carried m member) (Nat.le_succ _)⟩
  | _ => exact ⟨ripe, carried⟩

end Timing

end Conveyor

end Tsm
