import Tsm.Lib.Interleaving
import Tsm.Library.Messages

/-! Threads that send from one buffer. To bound its scan a send writes a terminator
into the caller's buffer and takes it back: the buffer has to reach that far, and
no other thread may see the terminator for a byte of the buffer. -/

namespace Tsm.Library
open Interleaving CString

/-- Each thread calls `send_message` on the same buffer, with a descriptor of its own. -/
def senders (limit : UInt32) : System (List UInt8) Int SendPc Unit Empty where
  enter := .entry
  move _ := sendMessage limit
  environment event := nomatch event

abbrev SendersConfig := Config (List UInt8) Int SendPc
abbrev SendersAct := Act Int Unit Empty

/-- What the next step accesses lies inside the buffer. -/
def SendPc.Inside (limit : UInt32) (msg : List UInt8) : SendPc → Prop
  | .save | .overwrite _ | .restore _ _ => limit.toNat < msg.length
  | .scan _ => (strlen msg).isSome
  | .write length => length ≤ msg.length
  | .outOfBounds => False
  | .entry _ | .testLength _ | .done _ => True

instance (limit : UInt32) (msg : List UInt8) : (pc : SendPc) → Decidable (pc.Inside limit msg)
  | .save | .overwrite _ | .restore _ _ => inferInstanceAs (Decidable (_ < _))
  | .scan _ => inferInstanceAs (Decidable (_ = true))
  | .write _ => inferInstanceAs (Decidable (_ ≤ _))
  | .outOfBounds => isFalse id
  | .entry _ | .testLength _ | .done _ => isTrue trivial

def SendPc.returned : SendPc → Bool
  | .write _ | .done _ => true
  | _ => false

/-- What the caller of `send_message` is owed at any time, and once all have returned. -/
structure RespectsBuffer (limit : UInt32) (buffer str : List UInt8) (config : SendersConfig) : Prop where
  inside : ∀ process ∈ config.calls, process.state.Inside limit config.shared
  length : ∀ process ∈ config.calls, ∀ length, process.state = .write length → length = min str.length limit.toNat
  restored : (∀ process ∈ config.calls, process.state.returned = true) → config.shared = buffer

/-- The terminator is written and not yet taken back. -/
def SendPc.cut : SendPc → Bool
  | .scan _ | .restore _ _ => true
  | _ => false

def SendPc.scanning : SendPc → Bool
  | .scan _ => true
  | _ => false

def SendPc.saving : SendPc → Bool
  | .save => true
  | _ => false

def SendPc.restoring : SendPc → Bool
  | .restore _ _ => true
  | _ => false

/-- No thread saves the byte while another has it overwritten, and none restores it
before another has scanned. -/
def Undisturbed (config : SendersConfig) (act : SendersAct) : Prop :=
  ∀ moving ∈ mover config act,
    (moving.1.saving = true → ∀ process ∈ config.calls, process.state.cut = false) ∧
      (moving.1.restoring = true → ∀ process ∈ config.calls, process.state.scanning = false)

instance (config : SendersConfig) (act : SendersAct) : Decidable (Undisturbed config act) :=
  inferInstanceAs (Decidable (∀ moving ∈ mover config act, _ ∧ _))

/-! What a thread knows of the buffer it was called with. -/

def SendPc.Knows (limit : UInt32) (buffer str : List UInt8) : SendPc → Prop
  | .overwrite victim | .scan victim => buffer[limit.toNat]? = some victim
  | .restore victim length => buffer[limit.toNat]? = some victim ∧ length = min str.length limit.toNat
  | .testLength length | .write length => length = min str.length limit.toNat
  | .outOfBounds => False
  | .entry _ | .save | .done _ => True

/-- The buffer, as it was or with the terminator in it. -/
def Marked (limit : UInt32) (buffer msg : List UInt8) (cuts : Nat) : Prop :=
  msg = buffer ∨ msg = buffer.set limit.toNat 0 ∧ 0 < cuts

def cuts (pc : SendPc) : Nat := if pc.cut then 1 else 0

section Sharing
variable {limit : UInt32} {buffer str : List UInt8} {allowed : SendersConfig → SendersAct → Prop} {config : SendersConfig}

theorem set_zero_self (zero : buffer[limit.toNat]? = some 0) : buffer.set limit.toNat 0 = buffer := by
  obtain ⟨inside, same⟩ := List.getElem?_eq_some_iff.mp zero
  rw [← same, List.set_getElem_self]

theorem set_victim_self {victim : UInt8} (saved : buffer[limit.toNat]? = some victim) :
    (buffer.set limit.toNat 0).set limit.toNat victim = buffer := by
  obtain ⟨inside, rfl⟩ := List.getElem?_eq_some_iff.mp saved
  rw [List.set_set, List.set_getElem_self]

/-- The terminator is there for whoever is about to scan. -/
def Sees (limit : UInt32) (buffer msg : List UInt8) (pc : SendPc) : Prop :=
  pc.scanning = false ∨ msg = buffer.set limit.toNat 0

/-- A step of a thread, when the byte it saves is the one that the buffer had. Only a
restore takes the terminator away. -/
theorem knows_step {msg msg' : List UInt8} {pc pc' : SendPc} {others : Nat} (holds : Holds buffer str)
    (inside : limit.toNat < buffer.length) (marked : Marked limit buffer msg (cuts pc + others))
    (knows : pc.Knows limit buffer str) (sees : Sees limit buffer msg pc) (saves : pc.saving = true → msg = buffer)
    (moved : sendMessage limit msg pc = some (msg', pc')) :
    Marked limit buffer msg' (cuts pc' + others) ∧ pc'.Knows limit buffer str ∧ Sees limit buffer msg' pc' ∧
      (pc.restoring = true ∨ (msg = buffer.set limit.toNat 0 → msg' = buffer.set limit.toNat 0)) := by
  cases pc with
  | entry fd =>
    simp only [sendMessage] at moved
    split at moved
    · cases moved
      exact ⟨marked, trivial, .inl rfl, .inr id⟩
    · split at moved
      · cases moved
        exact ⟨marked, trivial, .inl rfl, .inr id⟩
      · cases moved
        exact ⟨marked, trivial, .inl rfl, .inr id⟩
  | save =>
    obtain rfl := saves rfl
    simp only [sendMessage, List.getElem?_eq_getElem inside] at moved
    cases moved
    exact ⟨marked, List.getElem?_eq_getElem inside, .inl rfl, .inr id⟩
  | overwrite victim =>
    cases moved
    have written : msg.set limit.toNat 0 = buffer.set limit.toNat 0 := by
      rcases marked with rfl | ⟨rfl, _⟩
      · rfl
      · rw [List.set_set]
    rw [written]
    exact ⟨.inr ⟨rfl, Nat.lt_of_lt_of_le Nat.one_pos (Nat.le_add_right 1 others)⟩, knows, .inr rfl, .inr fun _ => rfl⟩
  | scan victim =>
    obtain rfl := sees.resolve_left (by simp [SendPc.scanning])
    simp only [sendMessage, holds.strlen_set inside] at moved
    cases moved
    exact ⟨marked, ⟨knows, rfl⟩, .inl rfl, .inr id⟩
  | restore victim length =>
    cases moved
    have restored : msg.set limit.toNat victim = buffer := by
      rcases marked with rfl | ⟨rfl, _⟩
      · obtain ⟨_, rfl⟩ := List.getElem?_eq_some_iff.mp knows.1
        exact List.set_getElem_self _
      · exact set_victim_self knows.1
    rw [restored]
    exact ⟨.inl rfl, knows.2, .inl rfl, .inl rfl⟩
  | testLength length =>
    simp only [sendMessage] at moved
    split at moved
    · cases moved
      exact ⟨marked, trivial, .inl rfl, .inr id⟩
    · cases moved
      exact ⟨marked, knows, .inl rfl, .inr id⟩
  | write length | done ret | outOfBounds => cases moved

/-- No step disturbs another thread, or there is nothing that it could disturb. -/
def Harmless (limit : UInt32) (buffer : List UInt8) (allowed : SendersConfig → SendersAct → Prop) : Prop :=
  (∀ config act, allowed config act → Undisturbed config act) ∨ buffer[limit.toNat]? = some 0

theorem senders_share (holds : Holds buffer str) (inside : limit.toNat < buffer.length)
    (harmless : Harmless limit buffer allowed) (reached : Reaches (senders limit) allowed ⟨buffer, []⟩ config) :
    Marked limit buffer config.shared (total cuts config.calls) ∧
      ∀ process ∈ config.calls, process.state.Knows limit buffer str ∧ Sees limit buffer config.shared process.state := by
  refine reached.outline cuts (Marked limit buffer)
    (fun msg process => process.state.Knows limit buffer str ∧ Sees limit buffer msg process.state)
    ⟨.inl rfl, by simp⟩ (fun msg request => ⟨rfl, trivial, .inl rfl⟩) ?_ ?_
  · intro msg left right request pc outcome msg' pc' _ permitted marked own others moved
    have saves : pc.saving = true → msg = buffer := by
      intro saving
      rcases marked with same | ⟨same, positive⟩
      · exact same
      · rcases harmless with undisturbed | zero
        · have uncut := ((undisturbed _ _ permitted) _ (mover_move _ _ _ _ _)).1 saving
          have own : cuts pc = 0 := by cases pc <;> first | rfl | cases saving
          have rest : total cuts (left ++ right) = 0 := total_eq_zero fun process member => by
            simp [cuts, uncut process (mem_of_mem_others member)]
          omega
        · rw [same, set_zero_self zero]
    obtain ⟨marked', knows', sees', keeps⟩ := knows_step holds inside marked own.1 own.2 saves moved
    refine ⟨marked', ⟨knows', sees'⟩, fun process member => ⟨(others process member).1, ?_⟩⟩
    rcases (others process member).2 with blind | sees
    · exact .inl blind
    · rcases keeps with restoring | keeps
      · rcases harmless with undisturbed | zero
        · exact .inl (((undisturbed _ _ permitted) _ (mover_move _ _ _ _ _)).2 restoring process (mem_of_mem_others member))
        · apply Or.inr
          rcases marked' with same | ⟨same, _⟩
          · rw [same, set_zero_self zero]
          · exact same
      · exact .inr (keeps sees)
  · intro msg calls event
    cases event

/-- What a thread knows is what its caller is owed. -/
theorem respects_of_harmless (holds : Holds buffer str) (inside : limit.toNat < buffer.length)
    (harmless : Harmless limit buffer allowed) (reached : Reaches (senders limit) allowed ⟨buffer, []⟩ config) :
    RespectsBuffer limit buffer str config := by
  obtain ⟨marked, known⟩ := senders_share holds inside harmless reached
  have size : config.shared.length = buffer.length := by
    rcases marked with same | ⟨same, _⟩ <;> rw [same]
    exact List.length_set
  refine ⟨fun process member => ?_, fun process member length writes => ?_, fun returned => ?_⟩
  · obtain ⟨knows, sees⟩ := known process member
    cases state : process.state with
    | save | overwrite _ | restore _ _ => exact Nat.lt_of_lt_of_eq inside size.symm
    | scan victim =>
      have marks := sees.resolve_left (by simp [state, SendPc.scanning])
      simp only [SendPc.Inside, marks, holds.strlen_set inside, Option.isSome_some]
    | write length =>
      rw [state] at knows
      have fits := holds.length_lt
      simp only [SendPc.Knows] at knows
      simp only [SendPc.Inside]
      omega
    | outOfBounds =>
      rw [state] at knows
      exact knows
    | entry _ | testLength _ | done _ => trivial
  · have knows := (known process member).1
    rwa [writes] at knows
  · have uncut : total cuts config.calls = 0 := total_eq_zero fun process member => by
      have ended := returned process member
      cases state : process.state <;> first | rfl | (rw [state] at ended; cases ended)
    rcases marked with same | ⟨_, positive⟩
    · exact same
    · omega

/-! Two threads, of which the second saves the terminator of the first. -/

def ReachesPair (limit : UInt32) (buffer msg : List UInt8) (first second : SendPc) : Prop :=
  Reaches (senders limit) Anything ⟨buffer, []⟩ ⟨msg, [⟨0, first⟩, ⟨0, second⟩]⟩

section Pairs
variable {msg msg' : List UInt8} {first first' second second' : SendPc}

theorem ReachesPair.move_first (reached : ReachesPair limit buffer msg first second)
    (moved : sendMessage limit msg first = some (msg', first')) : ReachesPair limit buffer msg' first' second := by
  have taken : Step (senders limit) ⟨msg, [] ++ ⟨0, first⟩ :: [⟨0, second⟩]⟩ (.move 0 ())
    ⟨msg', [] ++ ⟨0, first'⟩ :: [⟨0, second⟩]⟩ := .move moved
  exact reached.step trivial taken.enabled

theorem ReachesPair.move_second (reached : ReachesPair limit buffer msg first second)
    (moved : sendMessage limit msg second = some (msg', second')) : ReachesPair limit buffer msg' first second' := by
  have taken : Step (senders limit) ⟨msg, [⟨0, first⟩] ++ ⟨0, second⟩ :: []⟩ (.move 1 ())
    ⟨msg', [⟨0, first⟩] ++ ⟨0, second'⟩ :: []⟩ := .move moved
  exact reached.step trivial taken.enabled

end Pairs

theorem reaches_saving (positive : limit ≠ 0) : ReachesPair limit buffer buffer .save .save := by
  have entered : sendMessage limit buffer (.entry 0) = some (buffer, .save) := by simp [sendMessage, positive]
  have one : Reaches (senders limit) Anything ⟨buffer, []⟩ ⟨buffer, [⟨0, .entry 0⟩]⟩ :=
    Reaches.refl.step trivial (Step.enter (0 : Int)).enabled
  have both : ReachesPair limit buffer buffer (.entry 0) (.entry 0) := one.step trivial (Step.enter (0 : Int)).enabled
  exact (both.move_first entered).move_second entered

/-- The byte is lost: it is restored from what the other thread had put there. -/
theorem reaches_lost (holds : Holds buffer str) (nonempty : str ≠ []) (positive : limit ≠ 0)
    (inside : limit.toNat < buffer.length) :
    ReachesPair limit buffer (buffer.set limit.toNat 0) (.write (min str.length limit.toNat))
      (.write (min str.length limit.toNat)) := by
  let cut := buffer.set limit.toNat 0
  let length := min str.length limit.toNat
  have bytes : ¬ length ≤ 0 := by
    have some := List.length_pos_of_ne_nil nonempty
    have least : 0 < limit.toNat := Nat.pos_of_ne_zero fun zero => positive (UInt32.toNat_inj.mp zero)
    omega
  have saves : sendMessage limit buffer .save = some (buffer, .overwrite buffer[limit.toNat]) := by
    simp [sendMessage, inside]
  have savesCut : sendMessage limit cut .save = some (cut, .overwrite 0) := by simp [sendMessage, cut, inside]
  have scans : ∀ victim, sendMessage limit cut (.scan victim) = some (cut, .restore victim length) := fun victim => by
    simp only [sendMessage, cut, holds.strlen_set inside, length]
  have restores : sendMessage limit cut (.restore buffer[limit.toNat] length) = some (buffer, .testLength length) := by
    simp [sendMessage, cut]
  have losesAgain : sendMessage limit buffer (.overwrite 0) = some (cut, .scan 0) := rfl
  have loses : sendMessage limit cut (.restore 0 length) = some (cut, .testLength length) := by simp [sendMessage, cut]
  have writes : ∀ msg, sendMessage limit msg (.testLength length) = some (msg, .write length) := fun msg => by
    simp only [sendMessage, if_neg bytes]
  have marked : ReachesPair limit buffer cut (.scan buffer[limit.toNat]) .save := ((reaches_saving positive).move_first saves).move_first rfl
  have both : ReachesPair limit buffer cut (.scan buffer[limit.toNat]) (.overwrite 0) := marked.move_second savesCut
  have restored : ReachesPair limit buffer buffer (.write length) (.overwrite 0) :=
    ((both.move_first (scans _)).move_first restores).move_first (writes _)
  exact (((restored.move_second losesAgain).move_second (scans _)).move_second loses).move_second (writes _)

end Sharing

/-- In a buffer that is longer than the limit, undisturbed threads respect it. Threads
respect it in whatever order they go exactly when the byte at the limit is in the
buffer, and zero. -/
theorem send_respects_buffer {limit : UInt32} {buffer str : List UInt8} (holds : Holds buffer str) (nonempty : str ≠ [])
    (positive : limit ≠ 0) :
    (limit.toNat < buffer.length → ∀ config, Reaches (senders limit) Undisturbed ⟨buffer, []⟩ config →
      RespectsBuffer limit buffer str config) ∧
    ((∀ config, Reaches (senders limit) Anything ⟨buffer, []⟩ config → RespectsBuffer limit buffer str config) ↔
      buffer[limit.toNat]? = some 0) := by
  refine ⟨fun inside config reached => respects_of_harmless holds inside (.inl fun _ _ => id) reached, ?_, ?_⟩
  · intro respects
    have saving := (respects _ (reaches_saving positive)).inside ⟨0, .save⟩ List.mem_cons_self
    have inside : limit.toNat < buffer.length := saving
    have restored := (respects _ (reaches_lost holds nonempty positive inside)).restored (by simp [SendPc.returned])
    have same : (buffer.set limit.toNat 0)[limit.toNat]? = buffer[limit.toNat]? := congrArg (·[limit.toNat]?) restored
    rw [← same]
    simp [inside]
  · intro zero config reached
    obtain ⟨inside, _⟩ := List.getElem?_eq_some_iff.mp zero
    exact respects_of_harmless holds inside (.inr zero) reached

def greeting : List UInt8 := [104, 105, 0]

theorem holds_greeting : Holds greeting [104, 105] := ⟨⟨[], rfl⟩, by decide⟩

/-- The second thread saves, and restores, between the first one's steps. -/
def turns : List SendersAct :=
  [.enter 0, .enter 0] ++ List.replicate 3 (.move 0 ()) ++ List.replicate 2 (.move 1 ()) ++
    List.replicate 3 (.move 0 ()) ++ List.replicate 4 (.move 1 ())

theorem send_respects_buffer_turns : ∃ config, run (senders 2) Anything ⟨greeting, []⟩ turns = some config ∧
    config.calls = [⟨0, .write 2⟩, ⟨0, .write 2⟩] ∧ RespectsBuffer 2 greeting [104, 105] config := by
  have enabled : (run (senders 2) Anything ⟨greeting, []⟩ turns).isSome := by decide
  refine ⟨_, (Option.some_get enabled).symm, rfl, ?_⟩
  exact (send_respects_buffer holds_greeting (by decide) (by decide)).2.mpr rfl _ (reaches_get enabled)

/-- One thread, a string of two letters and a limit of 32. -/
theorem send_overruns_buffer :
    ¬ ∀ limit buffer str config, Holds buffer str → str ≠ [] → limit ≠ 0 →
      Reaches (senders limit) Anything ⟨buffer, []⟩ config → RespectsBuffer limit buffer str config := by
  intro respects
  have enabled : (run (senders 32) Anything ⟨greeting, []⟩ [.enter 0, .move 0 ()]).isSome := by decide
  have wrong : ¬ ∀ process ∈ ((run (senders 32) Anything ⟨greeting, []⟩ [.enter 0, .move 0 ()]).get enabled).calls,
    process.state.Inside 32 greeting := by decide +revert
  exact wrong (respects 32 greeting _ _ holds_greeting (by decide) (by decide) (reaches_get enabled)).inside

end Tsm.Library
