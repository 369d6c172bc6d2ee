import Tsm.Library.Messages
import Tsm.Proofs.Failures

/-! The size of a message, from the string in the sender's buffer to the bytes in the
receiver's. The library cuts the string at the limit it has cached, the driver at
the limit in force; they are one limit only if the second is not the larger. -/

namespace Tsm.Library
open Sequential CString

/-- `send_message`, on a library that holds `limit`, gets as far as its write. -/
def Scans (limit : UInt32) (msg : List UInt8) (pc : SendPc) (msg' : List UInt8) (length : Nat) : Prop :=
  Alone (fun _ : Unit => sendMessage limit) (fun _ => ()) msg pc msg' (.write length)

/-- One `send_message` from its call to its return. -/
inductive Sends (session : Session) (outcomes : WriteOutcomes) (s : State) (fd : Int) (msg : List UInt8) :
    State → Int → Option Message → Prop where
  | refused {msg' ret}
      (ran : Alone (fun _ : Unit => sendMessage session.cached) (fun _ => ()) msg (.entry fd) msg' (.done ret)) :
      Sends session outcomes s fd msg s ret none
  | sent {msg' length s' ret stored} (scans : Scans session.cached msg (.entry fd) msg' length)
      (wrote : Alone groupWrite outcomes.resolve s (sendCall msg' length) s' (.done ret stored)) :
      Sends session outcomes s fd msg s' ret stored

/-- The message is what the limit leaves of the string, and so is what a reader gets. -/
structure SentUpTo (limit : UInt32) (str : List UInt8) (ret : Int) (stored : Message) : Prop where
  count : ret = min str.length limit.toNat
  bytes : stored.data = str.take ret.toNat
  retrieved : ∀ choose s s' fd length pc ret' bytes, retrieveMessage fd length = some pc →
    Alone groupRead choose s pc s' (.done ret' (some stored) bytes) → 0 ≤ ret' →
      ret' = min ret.toNat length ∧ bytes = str.take (min ret.toNat length)

section Send
variable {session : Session} {outcomes : WriteOutcomes} {s s' : State} {fd : Int} {msg msg' str : List UInt8}
  {length : Nat} {ret : Int} {stored : Option Message}

theorem scans_step {limit : UInt32} {pc pc' : SendPc} {middle : List UInt8}
    (moved : sendMessage limit msg pc = some (middle, pc')) : Scans limit msg pc msg' length ↔ Scans limit middle pc' msg' length :=
  alone_step rfl moved

/-- On a buffer that is longer than the limit the scan finds the end of the string
or the overwritten byte, and the buffer is restored. -/
theorem scans_save {limit : UInt32} (holds : Holds msg str) (inside : limit.toNat < msg.length)
    (scans : Scans limit msg .save msg' length) : msg' = msg ∧ length = min str.length limit.toNat := by
  have saves : sendMessage limit msg .save = some (msg, .overwrite msg[limit.toNat]) := by
    simp [sendMessage, inside]
  have finds : sendMessage limit (msg.set limit.toNat 0) (.scan msg[limit.toNat]) =
      some (msg.set limit.toNat 0, .restore msg[limit.toNat] (min str.length limit.toNat)) := by
    simp only [sendMessage, holds.strlen_set inside]
  have restores : sendMessage limit (msg.set limit.toNat 0)
      (.restore msg[limit.toNat] (min str.length limit.toNat)) =
      some (msg, .testLength (min str.length limit.toNat)) := by
    simp [sendMessage]
  rw [scans_step saves, scans_step (by rfl), scans_step finds, scans_step restores] at scans
  by_cases empty : min str.length limit.toNat ≤ 0
  · have refuses : sendMessage limit msg (.testLength (min str.length limit.toNat)) = some (msg, .done (-1)) := by
      simp only [sendMessage, if_pos empty]
    rw [scans_step refuses, Scans, alone_stuck rfl] at scans
    cases scans.2
  · have writes : sendMessage limit msg (.testLength (min str.length limit.toNat)) =
        some (msg, .write (min str.length limit.toNat)) := by
      simp only [sendMessage, if_neg empty]
    rw [scans_step writes, Scans, alone_stuck rfl] at scans
    exact ⟨scans.1, SendPc.write.inj scans.2⟩

theorem scans_entry {limit : UInt32} (scans : Scans limit msg (.entry fd) msg' length) : Scans limit msg .save msg' length := by
  have refused : ∀ {ret}, ¬ Scans limit msg (.done ret) msg' length := fun scans => by
    cases ((alone_stuck rfl).mp scans).2
  by_cases negative : fd < 0
  · rw [scans_step (show sendMessage limit msg (.entry fd) = some (msg, .done (-1)) by simp [sendMessage, negative])] at scans
    exact absurd scans refused
  · by_cases unknown : limit = 0
    · rw [scans_step (show sendMessage limit msg (.entry fd) = some (msg, .done (-1)) by simp [sendMessage, unknown])] at scans
      exact absurd scans refused
    · rwa [scans_step (show sendMessage limit msg (.entry fd) = some (msg, .save) by simp [sendMessage, negative, unknown])]
        at scans

theorem refused_negative {limit : UInt32}
    (ran : Alone (fun _ : Unit => sendMessage limit) (fun _ => ()) msg (.entry fd) msg' (.done ret)) : ret = -1 := by
  refine ran.outline (fun _ pc => ∀ ret, pc = .done ret → ret = -1) (by simp) ?_ ret rfl
  intro shared pc shared' pc' _ moved ret returned
  subst returned
  cases pc <;> simp only [sendMessage] at moved
  case write | done | outOfBounds => cases moved
  case overwrite | restore => cases moved
  case entry | testLength => grind
  case save | scan => grind

theorem copyFromUser_buffer (inside : length ≤ msg.length) :
    copyFromUser (fun i => msg.getD i 0) length = msg.take length := by
  apply List.ext_getElem (by simp [copyFromUser, inside])
  intro i within within'
  have below : i < msg.length := by
    rw [List.length_take] at within'
    omega
  simp [copyFromUser, below]

/-- What a send that returns a count has stored: the string, cut twice. -/
theorem sends_stores (holds : Holds msg str) (inside : session.cached.toNat < msg.length)
    (sent : Sends session outcomes s fd msg s' ret stored) (positive : 0 < ret) :
    ∃ message, stored = some message ∧ ret = message.dataSize ∧
      message.dataSize = min (min str.length session.cached.toNat) s.maxMessageSize.toNat ∧
      message.data = str.take message.dataSize := by
  cases sent with
  | refused ran =>
    have negative := refused_negative ran
    omega
  | @sent msg' length s' ret stored scans wrote =>
    obtain ⟨rfl, rfl⟩ := scans_save holds inside (scans_entry scans)
    have outline := write_outline wrote
    cases stored with
    | none =>
      have negative := outline.2.1
      omega
    | some message =>
      obtain ⟨rfl, counted, _⟩ := outline
      refine ⟨_, rfl, counted, rfl, ?_⟩
      have within : min (min str.length session.cached.toNat) s.maxMessageSize.toNat ≤ str.length :=
        (Nat.min_le_left _ _).trans (Nat.min_le_left _ _)
      have bytes := copyFromUser_buffer (within.trans (Nat.le_of_lt holds.length_lt))
      rw [holds.take within] at bytes
      exact bytes

end Send

/-! The limit the library holds. -/

theorem cached_openGroup (outcome : OpenOutcome) (groupDescriptor : Option UInt8) (session : Session) :
    (openGroup outcome groupDescriptor session).1.limit = session.limit ∧
      ((openGroup outcome groupDescriptor session).1.cached = session.cached ∨
        session.cached = 0 ∧ (openGroup outcome groupDescriptor session).1.cached = session.limit) := by
  unfold openGroup
  grind

/-- While the parameter is not written the library holds the limit in force, or none. -/
theorem cached_unchanged {limit : UInt32} {events : List SessionEvent}
    (unchanged : ∀ value, .maxMessageSize value ∉ events) :
    (Session.after limit events).limit = limit ∧
      ((Session.after limit events).cached = 0 ∨ (Session.after limit events).cached = limit) := by
  induction events using List.reverseRecOn with
  | nil => exact ⟨rfl, .inl rfl⟩
  | append_singleton events event ih =>
    obtain ⟨same, known⟩ := ih fun value member => unchanged value (List.mem_append_left _ member)
    simp only [Session.after, List.foldl_append, List.foldl_cons, List.foldl_nil] at same known ⊢
    cases event with
    | maxMessageSize value => exact absurd (by simp) (unchanged value)
    | openGroup outcome groupDescriptor =>
      obtain ⟨kept, holds | ⟨_, holds⟩⟩ := cached_openGroup outcome groupDescriptor (events.foldl Session.happen (.start limit))
      · exact ⟨kept.trans same, by rwa [Session.happen, holds]⟩
      · exact ⟨kept.trans same, .inr (by rw [Session.happen, holds, same])⟩

/-- In a process with any history, a send that returns a count has stored the string up
to the limit in force exactly when the string or the limit fits the cached limit. -/
theorem sent_up_to_limit_iff {limit : UInt32} {events : List SessionEvent} {outcomes : WriteOutcomes} {s s' : State}
    {fd : Int} {msg str : List UInt8} {ret : Int} {stored : Option Message}
    (inForce : s.maxMessageSize = (Session.after limit events).limit)
    (holds : Holds msg str) (inside : (Session.after limit events).cached.toNat < msg.length)
    (sent : Sends (.after limit events) outcomes s fd msg s' ret stored) (positive : 0 < ret) :
    (∃ message ∈ stored, SentUpTo (Session.after limit events).limit str ret message) ↔
      str.length ≤ (Session.after limit events).cached.toNat ∨
        (Session.after limit events).limit ≤ (Session.after limit events).cached := by
  obtain ⟨message, rfl, rfl, size, bytes⟩ := sends_stores holds inside sent positive
  rw [inForce] at size
  rw [UInt32.le_iff_toNat_le]
  constructor
  · rintro ⟨_, same, whole⟩
    cases same
    have count := whole.count
    omega
  · intro fits
    refine ⟨message, rfl, by omega, by simpa using bytes, ?_⟩
    intro choose s₁ s₂ fd' length pc ret' delivered called ran received
    unfold retrieveMessage at called
    split at called
    · cases called
    · cases called
      rcases read_delivers ran with failed | ⟨rfl, rfl⟩
      · omega
      · rw [Int.toNat_natCast, Nat.min_comm]
        exact ⟨rfl, by rw [bytes, List.take_take, Nat.min_eq_left (Nat.min_le_left _ _)]⟩

/-! A process that opens a group while the limit is 32, and sends a string of 40 bytes
once the limit is lower or higher. -/

def opened : SessionEvent := .openGroup ⟨3, 0, 0, true, some 4⟩ (some 3)

def longString : List UInt8 := (List.range 40).map letters

def longBuffer : List UInt8 := longString ++ [0]

theorem holds_longBuffer : Holds longBuffer longString := ⟨⟨[], by decide⟩, by decide⟩

def allGranted : WriteOutcomes := ⟨true, true, true, true⟩

/-- What a send that is cut at 32 by the library stores on a device with this limit. -/
def sentFrom (limit : UInt32) : State × WritePc :=
  runAlone groupWrite allGranted.resolve 9 (State.installed limit 64 UInt32.toNat true) (sendCall longBuffer 32)

theorem sends_longBuffer {limit : UInt32} {ret : Int} {stored : Option Message}
    (returned : (sentFrom limit).2 = .done ret stored) :
    Sends (.after 32 [opened, .maxMessageSize limit]) allGranted (State.installed limit 64 UInt32.toNat true) 4 longBuffer
      (sentFrom limit).1 ret stored := by
  have ran := runAlone_alone (fun _ : Unit => sendMessage 32) (fun _ => ()) 6 longBuffer (.entry 4)
  have scanned : runAlone (fun _ : Unit => sendMessage 32) (fun _ => ()) 6 longBuffer (.entry 4) =
      (longBuffer, .write 32) := by decide
  have wrote := runAlone_alone groupWrite allGranted.resolve 9 (State.installed limit 64 UInt32.toNat true)
    (sendCall longBuffer 32)
  rw [scanned] at ran
  rw [show (runAlone _ _ _ _ _).2 = WritePc.done ret stored from returned] at wrote
  exact .sent ran wrote

theorem sent_up_to_limit_iff_lowered :
    ∃ message, (sentFrom 8).2 = .done 8 (some message) ∧ SentUpTo 8 longString 8 message := by
  have returned : ∃ message, (sentFrom 8).2 = .done 8 (some message) := ⟨_, rfl⟩
  obtain ⟨message, returned⟩ := returned
  have cut : (∃ message' ∈ some message,
      SentUpTo (Session.after 32 [opened, .maxMessageSize 8]).limit longString 8 message') ↔ _ :=
    sent_up_to_limit_iff rfl holds_longBuffer (by decide) (sends_longBuffer returned) (by decide)
  obtain ⟨_, same, whole⟩ := cut.mpr (.inr (by decide))
  cases same
  exact ⟨message, returned, whole⟩

theorem sent_below_limit :
    ¬ ∀ limit events outcomes s s' fd msg str ret stored, 1 ≤ limit →
      (∀ value, SessionEvent.maxMessageSize value ∈ events → 1 ≤ value) →
      s.maxMessageSize = (Session.after limit events).limit → Holds msg str → str ≠ [] →
      (Session.after limit events).cached.toNat < msg.length →
      Sends (.after limit events) outcomes s fd msg s' ret stored → 0 < ret →
        ∃ message ∈ stored, SentUpTo (Session.after limit events).limit str ret message := by
  intro whole
  have returned : ∃ message, (sentFrom 64).2 = .done 32 (some message) := ⟨_, rfl⟩
  obtain ⟨message, returned⟩ := returned
  obtain ⟨_, _, sent⟩ := whole 32 [opened, .maxMessageSize 64] _ _ _ _ _ _ _ _ (by decide) (by simp [opened]) rfl
    holds_longBuffer (by decide) (by decide) (sends_longBuffer returned) (by decide)
  exact absurd sent.count (by decide)

end Tsm.Library
