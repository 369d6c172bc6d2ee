import Mathlib.Algebra.Order.BigOperators.Group.Multiset
import Tsm.Lib.Sequential
import Tsm.Proofs.Conservation

/-! The storage limit. The device compares it with the number of its messages, and
what it keeps in bytes is larger than that once messages have more than one byte. -/

namespace Tsm
open Interleaving Sequential KernelList

variable {maxMessageSize maxStorageSize : UInt32} {msecsToJiffies : UInt32 → Nat} {delayWq : Bool}

/-- Neither parameter is written during the run. -/
def LimitsFixed (_ : DeviceConfig) : DeviceAct → Prop
  | .environment (.maxMessageSize _) | .environment (.maxStorageSize _) => False
  | _ => True

instance (config : DeviceConfig) : (act : DeviceAct) → Decidable (LimitsFixed config act)
  | .environment (.maxMessageSize _) | .environment (.maxStorageSize _) => isFalse id
  | .environment .tick | .environment (.expire _) | .environment .worker | .enter _ | .move _ _ => isTrue trivial

/-- The messages the device keeps: those in its lists and those in transit. -/
def keptMessages (config : DeviceConfig) : Multiset Message :=
  total heldBy config.calls + config.shared.dev.pendingList + config.shared.wq.carried +
    config.shared.dev.messageList

def keptBytes (config : DeviceConfig) : Nat := ((keptMessages config).map Message.dataSize).sum

theorem card_keptMessages {config}
    (reached : Reaches device LimitsFixed (installed maxMessageSize maxStorageSize msecsToJiffies delayWq) config) :
    (keptMessages config).card = config.shared.dev.messagesNumber.toNat := by
  have counted := (device_balanced reached).counted
  simp only [view, viewOf] at counted
  simp only [keptMessages, Multiset.card_add, Multiset.coe_card]
  omega

theorem kept_size {config}
    (reached : Reaches device LimitsFixed (installed maxMessageSize maxStorageSize msecsToJiffies delayWq) config)
    {msg : Message} (kept : msg ∈ keptMessages config) : msg.dataSize ≤ maxMessageSize.toNat := by
  have accepted : msg ∈ total acceptedBy config.calls := by
    have conserved : total acceptedBy config.calls = keptMessages config + total removedBy config.calls :=
      device_conserved reached
    exact conserved ▸ Multiset.mem_add.mpr (.inl kept)
  have sized := reached.mono fun config act fixed => show SizeFixed config act by
    cases act with
    | environment event => cases event <;> first | exact fixed.elim | trivial
    | _ => trivial
  obtain ⟨⟨request, call⟩, present, stored⟩ := mem_total.mp accepted
  have carries := (device_carries sized).2 _ present
  cases call with
  | write pc =>
    cases request with
    | write buf length =>
      have stored : msg ∈ pc.stored := by simpa [acceptedBy] using stored
      rw [(carries.stores stored).1]
      exact Nat.min_le_right _ _
    | _ => exact carries.elim
  | _ => simp [acceptedBy] at stored

theorem device_keeps_limit {config}
    (reached : Reaches device LimitsFixed (installed maxMessageSize maxStorageSize msecsToJiffies delayWq) config) :
    config.shared.maxStorageSize = maxStorageSize ∧ config.shared.history.peak = maxStorageSize := by
  refine reached.induct ⟨rfl, rfl⟩ ?_
  intro before act after _ kept fixed taken
  cases taken with
  | enter request => exact kept
  | move moved =>
    cases move_cases moved with
    | write step => cases step <;> exact kept
    | read step => cases step <;> exact kept
    | setSendDelay step => cases step <;> exact kept
    | revoke step => cases step <;> exact kept
  | environment happened =>
    cases environment_cases happened with
    | maxMessageSize | maxStorageSize => exact fixed.elim
    | worker step => cases step <;> exact kept
    | _ => exact kept

/-- In bytes the device keeps at most what its limit allows in messages of the largest size. -/
theorem keptBytes_le {config}
    (reached : Reaches device LimitsFixed (installed maxMessageSize maxStorageSize msecsToJiffies delayWq) config) :
    keptBytes config ≤ maxStorageSize.toNat * maxMessageSize.toNat := by
  have bounded := (device_balanced reached).bounded
  simp only [view, viewOf, (device_keeps_limit reached).2] at bounded
  have sizes : ∀ size ∈ (keptMessages config).map Message.dataSize, size ≤ maxMessageSize.toNat := by
    intro size member
    obtain ⟨msg, kept, rfl⟩ := Multiset.mem_map.mp member
    exact kept_size reached kept
  calc keptBytes config
    _ ≤ ((keptMessages config).map Message.dataSize).card • maxMessageSize.toNat := Multiset.sum_le_card_nsmul _ _ sizes
    _ = config.shared.dev.messagesNumber.toNat * maxMessageSize.toNat := by
      rw [Multiset.card_map, card_keptMessages reached, Nat.nsmul_eq_mul]
    _ ≤ maxStorageSize.toNat * maxMessageSize.toNat := Nat.mul_le_mul_right _ bounded

/-! Filling the storage. -/

def published (s : State) (msg : Message) : State :=
  { s with fresh := s.fresh + 1
           dev.messagesNumber := s.dev.messagesNumber + 1
           dev.messageList := listAdd msg s.dev.messageList
           history.available := s.history.available ++ [msg] }

/-- A write that nothing prevents publishes its bytes at once. -/
theorem write_publishes {s : State} {buf : Nat → UInt8} {length : Nat} (positive : 0 < length)
    (inside : length ≤ s.maxMessageSize.toNat) (room : s.dev.messagesNumber < s.maxStorageSize)
    (noDelay : s.dev.delay = 0) :
    Alone groupWrite (fun _ => ⟨true, true⟩) s (.entry buf length) (published s (newMessage s buf length s.fresh))
      (.listPrint (newMessage s buf length s.fresh)) := by
  have entered : groupWrite ⟨true, true⟩ s (.entry buf length) = some (s, .allocData buf length) := by
    rw [groupWrite, if_neg (Nat.not_le.mpr positive), if_neg (Nat.not_lt.mpr inside)]
  have stored : groupWrite ⟨true, true⟩ { s with fresh := s.fresh + 1 } (.critical buf length s.fresh) =
      some (published s (newMessage s buf length s.fresh), .listPrint (newMessage s buf length s.fresh)) := by
    simp only [groupWrite, Bool.not_true]
    rw [if_neg (UInt32.not_le.mpr room), if_neg Bool.false_ne_true, if_neg (not_not.mpr noDelay)]
    rfl
  exact .step entered (.step rfl (.step rfl (.step stored .here)))

variable (msecsToJiffies delayWq) in
/-- Writes of two bytes, one after the other, as many as the limit allows. -/
theorem reaches_filled (large : 1 < maxMessageSize) (count : Nat) (few : count ≤ maxStorageSize.toNat) :
    ∃ config, Reaches device LimitsFixed (installed maxMessageSize maxStorageSize msecsToJiffies delayWq) config ∧
      config.shared.dev.messagesNumber.toNat = count ∧ config.shared.dev.delay = 0 ∧
      config.shared.maxMessageSize = maxMessageSize ∧ config.shared.maxStorageSize = maxStorageSize ∧
      keptBytes config = 2 * count := by
  induction count with
  | zero => exact ⟨_, .refl, rfl, rfl, rfl, rfl, rfl⟩
  | succ count ih =>
    obtain ⟨⟨s, calls⟩, reached, counted, noDelay, size, limit, bytes⟩ := ih (Nat.le_of_succ_le few)
    have room : s.dev.messagesNumber < s.maxStorageSize := by
      rw [limit, UInt32.lt_iff_toNat_lt, counted]
      exact few
    have inside : 2 ≤ s.maxMessageSize.toNat := by
      rw [size]
      exact UInt32.lt_iff_toNat_lt.mp large
    have alone : Alone device.move (fun _ => ⟨true, true⟩) s (.write (.entry letters 2)) _
        (.write (.listPrint (newMessage s letters 2 s.fresh))) :=
      (write_publishes Nat.two_pos inside room noDelay).embed Call.write fun moved => by
        simp only [device, move, moved, Option.map_some]
    have entered := reached.step (show LimitsFixed _ (.enter (.write letters 2)) from trivial) rfl
    refine ⟨_, alone.reaches entered fun _ _ _ => trivial, ?_, noDelay, size, limit, ?_⟩
    · simp only [published, count_up room, counted]
    · have kept : keptBytes ⟨published s (newMessage s letters 2 s.fresh),
          calls ++ [⟨.write letters 2, .write (.listPrint (newMessage s letters 2 s.fresh))⟩]⟩ =
          keptBytes ⟨s, calls⟩ + 2 := by
        simp [keptBytes, keptMessages, published, heldBy, listAdd, newMessage]
        omega
      rw [kept, bytes]
      omega

/-- What the device keeps fits in `max_storage_size` bytes in every run if and only
if no message is longer than a byte, or none can be stored. -/
theorem storage_in_bytes :
    (∀ config, Reaches device LimitsFixed
        (installed maxMessageSize maxStorageSize msecsToJiffies delayWq) config →
      keptBytes config ≤ maxStorageSize.toNat) ↔ maxStorageSize = 0 ∨ maxMessageSize ≤ 1 := by
  constructor
  · intro fits
    by_contra large
    obtain ⟨some, large⟩ := not_or.mp large
    have large := UInt32.not_le.mp large
    obtain ⟨config, reached, _, _, _, _, bytes⟩ :=
      reaches_filled msecsToJiffies delayWq large maxStorageSize.toNat (le_refl _)
    have less := fits config reached
    have some : maxStorageSize.toNat ≠ 0 := fun zero => some (UInt32.toNat_inj.mp zero)
    omega
  · intro small config reached
    have bound := keptBytes_le reached
    rcases small with rfl | small
    · simpa using bound
    · calc keptBytes config
        _ ≤ maxStorageSize.toNat * maxMessageSize.toNat := bound
        _ ≤ maxStorageSize.toNat * 1 := Nat.mul_le_mul_left _ (UInt32.le_iff_toNat_le.mp small)
        _ = maxStorageSize.toNat := Nat.mul_one _

/-- Three messages of 32 bytes on the sample device, which has room for 64. -/
def fullRun : List DeviceAct :=
  [.enter (.write letters 32)] ++ steps 0 4 ++ [.enter (.write letters 32)] ++ steps 1 4 ++
    [.enter (.write letters 32)] ++ steps 2 4

theorem storage_exceeded :
    ¬ ∀ maxMessageSize maxStorageSize msecsToJiffies delayWq config,
      Reaches device LimitsFixed (installed maxMessageSize maxStorageSize msecsToJiffies delayWq) config →
        keptBytes config ≤ maxStorageSize.toNat := by
  intro fits
  have enabled : (run device LimitsFixed sampleDevice fullRun).isSome := by decide
  have wrong : ¬ keptBytes ((run device LimitsFixed sampleDevice fullRun).get enabled) ≤ 64 := by decide +revert
  exact wrong (fits _ _ _ _ _ (reaches_get enabled))

end Tsm
