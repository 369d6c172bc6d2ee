import Tsm.Lib.KernelLinks
import Tsm.Device.Locks

/-! A group device with the pointers of its `delay_list`. `delayed_work_fun` takes no
`wq_sem`, so the loads and stores of its `list_del` can mix with those of a `list_add`
and of a flush. -/

namespace Tsm
open Interleaving KernelLinks Accesses

/-- The `delayList` of the device records what a list without pointers would hold. No
step reads it. -/
structure LinkState where
  device : State
  links : Links Nat

def linkedMove (outcome : Outcome) (s : LinkState) : Call → Option (LinkState × Call)
  | .write (.listAdd msg work) =>
    (device.move outcome s.device (.write (.listAdd msg work))).map fun (device, call) =>
      (⟨device, s.links.insert work (s.links.next .head)⟩, call)
  -- list_empty and the first step of the traversal; only deletions could come between their loads
  | .revoke .testEmpty =>
    if s.links.next .head = .head then some (s, .revoke .drain)
    else
      match s.links.prev .head with
      | .head => some (s, .revoke .drain)
      | .entry pos => some (s, .revoke (.visit pos (s.links.prev (.entry pos)).item))
      | .poison => none
  | .revoke (.visit pos q) =>
    match s.links.delete pos with
    | none => none
    | some links =>
      (device.move outcome s.device (.revoke (.visit pos q))).map fun (device, call) => (⟨device, links⟩, call)
  | .revoke (.next (some pos)) => some (s, .revoke (.visit pos (s.links.prev (.entry pos)).item))
  | call => (device.move outcome s.device call).map fun (device, call) => ({ s with device }, call)

def linkedEnvironment (event : Event) (s : LinkState) : Option LinkState :=
  match event, s.device.unlinking with
  | .worker, some work =>
    match s.links.delete work with
    | none => none
    | some links => (device.environment .worker s.device).map fun device => ⟨device, links⟩
  | event, _ => (device.environment event s.device).map fun device => { s with device }

/-- With each `list_add` and each `list_del` taken at once. -/
def linkedDevice : System LinkState Request Call Outcome Event := ⟨enter, linkedMove, linkedEnvironment⟩

/-! One access at a time. -/

/-- A step without what it does with the pointers. -/
def linkBody (outcome : Outcome) (s : LinkState) (call : Call) : Option (LinkState × Call) :=
  (device.move outcome s.device call).map fun (device, call) => ({ s with device }, call)

def linkEvent (event : Event) (s : LinkState) : Option LinkState :=
  (device.environment event s.device).map fun device => { s with device }

def Call.linkUse : Call → Use (ListAccess Nat)
  | .write (.listAdd _ work) => .carries (.add work)
  | .revoke (.visit pos _) => .carries (.del pos)
  | .revoke .testEmpty | .revoke (.next (some _)) => .reads
  | _ => .nothing

section Laws
variable {outcome : Outcome} {event : Event} {s s' : LinkState} {call call' : Call} {operation place : ListAccess Nat}
  {now links : Links Nat}

theorem linkedMove_idle (nothing : call.linkUse = .nothing) (outcome : Outcome) (s : LinkState) :
    linkedMove outcome s call = linkBody outcome s call := by
  unfold linkedMove
  split
  · cases nothing
  · cases nothing
  · cases nothing
  · cases nothing
  · rfl

theorem linkedMove_carries (carries : call.linkUse = .carries operation) (partly : Partly ListAccess.next operation s.links place now)
    (made : place.next now = some (links, none)) :
    linkedMove outcome s call = linkBody outcome { s with links } call := by
  unfold linkedMove
  split
  next msg work =>
    cases carries
    rw [← insert_of_partly partly made]
    rfl
  next => cases carries
  next pos q =>
    cases carries
    rw [delete_of_partly partly made]
    rfl
  next => cases carries
  next notAdd notTest notVisit notNext =>
    rcases call with pc | pc | pc | pc
    · cases pc with
      | listAdd msg work => exact absurd rfl (notAdd msg work)
      | _ => cases carries
    · cases carries
    · cases carries
    · cases pc with
      | visit pos q => exact absurd rfl (notVisit pos q)
      | next q => cases q <;> cases carries
      | _ => cases carries

theorem linkedMove_reads (reads : call.linkUse = .reads) (moved : linkedMove outcome s call = some (s', call')) :
    s'.links = s.links := by
  unfold linkedMove at moved
  split at moved
  · cases reads
  · split at moved
    · cases moved
      rfl
    · split at moved <;> cases moved <;> rfl
  · cases reads
  · cases moved
    rfl
  · obtain ⟨_, _, equal⟩ := Option.map_eq_some_iff.mp moved
    cases equal
    rfl

theorem linkedEnvironment_idle (nothing : event ≠ .worker ∨ s.device.unlinking = none) :
    linkedEnvironment event s = linkEvent event s := by
  unfold linkedEnvironment
  split
  next work unlinking => exact (nothing.elim (absurd rfl) fun none => by simp [none] at unlinking)
  · rfl

theorem linkedEnvironment_carries {work : Nat} (unlinking : s.device.unlinking = some work)
    (partly : Partly ListAccess.next (.del work) s.links place now) (made : place.next now = some (links, none)) :
    linkedEnvironment .worker s = linkEvent .worker { s with links } := by
  simp only [linkedEnvironment, linkEvent, unlinking, delete_of_partly partly made]

theorem unlinking_move {s s' : State} (moved : device.move outcome s call = some (s', call')) :
    s'.unlinking = s.unlinking := by
  simp only [State.unlinking, move_keeps_running (move_cases moved)]

theorem unlinking_event {s s' : State} (other : event ≠ .worker) (happened : device.environment event s = some s') :
    s'.unlinking = s.unlinking := by
  cases environment_cases happened with
  | worker step => exact absurd rfl other
  | _ => rfl

end Laws

def linkAccesses : Splitting linkedDevice (Links Nat) (ListAccess Nat) where
  get := LinkState.links
  put links s := { s with links }
  put_get _ := rfl
  get_put _ _ := rfl
  put_put _ _ _ := rfl
  next := ListAccess.next
  uses := Call.linkUse
  agent := .worker
  carried s := s.device.unlinking.map .del
  body := linkBody
  agentBody := linkEvent .worker
  idle nothing outcome links s := by
    simp only [linkedDevice, linkedMove_idle nothing, linkBody]
    cases device.move outcome s.device _ <;> rfl
  reads := linkedMove_reads
  carries carries partly made outcome := linkedMove_carries carries partly made
  happens := by
    intro event s nothing links
    have nothing : event ≠ .worker ∨ s.device.unlinking = none := nothing.imp_right Option.map_eq_none_iff.mp
    simp only [linkedDevice, linkedEnvironment_idle nothing, linkedEnvironment_idle (s := { s with links }) nothing, linkEvent]
    cases device.environment event s.device <;> rfl
  agentCarries := by
    intro operation place s now links carries partly made
    obtain ⟨work, unlinking, rfl⟩ := Option.map_eq_some_iff.mp carries
    exact linkedEnvironment_carries unlinking partly made
  carried_put _ _ := rfl
  carried_move := by
    intro outcome s call s' call' nothing moved
    rw [show linkedDevice.move outcome s call = linkBody outcome s call from linkedMove_idle nothing _ _] at moved
    obtain ⟨_, stepped, equal⟩ := Option.map_eq_some_iff.mp moved
    cases equal
    exact congrArg (Option.map ListAccess.del) (unlinking_move stepped)
  carried_event := by
    intro event s s' other happened
    rw [show linkedDevice.environment event s = linkEvent event s from linkedEnvironment_idle (.inl other)] at happened
    obtain ⟨_, stepped, equal⟩ := Option.map_eq_some_iff.mp happened
    cases equal
    exact congrArg (Option.map ListAccess.del) (unlinking_event other stepped)

def pointerDevice : System (Threaded LinkState (Links Nat) (ListAccess Nat)) Request (Working Call (ListAccess Nat)) Outcome Event :=
  linkAccesses.fine

abbrev PointerConfig := Config (Threaded LinkState (Links Nat) (ListAccess Nat)) Request (Working Call (ListAccess Nat))

/-- The device that the pointers belong to. -/
def deviceOf : PointerConfig → DeviceConfig := project (fun s => s.state.device) Working.state

def installedPointers (maxMessageSize maxStorageSize : UInt32) (msecsToJiffies : UInt32 → Nat) (delayWq : Bool) :
    PointerConfig := linkAccesses.start ⟨.installed maxMessageSize maxStorageSize msecsToJiffies delayWq, .init⟩

end Tsm
