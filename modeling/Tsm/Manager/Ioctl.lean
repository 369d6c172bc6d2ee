import Tsm.Manager.Install

/-! The ioctl of the main device, with the two locals of `_install_group` and the one
of its own that nobody initializes. -/

namespace Tsm.Manager

def IOCTL_IDENTIFIER : UInt32 := 115

/-- Direction, size, type and number of a command. -/
def ioc (direction number size : UInt32) : UInt32 :=
  direction <<< 30 ||| size <<< 16 ||| IOCTL_IDENTIFIER <<< 8 ||| number

def iow : UInt32 → UInt32 → UInt32 := ioc 1

def ior : UInt32 → UInt32 → UInt32 := ioc 2

/-- Its argument is declared as a pointer, of 8 bytes. -/
def IOCTL_INSTALL_GROUP : UInt32 := iow 0 8

def IOCTL_MAX_MESSAGE_SIZE : UInt32 := ior 1 4

structure IoctlOutcome extends Outcome where
  copyToUser : Bool

/-- What the uninitialized locals hold: `ret` of `tsm_dev_ioctl`, `err` and `dev`. -/
structure Memory where
  ret : Int
  stack : Stack
  deriving DecidableEq, Repr

inductive IoctlPc where
  /-- With the descriptor that the caller's `struct group_t` holds. -/
  | entry (cmd : UInt32) (desc : UInt8) (memory : Memory)
  | install (pc : InstallPc)
  | copyToUser
  /-- What it returns, and what the caller got. -/
  | done (ret : Int) (copied : Option UInt32)
  deriving DecidableEq, Repr

def tsmDevIoctl (maxMessageSize : UInt32) (outcome : IoctlOutcome) (s : State) : IoctlPc → Option (State × IoctlPc)
  | .entry cmd desc memory =>
    if cmd = IOCTL_INSTALL_GROUP then some (s, .install (.copyFromUser desc memory.stack))
    else if cmd = IOCTL_MAX_MESSAGE_SIZE then some (s, .copyToUser)
    -- no default case: `ret` was not assigned
    else some (s, .done memory.ret none)
  | .install (.done ret) => some (s, .done ret none)
  | .install pc => (installGroup outcome.toOutcome s pc).map fun (s', pc') => (s', .install pc')
  | .copyToUser => if !outcome.copyToUser then some (s, .done (-1) none) else some (s, .done 0 (some maxMessageSize))
  | .done _ _ => none

theorem ioctl_install {maxMessageSize : UInt32} {outcome : IoctlOutcome} {s s' : State} {pc pc' : InstallPc}
    (moved : installGroup outcome.toOutcome s pc = some (s', pc')) :
    tsmDevIoctl maxMessageSize outcome s (.install pc) = some (s', .install pc') := by
  cases pc with
  | done ret => cases moved
  | _ => simp only [tsmDevIoctl, moved, Option.map_some]

theorem ioctl_install_cases {maxMessageSize : UInt32} {outcome : IoctlOutcome} {s s' : State} {pc : InstallPc} {pc' : IoctlPc}
    (moved : tsmDevIoctl maxMessageSize outcome s (.install pc) = some (s', pc')) :
    (∃ ret, pc = .done ret ∧ pc' = .done ret none) ∨
      ∃ next, pc' = .install next ∧ installGroup outcome.toOutcome s pc = some (s', next) := by
  cases pc with
  | done ret =>
    cases moved
    exact .inl ⟨ret, rfl, rfl⟩
  | _ =>
    simp only [tsmDevIoctl, Option.map_eq_some_iff] at moved
    obtain ⟨⟨_, next⟩, moved, same⟩ := moved
    cases same
    exact .inr ⟨next, rfl, moved⟩

example : IOCTL_INSTALL_GROUP = 0x40087300 ∧ IOCTL_MAX_MESSAGE_SIZE = 0x80047301 := by decide

end Tsm.Manager
