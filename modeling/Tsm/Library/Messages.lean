import Tsm.Lib.CString
import Tsm.Device.Calls

/-! The user space library: `open_group`, `send_message`, `retrieve_message` and
`set_send_delay`. It keeps one variable, the limit to the size of a message that it asks the module
for when it opens its first group. -/

namespace Tsm.Library
open CString

/-- The process and the module: the library's static `max_message_size`, and the
parameter of that name. -/
structure Session where
  cached : UInt32
  limit : UInt32
  deriving DecidableEq, Repr

/-- What the calls that `open_group` makes return. -/
structure OpenOutcome where
  openTsm : Int
  installGroup : Int
  maxMessageSize : Int
  malloc : Bool
  /-- The first descriptor that an attempt to open the group device returns. -/
  openGroup : Option Nat
  deriving DecidableEq, Repr

def openGroup (outcome : OpenOutcome) (groupDescriptor : Option UInt8) (session : Session) : Session × Int :=
  let openDevice (session : Session) : Session × Int :=
    if !outcome.malloc then (session, -1)
    else
      match outcome.openGroup with
      | none => (session, -1)
      | some fd => (session, fd)
  match groupDescriptor with
  | none => (session, -1)
  | some _ =>
    if outcome.openTsm < 0 then (session, -1)
    else if outcome.installGroup < 0 then (session, -1)
    else if session.cached = 0 then
      if outcome.maxMessageSize < 0 then (session, -1)
      else openDevice { session with cached := session.limit }
    else openDevice session

inductive SessionEvent where
  | openGroup (outcome : OpenOutcome) (groupDescriptor : Option UInt8)
  | maxMessageSize (value : UInt32)
  deriving DecidableEq, Repr

def Session.happen (session : Session) : SessionEvent → Session
  | .openGroup outcome groupDescriptor => (Library.openGroup outcome groupDescriptor session).1
  | .maxMessageSize value => { session with limit := value }

/-- A process that starts with the module's parameter at `limit`. -/
def Session.start (limit : UInt32) : Session := ⟨0, limit⟩

def Session.after (limit : UInt32) (events : List SessionEvent) : Session :=
  events.foldl Session.happen (.start limit)

inductive SendPc where
  | entry (fd : Int)
  | save
  | overwrite (victim : UInt8)
  | scan (victim : UInt8)
  | restore (victim : UInt8) (length : Nat)
  | testLength (length : Nat)
  /-- `write(fd, msg, length)`. -/
  | write (length : Nat)
  | done (ret : Int)
  | outOfBounds
  deriving DecidableEq, Repr

/-- `send_message` up to its `write`, on the buffer that `msg` points to. -/
def sendMessage (maxMessageSize : UInt32) (msg : List UInt8) : SendPc → Option (List UInt8 × SendPc)
  | .entry fd =>
    if fd < 0 then some (msg, .done (-1))
    else if maxMessageSize = 0 then some (msg, .done (-1))
    else some (msg, .save)
  | .save =>
    match msg[maxMessageSize.toNat]? with
    | none => some (msg, .outOfBounds)
    | some victim => some (msg, .overwrite victim)
  | .overwrite victim => some (msg.set maxMessageSize.toNat 0, .scan victim)
  | .scan victim =>
    match strlen msg with
    | none => some (msg, .outOfBounds)
    | some length => some (msg, .restore victim length)
  | .restore victim length => some (msg.set maxMessageSize.toNat victim, .testLength length)
  | .testLength length => if length ≤ 0 then some (msg, .done (-1)) else some (msg, .write length)
  | .write _ => none
  | .done _ => none
  | .outOfBounds => none

/-- The write that `send_message` makes, and the read that `retrieve_message` makes
unless it refuses the descriptor. -/
def sendCall (msg : List UInt8) (length : Nat) : WritePc := .entry (fun i => msg.getD i 0) length

def retrieveMessage (fd : Int) (length : Nat) : Option ReadPc := if fd < 0 then none else some (.entry length)

/-- The command that `set_send_delay` issues unless it refuses an argument. -/
def setSendDelay (fd : Int) (delay : Int64) : Option DelayPc :=
  if fd < 0 then none
  else if delay < 0 then none
  else some (.entry delay.toUInt64)

end Tsm.Library
