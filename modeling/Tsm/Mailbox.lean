import Tsm.Device.Calls

/-! What a group device without delay is for: a bounded mailbox, read in the order
in which it was written, with one call at a time. -/

namespace Tsm

inductive Operation where
  /-- `failed` tells whether an allocation or the copy from the caller failed. -/
  | write (buf : Nat → UInt8) (length : Nat) (failed : Bool)
  | read (length : Nat)

/-- What a call returns, and the bytes it delivers. -/
structure Response where
  ret : Int
  bytes : List UInt8
  deriving DecidableEq, Repr

/-- The messages of a mailbox, oldest first. -/
abbrev Mailbox := List (List UInt8)

def Mailbox.apply (maxMessageSize maxStorageSize : UInt32) (box : Mailbox) : Operation → Mailbox × Response
  | .write buf length failed =>
    if length = 0 ∨ failed then (box, ⟨-1, []⟩)
    else if maxStorageSize.toNat ≤ box.length then (box, ⟨0, []⟩)
    else
      let n := min length maxMessageSize.toNat
      (box ++ [copyFromUser buf n], ⟨n, []⟩)
  | .read length =>
    match box with
    | [] => ([], ⟨0, []⟩)
    | oldest :: rest =>
      let n := min length oldest.length
      (rest, ⟨n, oldest.take n⟩)

end Tsm
