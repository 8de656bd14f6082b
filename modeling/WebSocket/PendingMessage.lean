import WebSocket.Frame
import WebSocket.Memory

/-!
# Pending messages

A message stays pending while fragments of it are still to come. Room for each
fragment is reserved when its header is complete, so that a message beyond the
limit is refused before any octet of the fragment is taken.
-/

namespace WebSocket

/-- A message of which at least one fragment has begun. -/
structure PendingMessage where
  opcode : DataOpcode
  payload : Array UInt8 := #[]
  deriving DecidableEq, Repr

namespace PendingMessage

/-- The largest size that can be counted. -/
def largestSize : Nat := UInt64.size - 1

/-- The size of a message after a fragment, counted no further than the largest
size there is. -/
def sizeAfter (held announced : Nat) : Nat :=
  min (held + announced) largestSize

/-- Reserve room for a fragment of `announced` octets behind the `held` octets of
a message. -/
def reserve
    (memory : Memory)
    (limit held announced : Nat) : Except Refusal Unit :=
  let size := sizeAfter held announced
  if limit < size then .error (.messageTooLong size limit)
  else if memory.hasRoom size then .ok ()
  else .error (.outOfMemory size)

/-- Add octets to a message. -/
def append (message : PendingMessage) (octets : List UInt8) : PendingMessage :=
  { message with payload := message.payload ++ octets }

@[simp] theorem toList_payload_append
    (message : PendingMessage)
    (octets : List UInt8) :
    (message.append octets).payload.toList =
      message.payload.toList ++ octets := by
  simp [append]

/-- The frame that delivers a message. -/
def toFrame (message : PendingMessage) : Frame where
  opcode := .data message.opcode
  payload := message.payload.toList

end PendingMessage
end WebSocket
