import WebSocket.BigEndian
import WebSocket.Log.Event

/-!
# Frames as they are delivered

A delivered frame is a complete message or a single control frame, with its
payload unmasked. The opcode of a message is that of its first fragment.
-/

namespace WebSocket

/-- A complete message or a single control frame. -/
structure Frame where
  opcode : Opcode
  payload : List UInt8
  deriving DecidableEq, Repr

namespace Frame

/-- The number of octets in the payload. -/
def length (frame : Frame) : Nat := frame.payload.length

/-- Whether the payload is empty. -/
def isEmpty (frame : Frame) : Bool := frame.payload.isEmpty

/-- The payload as text, if it is UTF-8. -/
def text (frame : Frame) : Except Error String :=
  match String.fromUTF8? ⟨frame.payload.toArray⟩ with
  | some text => .ok text
  | none => .error .invalidText

/-- The code that a close frame carries in its first two octets, whatever follows
them. A close frame without room for a code reports that it has none. -/
def closeCode? (frame : Frame) : Option CloseCode :=
  if frame.opcode = .control .close then
    match frame.payload with
    | high :: low :: _ =>
        some (.ofUInt16 (UInt16.ofNat (BigEndian.decode [high, low])))
    | _ => some .noStatus
  else none

/-- What is told when somebody looks for a close code. -/
def closeCodeEvents (frame : Frame) : Array Log.Event :=
  (frame.closeCode?.map Log.Event.closeCodeRead).toArray

/-- A short description for people to read. -/
def description (frame : Frame) : String :=
  s!"{frame.opcode.name} frame (length {frame.length})"

end Frame
end WebSocket
