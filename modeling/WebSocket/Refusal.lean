import WebSocket.Error

/-!
# Refusals

An endpoint refuses what its peer sends, or what its user asks it to send, for
one of a fixed list of causes. A cause holds what its report needs and decides
the error that is answered.
-/

namespace WebSocket

/-- Why something received, or about to be sent, is refused. -/
inductive Refusal
  /-- A reserved bit of a header is set. -/
  | reservedBits
  /-- A header carries an opcode without an assigned meaning. -/
  | unassignedOpcode (value : UInt8)
  /-- A server received a frame without a mask. -/
  | missingMask
  /-- A client received a frame with a mask. -/
  | unexpectedMask
  /-- The top bit of a 64-bit length is set. -/
  | lengthTooLarge (length : Nat)
  /-- A control frame is not final. -/
  | fragmentedControl (opcode : ControlOpcode)
  /-- A control frame announces more than 125 octets. -/
  | oversizedControl (opcode : ControlOpcode) (length : Nat)
  /-- A continuation came while no message was pending. -/
  | nothingToContinue
  /-- A message began while another one was pending. -/
  | interruptedMessage (opcode : DataOpcode)
  /-- A message would grow beyond the limit. -/
  | messageTooLong (size maximum : Nat)
  /-- There is no room for a message. -/
  | outOfMemory (size : Nat)
  /-- Nothing more of a frame or message came in time. -/
  | stalled
  /-- The channel ended within a frame or message. -/
  | truncated
  /-- The user asked to send an opcode without an assigned meaning. -/
  | unsendableOpcode (value : UInt8)
  /-- The user asked to send a close code that may not be sent. -/
  | unsendableCloseCode (value : UInt16)
  deriving DecidableEq, Repr

namespace Refusal

/-- The error that a refusal is answered with. -/
def error : Refusal → Error
  | .reservedBits => .protocol .nonZeroReservedBits
  | .unassignedOpcode value => .protocol (.invalidOpcode value)
  | .missingMask => .protocol .unmaskedFrameFromClient
  | .unexpectedMask => .protocol .maskedFrameFromServer
  | .lengthTooLarge length => .protocol (.invalidPayloadLength length)
  | .fragmentedControl _ => .protocol .fragmentedControlFrame
  | .oversizedControl _ _ => .protocol .controlFrameTooBig
  | .nothingToContinue => .protocol .unexpectedContinuation
  | .interruptedMessage opcode => .protocol (.expectedContinuation opcode)
  | .messageTooLong size maximum => .messageTooLong size maximum
  | .outOfMemory size => .outOfMemory size
  | .stalled => .protocol .incompleteFrame
  | .truncated => .protocol .incompleteFrame
  | .unsendableOpcode value => .protocol (.invalidOpcode value)
  | .unsendableCloseCode value => .invalidCloseCode value

/-- Two hexadecimal digits in upper case. -/
def hexOctet (value : UInt8) : String :=
  let digit (number : Nat) : Char := (Nat.digitChar number).toUpper
  String.ofList [digit (value.toNat / 16), digit (value.toNat % 16)]

/-- What is reported of a refusal. -/
def report : Refusal → String
  | .reservedBits => "RSV bit(s) must be low"
  | .unassignedOpcode value => "Invalid opcode received: " ++ hexOctet value
  | .missingMask => "Client data is not masked, aborting"
  | .unexpectedMask => "Server data is masked, aborting"
  | .lengthTooLarge length => s!"Frame length {length} is too large"
  | .fragmentedControl opcode => s!"Fragmented {opcode.name} frame"
  | .oversizedControl opcode length =>
      s!"{opcode.name} frame too big (length {length})"
  | .nothingToContinue => "Continue frame but nothing to continue"
  | .interruptedMessage opcode =>
      s!"Received {opcode.name} while waiting for more fragments"
  | .messageTooLong size maximum =>
      s!"Payload length ({size}) exceeds max allowed ({maximum})"
  | .outOfMemory size => s!"Failed to allocate {size} bytes for payload"
  | .stalled => "Partial WebSocket frame received (discarding)"
  | .truncated => "Channel closed in the middle of a WebSocket frame"
  | .unsendableOpcode value => s!"Invalid frame opcode: {value.toNat}"
  | .unsendableCloseCode value =>
      s!"Invalid WebSocket close status code: {value.toNat}"

end Refusal
end WebSocket
