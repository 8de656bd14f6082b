import WebSocket.CloseCode
import WebSocket.IoError
import WebSocket.Opcode

/-!
# Errors

The failures that operations answer with, their texts, and the close code that
the peer should be sent after each.
-/

namespace WebSocket

/-- Ways in which a peer, or the stream it sends, breaks the protocol. -/
inductive ProtocolError
  | nonZeroReservedBits
  | invalidOpcode (value : UInt8)
  | unmaskedFrameFromClient
  | maskedFrameFromServer
  | invalidPayloadLength (length : Nat)
  | fragmentedControlFrame
  | controlFrameTooBig
  | unexpectedContinuation
  | expectedContinuation (received : DataOpcode)
  | incompleteFrame
  deriving DecidableEq, Repr

namespace ProtocolError

/-- The text of a protocol violation. -/
def message : ProtocolError → String
  | .nonZeroReservedBits => "Reserved bits are non-zero"
  | .invalidOpcode value => s!"Encountered invalid opcode: {value.toNat}"
  | .unmaskedFrameFromClient => "Received an unmasked frame from client"
  | .maskedFrameFromServer => "Received a masked frame from server"
  | .invalidPayloadLength length => s!"Frame length {length} is too large"
  | .fragmentedControlFrame => "Fragmented control frame"
  | .controlFrameTooBig =>
      "Control frame too big (payload must be 125 bytes or less)"
  | .unexpectedContinuation => "Continue frame but nothing to continue"
  | .expectedContinuation received =>
      s!"While waiting for more fragments received: {received.name}"
  | .incompleteFrame => "Partial WebSocket frame received"

end ProtocolError

/-- The failures that operations answer with. -/
inductive Error
  /-- The peer closed the channel between frames. -/
  | connectionClosed
  /-- An earlier read has failed already. -/
  | alreadyClosed
  /-- The channel failed. -/
  | io (error : IoError)
  /-- A message is longer than the endpoint accepts. -/
  | messageTooLong (size maximum : Nat)
  /-- The peer broke a rule of the protocol. -/
  | protocol (violation : ProtocolError)
  /-- There is no room for the payload of a message. -/
  | outOfMemory (requested : Nat)
  /-- A close frame may not carry this number. -/
  | invalidCloseCode (value : UInt16)
  /-- A payload is not UTF-8. -/
  | invalidText
  deriving DecidableEq, Repr

namespace Error

/-- The text of an error. -/
def message : Error → String
  | .connectionClosed => "Connection closed by peer"
  | .alreadyClosed => "Trying to work with closed connection"
  | .io error => "IO error: " ++ error.message
  | .messageTooLong size maximum =>
      s!"Space limit exceeded: Message too long: {size} > {maximum}"
  | .protocol violation => "WebSocket protocol error: " ++ violation.message
  | .outOfMemory requested =>
      s!"Failed to allocate {requested} bytes for a message payload"
  | .invalidCloseCode value =>
      s!"Invalid WebSocket close status code: {value.toNat}"
  | .invalidText => "UTF-8 encoding error"

/-- The close code that tells the peer of an error, for the errors that are the
peer's concern. -/
def closeCode? : Error → Option CloseCode
  | .protocol _ => some .protocolError
  | .messageTooLong _ _ => some .messageTooBig
  | .outOfMemory _ => some .internalError
  | .connectionClosed => none
  | .alreadyClosed => none
  | .io _ => none
  | .invalidCloseCode _ => none
  | .invalidText => none

end Error
end WebSocket
