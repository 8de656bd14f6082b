import WebSocket.Duration
import WebSocket.Header.Field
import WebSocket.Log.Level
import WebSocket.Refusal

/-!
# Events

Operations tell what they do as a list of events. An event is a value; its
level, the module it is attributed to and its text follow from it, and only the
events that a threshold admits are ever written as records.
-/

namespace WebSocket
namespace Log

/-- A log record as it is handed to a logger. -/
structure Record where
  level : Level
  target : String
  message : String
  file : Option String := none
  line : Option Nat := none
  modulePath : Option String := none
  deriving DecidableEq, Repr

/-- The target that every record of an endpoint starts with. -/
def rootTarget : String := "wss"

/-- Something that an operation tells about its work. -/
inductive Event
  /-- Something was refused. -/
  | refused (refusal : Refusal)
  /-- The input ended within a header field of which some octets are held. -/
  | fieldIncomplete (field : HeaderField) (held : Nat)
  /-- A header field is complete and another one follows. -/
  | fieldComplete (field next : HeaderField)
  /-- The header of a frame is complete. -/
  | headerComplete (opcode : Opcode) (length : Nat)
  /-- The payload of a frame is complete. -/
  | frameReceived (opcode : Opcode) (length : Nat)
  /-- The code of a close frame was looked at. -/
  | closeCodeRead (code : CloseCode)
  /-- A read was asked for after an earlier one failed. -/
  | readAfterFailure
  /-- No frame began within the time limit. -/
  | nothingReceived (limit : Option Duration)
  /-- The channel failed while it was waited for. -/
  | pollFailed (error : IoError)
  /-- The channel failed while it was read. -/
  | readFailed (error : IoError)
  /-- The channel ended between frames. -/
  | closedByPeer
  /-- A frame is about to be sent. -/
  | sending (opcode : Opcode) (length headerSize : Nat)
  deriving DecidableEq, Repr

namespace Event

/-- The level of an event. -/
def level : Event → Level
  | .refused _ => .error
  | .fieldIncomplete _ _ => .trace
  | .fieldComplete _ _ => .trace
  | .headerComplete _ _ => .trace
  | .frameReceived _ _ => .debug
  | .closeCodeRead _ => .trace
  | .readAfterFailure => .debug
  | .nothingReceived _ => .trace
  | .pollFailed _ => .debug
  | .readFailed _ => .debug
  | .closedByPeer => .debug
  | .sending _ _ _ => .debug

/-- The text of an event. -/
def message : Event → String
  | .refused refusal => refusal.report
  | .fieldIncomplete field held =>
      s!"Incomplete read in state {field.name} (have {held} of {field.width} bytes)"
  | .fieldComplete field next =>
      s!"WebSocket parse state {field.name} -> {next.name}"
  | .headerComplete opcode length =>
      s!"WebSocket {opcode.name} frame header complete (length {length})"
  | .frameReceived opcode length =>
      s!"WebSocket {opcode.name} frame received (length {length})"
  | .closeCodeRead code => s!"WebSocket close code is {code.name}"
  | .readAfterFailure => "Read from a WebSocket that already failed"
  | .nothingReceived limit =>
      "No WebSocket frame within " ++ Duration.limitText limit
  | .pollFailed error => "WebSocket channel poll failed: " ++ error.message
  | .readFailed error => "WebSocket channel read failed: " ++ error.message
  | .closedByPeer => "WebSocket channel closed by peer"
  | .sending opcode length headerSize =>
      s!"Sending WebSocket {opcode.name} frame (length {length}, incl. {headerSize} header)"

/-- The target of records about header fields. -/
def parserTarget : String := rootTarget ++ "::protocol::frame::parser"

/-- The target of records about single frames. -/
def frameTarget : String := rootTarget ++ "::protocol::frame::frame"

/-- The target of records about decoding. -/
def decoderTarget : String := rootTarget ++ "::protocol::decoder"

/-- The target of records about messages. -/
def messageTarget : String := rootTarget ++ "::protocol::message"

/-- The target of records about an endpoint. -/
def endpointTarget : String := rootTarget ++ "::protocol"

/-- The target of the record of a refusal, which names what refused. -/
def refusalTarget : Refusal → String
  | .reservedBits => parserTarget
  | .unassignedOpcode _ => parserTarget
  | .missingMask => parserTarget
  | .unexpectedMask => parserTarget
  | .lengthTooLarge _ => parserTarget
  | .fragmentedControl _ => decoderTarget
  | .oversizedControl _ _ => decoderTarget
  | .nothingToContinue => decoderTarget
  | .interruptedMessage _ => decoderTarget
  | .messageTooLong _ _ => messageTarget
  | .outOfMemory _ => messageTarget
  | .stalled => endpointTarget
  | .truncated => endpointTarget
  | .unsendableOpcode _ => endpointTarget
  | .unsendableCloseCode _ => endpointTarget

/-- The target of the record of an event. -/
def target : Event → String
  | .refused refusal => refusalTarget refusal
  | .fieldIncomplete _ _ => parserTarget
  | .fieldComplete _ _ => parserTarget
  | .headerComplete _ _ => decoderTarget
  | .frameReceived _ _ => decoderTarget
  | .closeCodeRead _ => frameTarget
  | .readAfterFailure => endpointTarget
  | .nothingReceived _ => endpointTarget
  | .pollFailed _ => endpointTarget
  | .readFailed _ => endpointTarget
  | .closedByPeer => endpointTarget
  | .sending _ _ _ => endpointTarget

/-- The record of an event. -/
def record (event : Event) : Record where
  level := event.level
  target := event.target
  message := event.message
  modulePath := some event.target

end Event

/-- The records of the events that a threshold admits, in order. -/
def Threshold.records (threshold : Threshold) (events : Array Event) : List Record :=
  (events.toList.filter fun event => threshold.admits event.level).map Event.record

end Log
end WebSocket
