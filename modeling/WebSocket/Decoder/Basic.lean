import WebSocket.Header.Parser
import WebSocket.PendingMessage

/-!
# Decoders

A decoder turns a stream of octets into frames. Its state is a header parser, the
physical frame whose payload is arriving and the message whose fragments are
arriving; control frames pass between the fragments without touching the message.
-/

namespace WebSocket

/-- A physical frame whose header is complete and whose payload is arriving. -/
structure InFlight where
  header : FrameHeader
  /-- The number of payload octets that are still to come. -/
  remaining : Nat
  /-- The number of payload octets taken so far. -/
  received : Nat := 0
  /-- The payload so far, for control frames only. -/
  control : Array UInt8 := #[]
  deriving DecidableEq, Repr

namespace InFlight

/-- The octets that a piece of the payload stands for once it is unmasked. -/
def unmask (frame : InFlight) (piece : List UInt8) : List UInt8 :=
  match frame.header.mask with
  | none => piece
  | some key => key.maskAt frame.received piece

/-- The frame after a piece of its payload. -/
def advance (frame : InFlight) (piece : List UInt8) : InFlight :=
  let size := piece.length
  { header := frame.header
    remaining := frame.remaining - size
    received := frame.received + size
    control :=
      if frame.header.opcode.isControl then frame.control ++ frame.unmask piece
      else frame.control }

end InFlight

/-- The state of decoding a stream. -/
structure Decoder where
  parser : HeaderParser
  /-- The largest payload that a message may have. -/
  limit : Nat
  /-- What there is room for, whatever the limit. -/
  memory : Memory
  inFlight : Option InFlight := none
  pending : Option PendingMessage := none

namespace Decoder

/-- A decoder for an endpoint of the given role, at the start of a stream. -/
def new
    (role : Role)
    (limit : Nat)
    (memory : Memory := .standard) : Decoder where
  parser := .new role
  limit
  memory

/-- Whether a frame or a message has begun and is not complete. -/
def inProgress (decoder : Decoder) : Bool :=
  !decoder.parser.isIdle || decoder.pending.isSome

/-- The number of octets that can be taken without reading past the frame or the
header field that is arriving. -/
def wanted (decoder : Decoder) : Nat :=
  match decoder.inFlight with
  | some frame => frame.remaining
  | none => decoder.parser.wanted

/-- Whether no part of a physical frame has been taken. -/
def isBetweenFrames (decoder : Decoder) : Bool :=
  decoder.inFlight.isNone && decoder.parser.isIdle

/-- The longest payload of a control frame. -/
def controlLimit : Nat := 125

/-- Check a complete header against the message that is pending, and begin a
message if the frame is its first. A refusal leaves the decoder as it was. -/
def accept
    (decoder : Decoder)
    (header : FrameHeader)
    (announced : Nat) : Except Refusal Decoder :=
  match header.opcode with
  | .control opcode =>
      if !header.isFinal then .error (.fragmentedControl opcode)
      else if controlLimit < announced then
        .error (.oversizedControl opcode announced)
      else .ok decoder
  | .data .continuation =>
      match decoder.pending with
      | none => .error .nothingToContinue
      | some message =>
          match PendingMessage.reserve decoder.memory decoder.limit
              message.payload.size announced with
          | .error refusal => .error refusal
          | .ok () => .ok decoder
  | .data opcode =>
      match decoder.pending with
      | some _ => .error (.interruptedMessage opcode)
      | none =>
          match PendingMessage.reserve decoder.memory decoder.limit 0 announced with
          | .error refusal => .error refusal
          | .ok () => .ok { decoder with pending := some { opcode } }

/-- Add a piece of a data frame to the pending message. -/
def collect
    (decoder : Decoder)
    (frame : InFlight)
    (piece : List UInt8) : Decoder :=
  if frame.header.opcode.isControl then decoder
  else
    { decoder with
      pending := decoder.pending.map fun message =>
        message.append (frame.unmask piece) }

/-- Close out a physical frame whose payload is complete: the next header is
awaited, and there is a frame to deliver unless more fragments follow. -/
def finishFrame (decoder : Decoder) (frame : InFlight) : Option Frame × Decoder :=
  let parser := decoder.parser.reset
  match frame.header.opcode with
  | .control opcode =>
      (some ⟨.control opcode, frame.control.toList⟩,
        { decoder with parser, inFlight := none })
  | .data _ =>
      if frame.header.isFinal then
        (decoder.pending.map PendingMessage.toFrame,
          { decoder with parser, inFlight := none, pending := none })
      else (none, { decoder with parser, inFlight := none })

end Decoder
end WebSocket
