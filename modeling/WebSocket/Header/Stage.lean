import WebSocket.Header
import WebSocket.Header.Field
import WebSocket.Refusal
import WebSocket.Role

/-!
# Stages of a header

The stages that parsing a header goes through hold what the fields before them
said. Reading a field leads to the next stage or to a refusal, and leaves fewer
fields to come.
-/

namespace WebSocket

/-- How far a header has been parsed, with what is known of it by then. -/
inductive HeaderStage
  | initial
  | length (isFinal : Bool) (opcode : Opcode)
  | extendedLength16 (isFinal : Bool) (opcode : Opcode)
  | extendedLength64 (isFinal : Bool) (opcode : Opcode)
  | mask (isFinal : Bool) (opcode : Opcode) (length : Nat)
  | payload (header : FrameHeader) (length : Nat)
  deriving DecidableEq, Repr

namespace HeaderStage

/-- The field that a stage waits for. -/
def field : HeaderStage → HeaderField
  | .initial => .initial
  | .length _ _ => .length
  | .extendedLength16 _ _ => .extendedLength16
  | .extendedLength64 _ _ => .extendedLength64
  | .mask _ _ _ => .mask
  | .payload _ _ => .payload

/-- The number of octets in the field that a stage waits for. -/
def width (stage : HeaderStage) : Nat :=
  stage.field.width

/-- The header and the payload length, once both are known. -/
def complete? : HeaderStage → Option (FrameHeader × Nat)
  | .payload header announced => some (header, announced)
  | _ => none

/-- A bound on the number of fields that are still to come. -/
def fieldsLeft : HeaderStage → Nat
  | .initial => 4
  | .length _ _ => 3
  | .extendedLength16 _ _ => 2
  | .extendedLength64 _ _ => 2
  | .mask _ _ _ => 1
  | .payload _ _ => 0

/-- The stage that follows the length of a frame: what a server receives is masked
and what a client receives is not. -/
def afterLength
    (role : Role)
    (isFinal : Bool)
    (opcode : Opcode)
    (announced : Nat) : HeaderStage :=
  match role with
  | .server => .mask isFinal opcode announced
  | .client => .payload { opcode, isFinal } announced

/-- The stage that follows the announcement of how the length is written. -/
def afterFormat
    (role : Role)
    (isFinal : Bool)
    (opcode : Opcode) : LengthFormat → HeaderStage
  | .inline announced => afterLength role isFinal opcode announced.toNat
  | .extended16 => .extendedLength16 isFinal opcode
  | .extended64 => .extendedLength64 isFinal opcode

/-- Read the flags and the opcode. -/
def readInitial (octet : UInt8) : Except Refusal HeaderStage :=
  let value := octet &&& 0x0F
  let opcode := Opcode.ofByte value
  if octet &&& 0x70 ≠ 0 then .error .reservedBits
  else if opcode.isAssigned then .ok (.length (octet &&& 0x80 ≠ 0) opcode)
  else .error (.unassignedOpcode value)

/-- Read the mask bit and the seven-bit length. -/
def readLength
    (role : Role)
    (isFinal : Bool)
    (opcode : Opcode)
    (octet : UInt8) : Except Refusal HeaderStage :=
  match role, decide (octet &&& 0x80 ≠ 0) with
  | .server, false => .error .missingMask
  | .client, true => .error .unexpectedMask
  | _, _ =>
      .ok (afterFormat role isFinal opcode (LengthFormat.ofByte octet))

/-- Read a length of eight octets, whose top bit has to be clear. -/
def readLength64
    (role : Role)
    (isFinal : Bool)
    (opcode : Opcode)
    (octets : List UInt8) : Except Refusal HeaderStage :=
  let announced := BigEndian.decode octets
  if 1 <<< 63 ≤ announced then .error (.lengthTooLarge announced)
  else .ok (afterLength role isFinal opcode announced)

/-- The stage that follows a stage whose field consists of the given octets. -/
def advance
    (role : Role)
    (stage : HeaderStage)
    (octets : List UInt8) : Except Refusal HeaderStage :=
  match stage with
  | .initial => readInitial (octets.headD 0)
  | .length isFinal opcode =>
      readLength role isFinal opcode (octets.headD 0)
  | .extendedLength16 isFinal opcode =>
      .ok (afterLength role isFinal opcode (BigEndian.decode octets))
  | .extendedLength64 isFinal opcode =>
      readLength64 role isFinal opcode octets
  | .mask isFinal opcode announced =>
      .ok (.payload { opcode, isFinal, mask := MaskingKey.ofOctets? octets } announced)
  | .payload header announced => .ok (.payload header announced)

/-- No more than a key is left to come after the length. -/
theorem fieldsLeft_afterLength_le
    (role : Role)
    (isFinal : Bool)
    (opcode : Opcode)
    (announced : Nat) :
    (afterLength role isFinal opcode announced).fieldsLeft ≤ 1 := by
  cases role <;> simp [afterLength, fieldsLeft]

/-- An extended length and a key are all that may come after the second octet. -/
theorem fieldsLeft_afterFormat_le
    (role : Role)
    (isFinal : Bool)
    (opcode : Opcode)
    (format : LengthFormat) :
    (afterFormat role isFinal opcode format).fieldsLeft ≤ 2 := by
  cases format with
  | inline announced =>
      exact Nat.le_succ_of_le
        (fieldsLeft_afterLength_le role isFinal opcode announced.toNat)
  | extended16 => exact Nat.le_refl 2
  | extended64 => exact Nat.le_refl 2

/-- Each field that is read leaves fewer fields to come. -/
theorem fieldsLeft_advance
    {role : Role}
    {stage next : HeaderStage}
    {octets : List UInt8}
    (waiting : stage.complete? = none)
    (advanced : stage.advance role octets = .ok next) :
    next.fieldsLeft < stage.fieldsLeft := by
  cases stage with
  | initial =>
      simp only [advance, readInitial] at advanced
      split at advanced
      · cases advanced
      · split at advanced
        · cases advanced
          simp [fieldsLeft]
        · cases advanced
  | length isFinal opcode =>
      simp only [advance, readLength] at advanced
      split at advanced
      · cases advanced
      · cases advanced
      · cases advanced
        exact Nat.lt_succ_of_le (fieldsLeft_afterFormat_le _ isFinal opcode _)
  | extendedLength16 isFinal opcode =>
      cases advanced
      exact Nat.lt_succ_of_le (fieldsLeft_afterLength_le role isFinal opcode _)
  | extendedLength64 isFinal opcode =>
      simp only [advance, readLength64] at advanced
      split at advanced
      · cases advanced
      · cases advanced
        exact Nat.lt_succ_of_le (fieldsLeft_afterLength_le role isFinal opcode _)
  | mask isFinal opcode announced =>
      cases advanced
      simp [fieldsLeft]
  | payload header announced => cases waiting

end HeaderStage
end WebSocket
