/-!
# Header fields

A header is a sequence of fields, of which a parser waits for one at a time.
-/

namespace WebSocket

/-- The fields of a header in the order they arrive, and what follows them. -/
inductive HeaderField
  /-- Flags and opcode. -/
  | initial
  /-- Mask bit and seven-bit length. -/
  | length
  /-- Length of two octets. -/
  | extendedLength16
  /-- Length of eight octets. -/
  | extendedLength64
  /-- Masking key. -/
  | mask
  /-- The header is complete and the payload follows. -/
  | payload
  deriving DecidableEq, Repr

namespace HeaderField

/-- The number of octets in a field. -/
def width : HeaderField → Nat
  | .initial => 1
  | .length => 1
  | .extendedLength16 => 2
  | .extendedLength64 => 8
  | .mask => 4
  | .payload => 0

/-- No field is wider than eight octets. -/
theorem width_le_eight (field : HeaderField) : field.width ≤ 8 := by
  cases field <;> decide

/-- The name a field is reported by. -/
def name : HeaderField → String
  | .initial => "INITIAL"
  | .length => "LENGTH"
  | .extendedLength16 => "XLENGTH"
  | .extendedLength64 => "XLENGTH2"
  | .mask => "MASK"
  | .payload => "PAYLOAD"

end HeaderField
end WebSocket
