import WebSocket.BigEndian
import WebSocket.MaskingKey
import WebSocket.Opcode

/-!
# Frame headers

A header opens every frame. Two octets hold the flags, the opcode, the mask bit
and a length of up to 125; longer payloads announce their length in two or eight
octets more, and a masked frame ends its header with the key.
-/

namespace WebSocket

/-- How the payload length of a frame is written. -/
inductive LengthFormat
  /-- Within the second octet of the header. -/
  | inline (length : UInt8)
  /-- In two further octets. -/
  | extended16
  /-- In eight further octets. -/
  | extended64
  deriving DecidableEq, Repr

namespace LengthFormat

/-- The shortest way to write a length. -/
def ofLength (length : Nat) : LengthFormat :=
  if length < 126 then .inline (UInt8.ofNat length)
  else if length < 65536 then .extended16
  else .extended64

/-- The way that the second octet of a header announces, whatever its mask bit. -/
def ofByte (byte : UInt8) : LengthFormat :=
  let low := byte &&& 0x7F
  if low = 126 then .extended16
  else if low = 127 then .extended64
  else .inline low

/-- The seven bits that announce the way a length is written. -/
def toByte : LengthFormat → UInt8
  | .inline length => length
  | .extended16 => 126
  | .extended64 => 127

/-- The number of further octets that hold the length. -/
def extraSize : LengthFormat → Nat
  | .inline _ => 0
  | .extended16 => 2
  | .extended64 => 8

@[simp] theorem extraSize_inline (length : UInt8) :
    (inline length).extraSize = 0 := rfl

@[simp] theorem extraSize_extended16 : extended16.extraSize = 2 := rfl

@[simp] theorem extraSize_extended64 : extended64.extraSize = 8 := rfl

end LengthFormat

/-- A frame header without the payload length. -/
structure FrameHeader where
  opcode : Opcode
  /-- Whether the frame is the last one of its message. -/
  isFinal : Bool := true
  rsv1 : Bool := false
  rsv2 : Bool := false
  rsv3 : Bool := false
  mask : Option MaskingKey := none
  deriving DecidableEq, Repr

namespace FrameHeader

/-- The length of the longest header. -/
def maxSize : Nat := 14

/-- The number of octets that a header takes for a payload of the given length. -/
def size (header : FrameHeader) (length : Nat) : Nat :=
  2 + (LengthFormat.ofLength length).extraSize +
    if header.mask.isSome then 4 else 0

/-- A single bit, if it is set. -/
def flag (isSet : Bool) (bit : UInt8) : UInt8 :=
  if isSet then bit else 0

/-- The first octet of a header, with its flags and opcode. -/
def firstOctet (header : FrameHeader) : UInt8 :=
  header.opcode.toByte ||| flag header.isFinal 0x80 |||
    flag header.rsv1 0x40 ||| flag header.rsv2 0x20 ||| flag header.rsv3 0x10

/-- The second octet of a header, with its mask bit and the seven-bit length. -/
def secondOctet (header : FrameHeader) (length : Nat) : UInt8 :=
  (LengthFormat.ofLength length).toByte ||| flag header.mask.isSome 0x80

/-- The parts in which a header is written: its two fixed octets, the extended
length if there is one and the key if there is one. -/
def segments (header : FrameHeader) (length : Nat) : List (List UInt8) :=
  let format := LengthFormat.ofLength length
  let fixed := [header.firstOctet, header.secondOctet length]
  let extended :=
    if format.extraSize = 0 then []
    else [BigEndian.encode format.extraSize length]
  fixed :: extended ++ (header.mask.map MaskingKey.octets).toList

/-- The octets of a header for a payload of the given length. -/
def encode (header : FrameHeader) (length : Nat) : List UInt8 :=
  (header.segments length).flatten

/-- A header takes as many octets as its size says. -/
@[simp] theorem length_encode (header : FrameHeader) (length : Nat) :
    (header.encode length).length = header.size length := by
  unfold encode segments size
  cases LengthFormat.ofLength length <;> cases header.mask <;> simp

end FrameHeader
end WebSocket
