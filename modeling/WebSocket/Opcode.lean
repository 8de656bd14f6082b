/-!
# Frame opcodes

An opcode says what a frame carries. Data opcodes belong to messages, which may
be cut into fragments; control opcodes stand alone. Values without an assigned
meaning are kept, so that they can be named when they are refused.
-/

namespace WebSocket

/-- Opcodes of the frames that make up messages. -/
inductive DataOpcode
  | continuation
  | text
  | binary
  | reserved (value : UInt8)
  deriving DecidableEq, Repr

/-- Opcodes of the frames that manage the connection. -/
inductive ControlOpcode
  | close
  | ping
  | pong
  | reserved (value : UInt8)
  deriving DecidableEq, Repr

/-- What a frame carries. -/
inductive Opcode
  | data (opcode : DataOpcode)
  | control (opcode : ControlOpcode)
  deriving DecidableEq, Repr

namespace DataOpcode

/-- The number a data opcode is written as. -/
def toByte : DataOpcode → UInt8
  | .continuation => 0
  | .text => 1
  | .binary => 2
  | .reserved value => value

/-- The name a data opcode is reported by. -/
def name : DataOpcode → String
  | .continuation => "CONTINUE"
  | .text => "TEXT"
  | .binary => "BINARY"
  | .reserved value => s!"RESERVED_DATA_{value.toNat}"

end DataOpcode

namespace ControlOpcode

/-- The number a control opcode is written as. -/
def toByte : ControlOpcode → UInt8
  | .close => 8
  | .ping => 9
  | .pong => 10
  | .reserved value => value

/-- The name a control opcode is reported by. -/
def name : ControlOpcode → String
  | .close => "CLOSE"
  | .ping => "PING"
  | .pong => "PONG"
  | .reserved value => s!"RESERVED_CONTROL_{value.toNat}"

end ControlOpcode

namespace Opcode

/-- The number an opcode is written as. -/
def toByte : Opcode → UInt8
  | .data opcode => opcode.toByte
  | .control opcode => opcode.toByte

/-- The opcode a number stands for. Values of more than four bits do not fit a
frame and count as reserved control opcodes. -/
def ofByte (byte : UInt8) : Opcode :=
  if byte = 0 then .data .continuation
  else if byte = 1 then .data .text
  else if byte = 2 then .data .binary
  else if byte < 8 then .data (.reserved byte)
  else if byte = 8 then .control .close
  else if byte = 9 then .control .ping
  else if byte = 10 then .control .pong
  else .control (.reserved byte)

/-- Every number is written back as it was read. -/
@[simp] theorem toByte_ofByte (byte : UInt8) : (ofByte byte).toByte = byte := by
  unfold ofByte
  (repeat' split) <;> simp_all [toByte, DataOpcode.toByte, ControlOpcode.toByte]

/-- Whether the opcode is one of the six that have an assigned meaning. -/
def isAssigned : Opcode → Bool
  | .data (.reserved _) => false
  | .control (.reserved _) => false
  | _ => true

/-- Whether the opcode manages the connection rather than carrying a message. -/
def isControl : Opcode → Bool
  | .data _ => false
  | .control _ => true

/-- The name an opcode is reported by. -/
def name : Opcode → String
  | .data opcode => opcode.name
  | .control opcode => opcode.name

end Opcode
end WebSocket
