import WebSocket.Endpoint.Basic

/-!
# Writing frames

Messages are written whole, in one frame each. A server writes the header and the
payload one after the other; a client draws a fresh key and writes the header and
the masked payload together. Writing never touches what reading has left behind.
-/

namespace WebSocket
namespace Endpoint

/-- Write octets to the channel and go on with what follows. -/
def transmit
    (endpoint : Endpoint)
    (octets : List UInt8) : Report Unit × Endpoint :=
  let done := endpoint.channel.writeAll octets
  ({ answer := done.answer.mapError .io, calls := done.calls },
    { endpoint with channel := done.channel })

/-- Write the frame of a server: the header, and then the payload as it is. -/
def transmitPlain
    (endpoint : Endpoint)
    (opcode : Opcode)
    (payload : List UInt8) : Report Unit × Endpoint :=
  let header : FrameHeader := { opcode }
  let (head, endpoint) := endpoint.transmit (header.encode payload.length)
  match head.answer with
  | .error _ => (head, endpoint)
  | .ok () =>
      let (body, endpoint) := endpoint.transmit payload
      ({ body with calls := head.calls ++ body.calls }, endpoint)

/-- Write the frame of a client: the header with a fresh key, and the payload masked
with it. -/
def transmitMasked
    (endpoint : Endpoint)
    (opcode : Opcode)
    (payload : List UInt8) : Report Unit × Endpoint :=
  let (key, keys) := endpoint.keys.draw
  let header : FrameHeader := { opcode, mask := some key }
  { endpoint with keys }.transmit
    (header.encode payload.length ++ key.mask payload)

/-- Write a message, or a control frame, in a single frame. Opcodes without an
assigned meaning are refused before anything is written. -/
def write
    (endpoint : Endpoint)
    (opcode : Opcode)
    (payload : List UInt8) : Report Unit × Endpoint :=
  if opcode.isAssigned then
    let header : FrameHeader := { opcode }
    let length := payload.length
    let (report, endpoint) :=
      match endpoint.role with
      | .server => endpoint.transmitPlain opcode payload
      | .client => endpoint.transmitMasked opcode payload
    ({ report with events := #[.sending opcode length (header.size length)] },
      endpoint)
  else
    let refusal := Refusal.unsendableOpcode opcode.toByte
    ({ answer := .error refusal.error, events := #[.refused refusal] }, endpoint)

/-- Write a close frame that carries a code, if the code may be sent. -/
def close (endpoint : Endpoint) (code : CloseCode) : Report Unit × Endpoint :=
  let value := code.toUInt16
  if code.isSendable then
    endpoint.write (.control .close) (BigEndian.encode 2 value.toNat)
  else
    let refusal := Refusal.unsendableCloseCode value
    ({ answer := .error refusal.error, events := #[.refused refusal] }, endpoint)

end Endpoint
end WebSocket
