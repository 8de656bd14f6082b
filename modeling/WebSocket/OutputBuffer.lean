import WebSocket.Header
import WebSocket.IoError

/-!
# Output buffers

A header may be written into memory, with or without a bound on its room. A part
that does not fit is stored as far as it fits, and nothing is written after it.
-/

namespace WebSocket

/-- Memory that is written to from its start. -/
structure OutputBuffer where
  /-- The room in all, or `none` if there is no bound. -/
  room : Option Nat := none
  contents : List UInt8 := []
  deriving DecidableEq, Repr

namespace OutputBuffer

/-- Store a part as far as it fits. -/
def write
    (buffer : OutputBuffer)
    (part : List UInt8) : Except IoError Unit × OutputBuffer :=
  let contents := buffer.contents ++ part
  match buffer.room with
  | none => (.ok (), { buffer with contents })
  | some room =>
      if contents.length ≤ room then (.ok (), { buffer with contents })
      else (.error .bufferFull, { buffer with contents := contents.take room })

/-- Store parts one after the other, up to the first that does not fit. -/
def writeParts
    (buffer : OutputBuffer) : List (List UInt8) → Except IoError Unit × OutputBuffer
  | [] => (.ok (), buffer)
  | part :: parts =>
      match buffer.write part with
      | (.ok (), written) => written.writeParts parts
      | (.error error, written) => (.error error, written)

/-- Store the header of a frame with the given payload length. -/
def writeHeader
    (buffer : OutputBuffer)
    (header : FrameHeader)
    (length : Nat) : Except IoError Unit × OutputBuffer :=
  buffer.writeParts (header.segments length)

end OutputBuffer
end WebSocket
