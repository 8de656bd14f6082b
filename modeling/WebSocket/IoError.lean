/-!
# Channel failures

A channel reports what went wrong by a kind, which decides how the failure is
handled, and a text for people to read.
-/

namespace WebSocket

/-- The kinds of failure that a channel reports. -/
inductive IoErrorKind
  | notFound
  | permissionDenied
  | connectionRefused
  | connectionReset
  | connectionAborted
  | notConnected
  | brokenPipe
  | wouldBlock
  | invalidInput
  | invalidData
  | timedOut
  | writeZero
  | interrupted
  | unexpectedEof
  | other
  deriving DecidableEq, Repr

/-- A failure of an operation on a channel. -/
structure IoError where
  kind : IoErrorKind
  message : String
  deriving DecidableEq, Repr

namespace IoError

/-- Whether the operation was only interrupted and may be tried again. -/
def isInterruption (error : IoError) : Bool :=
  error.kind == .interrupted

/-- A buffer of fixed size had no room for all that was written to it. -/
def bufferFull : IoError := ⟨.writeZero, "failed to write whole buffer"⟩

/-- A channel stopped taking octets in the middle of a frame. -/
def frameCutShort : IoError := ⟨.writeZero, "failed to write whole frame"⟩

end IoError
end WebSocket
