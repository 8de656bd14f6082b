import WebSocket.Channel.Basic
import WebSocket.Decoder.Basic
import WebSocket.KeySupply

/-!
# Endpoints

An endpoint is one end of a connection: it reads frames from a channel and writes
frames to it. A read that fails is the last one that takes anything, and leaves
behind the close code that the peer should be sent.
-/

namespace WebSocket

/-- The settings of an endpoint. -/
structure Config where
  /-- The largest payload that a received message may have. -/
  maxPayloadLength : Nat := 25 * 1024 * 1024
  /-- How long to wait for more of a frame that has begun. -/
  frameTimeout : Duration := .ofSeconds 1
  /-- The number of octets to read at once, if it holds the longest header. -/
  readChunkSize : Nat := 4 * 1024
  deriving DecidableEq, Repr

namespace Config

/-- The number of octets to read at once. -/
def chunkSize (config : Config) : Nat :=
  max config.readChunkSize FrameHeader.maxSize

end Config

/-- One end of a connection. -/
structure Endpoint where
  role : Role
  config : Config
  decoder : Decoder
  channel : Channel
  keys : KeySupply
  /-- The close code that the peer should be sent, once a read has failed. -/
  closeCode? : Option CloseCode := none
  /-- Whether a read has failed. -/
  hasFailed : Bool := false

namespace Endpoint

/-- An endpoint over a channel that is connected already. -/
def new
    (role : Role)
    (config : Config)
    (channel : Channel)
    (keys : KeySupply)
    (memory : Memory := .standard) : Endpoint where
  role
  config
  decoder := .new role config.maxPayloadLength memory
  channel
  keys

/-- What an operation answers and tells. -/
structure Report (α : Type) where
  answer : Except Error α
  /-- What there is to tell, in order. -/
  events : Array Log.Event := #[]
  /-- The calls that were made on the channel, in order. -/
  calls : Array Call := #[]

end Endpoint
end WebSocket
