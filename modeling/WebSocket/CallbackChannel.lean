import WebSocket.Duration
import WebSocket.IoError

/-!
# Channels made of functions

A channel may be given as functions that share the owner's data. Each call may
change the data; without a readiness function the channel always counts as ready.
-/

namespace WebSocket

/-- A channel that delegates to functions over the owner's data. -/
structure CallbackChannel (α : Type) where
  data : α
  /-- Read at most the given number of octets. -/
  onRead : Nat → α → Except IoError (List UInt8) × α
  /-- Accept some of the octets that are offered. -/
  onWrite : List UInt8 → α → Except IoError Nat × α
  /-- Wait until there is something to read. -/
  onPoll : Option (Option Duration → α → Except IoError Bool × α) := none

namespace CallbackChannel

/-- Read at most `size` octets. -/
def read
    (channel : CallbackChannel α)
    (size : Nat) : Except IoError (List UInt8) × CallbackChannel α :=
  let (answer, data) := channel.onRead size channel.data
  (answer, { channel with data })

/-- Offer octets once. -/
def write
    (channel : CallbackChannel α)
    (octets : List UInt8) : Except IoError Nat × CallbackChannel α :=
  let (answer, data) := channel.onWrite octets channel.data
  (answer, { channel with data })

/-- Wait until there is something to read, or until a time limit passes. -/
def poll
    (channel : CallbackChannel α)
    (limit : Option Duration) : Except IoError Bool × CallbackChannel α :=
  match channel.onPoll with
  | none => (.ok true, channel)
  | some onPoll =>
      let (answer, data) := onPoll limit channel.data
      (answer, { channel with data })

/-- Change the data from outside. -/
def modify (channel : CallbackChannel α) (change : α → α) : CallbackChannel α :=
  { channel with data := change channel.data }

/-- A description of the channel for people to read, given that of its data. -/
def description (channel : CallbackChannel α) (describe : α → String) : String :=
  let ready := if channel.onPoll.isSome then "true" else "false"
  "CallbackChannel \x7b data: " ++ describe channel.data ++ ", poll: " ++ ready ++
    ", .. \x7d"

end CallbackChannel
end WebSocket
