import WebSocket.Channel.Inbound
import WebSocket.Channel.Outbound

/-!
# Channels

A channel carries octets both ways between an endpoint and its peer. It performs
single operations only, and writing all octets repeats them. Operations tell the
calls that they made.
-/

namespace WebSocket

/-- A single operation on a channel, with its answer. -/
inductive Call
  | read (size : Nat) (answer : Except IoError (List UInt8))
  | write (offered : List UInt8) (answer : Except IoError Nat)
  | poll (limit : Option Duration) (answer : Except IoError Bool)

/-- A connection to a peer. -/
structure Channel where
  inbound : Inbound := {}
  outbound : Outbound := {}

namespace Channel

/-- A channel that brings and accepts what a script says. It is always ready unless
its owner is asked. -/
def scripted (asksOwner : Bool) : Channel where
  inbound := { readiness := if asksOwner then .scripted [] else .always }

/-- A byte stream in memory, which is always ready and accepts everything. -/
def stream : Channel where
  inbound := { joinsArrivals := true }
  outbound := { isScripted := false }

/-- A byte stream over a socket, which is ready once something has arrived and
accepts everything. -/
def socket : Channel where
  inbound := { readiness := .queued, joinsArrivals := true }
  outbound := { isScripted := false }

/-- What comes of an operation on a channel. -/
structure Done (α : Type) where
  channel : Channel
  answer : Except IoError α
  /-- The calls that were made, in order. -/
  calls : Array Call

/-- Read at most `size` octets. -/
def read (channel : Channel) (size : Nat) : Done (List UInt8) :=
  let (answer, inbound) := channel.inbound.read size
  { channel := { channel with inbound }
    answer
    calls := #[.read size answer] }

/-- Offer octets once. -/
def write (channel : Channel) (octets : List UInt8) : Done Nat :=
  let (answer, outbound) := channel.outbound.write octets
  { channel := { channel with outbound }
    answer
    calls := #[.write octets answer] }

/-- Offer octets until all of them are accepted. -/
def writeAll (channel : Channel) (octets : List UInt8) : Done Unit :=
  let written := channel.outbound.writeAll octets
  { channel := { channel with outbound := written.outbound }
    answer := written.answer
    calls := written.offers.map fun (offered, answer) => .write offered answer }

/-- Wait until there is something to read, or until a time limit passes. -/
def poll (channel : Channel) (limit : Option Duration) : Done Bool :=
  let (answer, inbound) := channel.inbound.poll
  { channel := { channel with inbound }
    answer
    calls := #[.poll limit answer] }

/-- Queue further arrivals and answers. -/
def deliver
    (channel : Channel)
    (arrivals : List Arrival)
    (readiness : List (Except IoError Bool))
    (acceptances : List Acceptance) : Channel where
  inbound := channel.inbound.deliver arrivals readiness
  outbound := channel.outbound.script acceptances

/-- Whether the owner of the channel is asked when the channel is polled. -/
def asksReadiness (channel : Channel) : Bool :=
  match channel.inbound.readiness with
  | .always => false
  | _ => true

/-- The calls that reach the owner of the channel. -/
def ownerCalls (channel : Channel) (calls : Array Call) : Array Call :=
  calls.filter fun call =>
    match call with
    | .poll _ _ => channel.asksReadiness
    | _ => true

end Channel
end WebSocket
