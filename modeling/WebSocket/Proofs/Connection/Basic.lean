import Mathlib.Logic.Function.Basic
import Mathlib.Logic.Relation
import WebSocket.Proofs.Decoder.Begun
import WebSocket.Proofs.Endpoint.Piped
import WebSocket.Proofs.Endpoint.Sides

/-!
# Connections

A server and a client are joined by two pipes, each of which brings octets in the order in
which they were put into it. Either endpoint may write and read at any time, and octets on
their way may come to be readable at any time.
-/

namespace WebSocket

open Endpoint (Report Submission)
open Grammar (acceptable)

namespace Role

@[simp] theorem peer_ne (role : Role) : role.peer ≠ role := by
  cases role <;> simp

@[simp] theorem ne_peer (role : Role) : role ≠ role.peer := role.peer_ne.symm

/-- What holds of a role and of its peer holds of every role. -/
theorem forall_iff (role : Role) {motive : Role → Prop} :
    (∀ other, motive other) ↔ motive role ∧ motive role.peer := by
  refine ⟨fun all => ⟨all role, all role.peer⟩, fun both other => ?_⟩
  cases role <;> cases other <;> simp_all

end Role

/-- The way to an endpoint, with all that has become of it. -/
structure Lane where
  /-- The frames that the peer wrote, in order, each with its mask. -/
  sent : List (Option MaskingKey × Frame) := []
  /-- The octets that cannot be read yet. -/
  inFlight : List UInt8 := []
  readable : List UInt8 := []
  /-- The octets that reads took. -/
  taken : List UInt8 := []
  /-- The frames that reads returned, in order. -/
  returned : List Frame := []

namespace Lane

/-- The way behind a write that put the given octets into the pipe. -/
def put
    (lane : Lane)
    (mask : Option MaskingKey)
    (frame : Frame)
    (octets : List UInt8) : Lane :=
  { lane with
    sent := lane.sent ++ [(mask, frame)]
    inFlight := lane.inFlight ++ octets }

/-- The way when further octets have come to be readable. -/
def move (lane : Lane) (count : Nat) : Lane :=
  { lane with
    inFlight := lane.inFlight.drop count
    readable := lane.readable ++ lane.inFlight.take count }

/-- The way behind a read that left the given octets in the pipe. -/
def take (lane : Lane) (report : Report (Option Frame)) (left : List UInt8) : Lane :=
  { lane with
    readable := left
    taken := lane.taken ++ broughtBy report.calls.toList
    returned := lane.returned ++ (Endpoint.delivered? report.answer).toList }

end Lane

/-- Two endpoints that are joined by pipes, each with the way to it. -/
structure Connection where
  endpoint : Role → Endpoint
  lane : Role → Lane

namespace Connection

/-- A connection of new endpoints. -/
def start
    (config : Role → Config)
    (keys : Role → KeySupply)
    (memory : Role → Memory) : Connection where
  endpoint role := .new role (config role) {} (keys role) (memory role)
  lane _ := {}

/-- An endpoint over a pipe that accepts octets as the given answers say. -/
def writer (connection : Connection) (role : Role) (answers : List Acceptance) : Endpoint :=
  let endpoint := connection.endpoint role
  { endpoint with channel := { endpoint.channel with outbound := { answers } } }

/-- An endpoint over a pipe that brings octets in the given runs. -/
def reader (connection : Connection) (role : Role) (runs : List (List UInt8)) : Endpoint :=
  let endpoint := connection.endpoint role
  { endpoint with channel := { endpoint.channel with inbound := .piped runs } }

/-- Let an endpoint write something into its pipe. -/
def submit
    (connection : Connection)
    (role : Role)
    (submission : Submission)
    (answers : List Acceptance) : Report Unit × Connection :=
  let writer := connection.writer role answers
  let (report, next) := writer.submit submission
  let octets := next.channel.outbound.wire.toList
  (report,
    { endpoint := Function.update connection.endpoint role next
      lane := Function.update connection.lane role.peer
        ((connection.lane role.peer).put writer.nextMask submission.frame octets) })

/-- Let octets on their way to an endpoint come to be readable. -/
def move (connection : Connection) (role : Role) (count : Nat) : Connection :=
  { connection with
    lane := Function.update connection.lane role ((connection.lane role).move count) }

/-- Let an endpoint read from its pipe. -/
def read
    (connection : Connection)
    (role : Role)
    (runs : List (List UInt8))
    (limit : Option Duration)
    (ready : Bool) : Report (Option Frame) × Connection :=
  let (report, next) := (connection.reader role runs).read limit ready
  (report,
    { endpoint := Function.update connection.endpoint role next
      lane := Function.update connection.lane role
        ((connection.lane role).take report next.channel.inbound.unread) })

section Access

variable
    (connection : Connection)
    (role : Role)
    (submission : Submission)
    (answers : List Acceptance)
    (runs : List (List UInt8))
    (limit : Option Duration)
    (ready : Bool)
    (count : Nat)

@[simp] theorem endpoint_submit :
    (connection.submit role submission answers).2.endpoint role =
      ((connection.writer role answers).submit submission).2 :=
  Function.update_self ..

@[simp] theorem endpoint_peer_submit :
    (connection.submit role submission answers).2.endpoint role.peer =
      connection.endpoint role.peer :=
  Function.update_of_ne role.peer_ne ..

@[simp] theorem lane_submit :
    (connection.submit role submission answers).2.lane role = connection.lane role :=
  Function.update_of_ne role.ne_peer ..

@[simp] theorem lane_peer_submit :
    (connection.submit role submission answers).2.lane role.peer =
      (connection.lane role.peer).put (connection.writer role answers).nextMask
        submission.frame
        ((connection.writer role answers).submit submission).2.channel.outbound.wire.toList :=
  Function.update_self ..

@[simp] theorem endpoint_move (other : Role) :
    (connection.move role count).endpoint other = connection.endpoint other := rfl

@[simp] theorem lane_move :
    (connection.move role count).lane role = (connection.lane role).move count :=
  Function.update_self ..

@[simp] theorem lane_peer_move :
    (connection.move role count).lane role.peer = connection.lane role.peer :=
  Function.update_of_ne role.peer_ne ..

@[simp] theorem endpoint_read :
    (connection.read role runs limit ready).2.endpoint role =
      ((connection.reader role runs).read limit ready).2 :=
  Function.update_self ..

@[simp] theorem endpoint_peer_read :
    (connection.read role runs limit ready).2.endpoint role.peer =
      connection.endpoint role.peer :=
  Function.update_of_ne role.peer_ne ..

@[simp] theorem lane_read :
    (connection.read role runs limit ready).2.lane role =
      (connection.lane role).take ((connection.reader role runs).read limit ready).1
        ((connection.reader role runs).read limit ready).2.channel.inbound.unread :=
  Function.update_self ..

@[simp] theorem lane_peer_read :
    (connection.read role runs limit ready).2.lane role.peer = connection.lane role.peer :=
  Function.update_of_ne role.peer_ne ..

end Access

/-- Whether an endpoint may write something into a pipe: a frame that the peer accepts, into
a pipe that goes on taking octets. -/
structure MayWrite
    (config : Config)
    (submission : Submission)
    (answers : List Acceptance) : Prop where
  valid : submission.IsValid
  accepted : acceptable config.maxPayloadLength submission.frame = true
  advances : ∀ answer ∈ answers, answer.advances = true

/-- Whether a pipe may bring what is readable in the given runs, and be read without waiting
if it is ready. -/
structure MayRead (lane : Lane) (runs : List (List UInt8)) (ready : Bool) : Prop where
  nonempty : [] ∉ runs
  whole : runs.flatten = lane.readable
  holds : ready = true → lane.readable ≠ []

/-- What may happen on a connection, given the settings of either endpoint. -/
inductive Step (config : Role → Config) (connection : Connection) : Connection → Prop
  | submit
      {role : Role}
      {submission : Submission}
      {answers : List Acceptance}
      (may : MayWrite (config role.peer) submission answers) :
      Step config connection (connection.submit role submission answers).2
  | move (role : Role) (count : Nat) : Step config connection (connection.move role count)
  | read
      {role : Role}
      {runs : List (List UInt8)}
      {limit : Option Duration}
      {ready : Bool}
      (may : MayRead (connection.lane role) runs ready) :
      Step config connection (connection.read role runs limit ready).2

end Connection
end WebSocket
