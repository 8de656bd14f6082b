import WebSocket.Duration
import WebSocket.IoError

/-!
# The reading side of a channel

What a channel brings is a queue of arrivals: runs of octets, failures and ends.
A read takes from the front of the queue, so each read that brings octets or a
failure leaves a smaller backlog.
-/

namespace WebSocket

/-- Something that a channel brings. -/
inductive Arrival
  /-- Octets that arrive together. -/
  | octets (chunk : List UInt8)
  /-- A failure, reported once. -/
  | fault (error : IoError)
  /-- An end that a single read meets. -/
  | pause
  /-- An end for good. -/
  | hangUp
  deriving DecidableEq, Repr

namespace Arrival

/-- The octets of an arrival. -/
def content : Arrival → List UInt8
  | .octets chunk => chunk
  | _ => []

/-- What an arrival adds to the backlog. -/
def weight (arrival : Arrival) : Nat := arrival.content.length + 1

@[simp] theorem weight_octets (chunk : List UInt8) :
    (octets chunk).weight = chunk.length + 1 := rfl

/-- Arrivals as a byte stream knows them: runs of octets that follow each other are
one run, nothing follows an end for good, and nothing else is carried. -/
def join : List Arrival → List Arrival
  | [] => []
  | .octets chunk :: later =>
      match join later with
      | .octets next :: last => .octets (chunk ++ next) :: last
      | last => if chunk.isEmpty then last else .octets chunk :: last
  | .hangUp :: _ => [.hangUp]
  | _ :: later => join later

end Arrival

/-- How a channel answers when it is asked whether a read would bring something. -/
inductive Readiness
  /-- Always at once. -/
  | always
  /-- As scripted, and positively when the script is used up. -/
  | scripted (answers : List (Except IoError Bool))
  /-- Exactly if there is an arrival in the queue. -/
  | queued

/-- The reading side of a channel. -/
structure Inbound where
  arrivals : List Arrival := []
  readiness : Readiness := .always
  /-- Whether it is a byte stream, which may be read across what arrived apart. -/
  joinsArrivals : Bool := false

namespace Inbound

/-- The octets that have not been read. -/
def unread (inbound : Inbound) : List UInt8 :=
  inbound.arrivals.flatMap Arrival.content

/-- A bound on the reads that can bring octets or a failure. -/
def backlog (inbound : Inbound) : Nat :=
  inbound.arrivals.foldr (fun arrival backlog => arrival.weight + backlog) 0

/-- Queue further arrivals, and further answers for a channel that has a script of
them. -/
def deliver
    (inbound : Inbound)
    (arrivals : List Arrival)
    (answers : List (Except IoError Bool)) : Inbound where
  arrivals :=
    if inbound.joinsArrivals then Arrival.join (inbound.arrivals ++ arrivals)
    else inbound.arrivals ++ arrivals
  readiness :=
    match inbound.readiness with
    | .scripted script => .scripted (script ++ answers)
    | readiness => readiness
  joinsArrivals := inbound.joinsArrivals

/-- Wait until a read would bring something. The answer is negative if the time
limit passes first. -/
def poll (inbound : Inbound) : Except IoError Bool × Inbound :=
  match inbound.readiness with
  | .always => (.ok true, inbound)
  | .scripted [] => (.ok true, inbound)
  | .scripted (answer :: answers) =>
      (answer, { inbound with readiness := .scripted answers })
  | .queued => (.ok !inbound.arrivals.isEmpty, inbound)

/-- Read at most `size` octets. No octets at all mean that the channel has ended. -/
def read (inbound : Inbound) (size : Nat) : Except IoError (List UInt8) × Inbound :=
  match inbound.arrivals with
  | [] => (.ok [], inbound)
  | .octets chunk :: later =>
      let left := chunk.drop size
      (.ok (chunk.take size),
        { inbound with
          arrivals := if left.isEmpty then later else .octets left :: later })
  | .fault error :: later => (.error error, { inbound with arrivals := later })
  | .pause :: later => (.ok [], { inbound with arrivals := later })
  | .hangUp :: _ => (.ok [], inbound)

@[simp] theorem backlog_poll (inbound : Inbound) :
    inbound.poll.2.backlog = inbound.backlog := by
  unfold poll
  split <;> rfl

/-- A read that brings octets leaves a smaller backlog. -/
theorem backlog_read_lt_of_octets
    {inbound : Inbound}
    {size : Nat}
    {octets : List UInt8}
    (brought : (inbound.read size).1 = .ok octets)
    (some_octets : octets ≠ []) :
    (inbound.read size).2.backlog < inbound.backlog := by
  unfold read at brought ⊢
  split at brought
  · cases brought
    exact absurd rfl some_octets
  · rename_i chunk later arrivals
    cases brought
    have taken : 0 < (chunk.take size).length :=
      List.length_pos_iff.mpr some_octets
    rw [List.length_take] at taken
    simp only [backlog, arrivals]
    split
    · simp
    · simp only [List.foldr_cons, Arrival.weight_octets, List.length_drop]
      omega
  · cases brought
  · cases brought
    exact absurd rfl some_octets
  · cases brought
    exact absurd rfl some_octets

/-- A read that brings a failure leaves a smaller backlog. -/
theorem backlog_read_lt_of_fault
    {inbound : Inbound}
    {size : Nat}
    {error : IoError}
    (brought : (inbound.read size).1 = .error error) :
    (inbound.read size).2.backlog < inbound.backlog := by
  unfold read at brought ⊢
  split at brought
  · cases brought
  · cases brought
  · rename_i later arrivals
    simp only [backlog, arrivals, List.foldr_cons]
    simp only [Arrival.weight]
    omega
  · cases brought
  · cases brought

end Inbound
end WebSocket
