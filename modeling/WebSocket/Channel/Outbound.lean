import WebSocket.IoError

/-!
# The writing side of a channel

A channel that follows a script may accept less than it is offered, or fail; any
other accepts everything. What is accepted is on the wire for good, in order.
-/

namespace WebSocket

/-- How a channel answers an offer of octets. -/
inductive Acceptance
  /-- It accepts at most this many of them. -/
  | upTo (count : Nat)
  | fault (error : IoError)
  deriving DecidableEq, Repr

/-- The writing side of a channel. -/
structure Outbound where
  /-- The answers to come. When they are used up, everything is accepted. -/
  answers : List Acceptance := []
  /-- The octets accepted so far. -/
  wire : Array UInt8 := #[]
  /-- Whether answers can be scripted. Otherwise everything is accepted. -/
  isScripted : Bool := true
  deriving DecidableEq, Repr

namespace Outbound

/-- Add to the answers to come, where answers can be scripted. -/
def script (outbound : Outbound) (answers : List Acceptance) : Outbound :=
  if outbound.isScripted then { outbound with answers := outbound.answers ++ answers }
  else outbound

/-- Offer octets once. The answer is the number of octets that were accepted. -/
def write (outbound : Outbound) (octets : List UInt8) : Except IoError Nat × Outbound :=
  match outbound with
  | ⟨[], wire, isScripted⟩ => (.ok octets.length, ⟨[], wire ++ octets, isScripted⟩)
  | ⟨.upTo count :: answers, wire, isScripted⟩ =>
      let accepted := octets.take count
      (.ok accepted.length, ⟨answers, wire ++ accepted, isScripted⟩)
  | ⟨.fault error :: answers, wire, isScripted⟩ =>
      (.error error, ⟨answers, wire, isScripted⟩)

/-- No more is accepted than is offered. -/
theorem write_le
    {outbound next : Outbound}
    {octets : List UInt8}
    {count : Nat}
    (accepted : outbound.write octets = (.ok count, next)) :
    count ≤ octets.length := by
  unfold write at accepted
  split at accepted
  · cases accepted
    exact Nat.le_refl _
  · cases accepted
    simp only [List.length_take]
    omega
  · cases accepted

/-- An offer uses up at most one answer. -/
theorem length_answers_write_le
    {outbound next : Outbound}
    {octets : List UInt8}
    {answer : Except IoError Nat}
    (written : outbound.write octets = (answer, next)) :
    next.answers.length ≤ outbound.answers.length := by
  unfold write at written
  split at written <;> cases written <;> simp

/-- A failure uses up the answer that it was scripted by. -/
theorem length_answers_write_lt
    {outbound next : Outbound}
    {octets : List UInt8}
    {error : IoError}
    (failed : outbound.write octets = (.error error, next)) :
    next.answers.length < outbound.answers.length := by
  unfold write at failed
  split at failed <;> cases failed
  simp

/-- What comes of offering octets until all of them are accepted. -/
structure Written where
  outbound : Outbound
  answer : Except IoError Unit
  /-- The offers that were made, each with its answer. -/
  offers : Array (List UInt8 × Except IoError Nat)

/-- Offer octets until all of them are accepted, after the given offers. -/
def writeAllFrom
    (outbound : Outbound)
    (octets : List UInt8)
    (offers : Array (List UInt8 × Except IoError Nat)) : Written :=
  if octets.isEmpty then { outbound, answer := .ok (), offers }
  else
    match written : outbound.write octets with
    | (.ok 0, next) =>
        { outbound := next
          answer := .error .frameCutShort
          offers := offers.push (octets, .ok 0) }
    | (.ok (count + 1), next) =>
        have accepted := write_le written
        have answers := length_answers_write_le written
        writeAllFrom next (octets.drop (count + 1))
          (offers.push (octets, .ok (count + 1)))
    | (.error error, next) =>
        if error.isInterruption then
          have := length_answers_write_lt written
          writeAllFrom next octets (offers.push (octets, .error error))
        else
          { outbound := next
            answer := .error error
            offers := offers.push (octets, .error error) }
termination_by outbound.answers.length + octets.length
decreasing_by
  · rw [List.length_drop]
    omega
  · omega

/-- Offer octets until all of them are accepted. An interruption is followed by the
same offer, and an offer of which nothing is accepted ends with a failure. -/
def writeAll (outbound : Outbound) (octets : List UInt8) : Written :=
  outbound.writeAllFrom octets #[]

end Outbound
end WebSocket
