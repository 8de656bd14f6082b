import WebSocket.Channel.Inbound

/-!
# Channels that supply a stream

A channel supplies a stream if it is always ready and brings the octets of the stream in
runs of any length, with interruptions in between, and then ends. Each read takes octets
off the front of the stream, or is interrupted and takes none.
-/

namespace WebSocket

/-- Arrivals that bring a stream and then end. -/
inductive Arrival.Bring : List Arrival → List UInt8 → Prop
  | nothing : Bring [] []
  | pause (later : List Arrival) : Bring (.pause :: later) []
  | hangUp (later : List Arrival) : Bring (.hangUp :: later) []
  | interruption
      {error : IoError}
      {later : List Arrival}
      {stream : List UInt8}
      (interrupts : error.isInterruption = true)
      (bring : Bring later stream) :
      Bring (.fault error :: later) stream
  | octets
      {chunk : List UInt8}
      {later : List Arrival}
      {stream : List UInt8}
      (nonempty : chunk ≠ [])
      (bring : Bring later stream) :
      Bring (.octets chunk :: later) (chunk ++ stream)

/-- Whether a channel answers that it is ready for as long as arrivals are left. A channel
that looks into its queue needs to find the end there. -/
def Readiness.Holds (arrivals : List Arrival) : Readiness → Prop
  | .always => True
  | .scripted answers => ∀ answer ∈ answers, answer = .ok true
  | .queued => .pause ∈ arrivals ∨ .hangUp ∈ arrivals

namespace Inbound

/-- Whether a channel is always ready, supplies the stream and then ends. -/
structure Supplies (inbound : Inbound) (stream : List UInt8) : Prop where
  bring : Arrival.Bring inbound.arrivals stream
  holds : inbound.readiness.Holds inbound.arrivals

variable {inbound : Inbound} {stream : List UInt8}

/-- A channel that is always ready says so, and goes on supplying the stream. -/
theorem Supplies.poll (supplies : inbound.Supplies stream) :
    inbound.poll.1 = .ok true ∧ inbound.poll.2.Supplies stream := by
  obtain ⟨arrivals, readiness, joinsArrivals⟩ := inbound
  obtain ⟨bring, holds⟩ := supplies
  cases readiness with
  | always => exact ⟨rfl, bring, holds⟩
  | scripted answers =>
      cases answers with
      | nil => exact ⟨rfl, bring, holds⟩
      | cons answer answers =>
          refine ⟨holds answer List.mem_cons_self, bring, ?_⟩
          intro later member
          exact holds later (List.mem_cons_of_mem answer member)
  | queued =>
      refine ⟨?_, bring, holds⟩
      have waiting : arrivals ≠ [] := by
        rintro rfl
        rcases holds with ended | ended <;> cases ended
      cases arrivals with
      | nil => exact absurd rfl waiting
      | cons arrival later => rfl

/-- Whether a read takes octets off the front of the stream, or is interrupted. Only the
end of the stream brings no octets. -/
def Takes (stream : List UInt8) (size : Nat) : Except IoError (List UInt8) × Inbound → Prop
  | (.error error, next) => error.isInterruption = true ∧ next.Supplies stream
  | (.ok octets, next) =>
      octets.length ≤ size ∧
        ((octets = [] ∧ stream = []) ∨
          (octets ≠ [] ∧ ∃ rest, stream = octets ++ rest ∧ next.Supplies rest))

/-- Readiness survives the loss of an arrival that is not an end. -/
theorem holds_later
    {arrival : Arrival}
    {replaced later : List Arrival}
    {readiness : Readiness}
    (holds : readiness.Holds (arrival :: later))
    (notPause : arrival ≠ .pause)
    (notHangUp : arrival ≠ .hangUp)
    (kept : ∀ other ∈ later, other ∈ replaced) :
    readiness.Holds replaced := by
  cases readiness with
  | always => trivial
  | scripted answers => exact holds
  | queued =>
      rcases holds with ended | ended
      · left
        exact kept _ ((List.mem_cons.mp ended).resolve_left (Ne.symm notPause))
      · right
        exact kept _ ((List.mem_cons.mp ended).resolve_left (Ne.symm notHangUp))

/-- What is left of a run of octets stays in front of the queue. -/
theorem supplies_left
    {chunk : List UInt8}
    {later : List Arrival}
    {readiness : Readiness}
    {joinsArrivals : Bool}
    (bring : Arrival.Bring later stream)
    (holds : readiness.Holds (.octets chunk :: later))
    (left : List UInt8) :
    Supplies
      { arrivals := if left.isEmpty then later else .octets left :: later
        readiness
        joinsArrivals }
      (left ++ stream) := by
  cases left with
  | nil => exact ⟨bring, holds_later holds nofun nofun fun _ member => member⟩
  | cons octet octets =>
      refine ⟨.octets (List.cons_ne_nil octet octets) bring, ?_⟩
      exact holds_later holds nofun nofun fun _ member => List.mem_cons_of_mem _ member

theorem Supplies.read
    (supplies : inbound.Supplies stream)
    {size : Nat}
    (positive : 0 < size) :
    Takes stream size (inbound.read size) := by
  obtain ⟨arrivals, readiness, joinsArrivals⟩ := inbound
  obtain ⟨bring, holds⟩ := supplies
  cases bring with
  | nothing => exact ⟨Nat.zero_le size, .inl ⟨rfl, rfl⟩⟩
  | pause later => exact ⟨Nat.zero_le size, .inl ⟨rfl, rfl⟩⟩
  | hangUp later => exact ⟨Nat.zero_le size, .inl ⟨rfl, rfl⟩⟩
  | interruption interrupts bring =>
      exact ⟨interrupts, bring, holds_later holds nofun nofun fun _ member => member⟩
  | @octets chunk later stream nonempty bring =>
      have taken : chunk.take size ≠ [] := by
        intro empty
        rcases List.take_eq_nil_iff.mp empty with zero | empty
        · exact Nat.ne_of_gt positive zero
        · exact nonempty empty
      have whole : chunk ++ stream = chunk.take size ++ (chunk.drop size ++ stream) := by
        rw [← List.append_assoc, List.take_append_drop]
      exact ⟨List.length_take_le _ _,
        .inr ⟨taken, chunk.drop size ++ stream, whole, supplies_left bring holds _⟩⟩

end Inbound
end WebSocket
