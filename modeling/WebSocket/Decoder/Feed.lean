import WebSocket.Decoder.Basic

/-!
# Feeding a decoder

A call parses a header, checks it against the message that is pending, takes the
payload in and either delivers a frame or goes on with the next fragment. It ends
because every further pass starts afresh behind a header, which takes octets.
-/

namespace WebSocket
namespace Decoder

/-- A call of `feed` that is under way. -/
structure Feeding where
  decoder : Decoder
  /-- The octets that have not been taken yet. -/
  input : List UInt8
  /-- The number of octets taken. -/
  consumed : Nat := 0
  /-- What there is to tell so far. -/
  events : Array Log.Event := #[]

/-- What comes of feeding a decoder. -/
structure Fed where
  decoder : Decoder
  /-- The octets left over. -/
  rest : List UInt8
  /-- The number of octets taken. -/
  consumed : Nat
  answer : Except Refusal (Parse Frame)
  /-- What there is to tell, in order. -/
  events : Array Log.Event

namespace Feeding

/-- What a pass leads to. -/
inductive Step
  | finished (fed : Fed)
  | again (feeding : Feeding)

/-- End the call with an answer. -/
def finish
    (feeding : Feeding)
    (answer : Except Refusal (Parse Frame)) : Step :=
  .finished
    { decoder := feeding.decoder
      rest := feeding.input
      consumed := feeding.consumed
      answer
      events := feeding.events }

/-- Take in what has arrived of a payload, and close out the frame if nothing is
missing. -/
def takePayload (feeding : Feeding) (frame : InFlight) : Step :=
  let piece := feeding.input.take frame.remaining
  let input := feeding.input.drop frame.remaining
  let consumed := feeding.consumed + piece.length
  let decoder := feeding.decoder.collect frame piece
  let frame := frame.advance piece
  if 0 < frame.remaining then
    finish
      { feeding with
        decoder := { decoder with inFlight := some frame }
        input
        consumed }
      (.ok (.needMore frame.remaining))
  else
    let events :=
      feeding.events.push (.frameReceived frame.header.opcode frame.received)
    match decoder.finishFrame frame with
    | (some delivered, decoder) =>
        finish { decoder, input, consumed, events } (.ok (.ready delivered))
    | (none, decoder) => .again { decoder, input, consumed, events }

/-- Check a complete header and take in what has arrived of its payload. -/
def takeFrame
    (feeding : Feeding)
    (header : FrameHeader)
    (announced : Nat) : Step :=
  let events := feeding.events.push (.headerComplete header.opcode announced)
  match feeding.decoder.accept header announced with
  | .error refusal =>
      finish { feeding with events := events.push (.refused refusal) }
        (.error refusal)
  | .ok decoder =>
      takePayload { feeding with decoder, events } { header, remaining := announced }

/-- One pass: parse a header if none is complete, and then take the payload in. -/
def pass (feeding : Feeding) : Step :=
  match feeding.decoder.inFlight with
  | some frame => feeding.takePayload frame
  | none =>
      let fed := feeding.decoder.parser.feed feeding.input
      let feeding : Feeding :=
        { decoder := { feeding.decoder with parser := fed.parser }
          input := fed.rest
          consumed := feeding.consumed + fed.consumed
          events := feeding.events ++ fed.events }
      match fed.answer with
      | .error refusal => feeding.finish (.error refusal)
      | .ok (.needMore count) => feeding.finish (.ok (.needMore count))
      | .ok (.ready (header, announced)) => feeding.takeFrame header announced

/-- A measure that every pass lowers if another one follows or a frame is
delivered: the input that is left, and whether the decoder is within a frame. -/
def measure (feeding : Feeding) : Nat :=
  2 * feeding.input.length + if feeding.decoder.isBetweenFrames then 0 else 1

/-- Whether what a pass leads to has a lower measure than `bound`, if the pass ended
a physical frame. -/
def Step.Lowers (bound : Nat) : Step → Prop
  | .again feeding => feeding.measure < bound
  | .finished fed =>
      ∀ frame, fed.answer = .ok (.ready frame) →
        measure { decoder := fed.decoder, input := fed.rest } < bound

/-- An answer that delivers no frame lowers every measure. -/
theorem lowers_finish_error
    (feeding : Feeding)
    (refusal : Refusal)
    (bound : Nat) :
    (feeding.finish (.error refusal)).Lowers bound := by
  intro frame delivered
  cases delivered

/-- An answer that asks for more lowers every measure. -/
theorem lowers_finish_needMore
    (feeding : Feeding)
    (count bound : Nat) :
    (feeding.finish (.ok (.needMore count))).Lowers bound := by
  intro frame delivered
  cases delivered

/-- Closing out a frame leaves the decoder between frames. -/
theorem isBetweenFrames_finishFrame (decoder : Decoder) (frame : InFlight) :
    (decoder.finishFrame frame).2.isBetweenFrames = true := by
  unfold finishFrame
  split
  · rfl
  · split <;> rfl

/-- Taking a payload in leaves less than any bound above the input. -/
theorem lowers_takePayload
    {feeding : Feeding}
    {bound : Nat}
    (frame : InFlight)
    (room : 2 * feeding.input.length < bound) :
    (feeding.takePayload frame).Lowers bound := by
  have shorter :
      2 * (feeding.input.drop frame.remaining).length < bound := by
    rw [List.length_drop]
    omega
  unfold takePayload
  dsimp only
  split
  · exact lowers_finish_needMore _ _ _
  · have between := isBetweenFrames_finishFrame
      (feeding.decoder.collect frame (feeding.input.take frame.remaining))
      (frame.advance (feeding.input.take frame.remaining))
    split
    · rename_i delivered decoder finished
      rw [finished] at between
      intro _ _
      simpa [finish, measure, between] using shorter
    · rename_i decoder finished
      rw [finished] at between
      simpa [Step.Lowers, measure, between] using shorter

/-- Every pass that another one follows, or that delivers a frame, lowers the
measure. -/
theorem lowers_pass (feeding : Feeding) :
    feeding.pass.Lowers feeding.measure := by
  unfold pass
  split
  · rename_i frame inFlight
    apply lowers_takePayload
    simp [measure, isBetweenFrames, inFlight]
  · rename_i between
    dsimp only
    split
    · exact lowers_finish_error _ _ _
    · exact lowers_finish_needMore _ _ _
    · rename_i header announced complete
      unfold takeFrame
      dsimp only
      split
      · exact lowers_finish_error _ _ _
      · apply lowers_takePayload
        have bound :=
          feeding.decoder.parser.length_rest_feed_le feeding.input
        cases idle : feeding.decoder.parser.isIdle with
        | true =>
            have bound := HeaderParser.length_rest_feed_lt idle complete
            simp only [measure]
            omega
        | false =>
            simp only [measure, isBetweenFrames, idle, Bool.and_false,
              Bool.false_eq_true, if_false]
            omega

/-- Make passes until one of them ends the call. -/
def run (feeding : Feeding) : Fed :=
  match step : feeding.pass with
  | .finished fed => fed
  | .again next =>
      have : next.measure < feeding.measure := by
        have lowers := feeding.lowers_pass
        rw [step] at lowers
        exact lowers
      next.run
termination_by feeding.measure

end Feeding

/-- Feed octets to a decoder, up to the end of the frame that they complete. -/
def feed (decoder : Decoder) (input : List UInt8) : Fed :=
  Feeding.run { decoder, input }

end Decoder
end WebSocket
