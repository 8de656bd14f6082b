import WebSocket.Decoder.Feed
import WebSocket.Proofs.Header.Feeding

/-!
# Feeding a decoder

One equation for each thing that can happen in a pass says what feeding a decoder comes
to, whatever is told of it. Induction over these cases follows a call through all the
frames that it takes in.
-/

namespace WebSocket
namespace Decoder

/-- What feeding a decoder comes to, whatever is told of it. -/
@[ext] structure Verdict where
  decoder : Decoder
  /-- The octets left over. -/
  rest : List UInt8
  answer : Except Refusal (Parse Frame)

/-- What comes of a call, whatever is told of it. -/
def Fed.verdict (fed : Fed) : Verdict := ⟨fed.decoder, fed.rest, fed.answer⟩

/-- What feeding a decoder comes to. -/
def verdict (decoder : Decoder) (input : List UInt8) : Verdict :=
  (decoder.feed input).verdict

/-- The decoder with its header parser at another point. -/
def withParser (decoder : Decoder) (parser : HeaderParser) : Decoder :=
  { decoder with parser }

/-- The decoder with another frame in flight, or none. -/
def withInFlight (decoder : Decoder) (inFlight : Option InFlight) : Decoder :=
  { decoder with inFlight }

/-- The decoder behind a header that it has accepted. -/
def begin (decoder : Decoder) (header : FrameHeader) (announced : Nat) : Decoder :=
  decoder.withInFlight (some { header, remaining := announced })

/-- The decoder after a piece of a payload that is still incomplete. -/
def absorb (decoder : Decoder) (frame : InFlight) (piece : List UInt8) : Decoder :=
  (decoder.collect frame piece).withInFlight (some (frame.advance piece))

theorem collect_withInFlight
    (decoder : Decoder)
    (inFlight : Option InFlight)
    (frame : InFlight)
    (piece : List UInt8) :
    (decoder.withInFlight inFlight).collect frame piece =
      (decoder.collect frame piece).withInFlight inFlight := by
  unfold collect
  split <;> rfl

theorem finishFrame_withInFlight
    (decoder : Decoder)
    (inFlight : Option InFlight)
    (frame : InFlight) :
    (decoder.withInFlight inFlight).finishFrame frame = decoder.finishFrame frame := by
  unfold finishFrame
  split
  · rfl
  · split <;> rfl

/-! ## Passes -/

namespace Feeding

/-- Two passes lead to the same, whatever is told of them. -/
def Step.Agrees : Step → Step → Prop
  | .finished left, .finished right => left.verdict = right.verdict
  | .again left, .again right => left.decoder = right.decoder ∧ left.input = right.input
  | _, _ => False

section Agreement

variable
    (decoder : Decoder)
    (input : List UInt8)
    (consumed consumed' : Nat)
    (events events' : Array Log.Event)

/-- The frame that a pass takes in is all that counts of what is in flight. -/
theorem agrees_takePayload (inFlight : Option InFlight) (frame : InFlight) :
    Step.Agrees
      (takePayload ⟨decoder, input, consumed, events⟩ frame)
      (takePayload ⟨decoder.withInFlight inFlight, input, consumed', events'⟩ frame) := by
  unfold takePayload
  dsimp only
  rw [collect_withInFlight, finishFrame_withInFlight]
  split
  · rfl
  · rcases (decoder.collect frame (input.take frame.remaining)).finishFrame
      (frame.advance (input.take frame.remaining)) with ⟨_ | delivered, decoder⟩
    · exact ⟨rfl, rfl⟩
    · rfl

theorem agrees_takeFrame (header : FrameHeader) (announced : Nat) :
    Step.Agrees
      (takeFrame ⟨decoder, input, consumed, events⟩ header announced)
      (takeFrame ⟨decoder, input, consumed', events'⟩ header announced) := by
  unfold takeFrame
  dsimp only
  cases decoder.accept header announced with
  | error refusal => rfl
  | ok decoder => exact agrees_takePayload _ _ _ _ _ _ decoder.inFlight _

theorem agrees_pass :
    Step.Agrees
      (pass ⟨decoder, input, consumed, events⟩)
      (pass ⟨decoder, input, consumed', events'⟩) := by
  unfold pass
  dsimp only
  cases decoder.inFlight with
  | some frame => exact agrees_takePayload decoder _ _ _ _ _ decoder.inFlight frame
  | none =>
      dsimp only
      rcases (decoder.parser.feed input).answer with refusal | count | ⟨header, announced⟩
      · rfl
      · rfl
      · exact agrees_takeFrame _ _ _ _ _ _ _ _

end Agreement

/-- The equation of a call whose first pass ends it. -/
theorem run_of_finished
    {feeding : Feeding}
    {fed : Fed}
    (step : feeding.pass = .finished fed) :
    feeding.run = fed := by
  rw [run.eq_def]
  split
  · rename_i fed' step'
    cases step.symm.trans step'
    rfl
  · rename_i next step'
    cases step.symm.trans step'

/-- The equation of a call whose first pass another one follows. -/
theorem run_of_again
    {feeding next : Feeding}
    (step : feeding.pass = .again next) :
    feeding.run = next.run := by
  rw [run.eq_def]
  split
  · rename_i fed step'
    cases step.symm.trans step'
  · rename_i next' step'
    cases step.symm.trans step'
    rfl

/-- What was taken and told before has no influence on what feeding comes to. -/
theorem verdict_run (feeding : Feeding) :
    feeding.run.verdict = feeding.decoder.verdict feeding.input := by
  suffices ∀ consumed events,
      feeding.run.verdict =
        (run ⟨feeding.decoder, feeding.input, consumed, events⟩).verdict from this 0 #[]
  fun_induction run feeding with
  | case1 feeding fed step =>
      intro consumed events
      have agrees := agrees_pass feeding.decoder feeding.input feeding.consumed consumed
        feeding.events events
      rw [show pass _ = _ from step] at agrees
      cases step' : pass ⟨feeding.decoder, feeding.input, consumed, events⟩ with
      | finished fed' =>
          rw [step'] at agrees
          rw [run_of_finished step']
          exact agrees
      | again next =>
          rw [step'] at agrees
          cases agrees
  | case2 feeding next step _ inductionHypothesis =>
      intro consumed events
      have agrees := agrees_pass feeding.decoder feeding.input feeding.consumed consumed
        feeding.events events
      rw [show pass _ = _ from step] at agrees
      cases step' : pass ⟨feeding.decoder, feeding.input, consumed, events⟩ with
      | finished fed =>
          rw [step'] at agrees
          cases agrees
      | again next' =>
          obtain ⟨decoder, input, consumed', events'⟩ := next'
          rw [step'] at agrees
          obtain ⟨sameDecoder, sameInput⟩ := agrees
          simp only at sameDecoder sameInput
          rw [run_of_again step', inductionHypothesis consumed' events', sameDecoder,
            sameInput]

theorem verdict_of_finished
    {decoder : Decoder}
    {input : List UInt8}
    {fed : Fed}
    (step : pass { decoder, input } = .finished fed) :
    decoder.verdict input = fed.verdict := by
  rw [Decoder.verdict, Decoder.feed, run_of_finished step]

theorem verdict_of_again
    {decoder : Decoder}
    {input : List UInt8}
    {next : Feeding}
    (step : pass { decoder, input } = .again next) :
    decoder.verdict input = next.decoder.verdict next.input := by
  rw [← verdict_run next, Decoder.verdict, Decoder.feed, run_of_again step]

/-- Calls whose first passes agree come to the same. -/
theorem verdict_of_agrees
    {left right : Decoder}
    {input rest : List UInt8}
    (agrees : Step.Agrees
      (pass { decoder := left, input })
      (pass { decoder := right, input := rest })) :
    left.verdict input = right.verdict rest := by
  cases leftStep : pass { decoder := left, input } with
  | finished leftFed =>
      cases rightStep : pass { decoder := right, input := rest } with
      | finished rightFed =>
          rw [leftStep, rightStep] at agrees
          rw [verdict_of_finished leftStep, verdict_of_finished rightStep]
          exact agrees
      | again rightNext =>
          rw [leftStep, rightStep] at agrees
          cases agrees
  | again leftNext =>
      cases rightStep : pass { decoder := right, input := rest } with
      | finished rightFed =>
          rw [leftStep, rightStep] at agrees
          cases agrees
      | again rightNext =>
          rw [leftStep, rightStep] at agrees
          rw [verdict_of_again leftStep, verdict_of_again rightStep,
            agrees.1, agrees.2]

end Feeding

/-! ## What feeding comes to -/

section Equations

variable {decoder : Decoder} {input rest : List UInt8}

/-- Between frames a pass parses a header and then goes on with the frame. -/
theorem Feeding.pass_of_between
    (input : List UInt8)
    (between : decoder.inFlight = none) :
    pass { decoder, input } =
      (let fed := decoder.parser.feed input
      let feeding : Feeding :=
        { decoder := decoder.withParser fed.parser
          input := fed.rest
          consumed := 0 + fed.consumed
          events := #[] ++ fed.events }
      match fed.answer with
      | .error refusal => feeding.finish (.error refusal)
      | .ok (.needMore count) => feeding.finish (.ok (.needMore count))
      | .ok (.ready (header, announced)) => feeding.takeFrame header announced) := by
  unfold pass
  dsimp only
  split
  · rename_i frame inFlight
    cases between.symm.trans inFlight
  · rfl

/-- Within a frame a pass takes in its payload. -/
theorem Feeding.pass_of_inFlight
    {frame : InFlight}
    (input : List UInt8)
    (inFlight : decoder.inFlight = some frame) :
    pass { decoder, input } = takePayload { decoder, input } frame := by
  unfold pass
  dsimp only
  rw [inFlight]

/-- A header that is refused ends the call. -/
theorem verdict_of_header_refused
    {parser : HeaderParser}
    {refusal : Refusal}
    (between : decoder.inFlight = none)
    (parsed : decoder.parser.verdict input = ⟨parser, rest, .error refusal⟩) :
    decoder.verdict input = ⟨decoder.withParser parser, rest, .error refusal⟩ := by
  obtain ⟨rfl, rfl, answer⟩ := HeaderParser.Verdict.mk.inj parsed
  have step := Feeding.pass_of_between input between
  simp only [answer] at step
  exact Feeding.verdict_of_finished step

/-- A header that is incomplete ends the call. -/
theorem verdict_of_header_short
    {parser : HeaderParser}
    {count : Nat}
    (between : decoder.inFlight = none)
    (parsed : decoder.parser.verdict input = ⟨parser, rest, .ok (.needMore count)⟩) :
    decoder.verdict input =
      ⟨decoder.withParser parser, rest, .ok (.needMore count)⟩ := by
  obtain ⟨rfl, rfl, answer⟩ := HeaderParser.Verdict.mk.inj parsed
  have step := Feeding.pass_of_between input between
  simp only [answer] at step
  exact Feeding.verdict_of_finished step

/-- A frame that is rejected ends the call. -/
theorem verdict_of_rejected
    {parser : HeaderParser}
    {header : FrameHeader}
    {announced : Nat}
    {refusal : Refusal}
    (between : decoder.inFlight = none)
    (parsed : decoder.parser.verdict input =
      ⟨parser, rest, .ok (.ready (header, announced))⟩)
    (rejected : (decoder.withParser parser).accept header announced =
      .error refusal) :
    decoder.verdict input = ⟨decoder.withParser parser, rest, .error refusal⟩ := by
  obtain ⟨rfl, rfl, answer⟩ := HeaderParser.Verdict.mk.inj parsed
  have step := Feeding.pass_of_between input between
  simp only [answer, Feeding.takeFrame] at step
  rw [show Decoder.accept _ _ _ = _ from rejected] at step
  exact Feeding.verdict_of_finished step

/-- Behind a frame header that is accepted, feeding goes on with the payload. -/
theorem verdict_of_accepted
    {parser : HeaderParser}
    {header : FrameHeader}
    {announced : Nat}
    {accepted : Decoder}
    (between : decoder.inFlight = none)
    (parsed : decoder.parser.verdict input =
      ⟨parser, rest, .ok (.ready (header, announced))⟩)
    (acceptance : (decoder.withParser parser).accept header announced =
      .ok accepted) :
    decoder.verdict input = (accepted.begin header announced).verdict rest := by
  obtain ⟨rfl, rfl, answer⟩ := HeaderParser.Verdict.mk.inj parsed
  apply Feeding.verdict_of_agrees
  rw [Feeding.pass_of_between input between, Feeding.pass_of_inFlight _ rfl]
  simp only [answer, Feeding.takeFrame]
  rw [show Decoder.accept _ _ _ = _ from acceptance]
  exact Feeding.agrees_takePayload _ _ _ _ _ _ _ _

/-- Input that does not complete the payload is taken whole. -/
theorem verdict_of_payload_short
    {frame : InFlight}
    (inFlight : decoder.inFlight = some frame)
    (short : input.length < frame.remaining) :
    decoder.verdict input =
      ⟨decoder.absorb frame input, [],
        .ok (.needMore (frame.remaining - input.length))⟩ := by
  have piece : input.take frame.remaining = input := List.take_of_length_le (by omega)
  have nothing : input.drop frame.remaining = [] := List.drop_of_length_le (by omega)
  have step := Feeding.pass_of_inFlight input inFlight
  have missing : 0 < (frame.advance input).remaining := Nat.sub_pos_of_lt short
  simp only [Feeding.takePayload, piece, nothing] at step
  rw [if_pos missing] at step
  exact Feeding.verdict_of_finished step

/-- Enough input completes the payload. -/
theorem not_remaining_pos {frame : InFlight} (full : frame.remaining ≤ input.length) :
    ¬0 < (frame.advance (input.take frame.remaining)).remaining := by
  simp only [InFlight.advance, List.length_take]
  omega

/-- A payload that completes a message, or belongs to a control frame, ends the call. -/
theorem verdict_of_delivered
    {frame : InFlight}
    {delivered : Frame}
    {next : Decoder}
    (inFlight : decoder.inFlight = some frame)
    (full : frame.remaining ≤ input.length)
    (finished : (decoder.collect frame (input.take frame.remaining)).finishFrame
      (frame.advance (input.take frame.remaining)) = (some delivered, next)) :
    decoder.verdict input =
      ⟨next, input.drop frame.remaining, .ok (.ready delivered)⟩ := by
  have step := Feeding.pass_of_inFlight input inFlight
  simp only [Feeding.takePayload] at step
  rw [if_neg (not_remaining_pos full), finished] at step
  exact Feeding.verdict_of_finished step

/-- Behind a fragment that others follow, feeding goes on with the next frame. -/
theorem verdict_of_continued
    {frame : InFlight}
    {next : Decoder}
    (inFlight : decoder.inFlight = some frame)
    (full : frame.remaining ≤ input.length)
    (finished : (decoder.collect frame (input.take frame.remaining)).finishFrame
      (frame.advance (input.take frame.remaining)) = (none, next)) :
    decoder.verdict input = next.verdict (input.drop frame.remaining) := by
  have step := Feeding.pass_of_inFlight input inFlight
  simp only [Feeding.takePayload] at step
  rw [if_neg (not_remaining_pos full), finished] at step
  exact Feeding.verdict_of_again step

end Equations

/-- A bound on the passes that are still to come: those that input can be taken for, and
whether the decoder is within a header or a payload. -/
def passesLeft (decoder : Decoder) (input : List UInt8) : Nat :=
  3 * input.length +
    if decoder.isBetweenFrames then 0 else if decoder.inFlight.isSome then 1 else 2

theorem passesLeft_of_between
    {decoder : Decoder}
    (between : decoder.isBetweenFrames = true)
    (input : List UInt8) :
    decoder.passesLeft input = 3 * input.length := by
  rw [passesLeft, if_pos between, Nat.add_zero]

theorem passesLeft_of_inFlight
    {decoder : Decoder}
    {frame : InFlight}
    (inFlight : decoder.inFlight = some frame)
    (input : List UInt8) :
    decoder.passesLeft input = 3 * input.length + 1 := by
  simp [passesLeft, isBetweenFrames, inFlight]

theorem passesLeft_of_header
    {decoder : Decoder}
    (between : decoder.inFlight = none)
    (begun : decoder.parser.isIdle = false)
    (input : List UInt8) :
    decoder.passesLeft input = 3 * input.length + 2 := by
  simp [passesLeft, isBetweenFrames, between, begun]

/-- What feeding a decoder comes to is settled by what becomes of the header or the
payload that it waits for, and of the frames after that. -/
@[elab_as_elim] theorem feed_induction
    {motive : Decoder → List UInt8 → Prop}
    (headerRefused : ∀ (decoder : Decoder) input parser rest refusal,
      decoder.inFlight = none →
      decoder.parser.verdict input = ⟨parser, rest, .error refusal⟩ →
      motive decoder input)
    (headerShort : ∀ (decoder : Decoder) input parser rest count,
      decoder.inFlight = none →
      decoder.parser.verdict input = ⟨parser, rest, .ok (.needMore count)⟩ →
      motive decoder input)
    (rejected : ∀ (decoder : Decoder) input parser rest header announced refusal,
      decoder.inFlight = none →
      decoder.parser.verdict input =
        ⟨parser, rest, .ok (.ready (header, announced))⟩ →
      (decoder.withParser parser).accept header announced = .error refusal →
      motive decoder input)
    (accepted : ∀ (decoder : Decoder) input parser rest header announced next,
      decoder.inFlight = none →
      decoder.parser.verdict input =
        ⟨parser, rest, .ok (.ready (header, announced))⟩ →
      (decoder.withParser parser).accept header announced = .ok next →
      motive (next.begin header announced) rest →
      motive decoder input)
    (payloadShort : ∀ (decoder : Decoder) input frame,
      decoder.inFlight = some frame → input.length < frame.remaining →
      motive decoder input)
    (delivered : ∀ (decoder : Decoder) input frame delivered next,
      decoder.inFlight = some frame → frame.remaining ≤ input.length →
      (decoder.collect frame (input.take frame.remaining)).finishFrame
        (frame.advance (input.take frame.remaining)) = (some delivered, next) →
      motive decoder input)
    (continued : ∀ (decoder : Decoder) input frame next,
      decoder.inFlight = some frame → frame.remaining ≤ input.length →
      (decoder.collect frame (input.take frame.remaining)).finishFrame
        (frame.advance (input.take frame.remaining)) = (none, next) →
      motive next (input.drop frame.remaining) →
      motive decoder input)
    (decoder : Decoder)
    (input : List UInt8) :
    motive decoder input := by
  induction passes : decoder.passesLeft input using Nat.strongRecOn
    generalizing decoder input with
  | _ _ inductionHypothesis =>
      subst passes
      cases inFlight : decoder.inFlight with
      | some frame =>
          by_cases full : frame.remaining ≤ input.length
          · rcases finished :
                (decoder.collect frame (input.take frame.remaining)).finishFrame
                  (frame.advance (input.take frame.remaining)) with ⟨_ | frame', next⟩
            · refine continued decoder input frame next inFlight full finished ?_
              refine inductionHypothesis _ ?_ _ _ rfl
              have between := Feeding.isBetweenFrames_finishFrame
                (decoder.collect frame (input.take frame.remaining))
                (frame.advance (input.take frame.remaining))
              rw [finished] at between
              rw [passesLeft_of_inFlight inFlight, passesLeft_of_between between,
                List.length_drop]
              omega
            · exact delivered decoder input frame frame' next inFlight full finished
          · exact payloadShort decoder input frame inFlight (Nat.lt_of_not_le full)
      | none =>
          rcases parsed : decoder.parser.verdict input with
            ⟨parser, rest, refusal | count | ⟨header, announced⟩⟩
          · exact headerRefused decoder input parser rest refusal inFlight parsed
          · exact headerShort decoder input parser rest count inFlight parsed
          · cases acceptance : (decoder.withParser parser).accept header announced with
            | error refusal =>
                exact rejected decoder input parser rest header announced refusal
                  inFlight parsed acceptance
            | ok next =>
                refine accepted decoder input parser rest header announced next
                  inFlight parsed acceptance ?_
                refine inductionHypothesis _ ?_ _ _ rfl
                rw [passesLeft_of_inFlight rfl]
                cases idle : decoder.parser.isIdle with
                | true =>
                    have shorter := HeaderParser.length_rest_lt_of_verdict idle parsed
                    have between : decoder.isBetweenFrames = true := by
                      rw [isBetweenFrames, inFlight, idle]
                      rfl
                    rw [passesLeft_of_between between]
                    omega
                | false =>
                    have shorter := HeaderParser.length_rest_le_of_verdict parsed
                    rw [passesLeft_of_header inFlight idle]
                    omega

/-! ## What is taken and what is left -/

namespace Feeding

/-- Whether what a pass leads to has taken or left over `total` octets. -/
def Step.Accounts (total : Nat) : Step → Prop
  | .finished fed => fed.consumed + fed.rest.length = total
  | .again feeding => feeding.consumed + feeding.input.length = total

theorem accounts_takePayload (feeding : Feeding) (frame : InFlight) :
    (feeding.takePayload frame).Accounts (feeding.consumed + feeding.input.length) := by
  have total :
      feeding.consumed + (feeding.input.take frame.remaining).length +
          (feeding.input.drop frame.remaining).length =
        feeding.consumed + feeding.input.length := by
    rw [Nat.add_assoc, ← List.length_append, List.take_append_drop]
  unfold takePayload
  dsimp only
  split
  · exact total
  · split
    · exact total
    · exact total

theorem accounts_pass (feeding : Feeding) :
    feeding.pass.Accounts (feeding.consumed + feeding.input.length) := by
  unfold pass
  split
  · exact feeding.accounts_takePayload _
  · have taken :
        (feeding.decoder.parser.feed feeding.input).consumed +
            (feeding.decoder.parser.feed feeding.input).rest.length =
          0 + feeding.input.length :=
      feeding.decoder.parser.consumed_add_length_rest_feedFrom feeding.input 0 #[]
    have total :
        feeding.consumed + (feeding.decoder.parser.feed feeding.input).consumed +
            (feeding.decoder.parser.feed feeding.input).rest.length =
          feeding.consumed + feeding.input.length := by
      omega
    dsimp only
    split
    · exact total
    · exact total
    · unfold takeFrame
      dsimp only
      split
      · exact total
      · rw [← total]
        exact accounts_takePayload _ _

theorem consumed_add_length_rest_run (feeding : Feeding) :
    feeding.run.consumed + feeding.run.rest.length =
      feeding.consumed + feeding.input.length := by
  fun_induction run feeding with
  | case1 feeding fed step =>
      have accounts := feeding.accounts_pass
      rw [step] at accounts
      exact accounts
  | case2 feeding next step _ inductionHypothesis =>
      have accounts := feeding.accounts_pass
      rw [step] at accounts
      exact inductionHypothesis.trans accounts

end Feeding

theorem consumed_add_length_rest_feed (decoder : Decoder) (input : List UInt8) :
    (decoder.feed input).consumed + (decoder.feed input).rest.length = input.length :=
  (Feeding.consumed_add_length_rest_run { decoder, input }).trans
    (Nat.zero_add input.length)

/-- Feeding never makes octets. -/
theorem length_rest_verdict_le (decoder : Decoder) (input : List UInt8) :
    (decoder.verdict input).rest.length ≤ input.length := by
  rw [← decoder.consumed_add_length_rest_feed input]
  exact Nat.le_add_left _ _

end Decoder
end WebSocket
