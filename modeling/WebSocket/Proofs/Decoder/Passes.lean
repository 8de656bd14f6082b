import Mathlib.Data.List.Chain
import WebSocket.Proofs.Decoder.Representation
import WebSocket.Proofs.Visits

/-!
# The passes of a call

A call makes a pass for every physical frame that it closes out without delivering one. Every
such pass but the first begins between frames, so it takes a header even if the frame has no
payload. Half the length of the input therefore bounds the passes of a call, whatever state
the decoder is in.
-/

namespace WebSocket

/-! ## What a header takes -/

namespace HeaderStage

/-- Behind the first octet of a header the second one is awaited. -/
theorem exists_length_of_readInitial
    {octet : UInt8}
    {next : HeaderStage}
    (advanced : readInitial octet = .ok next) :
    ∃ isFinal opcode, next = .length isFinal opcode := by
  unfold readInitial at advanced
  dsimp only at advanced
  split at advanced
  · cases advanced
  · split at advanced
    · cases advanced
      exact ⟨_, _, rfl⟩
    · cases advanced

end HeaderStage

namespace HeaderParser

variable
    {parser : HeaderParser}
    {input : List UInt8}
    {header : FrameHeader × Nat}

/-- A parser that completes its header has completed the field that it waited for. -/
theorem exists_enter_of_ready
    (waiting : parser.stage.complete? = none)
    (ready : (parser.verdict input).answer = .ok (.ready header)) :
    parser.wanted ≤ input.length ∧ ∃ next,
      parser.stage.advance parser.role (parser.held ++ input.take parser.wanted) = .ok next ∧
        parser.verdict input = (parser.enter next).verdict (input.drop parser.wanted) := by
  by_cases full : parser.wanted ≤ input.length
  · cases field : parser.stage.advance parser.role
        (parser.held ++ input.take parser.wanted) with
    | error refusal =>
        rw [verdict_of_refused waiting full field] at ready
        cases ready
    | ok next => exact ⟨full, next, rfl, verdict_of_advanced waiting full field⟩
  · rw [verdict_of_short waiting (Nat.lt_of_not_le full)] at ready
    cases ready

/-- A header that is parsed from its beginning takes two octets at least. -/
theorem two_le_consumed_of_ready
    (idle : parser.isIdle = true)
    (ready : (parser.verdict input).answer = .ok (.ready header)) :
    2 ≤ (parser.feed input).consumed := by
  obtain ⟨role, stage, held⟩ := parser
  simp only [isIdle, Bool.and_eq_true, beq_iff_eq, List.isEmpty_iff] at idle
  obtain ⟨rfl, rfl⟩ := idle
  obtain ⟨first, next, advanced, enters⟩ := exists_enter_of_ready rfl ready
  obtain ⟨isFinal, opcode, rfl⟩ := HeaderStage.exists_length_of_readInitial advanced
  rw [enters] at ready
  obtain ⟨second, next, -, entersNext⟩ := exists_enter_of_ready rfl ready
  rw [entersNext] at enters
  have left : (HeaderParser.feed { role } input).rest.length ≤
      ((input.drop 1).drop 1).length := by
    change (verdict { role } input).rest.length ≤ _
    rw [enters]
    exact length_rest_feed_le _ _
  have total := HeaderParser.consumed_add_length_rest_feedFrom { role } input 0 #[]
  have first : 1 ≤ input.length := first
  have second : 1 ≤ (input.drop 1).length := second
  rw [List.length_drop] at second left
  rw [List.length_drop] at left
  change (HeaderParser.feed { role } input).consumed +
    (HeaderParser.feed { role } input).rest.length = _ at total
  omega

end HeaderParser

namespace Decoder
namespace Feeding

/-! ## What a pass takes -/

/-- Whether a pass takes a header, of two octets at least, and leads to the next pass. -/
structure TakesHeader (feeding next : Feeding) : Prop where
  /-- No payload is awaited, so the pass begins with a header. -/
  between : feeding.decoder.inFlight = none
  header : 2 ≤ (feeding.decoder.parser.feed feeding.input).consumed
  /-- What the pass takes beyond the header is payload. -/
  consumed : feeding.consumed + (feeding.decoder.parser.feed feeding.input).consumed ≤
    next.consumed

/-- Taking a payload in only adds to what was taken. -/
theorem consumed_le_of_takePayload
    {feeding next : Feeding}
    {frame : InFlight}
    (step : feeding.takePayload frame = .again next) :
    feeding.consumed ≤ next.consumed := by
  unfold takePayload at step
  dsimp only at step
  split at step
  · cases step
  · split at step
    · cases step
    · cases step
      exact Nat.le_add_right _ _

/-- A pass that begins between frames and leads to another one takes a header. -/
theorem takesHeader_of_again
    {feeding next : Feeding}
    (between : feeding.decoder.isBetweenFrames = true)
    (step : feeding.pass = .again next) :
    feeding.TakesHeader next := by
  obtain ⟨inFlight, idle⟩ := Bool.and_eq_true_iff.mp between
  replace inFlight := Option.isNone_iff_eq_none.mp inFlight
  rw [pass_of_inFlight_eq_none inFlight] at step
  split at step
  · cases step
  · cases step
  · rename_i header announced ready
    refine ⟨inFlight, HeaderParser.two_le_consumed_of_ready idle ready, ?_⟩
    unfold takeFrame at step
    dsimp only at step
    split at step
    · cases step
    · exact consumed_le_of_takePayload step

/-- What a pass takes off the input is counted. -/
theorem length_input_of_takesHeader
    {feeding next : Feeding}
    (takes : feeding.TakesHeader next)
    (step : feeding.pass = .again next) :
    next.input.length + 2 ≤ feeding.input.length := by
  have accounts := feeding.accounts_pass
  rw [step] at accounts
  have total : next.consumed + next.input.length =
    feeding.consumed + feeding.input.length := accounts
  have header := takes.header
  have consumed := takes.consumed
  omega

/-! ## The passes of a call -/

/-- Whether a call makes the given passes, from the first one to the one that ends it. -/
abbrev GoesThrough (first : Feeding) (passes : List Feeding) (fed : Fed) : Prop :=
  Visits (fun feeding next => feeding.pass = .again next)
    (fun feeding => feeding.pass = .finished fed) first passes

/-- Every call makes passes until one of them ends it. -/
theorem exists_goesThrough (feeding : Feeding) :
    ∃ passes, feeding.GoesThrough passes feeding.run := by
  fun_induction run feeding with
  | case1 feeding fed step => exact ⟨_, .last step⟩
  | case2 feeding next step _ inductionHypothesis =>
      obtain ⟨passes, visits⟩ := inductionHypothesis
      exact ⟨_, .again step visits⟩

/-- The passes of a call that begins between frames take a header each, so they are no more
than half the octets and the one that ends the call. -/
theorem GoesThrough.of_isBetweenFrames
    {feeding : Feeding}
    {fed : Fed}
    {passes : List Feeding}
    (between : feeding.decoder.isBetweenFrames = true)
    (visits : feeding.GoesThrough passes fed) :
    passes.IsChain TakesHeader ∧ passes.length ≤ feeding.input.length / 2 + 1 := by
  -- Every pass that leads to another one leaves that one between frames again.
  have turns : ∀ {feeding next : Feeding},
      feeding.decoder.isBetweenFrames = true → feeding.pass = .again next →
        next.decoder.isBetweenFrames = true ∧ feeding.TakesHeader next := by
    intro feeding next between step
    exact ⟨isBetweenFrames_of_again step, takesHeader_of_again between step⟩
  have bound : 2 * passes.length ≤ feeding.input.length + 2 := by
    refine visits.length_le (fun feeding => feeding.decoder.isBetweenFrames = true)
      (fun feeding => feeding.input.length) ?_ between
    intro feeding next between step
    obtain ⟨betweenNext, takes⟩ := turns between step
    exact ⟨betweenNext, length_input_of_takesHeader takes step⟩
  exact ⟨visits.isChain _ turns between, by omega⟩

end Feeding

/-- A decoder makes no more passes over its input than half the octets and two. Each of them
but the first and the last takes a header. -/
theorem exists_goesThrough_feed (decoder : Decoder) (input : List UInt8) :
    ∃ passes, Feeding.GoesThrough { decoder, input } passes (decoder.feed input) ∧
      passes.tail.IsChain Feeding.TakesHeader ∧
      passes.length ≤ input.length / 2 + 2 := by
  obtain ⟨passes, visits⟩ := Feeding.exists_goesThrough { decoder, input }
  refine ⟨passes, visits, ?_⟩
  cases visits with
  | last step => exact ⟨.nil, by simp⟩
  | @again _ next passes step visits =>
      obtain ⟨takes, bound⟩ :=
        Feeding.GoesThrough.of_isBetweenFrames (Feeding.isBetweenFrames_of_again step) visits
      have accounts := Feeding.accounts_pass { decoder, input }
      rw [step] at accounts
      have total : next.consumed + next.input.length = 0 + input.length := accounts
      refine ⟨takes, ?_⟩
      rw [List.length_cons]
      omega

end Decoder
end WebSocket
