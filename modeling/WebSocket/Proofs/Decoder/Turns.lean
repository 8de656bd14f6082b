import WebSocket.Proofs.Decoder.Feeding
import WebSocket.Proofs.Masking

/-!
# Feeding a decoder in turns

Feeding a decoder more at once is feeding it in turns: where the first turn ends, a
header field, a key or a payload may be cut, and the next turn goes on from there. What a
decoder asks for is what it wants, and it never leaves any of that.
-/

namespace WebSocket

/-! ## Pieces of a payload -/

theorem appendList_appendList
    (octets : Array UInt8)
    (left right : List UInt8) :
    octets ++ left ++ right = octets ++ (left ++ right) := by
  apply Array.toList_inj.mp
  simp

namespace InFlight

@[simp] theorem header_advance (frame : InFlight) (piece : List UInt8) :
    (frame.advance piece).header = frame.header := rfl

@[simp] theorem remaining_advance (frame : InFlight) (piece : List UInt8) :
    (frame.advance piece).remaining = frame.remaining - piece.length := rfl

@[simp] theorem unmask_nil (frame : InFlight) : frame.unmask [] = [] := by
  unfold unmask
  cases frame.header.mask with
  | none => rfl
  | some key => exact key.maskAt_eq_maskFrom frame.received []

@[simp] theorem advance_nil (frame : InFlight) : frame.advance [] = frame := by
  simp [advance]

theorem unmask_append (frame : InFlight) (left right : List UInt8) :
    frame.unmask (left ++ right) =
      frame.unmask left ++ (frame.advance left).unmask right := by
  unfold unmask
  rw [header_advance]
  cases frame.header.mask with
  | none => rfl
  | some key =>
      simp only [MaskingKey.maskAt_eq_maskFrom, MaskingKey.maskFrom_append]
      rfl

theorem advance_advance (frame : InFlight) (left right : List UInt8) :
    (frame.advance left).advance right = frame.advance (left ++ right) := by
  have payload := frame.unmask_append left right
  simp only [advance] at payload ⊢
  rw [payload, List.length_append, Nat.sub_add_eq, Nat.add_assoc]
  split
  · rw [appendList_appendList]
  · rfl

end InFlight

namespace Decoder

theorem collect_collect
    (decoder : Decoder)
    (frame : InFlight)
    (left right : List UInt8) :
    (decoder.collect frame left).collect (frame.advance left) right =
      decoder.collect frame (left ++ right) := by
  unfold collect
  rw [InFlight.header_advance]
  split
  · rfl
  · rw [frame.unmask_append]
    cases decoder.pending with
    | none => rfl
    | some message =>
        simp only [Option.map_some, PendingMessage.append, appendList_appendList]

theorem absorb_absorb
    (decoder : Decoder)
    (frame : InFlight)
    (left right : List UInt8) :
    (decoder.absorb frame left).absorb (frame.advance left) right =
      decoder.absorb frame (left ++ right) := by
  rw [absorb, absorb, absorb, collect_withInFlight, collect_collect,
    InFlight.advance_advance]
  rfl

theorem finishFrame_absorb
    (decoder : Decoder)
    (frame : InFlight)
    (left right : List UInt8) :
    ((decoder.absorb frame left).collect (frame.advance left) right).finishFrame
        ((frame.advance left).advance right) =
      (decoder.collect frame (left ++ right)).finishFrame
        (frame.advance (left ++ right)) := by
  rw [absorb, collect_withInFlight, finishFrame_withInFlight, collect_collect,
    InFlight.advance_advance]

/-! ## Feeding in turns -/

/-- What comes of it when further octets follow: the decoder takes them if it asked for
more, and otherwise they are left over. -/
def Verdict.resume (verdict : Verdict) (more : List UInt8) : Verdict :=
  match verdict.answer with
  | .ok (.needMore _) => verdict.decoder.verdict (verdict.rest ++ more)
  | _ => { verdict with rest := verdict.rest ++ more }

/-- Between frames the decoder depends on its parser only by what feeding it comes to. -/
theorem verdict_withParser
    {decoder : Decoder}
    {parser : HeaderParser}
    {input input' : List UInt8}
    (between : decoder.inFlight = none)
    (parsed : decoder.parser.verdict input = parser.verdict input') :
    decoder.verdict input = (decoder.withParser parser).verdict input' := by
  have between' : (decoder.withParser parser).inFlight = none := between
  rcases answer : parser.verdict input' with
    ⟨next, rest, refusal | count | ⟨header, announced⟩⟩
  · rw [verdict_of_header_refused between (parsed.trans answer),
      verdict_of_header_refused between' answer]
    rfl
  · rw [verdict_of_header_short between (parsed.trans answer),
      verdict_of_header_short between' answer]
    rfl
  · cases acceptance : (decoder.withParser next).accept header announced with
    | error refusal =>
        rw [verdict_of_rejected between (parsed.trans answer) acceptance,
          verdict_of_rejected between' answer acceptance]
        rfl
    | ok accepted =>
        rw [verdict_of_accepted between (parsed.trans answer) acceptance,
          verdict_of_accepted between' answer acceptance]

/-- Feeding a decoder more at once is feeding it in turns. -/
theorem verdict_append (decoder : Decoder) (left right : List UInt8) :
    decoder.verdict (left ++ right) = (decoder.verdict left).resume right := by
  induction decoder, left using feed_induction with
  | headerRefused decoder left parser rest refusal between parsed =>
      have parsedBoth := decoder.parser.verdict_append left right
      rw [parsed] at parsedBoth
      rw [verdict_of_header_refused between parsedBoth,
        verdict_of_header_refused between parsed]
      rfl
  | headerShort decoder left parser rest count between parsed =>
      have parsedBoth := decoder.parser.verdict_append left right
      rw [parsed] at parsedBoth
      rw [verdict_of_header_short between parsed, verdict_withParser between parsedBoth]
      rfl
  | rejected decoder left parser rest header announced refusal between parsed rejection =>
      have parsedBoth := decoder.parser.verdict_append left right
      rw [parsed] at parsedBoth
      rw [verdict_of_rejected between parsedBoth rejection,
        verdict_of_rejected between parsed rejection]
      rfl
  | accepted decoder left parser rest header announced next between parsed acceptance
      inductionHypothesis =>
      have parsedBoth := decoder.parser.verdict_append left right
      rw [parsed] at parsedBoth
      rw [verdict_of_accepted between parsedBoth acceptance,
        verdict_of_accepted between parsed acceptance]
      exact inductionHypothesis
  | payloadShort decoder left frame inFlight short =>
      rw [verdict_of_payload_short inFlight short]
      simp only [Verdict.resume, List.nil_append]
      have inFlightThen :
          (decoder.absorb frame left).inFlight = some (frame.advance left) := rfl
      have remainingThen := frame.remaining_advance left
      by_cases full : frame.remaining ≤ (left ++ right).length
      · have fullThen : (frame.advance left).remaining ≤ right.length := by
          rw [List.length_append] at full
          omega
        have piece :
            (left ++ right).take frame.remaining =
              left ++ right.take (frame.advance left).remaining := by
          rw [List.take_append, List.take_of_length_le (by omega), remainingThen]
        have rest :
            (left ++ right).drop frame.remaining =
              right.drop (frame.advance left).remaining := by
          rw [List.drop_append, List.drop_of_length_le (by omega), List.nil_append,
            remainingThen]
        rcases finished :
            (decoder.collect frame ((left ++ right).take frame.remaining)).finishFrame
              (frame.advance ((left ++ right).take frame.remaining)) with
          ⟨_ | delivered, next⟩
        · rw [verdict_of_continued inFlight full finished, rest]
          rw [piece, ← finishFrame_absorb] at finished
          rw [verdict_of_continued inFlightThen fullThen finished]
        · rw [verdict_of_delivered inFlight full finished, rest]
          rw [piece, ← finishFrame_absorb] at finished
          rw [verdict_of_delivered inFlightThen fullThen finished]
      · have shortThen : right.length < (frame.advance left).remaining := by
          rw [List.length_append] at full
          omega
        rw [verdict_of_payload_short inFlight (Nat.lt_of_not_le full),
          verdict_of_payload_short inFlightThen shortThen, absorb_absorb,
          remainingThen, List.length_append, Nat.sub_add_eq]
  | delivered decoder left frame delivered next inFlight full finished =>
      have fullBoth : frame.remaining ≤ (left ++ right).length := by
        rw [List.length_append]
        omega
      have piece : (left ++ right).take frame.remaining = left.take frame.remaining :=
        List.take_append_of_le_length full
      rw [verdict_of_delivered inFlight fullBoth (by rw [piece]; exact finished),
        verdict_of_delivered inFlight full finished,
        List.drop_append_of_le_length full]
      rfl
  | continued decoder left frame next inFlight full finished inductionHypothesis =>
      have fullBoth : frame.remaining ≤ (left ++ right).length := by
        rw [List.length_append]
        omega
      have piece : (left ++ right).take frame.remaining = left.take frame.remaining :=
        List.take_append_of_le_length full
      rw [verdict_of_continued inFlight fullBoth (by rw [piece]; exact finished),
        verdict_of_continued inFlight full finished,
        List.drop_append_of_le_length full, inductionHypothesis]

/-! ## What is wanted -/

/-- A decoder that asks for more has taken everything and asks for what it wants. -/
theorem verdict_of_needMore
    {decoder : Decoder}
    {input : List UInt8}
    {count : Nat}
    (asks : (decoder.verdict input).answer = .ok (.needMore count)) :
    (decoder.verdict input).rest = [] ∧
      (decoder.verdict input).decoder.wanted = count ∧ 0 < count := by
  induction decoder, input using feed_induction with
  | headerRefused decoder input parser rest refusal between parsed =>
      rw [verdict_of_header_refused between parsed] at asks
      cases asks
  | headerShort decoder input parser rest count' between parsed =>
      rw [verdict_of_header_short between parsed] at asks ⊢
      cases asks
      have answer := congrArg HeaderParser.Verdict.answer parsed
      have ⟨taken, wanted, positive⟩ := HeaderParser.verdict_of_needMore answer
      rw [parsed] at taken wanted
      refine ⟨taken, ?_, positive⟩
      simp only [Decoder.wanted, withParser, between]
      exact wanted
  | rejected decoder input parser rest header announced refusal between parsed rejection =>
      rw [verdict_of_rejected between parsed rejection] at asks
      cases asks
  | accepted decoder input parser rest header announced next between parsed acceptance
      inductionHypothesis =>
      rw [verdict_of_accepted between parsed acceptance] at asks ⊢
      exact inductionHypothesis asks
  | payloadShort decoder input frame inFlight short =>
      rw [verdict_of_payload_short inFlight short] at asks ⊢
      cases asks
      exact ⟨rfl, rfl, Nat.sub_pos_of_lt short⟩
  | delivered decoder input frame delivered next inFlight full finished =>
      rw [verdict_of_delivered inFlight full finished] at asks
      cases asks
  | continued decoder input frame next inFlight full finished inductionHypothesis =>
      rw [verdict_of_continued inFlight full finished] at asks ⊢
      exact inductionHypothesis asks

/-- A decoder that has closed out a frame wants the first octet of the next one. -/
theorem wanted_finishFrame (decoder : Decoder) (frame : InFlight) :
    (decoder.finishFrame frame).2.wanted = 1 := by
  unfold finishFrame
  split
  · rfl
  · split <;> rfl

/-- Unless input is refused, a decoder wants more afterwards. -/
theorem wanted_pos_of_ok
    {decoder : Decoder}
    {input : List UInt8}
    {parsed : Parse Frame}
    (accepted : (decoder.verdict input).answer = .ok parsed) :
    0 < (decoder.verdict input).decoder.wanted := by
  induction decoder, input using feed_induction with
  | headerRefused decoder input parser rest refusal between parsed =>
      rw [verdict_of_header_refused between parsed] at accepted
      cases accepted
  | headerShort decoder input parser rest count between parsed =>
      have asks : (decoder.verdict input).answer = .ok (.needMore count) := by
        rw [verdict_of_header_short between parsed]
      have ⟨_, wanted, positive⟩ := verdict_of_needMore asks
      rw [wanted]
      exact positive
  | rejected decoder input parser rest header announced refusal between parsed rejection =>
      rw [verdict_of_rejected between parsed rejection] at accepted
      cases accepted
  | accepted decoder input parser rest header announced next between parsed acceptance
      inductionHypothesis =>
      rw [verdict_of_accepted between parsed acceptance] at accepted ⊢
      exact inductionHypothesis accepted
  | payloadShort decoder input frame inFlight short =>
      rw [verdict_of_payload_short inFlight short]
      exact Nat.sub_pos_of_lt short
  | delivered decoder input frame delivered next inFlight full finished =>
      have wanted := wanted_finishFrame
        (decoder.collect frame (input.take frame.remaining))
        (frame.advance (input.take frame.remaining))
      rw [finished] at wanted
      rw [verdict_of_delivered inFlight full finished]
      exact Nat.lt_of_lt_of_eq Nat.zero_lt_one wanted.symm
  | continued decoder input frame next inFlight full finished inductionHypothesis =>
      rw [verdict_of_continued inFlight full finished] at accepted ⊢
      exact inductionHypothesis accepted

theorem absorb_nil
    {decoder : Decoder}
    {frame : InFlight}
    (inFlight : decoder.inFlight = some frame) :
    decoder.absorb frame [] = decoder := by
  obtain ⟨parser, limit, memory, inFlight', pending⟩ := decoder
  cases inFlight
  rw [absorb, InFlight.advance_nil, collect, InFlight.unmask_nil]
  split
  · rfl
  · cases pending with
    | none => rfl
    | some message => simp [PendingMessage.append, withInFlight]

/-- No octets change nothing in a decoder that wants some. -/
theorem verdict_nil {decoder : Decoder} (waits : 0 < decoder.wanted) :
    decoder.verdict [] = ⟨decoder, [], .ok (.needMore decoder.wanted)⟩ := by
  cases inFlight : decoder.inFlight with
  | some frame =>
      have remaining : decoder.wanted = frame.remaining := by
        rw [wanted, inFlight]
      rw [remaining] at waits ⊢
      have short : ([] : List UInt8).length < frame.remaining := waits
      rw [verdict_of_payload_short inFlight short, absorb_nil inFlight]
      rfl
  | none =>
      have wanted : decoder.wanted = decoder.parser.wanted := by
        rw [wanted, inFlight]
      rw [wanted] at waits ⊢
      have short : ([] : List UInt8).length < decoder.parser.wanted := waits
      have parsed : decoder.parser.verdict [] =
          ⟨decoder.parser, [], .ok (.needMore decoder.parser.wanted)⟩ := by
        rw [HeaderParser.verdict_of_short (decoder.parser.complete?_of_wanted_pos waits)
          short]
        simp [HeaderParser.hold]
      rw [verdict_of_header_short inFlight parsed]
      rfl

/-- Input of no more than is wanted is taken whole, unless it is refused. -/
theorem rest_of_length_le_wanted
    {decoder : Decoder}
    {input : List UInt8}
    (within : input.length ≤ decoder.wanted) :
    (decoder.verdict input).rest = [] := by
  cases inFlight : decoder.inFlight with
  | some frame =>
      rw [wanted, inFlight] at within
      by_cases short : input.length < frame.remaining
      · rw [verdict_of_payload_short inFlight short]
      · have full : frame.remaining ≤ input.length := Nat.le_of_not_lt short
        have nothing : input.drop frame.remaining = [] := List.drop_of_length_le within
        rcases finished :
            (decoder.collect frame (input.take frame.remaining)).finishFrame
              (frame.advance (input.take frame.remaining)) with ⟨_ | delivered, next⟩
        · rw [verdict_of_continued inFlight full finished, nothing]
          exact List.eq_nil_of_length_eq_zero
            (Nat.le_zero.mp (next.length_rest_verdict_le []))
        · rw [verdict_of_delivered inFlight full finished]
          exact nothing
  | none =>
      rw [wanted, inFlight] at within
      have nothing := HeaderParser.rest_of_length_le_wanted within
      rcases parsed : decoder.parser.verdict input with
        ⟨parser, rest, refusal | count | ⟨header, announced⟩⟩
      · rw [verdict_of_header_refused inFlight parsed]
        rwa [parsed] at nothing
      · rw [verdict_of_header_short inFlight parsed]
        rwa [parsed] at nothing
      · rw [parsed] at nothing
        cases acceptance : (decoder.withParser parser).accept header announced with
        | error refusal =>
            rw [verdict_of_rejected inFlight parsed acceptance]
            exact nothing
        | ok next =>
            rw [verdict_of_accepted inFlight parsed acceptance]
            have shorter := (next.begin header announced).length_rest_verdict_le rest
            rw [show rest = [] from nothing] at shorter ⊢
            exact List.eq_nil_of_length_eq_zero (Nat.le_zero.mp shorter)

end Decoder
end WebSocket
