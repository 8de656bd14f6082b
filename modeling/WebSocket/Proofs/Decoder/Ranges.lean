import WebSocket.Proofs.Decoder.Refusals
import WebSocket.Proofs.Decoder.Representation
import WebSocket.Proofs.Header.Ranges

/-!
# The ranges of a decoder

Whatever a decoder has been fed, its errors included, it stays within what can be counted: a
message that finds room has fewer than `2 ^ 63` octets, and so has the payload that a header
announces. So nothing that a call computes goes out of range, and the size of a message that
is refused is counted exactly.
-/

namespace WebSocket

/-! ## Room for fragments -/

namespace PendingMessage

/-- Reserve room for a fragment, with every operation checked. The largest size stands for
those that cannot be counted, so it has to stay unused. -/
def checkedReserve
    (memory : Memory)
    (limit held announced : Nat) : Option (Except Refusal Unit) := do
  let announced ← Checked.narrow 64 announced
  let size ← Checked.add announced held
  let size ← Checked.position (largestSize - 1) size
  if limit < size then some (.error (.messageTooLong size limit))
  else
    let _ ← Checked.sub size held
    some (if memory.hasRoom size then .ok () else .error (.outOfMemory size))

section Reserve

variable {held announced : Nat}

theorem checkedReserve_eq_some
    (memory : Memory)
    (limit : Nat)
    (fits : held < 2 ^ 63)
    (small : announced < 2 ^ 63) :
    checkedReserve memory limit held announced =
      some (reserve memory limit held announced) := by
  obtain ⟨exact, short⟩ := Decoder.sizeAfter_eq fits small
  have word : announced < 2 ^ 64 := Nat.lt_trans small (by decide)
  have sum : announced + held < 2 ^ 64 := by omega
  have within : announced + held ≤ largestSize - 1 := by omega
  simp only [checkedReserve, Option.bind_eq_bind, Checked.narrow_eq_some word,
    Checked.add_eq_some sum, Checked.position_eq_some within,
    Checked.sub_eq_some (Nat.le_add_left held announced), Option.bind_some]
  rw [reserve, exact, Nat.add_comm held announced]
  split
  · rfl
  · split <;> rfl

/-- A message that could not be counted would have no size to report. -/
example : checkedReserve .standard 0 (2 ^ 63) (2 ^ 63) = none := rfl

/-- A size that is reported has been counted. -/
theorem size_lt_of_reserve
    {memory : Memory}
    {limit size : Nat}
    {refusal : Refusal}
    (fits : held < 2 ^ 63)
    (small : announced < 2 ^ 63)
    (refused : reserve memory limit held announced = .error refusal)
    (reports : refusal.size? = some size) :
    size < largestSize := by
  obtain ⟨exact, short⟩ := Decoder.sizeAfter_eq fits small
  simp only [reserve, exact] at refused
  split at refused
  · cases refused
    cases reports
    exact short
  · split at refused
    · cases refused
    · cases refused
      cases reports
      exact short

end Reserve
end PendingMessage

namespace Decoder

/-! ## States that are reached -/

/-- Whether what a decoder holds and what it awaits can be counted. -/
structure InRange (decoder : Decoder) : Prop where
  parser : decoder.parser.InRange
  bounded : ∃ limit, decoder.Bounded limit (2 ^ 63 - 1)
  frame : ∀ frame, decoder.inFlight = some frame →
    frame.received + frame.remaining < 2 ^ 63

theorem inRange_new (role : Role) (limit : Nat) (memory : Memory) :
    (new role limit memory).InRange where
  parser := HeaderParser.inRange_new role
  bounded := by
    refine ⟨limit, bounded_of_inFlight_eq_none rfl rfl ?_ nofun⟩
    intro held announced reserved
    have small : held + announced < 2 ^ 63 := (fits_of_reserve reserved).2
    omega
  frame := by
    intro frame inFlight
    cases inFlight

variable
    {decoder next : Decoder}
    {header : FrameHeader}
    {announced : Nat}
    {frame : InFlight}
    {piece : List UInt8}

theorem InRange.fits (inRange : decoder.InRange) : Fits decoder.pending := by
  obtain ⟨limit, bounded⟩ := inRange.bounded
  intro message pending
  have within := bounded.pending message pending
  omega

theorem InRange.heldSize_lt (inRange : decoder.InRange) : decoder.heldSize < 2 ^ 63 := by
  unfold heldSize
  cases pending : decoder.pending with
  | none => decide
  | some message => exact inRange.fits message pending

theorem InRange.withParser
    (inRange : decoder.InRange)
    {parser : HeaderParser}
    (inRange' : parser.InRange) :
    (decoder.withParser parser).InRange := by
  obtain ⟨limit, bounded⟩ := inRange.bounded
  exact ⟨inRange', ⟨limit, bounded.withParser parser⟩, inRange.frame⟩

/-- A header that a parser completes announces a payload that can be counted. -/
theorem announced_lt_of_ready
    {parser : HeaderParser}
    {input : List UInt8}
    (inRange : parser.InRange)
    (ready : (parser.verdict input).answer = .ok (.ready (header, announced))) :
    announced < 2 ^ 63 := by
  have stage := (inRange.verdict input).stage
  rw [HeaderParser.stage_of_ready ready] at stage
  exact stage

/-- Behind a header that is complete a decoder is in range, and the payload can be counted. -/
theorem InRange.withParser_of_ready
    (inRange : decoder.InRange)
    {input rest : List UInt8}
    {parser : HeaderParser}
    (parsed : decoder.parser.verdict input =
      ⟨parser, rest, .ok (.ready (header, announced))⟩) :
    (decoder.withParser parser).InRange ∧ announced < 2 ^ 63 := by
  have reached := inRange.parser.verdict input
  have small := announced_lt_of_ready inRange.parser
    (congrArg HeaderParser.Verdict.answer parsed)
  rw [parsed] at reached
  exact ⟨inRange.withParser reached, small⟩

/-- What accepts a header leaves the parser alone. -/
theorem parser_of_accept (acceptance : decoder.accept header announced = .ok next) :
    next.parser = decoder.parser := by
  rcases accept_cases acceptance with ⟨-, -, -, rfl⟩ | ⟨-, -, -, -, rfl⟩
  · rfl
  · rfl

theorem InRange.begin
    (inRange : decoder.InRange)
    (acceptance : decoder.accept header announced = .ok next)
    (small : announced < 2 ^ 63) :
    (next.begin header announced).InRange := by
  obtain ⟨limit, bounded⟩ := inRange.bounded
  refine ⟨?_, ⟨limit, bounded.begin acceptance⟩, ?_⟩
  · have same : (next.begin header announced).parser = next.parser := rfl
    rw [same, parser_of_accept acceptance]
    exact inRange.parser
  · intro frame begun
    cases begun
    exact (Nat.zero_add announced).symm ▸ small

theorem parser_collect (decoder : Decoder) (frame : InFlight) (piece : List UInt8) :
    (decoder.collect frame piece).parser = decoder.parser := by
  unfold collect
  split <;> rfl

theorem InRange.absorb
    (inRange : decoder.InRange)
    (inFlight : decoder.inFlight = some frame)
    (within : piece.length ≤ frame.remaining) :
    (decoder.absorb frame piece).InRange := by
  obtain ⟨limit, bounded⟩ := inRange.bounded
  refine ⟨?_, ⟨limit, bounded.absorb inFlight within⟩, ?_⟩
  · have same : (decoder.absorb frame piece).parser = (decoder.collect frame piece).parser :=
      rfl
    rw [same, parser_collect]
    exact inRange.parser
  · intro frame' begun
    cases begun
    have small := inRange.frame frame inFlight
    simp only [InFlight.advance]
    omega

theorem InRange.finishFrame
    (inRange : decoder.InRange)
    (inFlight : decoder.inFlight = some frame)
    {delivered : Option Frame}
    (finished : decoder.finishFrame frame = (delivered, next)) :
    next.InRange := by
  obtain ⟨limit, bounded⟩ := inRange.bounded
  have between : next.inFlight = none ∧ next.parser = decoder.parser.reset := by
    unfold Decoder.finishFrame at finished
    dsimp only at finished
    split at finished
    · cases finished
      exact ⟨rfl, rfl⟩
    · split at finished <;> cases finished <;> exact ⟨rfl, rfl⟩
  refine ⟨?_, ⟨limit, (bounded.finishFrame inFlight finished).1⟩, ?_⟩
  · rw [between.2]
    exact HeaderParser.inRange_new _
  · intro frame inFlight
    cases between.1.symm.trans inFlight

namespace Feeding

/-- Whether the decoder that a pass leads to is in range. -/
def Step.InRange : Step → Prop
  | .finished fed => fed.decoder.InRange
  | .again feeding => feeding.decoder.InRange

theorem inRange_takePayload
    {feeding : Feeding}
    (inRange : (feeding.decoder.withInFlight (some frame)).InRange) :
    (feeding.takePayload frame).InRange := by
  have absorbed := inRange.absorb rfl (List.length_take_le frame.remaining feeding.input)
  rw [absorb, collect_withInFlight] at absorbed
  unfold takePayload
  dsimp only
  split
  · exact absorbed
  · split
    · rename_i delivered decoder finished
      rw [← finishFrame_withInFlight] at finished
      exact absorbed.finishFrame rfl finished
    · rename_i decoder finished
      rw [← finishFrame_withInFlight] at finished
      exact absorbed.finishFrame rfl finished

theorem inRange_takeFrame
    {feeding : Feeding}
    (inRange : feeding.decoder.InRange)
    (small : announced < 2 ^ 63) :
    (feeding.takeFrame header announced).InRange := by
  unfold takeFrame
  dsimp only
  split
  · exact inRange
  · rename_i acceptance
    exact inRange_takePayload (inRange.begin acceptance small)

theorem inRange_behindHeader {feeding : Feeding} (inRange : feeding.decoder.InRange) :
    feeding.behindHeader.decoder.InRange :=
  inRange.withParser (inRange.parser.verdict feeding.input)

theorem inRange_pass {feeding : Feeding} (inRange : feeding.decoder.InRange) :
    feeding.pass.InRange := by
  cases inFlight : feeding.decoder.inFlight with
  | some frame =>
      have step : feeding.pass = feeding.takePayload frame := by
        simp only [pass, inFlight]
      rw [step]
      apply inRange_takePayload
      rwa [withInFlight, ← inFlight]
  | none =>
      rw [pass_of_inFlight_eq_none inFlight]
      split
      · exact inRange_behindHeader inRange
      · exact inRange_behindHeader inRange
      · rename_i header announced ready
        exact inRange_takeFrame (inRange_behindHeader inRange)
          (announced_lt_of_ready inRange.parser ready)

theorem inRange_run {feeding : Feeding} (inRange : feeding.decoder.InRange) :
    feeding.run.decoder.InRange := by
  fun_induction run feeding with
  | case1 feeding fed step =>
      have reached := inRange_pass inRange
      rwa [step] at reached
  | case2 feeding next step _ inductionHypothesis =>
      have reached := inRange_pass inRange
      rw [step] at reached
      exact inductionHypothesis reached

end Feeding

theorem InRange.feed (inRange : decoder.InRange) (input : List UInt8) :
    (decoder.feed input).decoder.InRange :=
  Feeding.inRange_run inRange

theorem InRange.feedEach (inRange : decoder.InRange) (inputs : List (List UInt8)) :
    (decoder.feedEach inputs).2.InRange := by
  induction inputs generalizing decoder with
  | nil => exact inRange
  | cons input later inductionHypothesis => exact inductionHypothesis (inRange.feed input)

/-! ## Refusals -/

/-- A header is refused with a size that has been counted, if with any. -/
theorem InRange.size_lt_of_accept
    (inRange : decoder.InRange)
    (small : announced < 2 ^ 63)
    {refusal : Refusal}
    {size : Nat}
    (rejection : decoder.accept header announced = .error refusal)
    (reports : refusal.size? = some size) :
    size < PendingMessage.largestSize := by
  rcases reject_cases rejection with ⟨-, none⟩ | reserved
  · cases none.symm.trans reports
  · exact PendingMessage.size_lt_of_reserve inRange.heldSize_lt small reserved reports

/-- No call reports the largest size, which stands for those that cannot be counted. -/
theorem InRange.size_lt_of_refused
    (inRange : decoder.InRange)
    {input : List UInt8}
    {refusal : Refusal}
    {size : Nat}
    (refused : (decoder.verdict input).answer = .error refusal)
    (reports : refusal.size? = some size) :
    size < PendingMessage.largestSize := by
  induction decoder, input using feed_induction with
  | headerRefused decoder input parser rest refusal' between parsed =>
      rw [verdict_of_header_refused between parsed] at refused
      cases refused
      have takes := HeaderParser.takesField_of_refused
        (congrArg HeaderParser.Verdict.answer parsed)
      cases takes.size?_eq_none.symm.trans reports
  | headerShort decoder input parser rest count between parsed =>
      rw [verdict_of_header_short between parsed] at refused
      cases refused
  | rejected decoder input parser rest header announced refusal' between parsed rejection =>
      obtain ⟨reached, small⟩ := inRange.withParser_of_ready parsed
      rw [verdict_of_rejected between parsed rejection] at refused
      cases refused
      exact reached.size_lt_of_accept small rejection reports
  | accepted decoder input parser rest header announced next between parsed acceptance
      inductionHypothesis =>
      obtain ⟨reached, small⟩ := inRange.withParser_of_ready parsed
      rw [verdict_of_accepted between parsed acceptance] at refused
      exact inductionHypothesis (reached.begin acceptance small) refused
  | payloadShort decoder input frame inFlight short =>
      rw [verdict_of_payload_short inFlight short] at refused
      cases refused
  | delivered decoder input frame delivered next inFlight full finished =>
      rw [verdict_of_delivered inFlight full finished] at refused
      cases refused
  | continued decoder input frame next inFlight full finished inductionHypothesis =>
      have absorbed := inRange.absorb inFlight (List.length_take_le frame.remaining input)
      rw [verdict_of_continued inFlight full finished] at refused
      rw [← finishFrame_withInFlight] at finished
      exact inductionHypothesis (absorbed.finishFrame rfl finished) refused

/-! ## Decoding with checks -/

/-- Check a complete header against the message that is pending, with every operation
checked. The smallest words that there are have 16 bits. -/
def checkedAccept
    (decoder : Decoder)
    (header : FrameHeader)
    (announced : Nat) : Option (Except Refusal Decoder) :=
  match header.opcode with
  | .control opcode =>
      if !header.isFinal then some (.error (.fragmentedControl opcode))
      else if controlLimit < announced then
        some (.error (.oversizedControl opcode announced))
      else (Checked.narrow 16 announced).map fun _ => .ok decoder
  | .data .continuation =>
      match decoder.pending with
      | none => some (.error .nothingToContinue)
      | some message => do
          let reserved ← PendingMessage.checkedReserve decoder.memory decoder.limit
            message.payload.size announced
          match reserved with
          | .error refusal => some (.error refusal)
          | .ok () => some (.ok decoder)
  | .data opcode =>
      match decoder.pending with
      | some _ => some (.error (.interruptedMessage opcode))
      | none => do
          let reserved ← PendingMessage.checkedReserve decoder.memory decoder.limit 0 announced
          match reserved with
          | .error refusal => some (.error refusal)
          | .ok () => some (.ok { decoder with pending := some { opcode } })

theorem InRange.checkedAccept
    (inRange : decoder.InRange)
    (header : FrameHeader)
    (small : announced < 2 ^ 63) :
    decoder.checkedAccept header announced = some (decoder.accept header announced) := by
  obtain ⟨opcode, isFinal, _, _, _, _⟩ := header
  unfold Decoder.checkedAccept accept
  cases opcode with
  | control opcode =>
      dsimp only
      split
      · rfl
      · split
        · rfl
        · rename_i short
          have narrow : announced < 2 ^ 16 :=
            Nat.lt_of_le_of_lt (Nat.le_of_not_lt short) (by decide)
          rw [Checked.narrow_eq_some narrow]
          rfl
  | data opcode =>
      cases opcode with
      | continuation =>
          cases pending : decoder.pending with
          | none => rfl
          | some message =>
              dsimp only
              rw [PendingMessage.checkedReserve_eq_some _ _ (inRange.fits message pending) small]
              cases PendingMessage.reserve decoder.memory decoder.limit message.payload.size
                announced with
              | error refusal => rfl
              | ok done => rfl
      | _ =>
          cases decoder.pending with
          | some message => rfl
          | none =>
              dsimp only
              rw [PendingMessage.checkedReserve_eq_some _ _ (by decide) small]
              cases PendingMessage.reserve decoder.memory decoder.limit 0 announced with
              | error refusal => rfl
              | ok done => rfl

end Decoder

namespace InFlight

/-- Add a piece of the payload to a buffer and unmask it there, with every operation
checked. -/
def checkedStore
    (frame : InFlight)
    (buffer : Array UInt8)
    (piece : List UInt8) : Option (Array UInt8) := do
  let start := buffer.size
  let longer ← Checked.extend buffer.toList piece
  let before ← Checked.slice longer 0 start
  let tail ← Checked.slice longer start longer.length
  some (before ++ frame.unmask tail).toArray

theorem checkedStore_eq_some
    (frame : InFlight)
    {buffer : Array UInt8}
    {piece : List UInt8}
    (small : buffer.size + piece.length < 2 ^ 63) :
    frame.checkedStore buffer piece = some (buffer ++ frame.unmask piece) := by
  obtain ⟨octets⟩ := buffer
  have small : octets.length + piece.length < 2 ^ 63 := small
  have within : octets.length ≤ (octets ++ piece).length := by
    rw [List.length_append]
    exact Nat.le_add_right _ _
  simp only [checkedStore, List.size_toArray, Option.bind_eq_bind, Option.bind_some,
    Checked.extend_eq_some small, Checked.slice_front_eq_some within,
    Checked.slice_back_eq_some within, List.take_left, List.drop_left]
  rw [← List.toArray_appendList]

/-- The frame after a piece of its payload, with every operation checked. -/
def checkedAdvance (frame : InFlight) (piece : List UInt8) : Option InFlight := do
  let size := piece.length
  let remaining ← Checked.sub frame.remaining size
  let received ← Checked.add frame.received size
  let control ←
    if frame.header.opcode.isControl then frame.checkedStore frame.control piece
    else some frame.control
  some { header := frame.header, remaining, received, control }

end InFlight

namespace Decoder

/-- Add a piece of a data frame to the pending message, with every operation checked. -/
def checkedCollect
    (decoder : Decoder)
    (frame : InFlight)
    (piece : List UInt8) : Option Decoder :=
  if frame.header.opcode.isControl then some decoder
  else
    match decoder.pending with
    | none => some decoder
    | some message => do
        let payload ← frame.checkedStore message.payload piece
        some { decoder with pending := some { message with payload } }

section Payload

variable
    {decoder : Decoder}
    {frame : InFlight}
    {piece : List UInt8}

/-- A control frame has room for what it announces. -/
theorem InRange.checkedAdvance
    (inRange : (decoder.withInFlight (some frame)).InRange)
    (within : piece.length ≤ frame.remaining) :
    frame.checkedAdvance piece = some (frame.advance piece) := by
  obtain ⟨limit, bounded⟩ := inRange.bounded
  have small := inRange.frame frame rfl
  have sum : frame.received + piece.length < 2 ^ 64 := by omega
  simp only [InFlight.checkedAdvance, Option.bind_eq_bind, Checked.sub_eq_some within,
    Checked.add_eq_some sum, Option.bind_some, InFlight.advance]
  cases carries : frame.header.opcode with
  | data opcode => rfl
  | control opcode =>
      obtain ⟨counted, short⟩ := bounded.control frame opcode rfl carries
      have fits : frame.control.size + piece.length < 2 ^ 63 := by omega
      rw [frame.checkedStore_eq_some fits]
      rfl

/-- A message has room for the fragments that are accepted. -/
theorem InRange.checkedCollect
    (inRange : (decoder.withInFlight (some frame)).InRange)
    (within : piece.length ≤ frame.remaining) :
    decoder.checkedCollect frame piece = some (decoder.collect frame piece) := by
  obtain ⟨limit, bounded⟩ := inRange.bounded
  unfold Decoder.checkedCollect collect
  cases carries : frame.header.opcode with
  | control opcode => rfl
  | data opcode =>
      obtain ⟨message, pending, room⟩ := bounded.data frame opcode rfl carries
      have fits : message.payload.size + piece.length < 2 ^ 63 := by omega
      rw [show decoder.pending = some message from pending]
      dsimp only
      rw [frame.checkedStore_eq_some fits]
      rfl

end Payload

namespace Feeding

/-- Take in what has arrived of a payload, with every operation checked. -/
def checkedTakePayload (feeding : Feeding) (frame : InFlight) : Option Step := do
  let remaining ← Checked.narrow 64 frame.remaining
  let taken := min remaining feeding.input.length
  let piece ← Checked.slice feeding.input 0 taken
  let decoder ← feeding.decoder.checkedCollect frame piece
  let frame ← frame.checkedAdvance piece
  let consumed ← Checked.add feeding.consumed taken
  let input ← Checked.slice feeding.input taken feeding.input.length
  let missing ← Checked.narrow 64 frame.remaining
  if 0 < missing then
    some (finish
      { feeding with
        decoder := { decoder with inFlight := some frame }
        input
        consumed }
      (.ok (.needMore missing)))
  else
    let events :=
      feeding.events.push (.frameReceived frame.header.opcode frame.received)
    match decoder.finishFrame frame with
    | (some delivered, decoder) =>
        some (finish { decoder, input, consumed, events } (.ok (.ready delivered)))
    | (none, decoder) => some (.again { decoder, input, consumed, events })

/-- Check a complete header and take in what has arrived of its payload, with every
operation checked. -/
def checkedTakeFrame
    (feeding : Feeding)
    (header : FrameHeader)
    (announced : Nat) : Option Step := do
  let events := feeding.events.push (.headerComplete header.opcode announced)
  let accepted ← feeding.decoder.checkedAccept header announced
  match accepted with
  | .error refusal =>
      some (finish { feeding with events := events.push (.refused refusal) }
        (.error refusal))
  | .ok decoder =>
      checkedTakePayload { feeding with decoder, events } { header, remaining := announced }

/-- One pass, with every operation checked. -/
def checkedPass (feeding : Feeding) : Option Step :=
  match feeding.decoder.inFlight with
  | some frame => feeding.checkedTakePayload frame
  | none => do
      let fed ← feeding.decoder.parser.checkedFeed feeding.input
      let consumed ← Checked.add feeding.consumed fed.consumed
      let input ← Checked.slice feeding.input fed.consumed feeding.input.length
      let feeding : Feeding :=
        { decoder := { feeding.decoder with parser := fed.parser }
          input
          consumed
          events := feeding.events ++ fed.events }
      match fed.answer with
      | .error refusal => some (feeding.finish (.error refusal))
      | .ok (.needMore count) => some (feeding.finish (.ok (.needMore count)))
      | .ok (.ready (header, announced)) => feeding.checkedTakeFrame header announced

/-- What a pass leads to: the end of the call, or the next pass. -/
def Step.next : Step → Fed ⊕ Feeding
  | .finished fed => .inl fed
  | .again feeding => .inr feeding

end Feeding

/-- Feed a decoder, with every operation checked. -/
def checkedFeed (decoder : Decoder) (input : List UInt8) : Option Fed :=
  Checked.loop Feeding.measure (fun feeding => feeding.checkedPass.map Feeding.Step.next)
    { decoder, input }

/-- The number of octets that can be taken, checked. -/
def checkedWanted (decoder : Decoder) : Option Nat :=
  match decoder.inFlight with
  | some frame => Checked.narrow 64 frame.remaining
  | none => decoder.parser.checkedWanted

namespace Feeding

section Passes

variable
    {feeding : Feeding}
    {frame : InFlight}

theorem checkedTakePayload_eq_some
    (inRange : (feeding.decoder.withInFlight (some frame)).InRange)
    (small : feeding.consumed + feeding.input.length < 2 ^ 63) :
    feeding.checkedTakePayload frame = some (feeding.takePayload frame) := by
  have range := inRange.frame frame rfl
  have least : min frame.remaining feeding.input.length =
      (feeding.input.take frame.remaining).length := List.length_take.symm
  have front : feeding.input.take (feeding.input.take frame.remaining).length =
      feeding.input.take frame.remaining := by
    rw [List.length_take]
    exact List.take_eq_take_min.symm
  have back : feeding.input.drop (feeding.input.take frame.remaining).length =
      feeding.input.drop frame.remaining := by
    rw [List.length_take]
    exact List.drop_eq_drop_min.symm
  have few : (feeding.input.take frame.remaining).length ≤ feeding.input.length :=
    List.length_take_le' _ _
  have within : (feeding.input.take frame.remaining).length ≤ frame.remaining :=
    List.length_take_le _ _
  have word : frame.remaining < 2 ^ 64 := by omega
  have sum : feeding.consumed + (feeding.input.take frame.remaining).length < 2 ^ 64 := by
    omega
  have rest : (frame.advance (feeding.input.take frame.remaining)).remaining < 2 ^ 64 :=
    Nat.lt_of_le_of_lt (Nat.sub_le _ _) word
  simp only [checkedTakePayload, Option.bind_eq_bind, Option.bind_some,
    Checked.narrow_eq_some word, least, Checked.slice_front_eq_some few, front,
    inRange.checkedCollect within, inRange.checkedAdvance within, Checked.add_eq_some sum,
    Checked.slice_back_eq_some few, back, Checked.narrow_eq_some rest]
  rw [takePayload]
  dsimp only
  split
  · rfl
  · rcases (feeding.decoder.collect frame (feeding.input.take frame.remaining)).finishFrame
      (frame.advance (feeding.input.take frame.remaining)) with ⟨_ | delivered, decoder⟩
    · rfl
    · rfl

theorem checkedTakeFrame_eq_some
    {header : FrameHeader}
    {announced : Nat}
    (inRange : feeding.decoder.InRange)
    (announces : announced < 2 ^ 63)
    (small : feeding.consumed + feeding.input.length < 2 ^ 63) :
    feeding.checkedTakeFrame header announced = some (feeding.takeFrame header announced) := by
  simp only [checkedTakeFrame, inRange.checkedAccept header announces, Option.bind_eq_bind,
    Option.bind_some]
  rw [takeFrame]
  cases acceptance : feeding.decoder.accept header announced with
  | error refusal => rfl
  | ok decoder => exact checkedTakePayload_eq_some (inRange.begin acceptance announces) small

/-- A pass from a decoder in range stays in range. -/
theorem checkedPass_eq_some
    (inRange : feeding.decoder.InRange)
    (small : feeding.consumed + feeding.input.length < 2 ^ 63) :
    feeding.checkedPass = some feeding.pass := by
  cases inFlight : feeding.decoder.inFlight with
  | some frame =>
      have awaits : (feeding.decoder.withInFlight (some frame)).InRange := by
        rwa [withInFlight, ← inFlight]
      simp only [checkedPass, pass, inFlight]
      exact checkedTakePayload_eq_some awaits small
  | none =>
      have fits : feeding.input.length < 2 ^ 63 :=
        Nat.lt_of_le_of_lt (Nat.le_add_left _ _) small
      have total := feeding.decoder.parser.consumed_add_length_rest_feed feeding.input
      have within := Nat.le.intro total
      have sum : feeding.consumed + (feeding.decoder.parser.feed feeding.input).consumed <
          2 ^ 64 := by
        omega
      have behind : feeding.behindHeader.consumed + feeding.behindHeader.input.length <
          2 ^ 63 := by
        have same : feeding.behindHeader.consumed + feeding.behindHeader.input.length =
            feeding.consumed + feeding.input.length :=
          (Nat.add_assoc _ _ _).trans (congrArg (feeding.consumed + ·) total)
        rwa [same]
      have step : feeding.checkedPass =
          match (feeding.decoder.parser.feed feeding.input).answer with
          | .error refusal => some (feeding.behindHeader.finish (.error refusal))
          | .ok (.needMore count) => some (feeding.behindHeader.finish (.ok (.needMore count)))
          | .ok (.ready (header, announced)) =>
              feeding.behindHeader.checkedTakeFrame header announced := by
        unfold checkedPass
        split
        · rename_i inFlight'
          cases inFlight.symm.trans inFlight'
        · simp only [inRange.parser.checkedFeed fits, Option.bind_eq_bind, Option.bind_some,
            Checked.add_eq_some sum, Checked.slice_back_eq_some within,
            HeaderParser.drop_consumed_feed]
          rfl
      rw [step, pass_of_inFlight_eq_none inFlight]
      rcases answer : (feeding.decoder.parser.feed feeding.input).answer with
        refusal | count | ⟨header, announced⟩
      · rfl
      · rfl
      · exact checkedTakeFrame_eq_some (inRange_behindHeader inRange)
          (announced_lt_of_ready inRange.parser answer) behind

end Passes
end Feeding

/-- Feeding a decoder in range stays in range. -/
theorem InRange.checkedFeed
    {decoder : Decoder}
    {input : List UInt8}
    (inRange : decoder.InRange)
    (small : input.length < 2 ^ 63) :
    decoder.checkedFeed input = some (decoder.feed input) := by
  refine Checked.loop_eq_some Feeding.run
    (fun feeding : Feeding =>
      feeding.decoder.InRange ∧ feeding.consumed + feeding.input.length < 2 ^ 63) ?_
    ⟨inRange, (Nat.zero_add input.length).symm ▸ small⟩
  rintro feeding ⟨inRange, small⟩
  rw [Feeding.checkedPass_eq_some inRange small]
  have reached := Feeding.inRange_pass inRange
  have accounts := feeding.accounts_pass
  have lowers := feeding.lowers_pass
  cases step : feeding.pass with
  | finished fed =>
      rw [Feeding.run_of_finished step]
      exact .inl rfl
  | again next =>
      rw [step] at reached accounts lowers
      have total : next.consumed + next.input.length =
          feeding.consumed + feeding.input.length := accounts
      have counted : next.consumed + next.input.length < 2 ^ 63 := total ▸ small
      rw [Feeding.run_of_again step]
      exact .inr ⟨next, rfl, lowers, ⟨reached, counted⟩, rfl⟩

theorem InRange.checkedWanted {decoder : Decoder} (inRange : decoder.InRange) :
    decoder.checkedWanted = some decoder.wanted := by
  unfold Decoder.checkedWanted wanted
  cases inFlight : decoder.inFlight with
  | none => exact inRange.parser.checkedWanted
  | some frame =>
      have small := inRange.frame frame inFlight
      exact Checked.narrow_eq_some (by omega)

/-- What is wanted can be brought at once. -/
theorem InRange.wanted_lt {decoder : Decoder} (inRange : decoder.InRange) :
    decoder.wanted < 2 ^ 63 := by
  unfold wanted
  cases inFlight : decoder.inFlight with
  | none =>
      have few : decoder.parser.wanted ≤ 8 :=
        Nat.le_trans (Nat.sub_le _ _) decoder.parser.stage.field.width_le_eight
      exact Nat.lt_of_le_of_lt few (by decide)
  | some frame =>
      have small := inRange.frame frame inFlight
      exact Nat.lt_of_le_of_lt (Nat.le_add_left _ _) small

end Decoder
end WebSocket
