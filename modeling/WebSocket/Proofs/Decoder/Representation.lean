import Mathlib.Control.Monad.Basic
import WebSocket.Proofs.Decoder.Limits
import WebSocket.Proofs.Decoder.Parts
import WebSocket.Proofs.Grammar.Fragments

/-!
# The parts of a decoder agree

A decoder keeps a parser, a frame in flight and a message that is pending. Between calls
that refuse nothing the three agree: the frame in flight is the one whose header the parser
stands behind, and the message holds what has arrived of its fragments. So no octet of a
payload is counted without being kept, and a frame that is refused leaves the message as it
was.
-/

namespace WebSocket

/-- A parser that hands over a header stands behind it. -/
theorem HeaderParser.stage_of_ready
    {parser : HeaderParser}
    {input : List UInt8}
    {header : FrameHeader}
    {announced : Nat}
    (ready : (parser.verdict input).answer = .ok (.ready (header, announced))) :
    (parser.verdict input).parser.stage = .payload header announced := by
  induction parser, input using feed_induction with
  | complete parser input item complete =>
      rw [verdict_of_complete complete] at ready ⊢
      cases ready
      cases stage : parser.stage <;> rw [stage] at complete <;> cases complete
      rfl
  | short parser input waiting short =>
      rw [verdict_of_short waiting short] at ready
      cases ready
  | refused parser input refusal waiting full refused =>
      rw [verdict_of_refused waiting full refused] at ready
      cases ready
  | advanced parser input next waiting full advanced inductionHypothesis =>
      rw [verdict_of_advanced waiting full advanced] at ready ⊢
      exact inductionHypothesis ready

/-- A parser stands behind its header exactly if it has completed it. -/
theorem HeaderStage.field_eq_payload_iff (stage : HeaderStage) :
    stage.field = .payload ↔ stage.complete? ≠ none := by
  cases stage <;> simp [field, complete?]

namespace Decoder

open Grammar

variable
    {role : Role}
    {limit : Nat}
    {memory : Memory}

/-- Within a frame, what has arrived of it is added to the message that is pending. -/
theorem pending_absorb_begin
    (role : Role)
    (limit : Nat)
    (memory : Memory)
    (pending : Option PendingMessage)
    (parser : HeaderParser)
    (header : FrameHeader)
    (announced : Nat)
    (arrived : List UInt8) :
    ((((between role limit memory (opened pending header.opcode)).withParser parser).begin
        header announced).absorb { header, remaining := announced } arrived).pending =
      folded pending { header with isFinal := false } (unmask header.mask arrived) := by
  rw [← unmask_eq header announced arrived]
  obtain ⟨opcode, isFinal, _, _, _, _⟩ := header
  cases opcode with
  | control opcode => rfl
  | data opcode => rfl

/-! ## The invariant -/

/-- Whether the parser, the frame in flight and the message that is pending agree. -/
structure WellFormed (decoder : Decoder) : Prop where
  /-- A frame is in flight exactly while the parser stands behind a header. -/
  inFlight : decoder.inFlight.isSome = true ↔ decoder.parser.stage.field = .payload
  /-- It is the frame of that header, and some of its payload is still to come. -/
  counts : ∀ frame, decoder.inFlight = some frame →
    decoder.parser.stage = .payload frame.header (frame.received + frame.remaining) ∧
      0 < frame.remaining
  /-- The payload of a data frame has a message to go to. -/
  data : ∀ frame, decoder.inFlight = some frame → frame.header.opcode.isControl = false →
    decoder.pending.isSome = true
  /-- A control frame is short and final, and holds what has been received of it. -/
  control : ∀ frame, decoder.inFlight = some frame → frame.header.opcode.isControl = true →
    frame.control.size = frame.received ∧ frame.header.isFinal = true ∧
      frame.received + frame.remaining ≤ 125
  /-- Messages are texts or binary ones. -/
  opcode : ∀ message, decoder.pending = some message →
    message.opcode = .text ∨ message.opcode = .binary

/-- A data frame that is not final leaves a message pending. -/
theorem isSome_folded
    {pending : Option PendingMessage}
    {header : FrameHeader}
    {payload : List UInt8}
    (data : header.opcode.isControl = false)
    (open' : header.isFinal = false) :
    (folded pending header payload).isSome = true := by
  unfold folded
  cases opcode : header.opcode with
  | control opcode' =>
      rw [opcode] at data
      cases data
  | data opcode' => simp [open']

/-- A control frame that breaks no rule is final and short. -/
theorem final_of_unbroken
    {pending : Option Frame}
    {header : FrameHeader}
    {announced : Nat}
    (control : header.opcode.isControl = true)
    (unbroken : broken? limit memory pending header announced = none) :
    header.isFinal = true ∧ announced ≤ 125 := by
  unfold broken? at unbroken
  cases opcode : header.opcode with
  | data opcode' =>
      rw [opcode] at control
      cases control
  | control opcode' =>
      rw [opcode] at unbroken
      cases final : header.isFinal with
      | false => simp [final] at unbroken
      | true => simpa [final] using unbroken

theorem opcode_of_proper
    {pending : Option PendingMessage}
    (proper : Proper (pending.map PendingMessage.toFrame))
    {message : PendingMessage}
    (kept : pending = some message) :
    message.opcode = .text ∨ message.opcode = .binary := by
  subst kept
  rcases proper message.toFrame rfl with text | binary
  · exact .inl (Opcode.data.inj text)
  · exact .inr (Opcode.data.inj binary)

/-- Between payloads the parts of a decoder agree, if its parser waits. -/
theorem wellFormed_of_inFlight_eq_none
    {decoder : Decoder}
    (between : decoder.inFlight = none)
    (waits : 0 < decoder.parser.wanted)
    (opcode : ∀ message, decoder.pending = some message →
      message.opcode = .text ∨ message.opcode = .binary) :
    decoder.WellFormed where
  inFlight := by
    rw [between, decoder.parser.stage.field_eq_payload_iff]
    simp [decoder.parser.complete?_of_wanted_pos waits]
  counts := by
    intro frame inFlight
    cases between.symm.trans inFlight
  data := by
    intro frame inFlight
    cases between.symm.trans inFlight
  control := by
    intro frame inFlight
    cases between.symm.trans inFlight
  opcode := opcode

section Within

variable
    {pending : Option PendingMessage}
    {part : List UInt8}
    {decoder : Decoder}

/-- Within a frame, the message that is pending holds what has arrived of the frame behind
what the message held ahead of it. -/
theorem Within.pending_eq
    (within : Within role limit memory pending part decoder)
    {fragments : List (Opcode × List UInt8)}
    (holds : pending.map PendingMessage.toFrame = assembled fragments) :
    decoder.pending.map PendingMessage.toFrame =
      assembled (fragments ++ (arriving role part).toList) := by
  cases within with
  | header scanned parsed =>
      rw [arriving_of_ended scanned, Option.toList_none, List.append_nil]
      exact holds
  | payload scanned parsed unbroken short =>
      rw [pending_absorb_begin, assembled_arriving scanned, ← holds, fold_snd]

/-- Within a frame, what is in flight is what has arrived of the frame. -/
theorem Within.inFlight_eq
    (within : Within role limit memory pending part decoder)
    {frame : InFlight}
    (inFlight : decoder.inFlight = some frame) :
    ∃ arrived,
      Grammar.header role part =
        .found (frame.header, frame.received + frame.remaining) arrived ∧
      arrived.length = frame.received ∧
      (frame.header.opcode.isControl = true →
        frame.control.toList = unmask frame.header.mask arrived) := by
  cases within with
  | header scanned parsed => cases inFlight
  | @payload parser header announced arrived scanned parsed unbroken short =>
      obtain rfl : InFlight.advance { header, remaining := announced } arrived = frame :=
        Option.some.inj inFlight
      have total : 0 + arrived.length + (announced - arrived.length) = announced := by omega
      refine ⟨arrived, ?_, (Nat.zero_add _).symm, ?_⟩
      · rw [← total] at scanned
        exact scanned
      · intro control
        have control : header.opcode.isControl = true := control
        simp [InFlight.advance, control, unmask_eq]

/-- Within a frame, the parts of a decoder agree. -/
theorem Within.wellFormed
    (within : Within role limit memory pending part decoder)
    (proper : Proper (pending.map PendingMessage.toFrame)) :
    decoder.WellFormed := by
  cases within with
  | @header parser count scanned parsed =>
      obtain ⟨-, wanted, positive⟩ :=
        HeaderParser.verdict_of_needMore (congrArg HeaderParser.Verdict.answer parsed)
      rw [parsed] at wanted
      rw [← wanted] at positive
      exact wellFormed_of_inFlight_eq_none rfl positive
        fun _ kept => opcode_of_proper proper kept
  | @payload parser header announced arrived scanned parsed unbroken short =>
      have stage :=
        HeaderParser.stage_of_ready (congrArg HeaderParser.Verdict.answer parsed)
      rw [parsed] at stage
      have assigned := (stream_of_header scanned).1.assigned
      have kept := pending_absorb_begin role limit memory pending parser header announced
        arrived
      have properBehind := proper_fold proper assigned unbroken false
        (unmask header.mask arrived)
      rw [fold_snd, ← kept] at properBehind
      have parserBehind := parser_absorb
        (((between role limit memory (opened pending header.opcode)).withParser parser).begin
          header announced) { header, remaining := announced } arrived
      have total : 0 + arrived.length + (announced - arrived.length) = announced := by omega
      exact {
        inFlight := by
          rw [parserBehind]
          refine iff_of_true rfl ?_
          exact congrArg HeaderStage.field stage
        counts := by
          intro frame inFlight
          obtain rfl := Option.some.inj inFlight
          refine ⟨?_, Nat.sub_pos_of_lt short⟩
          rw [parserBehind]
          exact stage.trans (congrArg _ total.symm)
        data := by
          intro frame inFlight data
          obtain rfl := Option.some.inj inFlight
          rw [kept]
          exact isSome_folded data rfl
        control := by
          intro frame inFlight control
          obtain rfl := Option.some.inj inFlight
          have control : header.opcode.isControl = true := control
          obtain ⟨final, small⟩ := final_of_unbroken control unbroken
          refine ⟨?_, final, Nat.le_trans (Nat.le_of_eq total) small⟩
          simp [InFlight.advance, control, unmask_eq, length_unmask]
        opcode := fun _ kept => opcode_of_proper properBehind kept }

end Within

/-! ## Payloads that are taken in -/

/-- Whether a decoder keeps every octet of the payload of a frame: those of a control frame
with the frame, and those of a data frame with the message that is pending, which is there to
be delivered behind a final one. -/
structure Stores (decoder : Decoder) (frame : InFlight) : Prop where
  control : frame.header.opcode.isControl = true → ∀ piece,
    (frame.advance piece).control = frame.control ++ frame.unmask piece
  data : frame.header.opcode.isControl = false → ∃ message,
    decoder.pending = some message ∧ ∀ piece,
      (decoder.collect frame piece).pending = some (message.append (frame.unmask piece)) ∧
        (frame.header.isFinal = true →
          ((decoder.collect frame piece).finishFrame (frame.advance piece)).1 =
            some (message.append (frame.unmask piece)).toFrame)

/-- A decoder keeps the payloads of frames that have a message to go to. -/
theorem stores_of_pending
    {decoder : Decoder}
    {frame : InFlight}
    (holds : frame.header.opcode.isControl = false → decoder.pending.isSome = true) :
    decoder.Stores frame where
  control := by
    intro control piece
    simp [InFlight.advance, control]
  data := by
    intro data
    obtain ⟨message, kept⟩ := Option.isSome_iff_exists.mp (holds data)
    refine ⟨message, kept, fun piece => ?_⟩
    have collected : (decoder.collect frame piece).pending =
        some (message.append (frame.unmask piece)) := by
      simp [collect, data, kept]
    refine ⟨collected, fun final => ?_⟩
    unfold finishFrame
    rw [InFlight.header_advance]
    cases opcode : frame.header.opcode with
    | control opcode' =>
        rw [opcode] at data
        cases data
    | data opcode' => simp [final, collected]

namespace Feeding

/-- The states that a call goes through, pass by pass. -/
inductive Reached (first : Feeding) : Feeding → Prop
  | first : Reached first first
  | again
      {feeding next : Feeding}
      (reached : Reached first feeding)
      (step : feeding.pass = .again next) :
      Reached first next

/-- What a pass does with payloads: it ends within or behind a header and takes none, it goes
on with the frame that is in flight, or it begins with the frame of a header that is
accepted. Whatever payload it takes is kept. -/
inductive Stores (feeding : Feeding) : Prop
  | nothing
      {fed : Fed}
      (between : feeding.decoder.inFlight = none)
      (step : feeding.pass = .finished fed)
      (none : fed.decoder.inFlight = none)
      (unchanged : fed.decoder.pending = feeding.decoder.pending)
      (undelivered : ∀ frame, fed.answer ≠ .ok (.ready frame))
  | goesOn
      {frame : InFlight}
      (inFlight : feeding.decoder.inFlight = some frame)
      (step : feeding.pass = feeding.takePayload frame)
      (stores : feeding.decoder.Stores frame)
  | begins
      {parser : HeaderParser}
      {header : FrameHeader}
      {announced : Nat}
      {next : Feeding}
      (between : feeding.decoder.inFlight = none)
      (step : feeding.pass = next.takePayload { header, remaining := announced })
      (acceptance : (feeding.decoder.withParser parser).accept header announced =
        .ok next.decoder)
      (stores : next.decoder.Stores { header, remaining := announced })

/-- A call behind what its parser takes of a header. -/
def behindHeader (feeding : Feeding) : Feeding :=
  let fed := feeding.decoder.parser.feed feeding.input
  { decoder := feeding.decoder.withParser fed.parser
    input := fed.rest
    consumed := feeding.consumed + fed.consumed
    events := feeding.events ++ fed.events }

theorem pass_of_inFlight_eq_none
    {feeding : Feeding}
    (between : feeding.decoder.inFlight = none) :
    feeding.pass =
      match (feeding.decoder.parser.feed feeding.input).answer with
      | .error refusal => feeding.behindHeader.finish (.error refusal)
      | .ok (.needMore count) => feeding.behindHeader.finish (.ok (.needMore count))
      | .ok (.ready (header, announced)) => feeding.behindHeader.takeFrame header announced := by
  unfold pass
  split
  · rename_i frame inFlight
    cases between.symm.trans inFlight
  · rfl

/-- A pass keeps the payload that it takes, if a data frame that is in flight has a message
to go to. -/
theorem stores_pass
    {feeding : Feeding}
    (holds : ∀ frame, feeding.decoder.inFlight = some frame →
      frame.header.opcode.isControl = false → feeding.decoder.pending.isSome = true) :
    feeding.Stores := by
  cases inFlight : feeding.decoder.inFlight with
  | some frame =>
      have step : feeding.pass = feeding.takePayload frame := by
        simp only [pass, inFlight]
      exact .goesOn inFlight step (stores_of_pending (holds frame inFlight))
  | none =>
      have step := pass_of_inFlight_eq_none inFlight
      rcases answer : (feeding.decoder.parser.feed feeding.input).answer with
        refusal | count | ⟨header, announced⟩
      · rw [answer] at step
        refine .nothing inFlight step inFlight rfl ?_
        intro frame delivered
        cases delivered
      · rw [answer] at step
        refine .nothing inFlight step inFlight rfl ?_
        intro frame delivered
        cases delivered
      · rw [answer] at step
        simp only [takeFrame] at step
        cases acceptance : feeding.behindHeader.decoder.accept header announced with
        | error refusal =>
            rw [acceptance] at step
            refine .nothing inFlight step inFlight rfl ?_
            intro frame delivered
            cases delivered
        | ok next =>
            rw [acceptance] at step
            have accepted : (feeding.decoder.withParser _).accept header announced = .ok next :=
              acceptance
            refine .begins inFlight step accepted (stores_of_pending ?_)
            intro data
            rcases accept_cases acceptance with ⟨opcode, carries, -, -⟩ | ⟨_, _, -, -, rfl⟩
            · rw [carries] at data
              cases data
            · rfl

/-- Behind a frame that a pass closes out, the next one is awaited. -/
theorem isBetweenFrames_of_takePayload
    {feeding next : Feeding}
    {frame : InFlight}
    (step : feeding.takePayload frame = .again next) :
    next.decoder.isBetweenFrames = true := by
  have between := isBetweenFrames_finishFrame
    (feeding.decoder.collect frame (feeding.input.take frame.remaining))
    (frame.advance (feeding.input.take frame.remaining))
  unfold takePayload at step
  dsimp only at step
  split at step
  · cases step
  · split at step
    · cases step
    · rename_i decoder finished
      cases step
      rw [finished] at between
      exact between

theorem isBetweenFrames_of_again
    {feeding next : Feeding}
    (step : feeding.pass = .again next) :
    next.decoder.isBetweenFrames = true := by
  cases inFlight : feeding.decoder.inFlight with
  | some frame =>
      simp only [pass, inFlight] at step
      exact isBetweenFrames_of_takePayload step
  | none =>
      rw [pass_of_inFlight_eq_none inFlight] at step
      split at step
      · cases step
      · cases step
      · unfold takeFrame at step
        dsimp only at step
        split at step
        · cases step
        · exact isBetweenFrames_of_takePayload step

/-- Behind a frame that a pass closes out, nothing is in flight. -/
theorem inFlight_of_again
    {feeding next : Feeding}
    (step : feeding.pass = .again next) :
    next.decoder.inFlight = none :=
  Option.isNone_iff_eq_none.mp (Bool.and_eq_true_iff.mp (isBetweenFrames_of_again step)).1

/-- A call keeps the payloads that it takes, pass by pass. -/
theorem Reached.stores
    {decoder : Decoder}
    {input : List UInt8}
    {feeding : Feeding}
    (wellFormed : decoder.WellFormed)
    (reached : Reached { decoder, input } feeding) :
    feeding.Stores := by
  apply stores_pass
  cases reached with
  | first => exact wellFormed.data
  | again _ step =>
      intro frame inFlight
      cases (inFlight_of_again step).symm.trans inFlight

end Feeding

/-! ## Frames that are refused -/

/-- A frame that is refused leaves the message that is pending. -/
theorem verdict_of_frame_refused
    {pending : Option PendingMessage}
    (fits : Fits pending)
    {stream : List UInt8}
    {refusal : Refusal}
    (refused : frame role limit memory (pending.map PendingMessage.toFrame) stream =
      .refused refusal) :
    ∃ parser rest, (between role limit memory pending).verdict stream =
      ⟨(between role limit memory pending).withParser parser, rest, .error refusal⟩ := by
  cases scanned : Grammar.header role stream with
  | ended => cases (Scanner.bind_of_ended scanned).symm.trans refused
  | refused refusal' =>
      obtain ⟨parser, rest, parsed⟩ := HeaderParser.exists_refused_of_header scanned
      cases (Scanner.bind_of_refused scanned).symm.trans refused
      exact ⟨parser, rest, verdict_of_header_refused rfl parsed⟩
  | found item rest =>
      obtain ⟨header, announced⟩ := item
      obtain ⟨parser, parsed⟩ := HeaderParser.exists_ready_of_header scanned
      have refusedBody : body limit memory (pending.map PendingMessage.toFrame) header announced
          rest = .refused refusal := (Scanner.bind_of_found scanned).symm.trans refused
      have acceptance := accept_between role limit memory fits parser header
        (length_lt_of_header scanned)
      cases broken : broken? limit memory (pending.map PendingMessage.toFrame) header
          announced with
      | some refusal' =>
          rw [body, broken] at refusedBody
          cases refusedBody
          rw [broken] at acceptance
          exact ⟨parser, rest, verdict_of_rejected rfl parsed acceptance⟩
      | none =>
          rw [body, broken] at refusedBody
          by_cases short : rest.length < announced
          · cases (Scanner.bind_of_ended (Scanner.octets_of_lt short)).symm.trans refusedBody
          · cases (Scanner.bind_of_found (Scanner.octets_of_le
              (Nat.le_of_not_lt short))).symm.trans refusedBody

/-- A call that refuses something refuses a frame behind whole ones, and leaves the message
that they leave pending. -/
theorem exists_passes_of_refused
    {pending : Option PendingMessage}
    (fits : Fits pending)
    {stream : List UInt8}
    {refusal : Refusal}
    (refused : ((between role limit memory pending).verdict stream).answer =
      .error refusal) :
    let last := ((between role limit memory pending).verdict stream).decoder.pending
    ∃ whole rest,
      stream = whole ++ rest ∧
      Passes role limit memory (pending.map PendingMessage.toFrame) whole
        (last.map PendingMessage.toFrame) ∧
      frame role limit memory (last.map PendingMessage.toFrame) rest = .refused refusal := by
  induction size : stream.length using Nat.strongRecOn
    generalizing pending stream with
  | _ size inductionHypothesis =>
      subst size
      cases scanned : frame role limit memory (pending.map PendingMessage.toFrame)
          stream with
      | ended =>
          obtain ⟨next, within⟩ := exists_within scanned
          rw [within.verdict_eq fits] at refused
          cases refused
      | refused refusal' =>
          obtain ⟨parser, rest, fed⟩ := verdict_of_frame_refused fits scanned
          rw [fed] at refused ⊢
          cases refused
          exact ⟨[], stream, rfl, .nil _, scanned⟩
      | found item rest =>
          obtain ⟨delivered, later⟩ := item
          have follows := follows_frame role limit memory fits stream
          obtain ⟨taken, whole, finds⟩ := (settles_frame role limit memory _).takes scanned
          have shorter := length_rest_lt_frame scanned
          rw [scanned] at follows
          obtain ⟨next, rfl, fitsNext, resumes⟩ := follows
          cases delivered with
          | some frame =>
              rw [resumes] at refused
              cases refused
          | none =>
              rw [resumes] at refused ⊢
              obtain ⟨later, behind, wholeRest, passes, refusedRest⟩ :=
                inductionHypothesis rest.length shorter fitsNext refused rfl
              refine ⟨taken ++ later, behind, ?_, .cons finds passes, refusedRest⟩
              rw [List.append_assoc, ← wholeRest]
              exact whole

/-- What is refused behind a part of a frame is a frame behind whole ones, and the message
that is pending then is the one that they have left. -/
theorem exists_physicals_of_refused
    {whole part input : List UInt8}
    {behind : Option PendingMessage}
    (passes : Passes role limit memory none whole (behind.map PendingMessage.toFrame))
    (fits : Fits behind)
    {decoder : Decoder}
    {count : Nat}
    (asks : (between role limit memory behind).verdict part =
      ⟨decoder, [], .ok (.needMore count)⟩)
    {refusal : Refusal}
    (refused : (decoder.verdict input).answer = .error refusal) :
    ∃ (earlier : List (Physical role)) (rest : List UInt8),
      whole ++ (part ++ input) = earlier.flatMap Physical.octets ++ rest ∧
      frame role limit memory (assembled (openFragments earlier)) rest = .refused refusal ∧
      (decoder.verdict input).decoder.pending.map PendingMessage.toFrame =
        assembled (openFragments earlier) := by
  have both := (between role limit memory behind).verdict_append part input
  rw [asks] at both
  have resumed : (between role limit memory behind).verdict (part ++ input) =
      decoder.verdict input := both
  have refusedBoth : ((between role limit memory behind).verdict (part ++ input)).answer =
      .error refusal := by
    rw [resumed]
    exact refused
  obtain ⟨later, rest, split, passesLater, refusedRest⟩ :=
    exists_passes_of_refused fits refusedBoth
  rw [resumed] at passesLater refusedRest
  obtain ⟨earlier, octets, kept, -⟩ := (passes.append passesLater).exists_physicals proper_none
  rw [foldAll_eq_assembled] at kept
  refine ⟨earlier, rest, ?_, ?_, kept⟩
  · rw [split, ← List.append_assoc, octets]
  · rw [← kept]
    exact refusedRest

/-! ## States that are reached -/

/-- The parts of a decoder agree in every state that feeds lead to, as long as none of them
is refused. The octets that were taken are whole frames and the front of another, of which
the frame in flight has received what has arrived, and the message that is pending is made of
the fragments of the whole frames and of what has arrived of the next. So no pass of a further
call counts octets without keeping them, or closes out a message that is not there. And a
frame that is refused leaves the message that was pending ahead of it. -/
theorem wellFormed_feedEach_new
    (role : Role)
    (limit : Nat)
    (memory : Memory)
    {inputs : List (List UInt8)}
    (accepted : ∀ refusal, .error refusal ∉ ((new role limit memory).feedEach inputs).1) :
    let decoder := ((new role limit memory).feedEach inputs).2
    let taken := (new role limit memory).takenEach inputs
    let part := unfinished role taken
    decoder.WellFormed ∧
      (∃ earlier : List (Physical role),
        taken = earlier.flatMap Physical.octets ++ part ∧
        frame role limit memory (assembled (openFragments earlier)) part = .ended ∧
        decoder.pending.map PendingMessage.toFrame =
          assembled (openFragments earlier ++ (arriving role part).toList)) ∧
      (∀ frame, decoder.inFlight = some frame → ∃ arrived,
        Grammar.header role part =
          .found (frame.header, frame.received + frame.remaining) arrived ∧
        arrived.length = frame.received ∧
        (frame.header.opcode.isControl = true →
          frame.control.toList = unmask frame.header.mask arrived)) ∧
      (∀ (input : List UInt8) (feeding : Feeding),
        Feeding.Reached { decoder, input } feeding → feeding.Stores) ∧
      ∀ (input : List UInt8) (refusal : Refusal),
        (decoder.feed input).answer = .error refusal →
          ∃ (earlier : List (Physical role)) (rest : List UInt8),
            taken ++ input = earlier.flatMap Physical.octets ++ rest ∧
            frame role limit memory (assembled (openFragments earlier)) rest =
              .refused refusal ∧
            (decoder.feed input).decoder.pending.map PendingMessage.toFrame =
              assembled (openFragments earlier) := by
  intro decoder taken part
  have waits : 0 < (new role limit memory).wanted := Nat.one_pos
  obtain ⟨decodes, last⟩ := decodeFrom_takenEach waits 0 accepted
  obtain ⟨whole, behind, split, passes, fits, ended, asks⟩ :=
    exists_passes fits_none 0 taken decodes
  obtain ⟨next, within⟩ := exists_within ended
  have asks' := within.verdict_eq fits
  obtain rfl : decoder = next :=
    last.symm.trans (congrArg Verdict.decoder (asks.symm.trans asks'))
  obtain ⟨earlier, rfl, kept, proper⟩ := passes.exists_physicals proper_none
  have holds : behind.map PendingMessage.toFrame = assembled (openFragments earlier) :=
    kept.trans (foldAll_eq_assembled earlier)
  have wellFormed := within.wellFormed proper
  refine ⟨wellFormed, ⟨earlier, split, ?_, within.pending_eq holds⟩,
    fun _ => within.inFlight_eq, fun _ _ => Feeding.Reached.stores wellFormed, ?_⟩
  · rw [← holds]
    exact ended
  · intro input refusal refused
    rw [split, List.append_assoc]
    exact exists_physicals_of_refused passes fits asks' refused

/-- A client goes on with another text while a message is pending. -/
theorem wellFormed_feedEach_new_interrupted_message :
    let inputs : List (List UInt8) := [[0x01, 0x82, 1, 2, 3, 4, 0x60]]
    let decoder := ((new .server 8).feedEach inputs).2
    let input : List UInt8 := [0x60, 0x81, 0x80, 1, 2, 3, 4]
    (decoder.inFlight.map InFlight.received = some 1 ∧ decoder.WellFormed) ∧
      (decoder.feed input).answer = .error (.interruptedMessage .text) ∧
      (decoder.feed input).decoder.pending.map PendingMessage.toFrame =
        some ⟨.data .text, [0x61, 0x62]⟩ ∧
      ∃ (earlier : List (Physical .server)) (rest : List UInt8),
        (new .server 8).takenEach inputs ++ input = earlier.flatMap Physical.octets ++ rest ∧
        assembled (openFragments earlier) = some ⟨.data .text, [0x61, 0x62]⟩ := by
  intro inputs decoder input
  have ok : ((new .server 8).feedEach inputs).1.all Except.isOk = true := by decide +kernel
  have accepted : ∀ refusal, .error refusal ∉ ((new .server 8).feedEach inputs).1 :=
    fun refusal member => Bool.false_ne_true (List.all_eq_true.mp ok _ member)
  have received : decoder.inFlight.map InFlight.received = some 1 := by decide +kernel
  have answer : (decoder.feed input).answer = .error (.interruptedMessage .text) := by
    decide +kernel
  have pending : (decoder.feed input).decoder.pending.map PendingMessage.toFrame =
      some ⟨.data .text, [0x61, 0x62]⟩ := by
    decide +kernel
  obtain ⟨wellFormed, -, -, -, refuses⟩ := wellFormed_feedEach_new .server 8 .standard accepted
  obtain ⟨earlier, rest, split, -, kept⟩ := refuses input _ answer
  exact ⟨⟨received, wellFormed⟩, answer, pending, earlier, rest, split, kept.symm.trans pending⟩

end Decoder
end WebSocket
