import WebSocket.Proofs.Decoder.Refusals
import WebSocket.Proofs.Grammar.Prefixes
import WebSocket.Proofs.Grammar.Stream
import WebSocket.Proofs.Header.Parts

/-!
# What a decoder asks for

A decoder that has refused nothing stands behind whole frames and within the next one, and
wants what is missing of the field or payload in which its stream ends. If it gets no more
than that and refuses it, then the stream ends with the field that shows why.
-/

namespace WebSocket
namespace Decoder

open Grammar

variable
    {role : Role}
    {limit : Nat}
    {memory : Memory}
    {pending : Option PendingMessage}

/-! ## Within a frame -/

/-- Where a decoder stands within a frame that ends with its stream, while the given message
is pending ahead of the frame. -/
inductive Within
    (role : Role)
    (limit : Nat)
    (memory : Memory)
    (pending : Option PendingMessage)
    (stream : List UInt8) : Decoder → Prop
  | header
      {parser : HeaderParser}
      {count : Nat}
      (scanned : Grammar.header role stream = .ended)
      (parsed : (HeaderParser.new role).verdict stream =
        ⟨parser, [], .ok (.needMore count)⟩) :
      Within role limit memory pending stream
        ((between role limit memory pending).withParser parser)
  | payload
      {parser : HeaderParser}
      {header : FrameHeader}
      {announced : Nat}
      {arrived : List UInt8}
      (scanned : Grammar.header role stream = .found (header, announced) arrived)
      (parsed : (HeaderParser.new role).verdict stream =
        ⟨parser, arrived, .ok (.ready (header, announced))⟩)
      (unbroken : broken? limit memory (pending.map PendingMessage.toFrame) header announced =
        none)
      (short : arrived.length < announced) :
      Within role limit memory pending stream
        ((((between role limit memory (opened pending header.opcode)).withParser
          parser).begin header announced).absorb { header, remaining := announced } arrived)

section Within

variable
    {stream : List UInt8}
    {decoder : Decoder}

/-- A stream that ends within a frame leads to a decoder within that frame. -/
theorem exists_within
    (ended : frame role limit memory (pending.map PendingMessage.toFrame) stream = .ended) :
    ∃ next, Within role limit memory pending stream next := by
  cases scanned : header role stream with
  | refused refusal =>
      cases (Scanner.bind_of_refused scanned).symm.trans ended
  | ended =>
      obtain ⟨parser, count, parsed⟩ := HeaderParser.exists_needMore_of_header scanned
      exact ⟨_, .header scanned parsed⟩
  | found item arrived =>
      obtain ⟨opened, announced⟩ := item
      obtain ⟨parser, parsed⟩ := HeaderParser.exists_ready_of_header scanned
      have endedBody : body limit memory (pending.map PendingMessage.toFrame) opened
          announced arrived = .ended := (Scanner.bind_of_found scanned).symm.trans ended
      cases unbroken : broken? limit memory (pending.map PendingMessage.toFrame) opened
          announced with
      | some refusal =>
          rw [body, unbroken] at endedBody
          cases endedBody
      | none =>
          have short : arrived.length < announced := by
            apply Nat.lt_of_not_le
            intro full
            rw [body, unbroken] at endedBody
            cases (Scanner.bind_of_found (Scanner.octets_of_le full)).symm.trans endedBody
          exact ⟨_, .payload scanned parsed unbroken short⟩

/-- Within a frame a decoder asks for what is missing of the part in which its stream ends. -/
theorem Within.verdict_eq
    (within : Within role limit memory pending stream decoder)
    (fits : Fits pending) :
    (between role limit memory pending).verdict stream =
      ⟨decoder, [], .ok (.needMore (shortfall (widths role stream) stream.length))⟩ := by
  cases within with
  | @header parser count scanned parsed =>
      have stops := HeaderParser.stops_new role stream
      obtain ⟨-, -, positive⟩ :=
        HeaderParser.verdict_of_needMore (congrArg HeaderParser.Verdict.answer parsed)
      rw [parsed] at stops
      obtain rfl : count = shortfall (headerWidths role stream) stream.length := stops
      rw [widths, shortfall_append_of_lt ((shortfall_pos_iff _ _).mp positive)]
      exact verdict_of_header_short rfl parsed
  | @payload parser header announced arrived scanned parsed unbroken short =>
      have acceptance := accept_between role limit memory fits parser header
        (length_lt_of_header scanned)
      rw [unbroken] at acceptance
      obtain ⟨full, taken, length⟩ := rest_of_header scanned
      have lacks : shortfall (widths role stream) stream.length =
          announced - arrived.length := by
        rw [widths, shortfall_append_of_le full, ← length, ← List.length_drop, ← taken,
          shortfall, if_pos short]
      rw [lacks]
      exact (verdict_of_accepted rfl parsed acceptance).trans
        (verdict_of_payload_short rfl short)

/-- Up to the end of the header, a parser stands where parsing the stream leads. -/
theorem Within.exists_parsed
    (within : Within role limit memory pending stream decoder)
    (between : decoder.inFlight = none) :
    ∃ count, (HeaderParser.new role).verdict stream =
      ⟨decoder.parser, [], .ok (.needMore count)⟩ := by
  cases within with
  | header scanned parsed => exact ⟨_, parsed⟩
  | payload scanned parsed unbroken short => cases between

end Within

/-! ## What is wanted -/

/-- A decoder that has refused nothing stands behind whole frames and within the next. -/
theorem exists_passes
    (fits : Fits pending)
    (offset : Nat)
    (stream : List UInt8)
    (accepted : ((between role limit memory pending).decodeFrom offset stream).refusal =
      none) :
    ∃ whole behind,
      stream = whole ++ unfinished role stream ∧
      Passes role limit memory (pending.map PendingMessage.toFrame) whole
        (behind.map PendingMessage.toFrame) ∧
      Fits behind ∧
      frame role limit memory (behind.map PendingMessage.toFrame)
        (unfinished role stream) = .ended ∧
      (between role limit memory behind).verdict (unfinished role stream) =
        ⟨((between role limit memory pending).decodeFrom offset stream).decoder, [],
          .ok (.needMore (missing role stream))⟩ := by
  induction size : stream.length using Nat.strongRecOn
    generalizing pending offset stream with
  | _ size inductionHypothesis =>
      subst size
      cases scanned : frame role limit memory (pending.map PendingMessage.toFrame)
          stream with
      | refused refusal =>
          have reads := (reads_decodeFrom role limit memory fits offset stream).refusal
          rw [accepted, transcript_eq, scanned] at reads
          cases reads
      | ended =>
          obtain ⟨next, within⟩ := exists_within scanned
          have asks := within.verdict_eq fits
          have positive := (verdict_of_needMore (congrArg Verdict.answer asks)).2.2
          have same : unfinished role stream = stream :=
            unfinished_of_lt ((shortfall_pos_iff _ _).mp positive)
          rw [missing, same, decodeFrom_of_needMore offset asks]
          exact ⟨[], pending, rfl, .nil _, fits, scanned, asks⟩
      | found item rest =>
          obtain ⟨delivered, later⟩ := item
          obtain ⟨next, rfl, fitsNext, resumes⟩ := decodeFrom_found fits scanned offset
          obtain ⟨taken, whole, finds⟩ :=
            (settles_frame role limit memory _).takes scanned
          have shorter := length_rest_lt_frame scanned
          have same := unfinished_of_frame scanned
          rw [resumes] at accepted ⊢
          obtain ⟨later, behind, wholeRest, passes, fitsBehind, ended, asks⟩ :=
            inductionHypothesis rest.length shorter fitsNext _ rest accepted rfl
          rw [missing, same]
          refine ⟨taken ++ later, behind, ?_, .cons finds passes, fitsBehind, ended, asks⟩
          rw [List.append_assoc, ← wholeRest]
          exact whole

/-- A decoder that has refused nothing wants what is missing of the part in which its
stream ends. -/
theorem wanted_decodeFrom
    (fits : Fits pending)
    {offset : Nat}
    {stream : List UInt8}
    (accepted : ((between role limit memory pending).decodeFrom offset stream).refusal =
      none) :
    ((between role limit memory pending).decodeFrom offset stream).decoder.wanted =
      missing role stream := by
  obtain ⟨whole, behind, -, -, -, -, asks⟩ := exists_passes fits offset stream accepted
  have wanted := (verdict_of_needMore (congrArg Verdict.answer asks)).2.1
  rwa [asks] at wanted

/-! ## What shows a refusal -/

/-- Whether the octets of a frame end with the field that shows why the frame is refused
with the given error, where the rules for frames take the whole header. -/
def ShownBy (role : Role) (octets : List UInt8) (error : Error) : Prop :=
  match error.shownAfter? with
  | some count => octets.length = count
  | none => ∃ item, header role octets = .found item []

theorem shownAfter?_of_takesHeader
    {refusal : Refusal}
    (takes : refusal.TakesHeader) :
    refusal.error.shownAfter? = none := by
  cases refusal <;> first | rfl | cases takes

/-- Within what a decoder wants of a payload there is nothing to refuse. -/
theorem inFlight_eq_none_of_refused
    {decoder : Decoder}
    {input : List UInt8}
    {refusal : Refusal}
    (within : input.length ≤ decoder.wanted)
    (refused : (decoder.verdict input).answer = .error refusal) :
    decoder.inFlight = none := by
  cases inFlight : decoder.inFlight with
  | none => rfl
  | some frame =>
      rw [wanted, inFlight] at within
      by_cases short : input.length < frame.remaining
      · rw [verdict_of_payload_short inFlight short] at refused
        cases refused
      · have full : frame.remaining ≤ input.length := Nat.le_of_not_lt short
        have nothing : input.drop frame.remaining = [] := List.drop_of_length_le within
        have next := wanted_finishFrame
          (decoder.collect frame (input.take frame.remaining))
          (frame.advance (input.take frame.remaining))
        rcases finished :
            (decoder.collect frame (input.take frame.remaining)).finishFrame
              (frame.advance (input.take frame.remaining)) with ⟨_ | delivered, next'⟩
        · rw [finished] at next
          have waits : 0 < next'.wanted := Nat.lt_of_lt_of_eq Nat.zero_lt_one next.symm
          rw [verdict_of_continued inFlight full finished, nothing, verdict_nil waits]
            at refused
          cases refused
        · rw [verdict_of_delivered inFlight full finished] at refused
          cases refused

/-- A decoder between payloads that gets no more than it wants and refuses it, refuses a
field of the header or the whole header. -/
theorem refused_cases
    {decoder : Decoder}
    {input : List UInt8}
    {refusal : Refusal}
    (between : decoder.inFlight = none)
    (within : input.length ≤ decoder.wanted)
    (refused : (decoder.verdict input).answer = .error refusal) :
    (∃ parser, decoder.parser.verdict input = ⟨parser, [], .error refusal⟩) ∨
      ∃ parser header announced,
        decoder.parser.verdict input = ⟨parser, [], .ok (.ready (header, announced))⟩ ∧
          (decoder.withParser parser).accept header announced = .error refusal := by
  rw [wanted, between] at within
  have nothing := HeaderParser.rest_of_length_le_wanted within
  rcases parsed : decoder.parser.verdict input with
    ⟨parser, rest, refusal' | count | ⟨header, announced⟩⟩
  · rw [parsed] at nothing
    obtain rfl : rest = [] := nothing
    rw [verdict_of_header_refused between parsed] at refused
    cases refused
    exact .inl ⟨parser, rfl⟩
  · rw [verdict_of_header_short between parsed] at refused
    cases refused
  · rw [parsed] at nothing
    obtain rfl : rest = [] := nothing
    cases acceptance : (decoder.withParser parser).accept header announced with
    | error refusal' =>
        rw [verdict_of_rejected between parsed acceptance] at refused
        cases refused
        exact .inr ⟨parser, header, announced, rfl, acceptance⟩
    | ok next =>
        rw [verdict_of_accepted between parsed acceptance] at refused
        cases inFlight_eq_none_of_refused (Nat.zero_le _) refused

/-- A decoder that has refused nothing so far, gets no more than it wants and refuses it,
refuses the frame that begins behind whole frames, at the end of the field that shows why. -/
theorem exists_shownBy
    (fits : Fits pending)
    (offset : Nat)
    {stream input : List UInt8}
    {refusal : Refusal}
    (accepted : ((between role limit memory pending).decodeFrom offset stream).refusal =
      none)
    (within : input.length ≤
      ((between role limit memory pending).decodeFrom offset stream).decoder.wanted)
    (refused : (((between role limit memory pending).decodeFrom offset
      stream).decoder.verdict input).answer = .error refusal) :
    ∃ whole tail behind,
      stream ++ input = whole ++ tail ∧
      Passes role limit memory (pending.map PendingMessage.toFrame) whole behind ∧
      ShownBy role tail refusal.error := by
  obtain ⟨whole, behind, stands, passes, fitsBehind, ended, asks⟩ :=
    exists_passes fits offset stream accepted
  refine ⟨whole, unfinished role stream ++ input, _, ?_, passes, ?_⟩
  · rw [← List.append_assoc, ← stands]
  · obtain ⟨decoder, inFrame⟩ := exists_within ended
    obtain ⟨rfl, -, -⟩ := Verdict.mk.inj (asks.symm.trans (inFrame.verdict_eq fitsBehind))
    have between := inFlight_eq_none_of_refused within refused
    obtain ⟨count, parsed⟩ := inFrame.exists_parsed between
    have both := (HeaderParser.new role).verdict_append (unfinished role stream) input
    rw [parsed] at both
    have stops := HeaderParser.stops_new role (unfinished role stream ++ input)
    rcases refused_cases between within refused with
      ⟨parser, refusedField⟩ | ⟨parser, header, announced, parsedHeader, rejection⟩
    · rw [both.trans refusedField] at stops
      have shown := stops rfl
      rw [Nat.zero_add] at shown
      rw [ShownBy, shown]
    · rw [ShownBy, shownAfter?_of_takesHeader (takesHeader_of_accept rejection)]
      exact ⟨_, HeaderParser.header_of_verdict (both.trans parsedHeader)⟩

end Decoder
end WebSocket
