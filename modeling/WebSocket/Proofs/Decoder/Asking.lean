import Mathlib.Control.Monad.Basic
import WebSocket.Proofs.Decoder.Limits

/-!
# What is asked for is what is wanted

A decoder counts what it lacks in two places: by the field of a header, and by the payload
that is in flight. Wherever its input ends, the two agree with what it answers: fed less than
it wants it asks for the difference, and a frame that it hands over ends with the last octet
that it took. A header parser asks in the same way.
-/

namespace WebSocket

/-! ## Header parsers -/

namespace HeaderParser

/-- A parser that waits for octets, and whose answers agree with how many it wants. -/
structure AsksExactly (parser : HeaderParser) : Prop where
  waits : 1 ≤ parser.wanted
  /-- Fed less than it wants, the parser takes everything and asks for the difference. -/
  short : ∀ input : List UInt8, input.length < parser.wanted →
    let fed := parser.feed input
    fed.consumed = input.length ∧
      fed.answer = .ok (.needMore (parser.wanted - input.length)) ∧
      fed.parser.wanted = parser.wanted - input.length
  /-- Fed what it wants, the parser takes everything unless it refuses it. -/
  whole : ∀ (input : List UInt8) (parsed : Parse (FrameHeader × Nat)),
    input.length = parser.wanted → (parser.feed input).answer = .ok parsed →
      (parser.feed input).consumed = input.length
  /-- Where the parser asks for more, it has taken everything and asks for what it wants. -/
  needMore : ∀ (input : List UInt8) (count : Nat),
    (parser.feed input).answer = .ok (.needMore count) →
      (parser.feed input).consumed = input.length ∧ 1 ≤ count ∧
        (parser.feed input).parser.wanted = count

/-- A call that leaves nothing over takes everything. -/
theorem consumed_of_rest
    {parser : HeaderParser}
    {input : List UInt8}
    (nothing : (parser.verdict input).rest = []) :
    (parser.feed input).consumed = input.length := by
  have total := parser.consumed_add_length_rest_feed input
  rwa [nothing] at total

/-- A parser that waits asks for exactly what it lacks. -/
theorem asksExactly_of_waits {parser : HeaderParser} (waits : 0 < parser.wanted) :
    parser.AsksExactly where
  waits := waits
  short := by
    intro input short
    have fed := verdict_of_short (parser.complete?_of_wanted_pos waits) short
    have next : (parser.feed input).parser = parser.hold input :=
      congrArg Verdict.parser fed
    refine ⟨consumed_of_rest (congrArg Verdict.rest fed), congrArg Verdict.answer fed, ?_⟩
    rw [next, wanted_hold]
  whole := by
    intro input parsed full _
    exact consumed_of_rest (rest_of_length_le_wanted (Nat.le_of_eq full))
  needMore := by
    intro input count asks
    obtain ⟨nothing, wanted, positive⟩ := verdict_of_needMore asks
    exact ⟨consumed_of_rest nothing, positive, wanted⟩

/-- A parser that has done nothing but ask for more waits. -/
theorem wanted_pos_feedEach
    {parser : HeaderParser}
    (waits : 0 < parser.wanted)
    {inputs : List (List UInt8)}
    (asks : ∀ answer ∈ (parser.feedEach inputs).1, ∃ count, answer = .ok (.needMore count)) :
    0 < (parser.feedEach inputs).2.wanted := by
  induction inputs generalizing parser with
  | nil => exact waits
  | cons input later inductionHypothesis =>
      rw [feedEach_cons, List.forall_mem_cons] at asks
      obtain ⟨⟨count, first⟩, others⟩ := asks
      obtain ⟨-, wanted, positive⟩ := verdict_of_needMore first
      exact inductionHypothesis (wanted.symm ▸ positive) others

theorem role_feedEach (parser : HeaderParser) (inputs : List (List UInt8)) :
    (parser.feedEach inputs).2.role = parser.role := by
  induction inputs generalizing parser with
  | nil => rfl
  | cons input later inductionHypothesis =>
      rw [feedEach_cons, inductionHypothesis, role_verdict]

end HeaderParser

/-! ## Decoders -/

namespace Decoder

/-- A decoder that waits for octets, and whose answers agree with how many it wants. -/
structure AsksExactly (decoder : Decoder) : Prop where
  waits : 1 ≤ decoder.wanted
  /-- Fed less than it wants, the decoder takes everything and asks for the difference. -/
  short : ∀ input : List UInt8, input.length < decoder.wanted →
    let fed := decoder.feed input
    fed.consumed = input.length ∧
      fed.answer = .ok (.needMore (decoder.wanted - input.length)) ∧
      fed.decoder.wanted = decoder.wanted - input.length
  /-- Fed what it wants, the decoder takes everything unless it refuses it. -/
  whole : ∀ (input : List UInt8) (parsed : Parse Frame),
    input.length = decoder.wanted → (decoder.feed input).answer = .ok parsed →
      (decoder.feed input).consumed = input.length
  /-- Where the decoder asks for more, it has taken everything and asks for what it wants. -/
  needMore : ∀ (input : List UInt8) (count : Nat),
    (decoder.feed input).answer = .ok (.needMore count) →
      (decoder.feed input).consumed = input.length ∧ 1 ≤ count ∧
        (decoder.feed input).decoder.wanted = count
  /-- Where the decoder hands over a frame, it has taken what it wanted at least. Ahead of the
  last octet that it took it asked for that octet alone, and the frame leaves something open
  exactly if it is a control frame and a message was pending by then. What was not taken is
  as if it had not been there. -/
  ready : ∀ (input : List UInt8) (frame : Frame),
    (decoder.feed input).answer = .ok (.ready frame) →
      let fed := decoder.feed input
      let ahead := decoder.feed (input.take (fed.consumed - 1))
      let alone := decoder.feed (input.take fed.consumed)
      decoder.wanted ≤ fed.consumed ∧ fed.consumed ≤ input.length ∧
        ahead.answer = .ok (.needMore 1) ∧
        (fed.decoder.inProgress = true ↔
          frame.opcode.isControl = true ∧ ahead.decoder.pending.isSome = true) ∧
        fed.decoder.wanted = 1 ∧
        alone.answer = fed.answer ∧ alone.decoder = fed.decoder ∧
        alone.consumed = fed.consumed

/-- A call that leaves nothing over takes everything. -/
theorem consumed_of_rest
    {decoder : Decoder}
    {input : List UInt8}
    (nothing : (decoder.verdict input).rest = []) :
    (decoder.feed input).consumed = input.length := by
  have total := decoder.consumed_add_length_rest_feed input
  rwa [show (decoder.feed input).rest = [] from nothing] at total

/-- Fed less than it wants, a decoder asks for the difference. -/
theorem verdict_of_length_lt_wanted
    {decoder : Decoder}
    {input : List UInt8}
    (short : input.length < decoder.wanted) :
    ∃ next, decoder.verdict input =
        ⟨next, [], .ok (.needMore (decoder.wanted - input.length))⟩ ∧
      next.wanted = decoder.wanted - input.length := by
  cases inFlight : decoder.inFlight with
  | some frame =>
      have remaining : decoder.wanted = frame.remaining := by
        rw [wanted, inFlight]
      rw [remaining] at short ⊢
      exact ⟨_, verdict_of_payload_short inFlight short, rfl⟩
  | none =>
      have lacks : decoder.wanted = decoder.parser.wanted := by
        rw [wanted, inFlight]
      rw [lacks] at short ⊢
      have waiting := decoder.parser.complete?_of_wanted_pos (Nat.zero_lt_of_lt short)
      have parsed := HeaderParser.verdict_of_short waiting short
      refine ⟨_, verdict_of_header_short inFlight parsed, ?_⟩
      rw [← HeaderParser.wanted_hold, wanted, withParser, inFlight]

/-! ### Frames that are handed over -/

theorem behind_ready
    {decoder : Decoder}
    {input : List UInt8}
    {frame : Frame}
    (ready : (decoder.verdict input).answer = .ok (.ready frame)) :
    (decoder.verdict input).decoder.parser.isIdle = true ∧
      (decoder.verdict input).decoder.wanted = 1 := by
  induction decoder, input using feed_induction with
  | headerRefused decoder input parser rest refusal between parsed =>
      rw [verdict_of_header_refused between parsed] at ready
      cases ready
  | headerShort decoder input parser rest count between parsed =>
      rw [verdict_of_header_short between parsed] at ready
      cases ready
  | rejected decoder input parser rest header announced refusal between parsed rejection =>
      rw [verdict_of_rejected between parsed rejection] at ready
      cases ready
  | accepted decoder input parser rest header announced next between parsed acceptance
      inductionHypothesis =>
      rw [verdict_of_accepted between parsed acceptance] at ready ⊢
      exact inductionHypothesis ready
  | payloadShort decoder input frame' inFlight short =>
      rw [verdict_of_payload_short inFlight short] at ready
      cases ready
  | delivered decoder input frame' delivered next inFlight full finished =>
      have idle := Feeding.isBetweenFrames_finishFrame
        (decoder.collect frame' (input.take frame'.remaining))
        (frame'.advance (input.take frame'.remaining))
      have wanted := wanted_finishFrame
        (decoder.collect frame' (input.take frame'.remaining))
        (frame'.advance (input.take frame'.remaining))
      rw [finished] at idle wanted
      rw [verdict_of_delivered inFlight full finished]
      exact ⟨(Bool.and_eq_true_iff.mp idle).2, wanted⟩
  | continued decoder input frame' next inFlight full finished inductionHypothesis =>
      rw [verdict_of_continued inFlight full finished] at ready ⊢
      exact inductionHypothesis ready

/-- A control frame that is closed out leaves the message that is pending, and a message that
is closed out is pending no longer. -/
theorem pending_finishFrame
    {decoder next : Decoder}
    {frame : InFlight}
    {delivered : Frame}
    (finished : decoder.finishFrame frame = (some delivered, next)) :
    delivered.opcode.isControl = frame.header.opcode.isControl ∧
      next.pending = if delivered.opcode.isControl then decoder.pending else none := by
  unfold finishFrame at finished
  cases opcode : frame.header.opcode with
  | control opcode' =>
      simp only [opcode] at finished
      cases finished
      exact ⟨rfl, rfl⟩
  | data opcode' =>
      simp only [opcode] at finished
      split at finished
      · obtain ⟨found, rfl⟩ := Prod.mk.inj finished
        obtain ⟨message, -, rfl⟩ := Option.map_eq_some_iff.mp found
        exact ⟨rfl, rfl⟩
      · cases finished

/-- A frame that is handed over within what is wanted of its payload. -/
theorem pending_of_ready_payload
    {decoder : Decoder}
    {input : List UInt8}
    {frame : InFlight}
    {delivered : Frame}
    (inFlight : decoder.inFlight = some frame)
    (within : input.length ≤ frame.remaining)
    (ready : (decoder.verdict input).answer = .ok (.ready delivered)) :
    delivered.opcode.isControl = frame.header.opcode.isControl ∧
      (decoder.verdict input).decoder.pending =
        if delivered.opcode.isControl then decoder.pending else none := by
  by_cases short : input.length < frame.remaining
  · rw [verdict_of_payload_short inFlight short] at ready
    cases ready
  · have full : frame.remaining ≤ input.length := Nat.le_of_not_lt short
    have nothing : input.drop frame.remaining = [] := List.drop_of_length_le within
    rcases finished :
        (decoder.collect frame (input.take frame.remaining)).finishFrame
          (frame.advance (input.take frame.remaining)) with ⟨_ | delivered', next⟩
    · have next' := wanted_finishFrame
        (decoder.collect frame (input.take frame.remaining))
        (frame.advance (input.take frame.remaining))
      rw [finished] at next'
      have waits : 0 < next.wanted := Nat.lt_of_lt_of_eq Nat.zero_lt_one next'.symm
      rw [verdict_of_continued inFlight full finished, nothing, verdict_nil waits] at ready
      cases ready
    · rw [verdict_of_delivered inFlight full finished] at ready ⊢
      cases ready
      obtain ⟨same, pending⟩ := pending_finishFrame finished
      refine ⟨same, ?_⟩
      rw [pending, same, InFlight.header_advance, collect]
      cases frame.header.opcode.isControl <;> rfl

/-- The header of a control frame changes nothing. -/
theorem eq_of_accept_control
    {decoder next : Decoder}
    {header : FrameHeader}
    {announced : Nat}
    (acceptance : decoder.accept header announced = .ok next)
    (control : header.opcode.isControl = true) :
    next = decoder := by
  rcases accept_cases acceptance with ⟨-, -, -, same⟩ | ⟨opcode, -, carries, -⟩
  · exact same
  · rw [carries] at control
    cases control

/-- A frame that is handed over within what is wanted leaves a message pending exactly if it
is a control frame and one was. -/
theorem pending_of_ready
    {decoder : Decoder}
    {input : List UInt8}
    {delivered : Frame}
    (within : input.length ≤ decoder.wanted)
    (ready : (decoder.verdict input).answer = .ok (.ready delivered)) :
    (decoder.verdict input).decoder.pending =
      if delivered.opcode.isControl then decoder.pending else none := by
  cases inFlight : decoder.inFlight with
  | some frame =>
      rw [wanted, inFlight] at within
      exact (pending_of_ready_payload inFlight within ready).2
  | none =>
      rw [wanted, inFlight] at within
      have nothing := HeaderParser.rest_of_length_le_wanted within
      rcases parsed : decoder.parser.verdict input with
        ⟨parser, rest, refusal | count | ⟨header, announced⟩⟩
      · rw [verdict_of_header_refused inFlight parsed] at ready
        cases ready
      · rw [verdict_of_header_short inFlight parsed] at ready
        cases ready
      · rw [parsed] at nothing
        obtain rfl : rest = [] := nothing
        cases acceptance : (decoder.withParser parser).accept header announced with
        | error refusal =>
            rw [verdict_of_rejected inFlight parsed acceptance] at ready
            cases ready
        | ok next =>
            rw [verdict_of_accepted inFlight parsed acceptance] at ready ⊢
            obtain ⟨same, pending⟩ := pending_of_ready_payload rfl (Nat.zero_le _) ready
            rw [pending]
            cases control : delivered.opcode.isControl with
            | false => rfl
            | true =>
                obtain rfl := eq_of_accept_control acceptance (same.symm.trans control)
                rfl

/-- Ahead of its last octet, a frame that is handed over lacks that octet alone. -/
theorem exists_last
    {decoder next : Decoder}
    (waits : 0 < decoder.wanted)
    {input : List UInt8}
    {frame : Frame}
    (fed : decoder.verdict input = ⟨next, [], .ok (.ready frame)⟩) :
    ∃ front last ahead, input = front ++ [last] ∧
      decoder.verdict front = ⟨ahead, [], .ok (.needMore 1)⟩ ∧
      ahead.wanted = 1 ∧ ahead.verdict [last] = ⟨next, [], .ok (.ready frame)⟩ := by
  rcases input.eq_nil_or_concat with rfl | ⟨front, last, rfl⟩
  · cases (verdict_nil waits).symm.trans fed
  · rw [List.concat_eq_append] at fed ⊢
    have both := decoder.verdict_append front [last]
    rw [fed] at both
    rcases first : decoder.verdict front with ⟨ahead, left, refusal | count | frame'⟩
    · rw [first] at both
      cases List.append_ne_nil_of_right_ne_nil left (List.cons_ne_nil last [])
        (congrArg Verdict.rest both).symm
    · obtain ⟨nothing, wanted, positive⟩ :=
        verdict_of_needMore (congrArg Verdict.answer first)
      rw [first] at both nothing wanted
      obtain rfl : left = [] := nothing
      obtain rfl : ahead.wanted = count := wanted
      have resumed : ahead.verdict [last] = ⟨next, [], .ok (.ready frame)⟩ := both.symm
      have single : ahead.wanted = 1 := by
        by_cases more : [last].length < ahead.wanted
        · obtain ⟨_, asks, -⟩ := verdict_of_length_lt_wanted more
          cases asks.symm.trans resumed
        · exact Nat.le_antisymm (Nat.le_of_not_lt more) positive
      rw [single] at first
      exact ⟨front, last, ahead, rfl, first, single, resumed⟩
    · rw [first] at both
      cases List.append_ne_nil_of_right_ne_nil left (List.cons_ne_nil last [])
        (congrArg Verdict.rest both).symm

/-- A frame that is handed over is not shorter than what was wanted. -/
theorem wanted_le_of_ready
    {decoder : Decoder}
    {input : List UInt8}
    {frame : Frame}
    (ready : (decoder.verdict input).answer = .ok (.ready frame)) :
    decoder.wanted ≤ input.length := by
  apply Nat.le_of_not_lt
  intro less
  obtain ⟨next, asks, -⟩ := verdict_of_length_lt_wanted less
  rw [asks] at ready
  cases ready

/-- Ahead of its last octet a frame lacks that octet alone. Behind it something is open
exactly if the frame is a control frame and a message is pending already. -/
theorem ahead_of_ready
    {decoder next : Decoder}
    (waits : 0 < decoder.wanted)
    {input : List UInt8}
    {frame : Frame}
    (fed : decoder.verdict input = ⟨next, [], .ok (.ready frame)⟩) :
    let ahead := decoder.verdict (input.take (input.length - 1))
    ahead.answer = .ok (.needMore 1) ∧
      (next.inProgress = true ↔
        frame.opcode.isControl = true ∧ ahead.decoder.pending.isSome = true) := by
  have behind := behind_ready (congrArg Verdict.answer fed)
  obtain ⟨front, last, ahead, rfl, asks, single, resumed⟩ := exists_last waits fed
  have onlyLast : [last].length ≤ ahead.wanted := Nat.le_of_eq single.symm
  have pending := pending_of_ready onlyLast (congrArg Verdict.answer resumed)
  rw [resumed] at pending
  rw [fed] at behind
  have start : (front ++ [last]).take ((front ++ [last]).length - 1) = front := by
    rw [List.length_append, List.length_singleton, Nat.add_sub_cancel, List.take_left]
  dsimp only
  rw [start, asks]
  refine ⟨rfl, ?_⟩
  rw [inProgress, show next.parser.isIdle = true from behind.1,
    show next.pending = _ from pending]
  cases frame.opcode.isControl <;> simp

/-- A decoder that waits asks for exactly what it lacks. -/
theorem asksExactly_of_waits {decoder : Decoder} (waits : 0 < decoder.wanted) :
    decoder.AsksExactly where
  waits := waits
  short := by
    intro input short
    obtain ⟨next, fed, wanted⟩ := verdict_of_length_lt_wanted short
    have last : (decoder.feed input).decoder = next := congrArg Verdict.decoder fed
    refine ⟨consumed_of_rest (congrArg Verdict.rest fed), congrArg Verdict.answer fed, ?_⟩
    rw [last, wanted]
  whole := by
    intro input parsed full _
    exact consumed_of_rest (rest_of_length_le_wanted (Nat.le_of_eq full))
  needMore := by
    intro input count asks
    obtain ⟨nothing, wanted, positive⟩ := verdict_of_needMore asks
    exact ⟨consumed_of_rest nothing, positive, wanted⟩
  ready := by
    intro input frame ready
    have within : (decoder.feed input).consumed ≤ input.length :=
      Nat.le.intro (decoder.consumed_add_length_rest_feed input)
    have taken : (input.take (decoder.feed input).consumed).length =
        (decoder.feed input).consumed :=
      List.length_take_of_le within
    have alone : decoder.verdict (input.take (decoder.feed input).consumed) =
        ⟨(decoder.feed input).decoder, [], .ok (.ready frame)⟩ :=
      (decoder.verdict_take_consumed input).trans (Verdict.ext rfl rfl ready)
    have answered := congrArg Verdict.answer alone
    have enough := wanted_le_of_ready answered
    obtain ⟨asks, inProgress⟩ := ahead_of_ready waits alone
    rw [taken] at enough asks inProgress
    rw [List.take_take, Nat.min_eq_left (Nat.sub_le _ _)] at asks inProgress
    exact ⟨enough, within, asks, inProgress, (behind_ready ready).2,
      answered.trans ready.symm, congrArg Verdict.decoder alone,
      (consumed_of_rest (congrArg Verdict.rest alone)).trans taken⟩

/-- A decoder that has refused nothing waits. -/
theorem wanted_pos_feedEach
    {decoder : Decoder}
    (waits : 0 < decoder.wanted)
    {inputs : List (List UInt8)}
    (accepted : ∀ refusal, .error refusal ∉ (decoder.feedEach inputs).1) :
    0 < (decoder.feedEach inputs).2.wanted := by
  obtain ⟨passes, last⟩ := decodeFrom_takenEach waits 0 accepted
  rw [← last]
  exact wanted_pos_decodeFrom passes

/-- What is asked for is what is wanted. As long as none of its feeds is refused, whatever
they were, a decoder asks for exactly what it lacks. So does a header parser that has done
nothing but ask for more, and one that is reset starts over. -/
theorem asksExactly_feedEach_new
    (role : Role)
    (limit : Nat)
    (memory : Memory)
    {inputs : List (List UInt8)}
    (accepted : ∀ refusal, .error refusal ∉ ((new role limit memory).feedEach inputs).1) :
    ((new role limit memory).feedEach inputs).2.AsksExactly ∧
      ∀ pieces : List (List UInt8),
        let (answers, parser) := (HeaderParser.new role).feedEach pieces
        ((∀ answer ∈ answers, ∃ count, answer = .ok (.needMore count)) →
          parser.AsksExactly) ∧
        parser.reset = .new role := by
  have waits : 0 < (new role limit memory).wanted := Nat.one_pos
  refine ⟨asksExactly_of_waits (wanted_pos_feedEach waits accepted), ?_⟩
  intro pieces
  dsimp only
  constructor
  · intro asks
    exact HeaderParser.asksExactly_of_waits
      (HeaderParser.wanted_pos_feedEach (HeaderParser.wanted_new_pos role) asks)
  · rw [HeaderParser.reset, HeaderParser.role_feedEach]
    rfl

/-- A ping without a payload arrives behind the first fragment of a text, in the call that
brings the last octet of the fragment. -/
theorem asksExactly_feedEach_new_ping_behind_fragment :
    let decoder := ((new .server 8).feedEach [[0x01, 0x82, 1, 2, 3, 4, 0x60]]).2
    let input : List UInt8 := [0x60, 0x89, 0x80, 1, 2, 3, 4, 0x81]
    decoder.wanted = 1 ∧
      (decoder.feed input).answer = .ok (.ready ⟨.control .ping, []⟩) ∧
      (decoder.feed input).consumed = 7 ∧
      (decoder.feed input).decoder.inProgress = true ∧
      (decoder.feed (input.take 7)).decoder = (decoder.feed input).decoder := by
  intro decoder input
  have ok : ((new .server 8).feedEach [[0x01, 0x82, 1, 2, 3, 4, 0x60]]).1.all Except.isOk =
      true := by
    decide +kernel
  have accepted : ∀ refusal, .error refusal ∉
      ((new .server 8).feedEach [[0x01, 0x82, 1, 2, 3, 4, 0x60]]).1 :=
    fun refusal member => Bool.false_ne_true (List.all_eq_true.mp ok _ member)
  have wanted : decoder.wanted = 1 := by
    decide +kernel
  have answer : (decoder.feed input).answer = .ok (.ready ⟨.control .ping, []⟩) := by
    decide +kernel
  have consumed : (decoder.feed input).consumed = 7 := by
    decide +kernel
  have open' : (decoder.feed (input.take 6)).decoder.pending.isSome = true := by
    decide +kernel
  obtain ⟨asks, -⟩ := asksExactly_feedEach_new .server 8 .standard accepted
  obtain ⟨-, -, -, inProgress, -, -, alone, -⟩ := asks.ready input _ answer
  rw [consumed] at inProgress alone
  exact ⟨wanted, answer, consumed, inProgress.mpr ⟨rfl, open'⟩, alone⟩

end Decoder
end WebSocket
