import WebSocket.Header.Parser

/-!
# Feeding a header parser

One equation for each thing that can happen to the field that a parser waits for says
what feeding comes to, whatever is told of it. Feeding a parser more at once is feeding
it in turns.
-/

namespace WebSocket
namespace HeaderParser

/-- What feeding a parser comes to, whatever is told of it. -/
@[ext] structure Verdict where
  parser : HeaderParser
  /-- The octets left over. -/
  rest : List UInt8
  answer : Except Refusal (Parse (FrameHeader × Nat))

/-- What comes of a call, whatever is told of it. -/
def Fed.verdict (fed : Fed) : Verdict := ⟨fed.parser, fed.rest, fed.answer⟩

/-- What feeding a parser comes to. -/
def verdict (parser : HeaderParser) (input : List UInt8) : Verdict :=
  (parser.feed input).verdict

/-- The equation of feeding, without what only its termination needs. -/
theorem feedFrom_eq
    (parser : HeaderParser)
    (input : List UInt8)
    (consumed : Nat)
    (events : Array Log.Event) :
    parser.feedFrom input consumed events =
      match parser.stage.complete? with
      | some header =>
          { parser, consumed, rest := input, answer := .ok (.ready header), events }
      | none =>
          let piece := input.take parser.wanted
          let rest := input.drop parser.wanted
          let consumed := consumed + piece.length
          let held := parser.held ++ piece
          let field := parser.stage.field
          if held.length < field.width then
            { parser := { parser with held }
              consumed
              rest
              answer := .ok (.needMore (field.width - held.length))
              events := events.push (.fieldIncomplete field held.length) }
          else
            match parser.stage.advance parser.role held with
            | .error refusal =>
                { parser := { parser with held }
                  consumed
                  rest
                  answer := .error refusal
                  events := events.push (.refused refusal) }
            | .ok next =>
                feedFrom { parser with stage := next, held := [] } rest consumed
                  (events.push (.fieldComplete field next.field)) := by
  rw [feedFrom.eq_def]
  split
  · rename_i header complete
    rw [complete]
  · rename_i waiting
    simp only [waiting]
    split
    · rfl
    · split
      · rename_i refusal refused
        rw [refused]
      · rename_i next advanced
        rw [advanced]

/-- What was taken and told before has no influence on what feeding comes to. -/
theorem verdict_feedFrom
    (parser : HeaderParser)
    (input : List UInt8)
    (consumed : Nat)
    (events : Array Log.Event) :
    (parser.feedFrom input consumed events).verdict = parser.verdict input := by
  suffices ∀ consumed' events',
      (parser.feedFrom input consumed events).verdict =
        (parser.feedFrom input consumed' events').verdict from this 0 #[]
  fun_induction feedFrom parser input consumed events with
  | case1 parser input consumed events header complete =>
      intro consumed' events'
      rw [feedFrom_eq]
      simp only [complete]
      rfl
  | case2 parser input consumed events waiting piece rest _ held field short =>
      intro consumed' events'
      rw [feedFrom_eq]
      simp only [waiting]
      rw [if_pos short]
      rfl
  | case3 parser input consumed events waiting piece rest _ held field full refusal refused =>
      intro consumed' events'
      rw [feedFrom_eq]
      simp only [waiting]
      rw [if_neg full]
      simp only [held, piece] at refused
      simp only [refused]
      rfl
  | case4 parser input consumed events waiting piece rest _ held field full next advanced _
      inductionHypothesis =>
      intro consumed' events'
      conv => rhs; rw [feedFrom_eq]
      simp only [waiting]
      rw [if_neg full]
      simp only [held, piece] at advanced
      simp only [advanced]
      exact inductionHypothesis _ _

/-- The parser with more octets of the field that it waits for. -/
def hold (parser : HeaderParser) (octets : List UInt8) : HeaderParser :=
  { parser with held := parser.held ++ octets }

/-- The parser before the first octet of a stage. -/
def enter (parser : HeaderParser) (stage : HeaderStage) : HeaderParser :=
  { parser with stage, held := [] }

@[simp] theorem role_hold (parser : HeaderParser) (octets : List UInt8) :
    (parser.hold octets).role = parser.role := rfl

@[simp] theorem stage_hold (parser : HeaderParser) (octets : List UInt8) :
    (parser.hold octets).stage = parser.stage := rfl

@[simp] theorem held_hold (parser : HeaderParser) (octets : List UInt8) :
    (parser.hold octets).held = parser.held ++ octets := rfl

theorem wanted_hold (parser : HeaderParser) (octets : List UInt8) :
    (parser.hold octets).wanted = parser.wanted - octets.length := by
  simp only [wanted, stage_hold, held_hold, List.length_append, Nat.sub_add_eq]

theorem hold_hold (parser : HeaderParser) (left right : List UInt8) :
    (parser.hold left).hold right = parser.hold (left ++ right) := by
  simp only [hold, List.append_assoc]

@[simp] theorem role_enter (parser : HeaderParser) (stage : HeaderStage) :
    (parser.enter stage).role = parser.role := rfl

@[simp] theorem stage_enter (parser : HeaderParser) (stage : HeaderStage) :
    (parser.enter stage).stage = stage := rfl

@[simp] theorem held_enter (parser : HeaderParser) (stage : HeaderStage) :
    (parser.enter stage).held = [] := rfl

section Equations

variable {parser : HeaderParser} {input : List UInt8}

/-- A complete header is handed over and nothing is taken. -/
theorem verdict_of_complete
    {header : FrameHeader × Nat}
    (complete : parser.stage.complete? = some header) :
    parser.verdict input = ⟨parser, input, .ok (.ready header)⟩ := by
  rw [verdict, feed, feedFrom_eq]
  simp only [complete]
  rfl

/-- Input that does not complete the current field is taken whole. -/
theorem verdict_of_short
    (waiting : parser.stage.complete? = none)
    (short : input.length < parser.wanted) :
    parser.verdict input =
      ⟨parser.hold input, [], .ok (.needMore (parser.wanted - input.length))⟩ := by
  have piece : input.take parser.wanted = input := List.take_of_length_le (by omega)
  have nothing : input.drop parser.wanted = [] := List.drop_of_length_le (by omega)
  have partialField :
      (parser.held ++ input).length < parser.stage.field.width := by
    simp only [wanted, HeaderStage.width] at short
    rw [List.length_append]
    omega
  rw [verdict, feed, feedFrom_eq]
  simp only [waiting, piece, nothing]
  rw [if_pos partialField]
  simp only [Fed.verdict, hold, wanted, HeaderStage.width, List.length_append,
    Nat.sub_add_eq]

/-- Enough input completes the field. -/
theorem not_length_lt_width (full : parser.wanted ≤ input.length) :
    ¬(parser.held ++ input.take parser.wanted).length < parser.stage.field.width := by
  simp only [wanted, HeaderStage.width] at full ⊢
  rw [List.length_append, List.length_take]
  omega

/-- A field that is refused is kept. -/
theorem verdict_of_refused
    {refusal : Refusal}
    (waiting : parser.stage.complete? = none)
    (full : parser.wanted ≤ input.length)
    (refused : parser.stage.advance parser.role
      (parser.held ++ input.take parser.wanted) = .error refusal) :
    parser.verdict input =
      ⟨parser.hold (input.take parser.wanted), input.drop parser.wanted,
        .error refusal⟩ := by
  rw [verdict, feed, feedFrom_eq]
  simp only [waiting]
  rw [if_neg (not_length_lt_width full)]
  simp only [refused]
  rfl

/-- Behind a field that is accepted, feeding goes on with the next one. -/
theorem verdict_of_advanced
    {next : HeaderStage}
    (waiting : parser.stage.complete? = none)
    (full : parser.wanted ≤ input.length)
    (advanced : parser.stage.advance parser.role
      (parser.held ++ input.take parser.wanted) = .ok next) :
    parser.verdict input =
      (parser.enter next).verdict (input.drop parser.wanted) := by
  conv => lhs; rw [verdict, feed, feedFrom_eq]
  simp only [waiting]
  rw [if_neg (not_length_lt_width full)]
  simp only [advanced]
  exact verdict_feedFrom _ _ _ _

end Equations

/-- What feeding a parser comes to is settled by what becomes of the field that it
waits for, and of the fields after that. -/
@[elab_as_elim] theorem feed_induction
    {motive : HeaderParser → List UInt8 → Prop}
    (complete : ∀ parser input header,
      parser.stage.complete? = some header → motive parser input)
    (short : ∀ parser input,
      parser.stage.complete? = none → input.length < parser.wanted →
      motive parser input)
    (refused : ∀ parser input refusal,
      parser.stage.complete? = none → parser.wanted ≤ input.length →
      parser.stage.advance parser.role
        (parser.held ++ input.take parser.wanted) = .error refusal →
      motive parser input)
    (advanced : ∀ parser input next,
      parser.stage.complete? = none → parser.wanted ≤ input.length →
      parser.stage.advance parser.role
        (parser.held ++ input.take parser.wanted) = .ok next →
      motive (parser.enter next) (input.drop parser.wanted) →
      motive parser input)
    (parser : HeaderParser)
    (input : List UInt8) :
    motive parser input := by
  induction fields : parser.stage.fieldsLeft using Nat.strongRecOn
    generalizing parser input with
  | _ _ inductionHypothesis =>
      subst fields
      cases header : parser.stage.complete? with
      | some header' => exact complete parser input header' header
      | none =>
          by_cases full : parser.wanted ≤ input.length
          · cases field : parser.stage.advance parser.role
                (parser.held ++ input.take parser.wanted) with
            | error refusal => exact refused parser input refusal header full field
            | ok next =>
                refine advanced parser input next header full field ?_
                exact inductionHypothesis _
                  (HeaderStage.fieldsLeft_advance header field) _ _ rfl
          · exact short parser input header (Nat.lt_of_not_le full)

/-! ## What is left and what is wanted -/

/-- Feeding counts what it takes. -/
theorem consumed_add_length_rest_feedFrom
    (parser : HeaderParser)
    (input : List UInt8)
    (consumed : Nat)
    (events : Array Log.Event) :
    (parser.feedFrom input consumed events).consumed +
        (parser.feedFrom input consumed events).rest.length =
      consumed + input.length := by
  fun_induction feedFrom parser input consumed events with
  | case1 => rfl
  | case2 parser input consumed events _ piece rest consumed' =>
      simp only [consumed', piece, rest, List.length_take, List.length_drop]
      omega
  | case3 parser input consumed events _ piece rest consumed' =>
      simp only [consumed', piece, rest, List.length_take, List.length_drop]
      omega
  | case4 parser input consumed events _ piece rest consumed' _ _ _ _ _ _
      inductionHypothesis =>
      rw [inductionHypothesis]
      simp only [consumed', piece, rest, List.length_take, List.length_drop]
      omega

theorem length_rest_le_of_verdict
    {parser next : HeaderParser}
    {input rest : List UInt8}
    {answer : Except Refusal (Parse (FrameHeader × Nat))}
    (parsed : parser.verdict input = ⟨next, rest, answer⟩) :
    rest.length ≤ input.length := by
  obtain ⟨-, rfl, -⟩ := Verdict.mk.inj parsed
  exact parser.length_rest_feed_le input

theorem length_rest_lt_of_verdict
    {parser next : HeaderParser}
    {input rest : List UInt8}
    {header : FrameHeader × Nat}
    (idle : parser.isIdle = true)
    (parsed : parser.verdict input = ⟨next, rest, .ok (.ready header)⟩) :
    rest.length < input.length := by
  obtain ⟨-, rfl, complete⟩ := Verdict.mk.inj parsed
  exact length_rest_feed_lt idle complete

@[simp] theorem role_verdict (parser : HeaderParser) (input : List UInt8) :
    (parser.verdict input).parser.role = parser.role := by
  induction parser, input using feed_induction with
  | complete parser input header complete => rw [verdict_of_complete complete]
  | short parser input waiting short =>
      rw [verdict_of_short waiting short]
      exact parser.role_hold input
  | refused parser input refusal waiting full refused =>
      rw [verdict_of_refused waiting full refused]
      exact parser.role_hold _
  | advanced parser input next waiting full advanced inductionHypothesis =>
      rw [verdict_of_advanced waiting full advanced, inductionHypothesis]
      exact parser.role_enter next

theorem isIdle_hold (parser : HeaderParser) (octets : List UInt8) :
    (parser.hold octets).isIdle = (parser.isIdle && octets.isEmpty) := by
  have both :
      (parser.held ++ octets).isEmpty = (parser.held.isEmpty && octets.isEmpty) := by
    cases parser.held <;> rfl
  rw [isIdle, stage_hold, held_hold, both, isIdle, Bool.and_assoc]

theorem isIdle_eq_false_of_complete?
    {parser : HeaderParser}
    {header : FrameHeader × Nat}
    (complete : parser.stage.complete? = some header) : parser.isIdle = false := by
  rw [isIdle, Bool.and_eq_false_iff]
  left
  apply beq_eq_false_iff_ne.mpr
  intro initial
  rw [initial] at complete
  cases complete

theorem fieldsLeft_le_initial (stage : HeaderStage) :
    stage.fieldsLeft ≤ HeaderStage.initial.fieldsLeft := by
  cases stage <;> simp [HeaderStage.fieldsLeft]

theorem isIdle_enter_of_advance
    {parser : HeaderParser}
    {next : HeaderStage}
    {octets : List UInt8}
    (waiting : parser.stage.complete? = none)
    (advanced : parser.stage.advance parser.role octets = .ok next) :
    (parser.enter next).isIdle = false := by
  have fewer := HeaderStage.fieldsLeft_advance waiting advanced
  rw [isIdle, Bool.and_eq_false_iff]
  left
  apply beq_eq_false_iff_ne.mpr
  intro initial
  rw [show next = .initial from initial] at fewer
  exact Nat.not_lt.mpr (fieldsLeft_le_initial parser.stage) fewer

theorem take_wanted_of_isIdle
    {parser : HeaderParser}
    {input : List UInt8}
    (idle : parser.isIdle = true)
    (full : parser.wanted ≤ input.length) :
    (input.take parser.wanted).isEmpty = false := by
  obtain ⟨role, stage, held⟩ := parser
  simp only [isIdle, Bool.and_eq_true, beq_iff_eq, List.isEmpty_iff] at idle
  obtain ⟨rfl, rfl⟩ := idle
  cases input with
  | nil => cases full
  | cons octet input => rfl

/-- A parser is idle unless it holds, or has been fed, an octet of a header. -/
theorem isIdle_verdict (parser : HeaderParser) (input : List UInt8) :
    (parser.verdict input).parser.isIdle = (parser.isIdle && input.isEmpty) := by
  induction parser, input using feed_induction with
  | complete parser input header complete =>
      rw [verdict_of_complete complete]
      dsimp only
      rw [isIdle_eq_false_of_complete? complete, Bool.false_and]
  | short parser input waiting short =>
      rw [verdict_of_short waiting short]
      exact parser.isIdle_hold input
  | refused parser input refusal waiting full refused =>
      rw [verdict_of_refused waiting full refused]
      dsimp only
      rw [isIdle_hold]
      cases idle : parser.isIdle with
      | false => rfl
      | true =>
          have taken := take_wanted_of_isIdle idle full
          rw [taken]
          cases input with
          | nil => cases (congrArg List.isEmpty List.take_nil).symm.trans taken
          | cons octet input => rfl
  | advanced parser input next waiting full advanced inductionHypothesis =>
      rw [verdict_of_advanced waiting full advanced, inductionHypothesis,
        isIdle_enter_of_advance waiting advanced, Bool.false_and]
      cases idle : parser.isIdle with
      | false => rfl
      | true =>
          have taken := take_wanted_of_isIdle idle full
          cases input with
          | nil => cases (congrArg List.isEmpty List.take_nil).symm.trans taken
          | cons octet input => rfl

/-- A parser that asks for more has taken everything and asks for what it wants. -/
theorem verdict_of_needMore
    {parser : HeaderParser}
    {input : List UInt8}
    {count : Nat}
    (asks : (parser.verdict input).answer = .ok (.needMore count)) :
    (parser.verdict input).rest = [] ∧
      (parser.verdict input).parser.wanted = count ∧ 0 < count := by
  induction parser, input using feed_induction with
  | complete parser input header complete =>
      rw [verdict_of_complete complete] at asks
      cases asks
  | short parser input waiting short =>
      rw [verdict_of_short waiting short] at asks ⊢
      cases asks
      exact ⟨rfl, parser.wanted_hold input, by omega⟩
  | refused parser input refusal waiting full refused =>
      rw [verdict_of_refused waiting full refused] at asks
      cases asks
  | advanced parser input next waiting full advanced inductionHypothesis =>
      rw [verdict_of_advanced waiting full advanced] at asks ⊢
      exact inductionHypothesis asks

/-- A parser that wants octets has not completed its header. -/
theorem complete?_of_wanted_pos (parser : HeaderParser) (waits : 0 < parser.wanted) :
    parser.stage.complete? = none := by
  obtain ⟨role, stage, held⟩ := parser
  cases stage with
  | payload header announced =>
      simp [wanted, HeaderStage.width, HeaderStage.field, HeaderField.width] at waits
  | _ => rfl

/-- Input of no more than is wanted is taken whole. -/
theorem rest_of_length_le_wanted
    {parser : HeaderParser}
    {input : List UInt8}
    (within : input.length ≤ parser.wanted) :
    (parser.verdict input).rest = [] := by
  have nothing : input.drop parser.wanted = [] := List.drop_of_length_le within
  cases complete : parser.stage.complete? with
  | some header =>
      rw [verdict_of_complete complete]
      by_cases waits : 0 < parser.wanted
      · cases complete.symm.trans (parser.complete?_of_wanted_pos waits)
      · have empty : input.length = 0 := by omega
        exact List.eq_nil_of_length_eq_zero empty
  | none =>
      by_cases full : parser.wanted ≤ input.length
      · cases field : parser.stage.advance parser.role
            (parser.held ++ input.take parser.wanted) with
        | error refusal =>
            rw [verdict_of_refused complete full field]
            exact nothing
        | ok next =>
            rw [verdict_of_advanced complete full field, nothing]
            have shorter := (parser.enter next).length_rest_feed_le []
            exact List.eq_nil_of_length_eq_zero (Nat.le_zero.mp shorter)
      · rw [verdict_of_short complete (Nat.lt_of_not_le full)]

/-! ## Feeding in turns -/

/-- What comes of it when further octets follow: the parser takes them if it asked for
more, and otherwise they are left over. -/
def Verdict.resume (verdict : Verdict) (more : List UInt8) : Verdict :=
  match verdict.answer with
  | .ok (.needMore _) => verdict.parser.verdict (verdict.rest ++ more)
  | _ => { verdict with rest := verdict.rest ++ more }

/-- Feeding a parser more at once is feeding it in turns. -/
theorem verdict_append
    (parser : HeaderParser)
    (left right : List UInt8) :
    parser.verdict (left ++ right) = (parser.verdict left).resume right := by
  induction parser, left using feed_induction with
  | complete parser left header complete =>
      rw [verdict_of_complete complete, verdict_of_complete complete]
      rfl
  | short parser left waiting short =>
      have waitingThen : (parser.hold left).stage.complete? = none := waiting
      have wantedThen := parser.wanted_hold left
      rw [verdict_of_short waiting short]
      simp only [Verdict.resume, List.nil_append]
      by_cases full : parser.wanted ≤ (left ++ right).length
      · have fullThen : (parser.hold left).wanted ≤ right.length := by
          rw [wantedThen]
          rw [List.length_append] at full
          omega
        have piece :
            (left ++ right).take parser.wanted =
              left ++ right.take (parser.hold left).wanted := by
          rw [List.take_append, List.take_of_length_le (by omega), wantedThen]
        have rest :
            (left ++ right).drop parser.wanted =
              right.drop (parser.hold left).wanted := by
          rw [List.drop_append, List.drop_of_length_le (by omega), List.nil_append,
            wantedThen]
        have octets :
            parser.held ++ (left ++ right).take parser.wanted =
              (parser.hold left).held ++ right.take (parser.hold left).wanted := by
          rw [piece, held_hold, List.append_assoc]
        cases field : parser.stage.advance parser.role
            (parser.held ++ (left ++ right).take parser.wanted) with
        | error refusal =>
            rw [verdict_of_refused waiting full field, rest, piece, ← hold_hold]
            rw [octets] at field
            rw [verdict_of_refused waitingThen fullThen field]
        | ok next =>
            rw [verdict_of_advanced waiting full field, rest]
            rw [octets] at field
            rw [verdict_of_advanced waitingThen fullThen field]
            rfl
      · have shortThen : right.length < (parser.hold left).wanted := by
          rw [wantedThen]
          rw [List.length_append] at full
          omega
        rw [verdict_of_short waiting (Nat.lt_of_not_le full),
          verdict_of_short waitingThen shortThen, hold_hold, wantedThen,
          List.length_append, Nat.sub_add_eq]
  | refused parser left refusal waiting full refused =>
      have fullBoth : parser.wanted ≤ (left ++ right).length := by
        rw [List.length_append]
        omega
      have piece : (left ++ right).take parser.wanted = left.take parser.wanted :=
        List.take_append_of_le_length full
      rw [verdict_of_refused waiting fullBoth (by rw [piece]; exact refused),
        verdict_of_refused waiting full refused, piece,
        List.drop_append_of_le_length full]
      rfl
  | advanced parser left next waiting full advanced inductionHypothesis =>
      have fullBoth : parser.wanted ≤ (left ++ right).length := by
        rw [List.length_append]
        omega
      have piece : (left ++ right).take parser.wanted = left.take parser.wanted :=
        List.take_append_of_le_length full
      rw [verdict_of_advanced waiting fullBoth (by rw [piece]; exact advanced),
        verdict_of_advanced waiting full advanced,
        List.drop_append_of_le_length full, inductionHypothesis]

end HeaderParser
end WebSocket
