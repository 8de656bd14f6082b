import WebSocket.Proofs.Header.Feeding

/-!
# Feeding a header parser piece by piece

A header may arrive in pieces of any size. The parser asks for more until it can answer, and
from then on gives that answer to whatever it is fed and takes no octet of it. So feeding
pieces comes to what feeding them at once comes to.
-/

namespace WebSocket
namespace HeaderParser

/-- The answers to feeds that are made one after the other, whatever they leave over, and
the parser behind them. -/
def feedEach (parser : HeaderParser) :
    List (List UInt8) → List (Except Refusal (Parse (FrameHeader × Nat))) × HeaderParser
  | [] => ([], parser)
  | input :: later =>
      let fed := parser.feed input
      let (answers, last) := fed.parser.feedEach later
      (fed.answer :: answers, last)

/-- The octets that feeds take which are made one after the other. -/
def takenEach (parser : HeaderParser) : List (List UInt8) → List UInt8
  | [] => []
  | input :: later =>
      let fed := parser.feed input
      input.take fed.consumed ++ fed.parser.takenEach later

/-- The number of octets that feeds take which are made one after the other. -/
def consumedEach (parser : HeaderParser) : List (List UInt8) → Nat
  | [] => 0
  | input :: later =>
      let fed := parser.feed input
      fed.consumed + fed.parser.consumedEach later

@[simp] theorem feedEach_nil (parser : HeaderParser) : parser.feedEach [] = ([], parser) := rfl

@[simp] theorem feedEach_cons
    (parser : HeaderParser)
    (input : List UInt8)
    (later : List (List UInt8)) :
    parser.feedEach (input :: later) =
      ((parser.verdict input).answer :: ((parser.verdict input).parser.feedEach later).1,
        ((parser.verdict input).parser.feedEach later).2) := rfl

/-! ## What a feed takes -/

/-- What is left over is the end of what was fed. -/
theorem rest_verdict_suffix (parser : HeaderParser) (input : List UInt8) :
    (parser.verdict input).rest <:+ input := by
  induction parser, input using feed_induction with
  | complete parser input header complete =>
      exact ⟨[], congrArg Verdict.rest (verdict_of_complete complete)⟩
  | short parser input waiting short =>
      rw [verdict_of_short waiting short]
      exact List.nil_suffix
  | refused parser input refusal waiting full refused =>
      rw [verdict_of_refused waiting full refused]
      exact List.drop_suffix _ _
  | advanced parser input next waiting full advanced inductionHypothesis =>
      rw [verdict_of_advanced waiting full advanced]
      exact inductionHypothesis.trans (List.drop_suffix _ _)

/-- A call takes the octets that it does not leave over. -/
theorem consumed_add_length_rest_feed (parser : HeaderParser) (input : List UInt8) :
    (parser.feed input).consumed + (parser.verdict input).rest.length = input.length := by
  have total := parser.consumed_add_length_rest_feedFrom input 0 #[]
  rwa [Nat.zero_add] at total

theorem take_consumed_append_rest (parser : HeaderParser) (input : List UInt8) :
    input.take (parser.feed input).consumed ++ (parser.verdict input).rest = input := by
  obtain ⟨taken, whole⟩ := parser.rest_verdict_suffix input
  have total := parser.consumed_add_length_rest_feed input
  have width : (parser.feed input).consumed = taken.length := by
    have both := congrArg List.length whole
    rw [List.length_append] at both
    omega
  rw [width]
  conv => lhs; lhs; rw [← whole, List.take_left]
  exact whole

/-- What is left over is behind the octets that are taken. -/
theorem drop_consumed_feed (parser : HeaderParser) (input : List UInt8) :
    input.drop (parser.feed input).consumed = (parser.feed input).rest :=
  List.append_cancel_left
    ((List.take_append_drop _ input).trans (parser.take_consumed_append_rest input).symm)

/-- Feeds count the octets that they take. -/
theorem length_takenEach (parser : HeaderParser) (inputs : List (List UInt8)) :
    (parser.takenEach inputs).length = parser.consumedEach inputs := by
  induction inputs generalizing parser with
  | nil => rfl
  | cons input later inductionHypothesis =>
      have within : (parser.feed input).consumed ≤ input.length :=
        Nat.le.intro (parser.consumed_add_length_rest_feed input)
      rw [takenEach, consumedEach, List.length_append, List.length_take_of_le within,
        inductionHypothesis]

theorem wanted_new_pos (role : Role) : 0 < (new role).wanted := Nat.one_pos

/-- No octets change nothing in a parser that wants some. -/
theorem verdict_nil {parser : HeaderParser} (waits : 0 < parser.wanted) :
    parser.verdict [] = ⟨parser, [], .ok (.needMore parser.wanted)⟩ := by
  have short : ([] : List UInt8).length < parser.wanted := waits
  rw [verdict_of_short (parser.complete?_of_wanted_pos waits) short]
  simp [hold]

/-! ## Settled parsers -/

/-- A parser that gives one answer to whatever it is fed, and takes nothing. -/
def Settled
    (parser : HeaderParser)
    (answer : Except Refusal (Parse (FrameHeader × Nat))) : Prop :=
  ∀ input, parser.verdict input = ⟨parser, input, answer⟩

/-- A parser that does not ask for more is settled. -/
theorem settled_of_answer
    {parser : HeaderParser}
    {input : List UInt8}
    (answers : ∀ count, (parser.verdict input).answer ≠ .ok (.needMore count)) :
    (parser.verdict input).parser.Settled (parser.verdict input).answer := by
  induction parser, input using feed_induction with
  | complete parser input header complete =>
      rw [verdict_of_complete complete]
      exact fun _ => verdict_of_complete complete
  | short parser input waiting short =>
      rw [verdict_of_short waiting short] at answers
      exact absurd rfl (answers _)
  | refused parser input refusal waiting full refused =>
      -- The field that was refused is held, so the next call reads it again.
      have filled : (parser.hold (input.take parser.wanted)).wanted = 0 := by
        rw [wanted_hold, List.length_take_of_le full, Nat.sub_self]
      intro more
      have waitingHeld : (parser.hold (input.take parser.wanted)).stage.complete? = none :=
        waiting
      have fullHeld : (parser.hold (input.take parser.wanted)).wanted ≤ more.length := by
        rw [filled]
        exact Nat.zero_le _
      rw [verdict_of_refused waiting full refused]
      have refusedHeld : parser.stage.advance parser.role
          ((parser.hold (input.take parser.wanted)).held ++
            more.take (parser.hold (input.take parser.wanted)).wanted) = .error refusal := by
        rw [filled, List.take_zero, List.append_nil]
        exact refused
      have again := verdict_of_refused waitingHeld fullHeld refusedHeld
      rw [filled, List.take_zero, hold_hold, List.append_nil] at again
      exact again
  | advanced parser input next waiting full advanced inductionHypothesis =>
      rw [verdict_of_advanced waiting full advanced] at answers ⊢
      exact inductionHypothesis answers

theorem resume_of_answer
    {verdict : Verdict}
    (answers : ∀ count, verdict.answer ≠ .ok (.needMore count))
    (more : List UInt8) :
    verdict.resume more = ⟨verdict.parser, verdict.rest ++ more, verdict.answer⟩ := by
  unfold Verdict.resume
  split
  · rename_i count asks
    exact absurd asks (answers count)
  · rfl

section Settled

variable
    {parser : HeaderParser}
    {answer : Except Refusal (Parse (FrameHeader × Nat))}

theorem Settled.consumed (settled : parser.Settled answer) (input : List UInt8) :
    (parser.feed input).consumed = 0 := by
  have total := parser.consumed_add_length_rest_feed input
  rw [settled input] at total
  exact Nat.add_eq_right.mp total

theorem Settled.feedEach (settled : parser.Settled answer) (pieces : List (List UInt8)) :
    parser.feedEach pieces = (List.replicate pieces.length answer, parser) := by
  induction pieces with
  | nil => rfl
  | cons piece later inductionHypothesis =>
      simp [settled piece, inductionHypothesis, List.replicate_succ]

theorem Settled.takenEach (settled : parser.Settled answer) (pieces : List (List UInt8)) :
    parser.takenEach pieces = [] := by
  induction pieces with
  | nil => rfl
  | cons piece later inductionHypothesis =>
      rw [HeaderParser.takenEach, settled.consumed piece, List.take_zero, List.nil_append]
      have same : (parser.feed piece).parser = parser :=
        congrArg Verdict.parser (settled piece)
      rw [same, inductionHypothesis]

end Settled

/-! ## Pieces -/

/-- Whether answers ask for more for a while and then are one answer again and again. If
that one never comes, it is to ask for more as well. -/
def Comes
    (answer : Except Refusal (Parse (FrameHeader × Nat)))
    (answers : List (Except Refusal (Parse (FrameHeader × Nat)))) : Prop :=
  ∃ (counts : List Nat) (repeats : Nat),
    answers = counts.map (fun count => .ok (.needMore count)) ++
        List.replicate repeats answer ∧
      (repeats = 0 → ∃ count, answer = .ok (.needMore count))

/-- Feeding a parser in pieces is feeding it at once. -/
theorem feedEach_flatten
    {parser : HeaderParser}
    (waits : 0 < parser.wanted)
    (pieces : List (List UInt8)) :
    let whole := parser.verdict pieces.flatten
    Comes whole.answer (parser.feedEach pieces).1 ∧
      (parser.feedEach pieces).2 = whole.parser ∧
      parser.takenEach pieces ++ whole.rest = pieces.flatten := by
  induction pieces generalizing parser with
  | nil =>
      rw [List.flatten_nil, verdict_nil waits]
      exact ⟨⟨[], 0, rfl, fun _ => ⟨_, rfl⟩⟩, rfl, rfl⟩
  | cons piece later inductionHypothesis =>
      have whole := parser.take_consumed_append_rest piece
      rw [List.flatten_cons, verdict_append, feedEach_cons, takenEach]
      by_cases asks : ∃ count, (parser.verdict piece).answer = .ok (.needMore count)
      · obtain ⟨count, asks⟩ := asks
        obtain ⟨nothing, wanted, positive⟩ := verdict_of_needMore asks
        rw [nothing, List.append_nil] at whole
        rw [← wanted] at positive
        obtain ⟨⟨counts, repeats, answers, stays⟩, last, taken⟩ :=
          inductionHypothesis positive
        simp only [Verdict.resume, asks, nothing, List.nil_append]
        refine ⟨⟨count :: counts, repeats, congrArg _ answers, stays⟩, last, ?_⟩
        rw [whole, List.append_assoc]
        exact congrArg _ taken
      · have answers : ∀ count, (parser.verdict piece).answer ≠ .ok (.needMore count) :=
          fun count asked => asks ⟨count, asked⟩
        have settled := settled_of_answer answers
        have nothing : (parser.feed piece).parser.takenEach later = [] :=
          settled.takenEach later
        rw [resume_of_answer answers, settled.feedEach, nothing, List.append_nil]
        refine ⟨⟨[], later.length + 1, rfl, fun none => absurd none (Nat.succ_ne_zero _)⟩,
          rfl, ?_⟩
        exact (List.append_assoc _ _ _).symm.trans (congrArg (· ++ later.flatten) whole)

end HeaderParser
end WebSocket
