import Mathlib.Control.Monad.Basic
import WebSocket.Proofs.Header.Feeds

/-!
# Operations on a header parser

A header parser may be reset at any time, and shows the field that it waits for, whether it is
idle and how many octets it wants. Behind a reset nothing shows of what came before it. Behind
a refusal the same is refused again, and no octet is taken, until there is a reset.
-/

namespace WebSocket
namespace HeaderParser

/-- Something that is done to a header parser. -/
inductive Operation
  | feed (input : List UInt8)
  | reset

/-- What shows of an operation and of the parser behind it. -/
@[ext] structure Observation where
  /-- What a feed answers, and the number of octets that it takes. -/
  fed? : Option (Except Refusal (Parse (FrameHeader × Nat)) × Nat)
  field : HeaderField
  isIdle : Bool
  wanted : Nat
  deriving DecidableEq

/-- What shows of an operation that leads to a parser. -/
def observe
    (parser : HeaderParser)
    (fed? : Option (Except Refusal (Parse (FrameHeader × Nat)) × Nat)) : Observation :=
  ⟨fed?, parser.stage.field, parser.isIdle, parser.wanted⟩

/-- Carry out an operation. -/
def operate (parser : HeaderParser) : Operation → Observation × HeaderParser
  | .feed input =>
      let fed := parser.feed input
      (fed.parser.observe (some (fed.answer, fed.consumed)), fed.parser)
  | .reset => (parser.reset.observe none, parser.reset)

/-- Carry out operations, one after the other. -/
def operateEach (parser : HeaderParser) :
    List Operation → List Observation × HeaderParser
  | [] => ([], parser)
  | operation :: later =>
      let (observation, next) := parser.operate operation
      let (observations, last) := next.operateEach later
      (observation :: observations, last)

theorem operateEach_cons
    (parser : HeaderParser)
    (operation : Operation)
    (later : List Operation) :
    parser.operateEach (operation :: later) =
      ((parser.operate operation).1 :: ((parser.operate operation).2.operateEach later).1,
        ((parser.operate operation).2.operateEach later).2) := rfl

theorem role_operate (parser : HeaderParser) (operation : Operation) :
    (parser.operate operation).2.role = parser.role := by
  cases operation with
  | feed input => exact parser.role_verdict input
  | reset => rfl

/-- A parser stays in its role. -/
theorem role_operateEach (parser : HeaderParser) (operations : List Operation) :
    (parser.operateEach operations).2.role = parser.role := by
  induction operations generalizing parser with
  | nil => rfl
  | cons operation later inductionHypothesis =>
      rw [operateEach_cons]
      exact (inductionHypothesis _).trans (parser.role_operate operation)

/-! ## Resets -/

/-- Behind a reset a parser is a new one in its role. -/
theorem operateEach_reset
    (parser : HeaderParser)
    (later : List Operation) :
    parser.operateEach (.reset :: later) =
      ((new parser.role).observe none :: ((new parser.role).operateEach later).1,
        ((new parser.role).operateEach later).2) := rfl

/-! ## Refusals -/

section Settled

variable
    {parser : HeaderParser}
    {answer : Except Refusal (Parse (FrameHeader × Nat))}

theorem isIdle_eq_false_of_wanted (full : parser.wanted = 0) : parser.isIdle = false := by
  cases idle : parser.isIdle with
  | false => rfl
  | true =>
      obtain ⟨role, stage, held⟩ := parser
      simp only [isIdle, Bool.and_eq_true, beq_iff_eq, List.isEmpty_iff] at idle
      obtain ⟨rfl, rfl⟩ := idle
      cases full

/-- A parser that is settled wants nothing, unless it asks for more. -/
theorem Settled.wanted
    (settled : parser.Settled answer)
    (answers : ∀ count, answer ≠ .ok (.needMore count)) :
    parser.wanted = 0 := by
  apply Nat.eq_zero_of_not_pos
  intro waits
  have asks := congrArg Verdict.answer ((settled []).symm.trans (verdict_nil waits))
  exact answers _ asks

/-- Feeding a parser that is settled gives the same answer and shows the same each time. -/
theorem Settled.operateEach
    (settled : parser.Settled answer)
    (inputs : List (List UInt8)) :
    parser.operateEach (inputs.map .feed) =
      (List.replicate inputs.length (parser.observe (some (answer, 0))), parser) := by
  induction inputs with
  | nil => rfl
  | cons input later inductionHypothesis =>
      have same : (parser.feed input).parser = parser :=
        congrArg Verdict.parser (settled input)
      have answered : (parser.feed input).answer = answer :=
        congrArg Verdict.answer (settled input)
      have first : parser.operate (.feed input) =
          (parser.observe (some (answer, 0)), parser) := by
        rw [operate, same, answered, settled.consumed]
      rw [List.map_cons, operateEach_cons, first, inductionHypothesis]
      rfl

end Settled

/-- A parser that has refused something refuses it again, whatever it is fed. -/
theorem settled_of_refused
    {parser : HeaderParser}
    {input : List UInt8}
    {refusal : Refusal}
    (refused : (parser.verdict input).answer = .error refusal) :
    (parser.verdict input).parser.Settled (.error refusal) := by
  rw [← refused]
  apply settled_of_answer
  intro count asks
  cases refused.symm.trans asks

/-- A parser that has a header gives it out again, whatever it is fed. -/
theorem settled_of_ready
    {parser : HeaderParser}
    {input : List UInt8}
    {item : FrameHeader × Nat}
    (ready : (parser.verdict input).answer = .ok (.ready item)) :
    (parser.verdict input).parser.Settled (.ok (.ready item)) := by
  rw [← ready]
  apply settled_of_answer
  intro count asks
  cases ready.symm.trans asks

end HeaderParser
end WebSocket
