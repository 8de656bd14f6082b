import WebSocket.Proofs.Decoder.Chunking
import WebSocket.Proofs.Header.Feeds

/-!
# Sequences of feeds

Octets that a call leaves over may be fed again or dropped. A decoder depends only on the
octets that its calls have taken: as long as it refuses nothing, it is where decoding them
at once leads.
-/

namespace WebSocket
namespace Decoder

/-- The answers to feeds that are made one after the other, whatever they leave over, and
the decoder behind them. -/
def feedEach (decoder : Decoder) :
    List (List UInt8) → List (Except Refusal (Parse Frame)) × Decoder
  | [] => ([], decoder)
  | input :: later =>
      let fed := decoder.feed input
      let (answers, last) := fed.decoder.feedEach later
      (fed.answer :: answers, last)

/-- The octets that feeds take which are made one after the other. -/
def takenEach (decoder : Decoder) : List (List UInt8) → List UInt8
  | [] => []
  | input :: later =>
      let fed := decoder.feed input
      input.take fed.consumed ++ fed.decoder.takenEach later

/-- A decoder that waits takes some of the octets that it is fed. -/
theorem length_rest_verdict_lt
    {decoder : Decoder}
    (waits : 0 < decoder.wanted)
    {input : List UInt8}
    (nonempty : input ≠ []) :
    (decoder.verdict input).rest.length < input.length := by
  obtain ⟨octet, later, rfl⟩ := List.exists_cons_of_ne_nil nonempty
  have taken : (decoder.verdict [octet]).rest = [] := rest_of_length_le_wanted waits
  have both := decoder.verdict_append [octet] later
  rw [List.singleton_append] at both
  rw [both, List.length_cons, Nat.lt_succ_iff]
  unfold Verdict.resume
  rw [taken, List.nil_append]
  split
  · exact length_rest_verdict_le _ later
  · exact Nat.le_refl _

/-- What is left over is the end of what was fed. -/
theorem rest_verdict_suffix (decoder : Decoder) (input : List UInt8) :
    (decoder.verdict input).rest <:+ input := by
  induction decoder, input using feed_induction with
  | headerRefused decoder input parser rest refusal between parsed =>
      have suffix := decoder.parser.rest_verdict_suffix input
      rw [parsed] at suffix
      rw [verdict_of_header_refused between parsed]
      exact suffix
  | headerShort decoder input parser rest count between parsed =>
      have suffix := decoder.parser.rest_verdict_suffix input
      rw [parsed] at suffix
      rw [verdict_of_header_short between parsed]
      exact suffix
  | rejected decoder input parser rest header announced refusal between parsed rejection =>
      have suffix := decoder.parser.rest_verdict_suffix input
      rw [parsed] at suffix
      rw [verdict_of_rejected between parsed rejection]
      exact suffix
  | accepted decoder input parser rest header announced next between parsed acceptance
      inductionHypothesis =>
      have suffix := decoder.parser.rest_verdict_suffix input
      rw [parsed] at suffix
      rw [verdict_of_accepted between parsed acceptance]
      exact inductionHypothesis.trans suffix
  | payloadShort decoder input frame inFlight short =>
      rw [verdict_of_payload_short inFlight short]
      exact List.nil_suffix
  | delivered decoder input frame delivered next inFlight full finished =>
      rw [verdict_of_delivered inFlight full finished]
      exact List.drop_suffix _ _
  | continued decoder input frame next inFlight full finished inductionHypothesis =>
      rw [verdict_of_continued inFlight full finished]
      exact inductionHypothesis.trans (List.drop_suffix _ _)

theorem take_consumed_append_rest (decoder : Decoder) (input : List UInt8) :
    input.take (decoder.feed input).consumed ++ (decoder.verdict input).rest = input := by
  obtain ⟨taken, whole⟩ := decoder.rest_verdict_suffix input
  have total := decoder.consumed_add_length_rest_feed input
  have width : (decoder.feed input).consumed = taken.length := by
    have both := congrArg List.length whole
    rw [List.length_append] at both
    exact Nat.add_right_cancel (total.trans both.symm)
  rw [width]
  conv => lhs; lhs; rw [← whole, List.take_left]
  exact whole

/-- What a call takes comes to the same without what it leaves over. -/
theorem verdict_take_consumed (decoder : Decoder) (input : List UInt8) :
    decoder.verdict (input.take (decoder.feed input).consumed) =
      { decoder.verdict input with rest := [] } := by
  have whole := decoder.take_consumed_append_rest input
  generalize input.take (decoder.feed input).consumed = taken at whole ⊢
  rcases fed : decoder.verdict input with ⟨last, rest, answer⟩
  rw [fed] at whole
  have both := decoder.verdict_append taken rest
  rw [show taken ++ rest = input from whole, fed] at both
  rcases first : decoder.verdict taken with ⟨next, left, answer'⟩
  rw [first] at both
  cases answer' with
  | error refusal =>
      obtain ⟨rfl, unchanged, rfl⟩ := Verdict.mk.inj both
      obtain rfl : left = [] := List.self_eq_append_left.mp unchanged
      rfl
  | ok parsed =>
      cases parsed with
      | ready frame =>
          obtain ⟨rfl, unchanged, rfl⟩ := Verdict.mk.inj both
          obtain rfl : left = [] := List.self_eq_append_left.mp unchanged
          rfl
      | needMore count =>
          have answered := congrArg Verdict.answer first
          obtain ⟨nothing, wanted, positive⟩ := verdict_of_needMore answered
          rw [first] at nothing wanted
          obtain rfl : left = [] := nothing
          obtain rfl : next.wanted = count := wanted
          -- The second turn takes nothing, so there was nothing left for it.
          by_cases empty : rest = []
          · subst empty
            exact (verdict_nil positive).symm.trans both.symm
          · have shorter := length_rest_verdict_lt positive empty
            rw [show next.verdict rest = _ from both.symm] at shorter
            exact absurd shorter (Nat.lt_irrefl _)

/-- A decoder that refuses none of its feeds is where decoding the octets that they take
leads. -/
theorem decodeFrom_takenEach
    {decoder : Decoder}
    (waits : 0 < decoder.wanted)
    (offset : Nat)
    {inputs : List (List UInt8)}
    (accepted : ∀ refusal, .error refusal ∉ (decoder.feedEach inputs).1) :
    (decoder.decodeFrom offset (decoder.takenEach inputs)).refusal = none ∧
      (decoder.decodeFrom offset (decoder.takenEach inputs)).decoder =
        (decoder.feedEach inputs).2 := by
  induction inputs generalizing decoder offset with
  | nil =>
      rw [takenEach, decodeFrom_nil waits]
      exact ⟨rfl, rfl⟩
  | cons input later inductionHypothesis =>
      have takes := decoder.verdict_take_consumed input
      have others : ∀ refusal, .error refusal ∉
          ((decoder.feed input).decoder.feedEach later).1 :=
        fun refusal member => accepted refusal (List.mem_cons_of_mem _ member)
      rw [takenEach, feedEach, decodeFrom_append]
      cases answer : (decoder.feed input).answer with
      | error refusal =>
          have refused : .error refusal ∈ (decoder.feedEach (input :: later)).1 := by
            rw [feedEach, answer]
            exact List.mem_cons_self
          exact absurd refused (accepted refusal)
      | ok parsed =>
          have waitsThen : 0 < (decoder.feed input).decoder.wanted := wanted_pos_of_ok answer
          have fed : decoder.verdict (input.take (decoder.feed input).consumed) =
              ⟨(decoder.feed input).decoder, [], .ok parsed⟩ :=
            takes.trans (Verdict.ext rfl rfl answer)
          cases parsed with
          | needMore count =>
              rw [decodeFrom_of_needMore offset fed]
              exact inductionHypothesis waitsThen _ others
          | ready frame =>
              rw [decodeFrom_of_ready offset fed, decodeFrom_nil waitsThen]
              exact inductionHypothesis waitsThen _ others

end Decoder
end WebSocket
