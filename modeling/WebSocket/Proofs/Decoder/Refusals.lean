import WebSocket.Proofs.Decoder.Feeding

/-!
# Refusals of a decoder

Whatever a decoder refuses, the error that it is answered with calls for a close code.
-/

namespace WebSocket

/-- Whether the error of a refusal is the peer's concern. -/
def Refusal.CallsForClose (refusal : Refusal) : Prop :=
  refusal.error.closeCode?.isSome = true

/-- Whether a refusal is one of those that it takes a whole header to find. -/
def Refusal.TakesHeader : Refusal → Prop
  | .fragmentedControl _ => True
  | .oversizedControl _ _ => True
  | .nothingToContinue => True
  | .interruptedMessage _ => True
  | .messageTooLong _ _ => True
  | .outOfMemory _ => True
  | _ => False

/-- Whether a refusal is one of those that a field of a header is enough to find. -/
def Refusal.TakesField : Refusal → Prop
  | .reservedBits => True
  | .unassignedOpcode _ => True
  | .missingMask => True
  | .unexpectedMask => True
  | .lengthTooLarge _ => True
  | _ => False

/-- The size that a refusal reports, if it reports one. -/
def Refusal.size? : Refusal → Option Nat
  | .messageTooLong size _ => some size
  | .outOfMemory size => some size
  | _ => none

theorem Refusal.TakesHeader.callsForClose
    {refusal : Refusal}
    (takes : refusal.TakesHeader) :
    refusal.CallsForClose := by
  cases refusal <;> first | rfl | cases takes

theorem Refusal.TakesField.callsForClose
    {refusal : Refusal}
    (takes : refusal.TakesField) :
    refusal.CallsForClose := by
  cases refusal <;> first | rfl | cases takes

/-- What a field shows has no size. -/
theorem Refusal.TakesField.size?_eq_none
    {refusal : Refusal}
    (takes : refusal.TakesField) :
    refusal.size? = none := by
  cases refusal <;> first | rfl | cases takes

namespace HeaderStage

theorem takesField_of_advance
    {role : Role}
    {stage : HeaderStage}
    {octets : List UInt8}
    {refusal : Refusal}
    (refused : stage.advance role octets = .error refusal) :
    refusal.TakesField := by
  cases stage with
  | initial =>
      simp only [advance, readInitial] at refused
      split at refused
      · cases refused
        trivial
      · split at refused
        · cases refused
        · cases refused
          trivial
  | length isFinal opcode =>
      simp only [advance, readLength] at refused
      split at refused
      · cases refused
        trivial
      · cases refused
        trivial
      · cases refused
  | extendedLength16 isFinal opcode => cases refused
  | extendedLength64 isFinal opcode =>
      simp only [advance, readLength64] at refused
      split at refused
      · cases refused
        trivial
      · cases refused
  | mask isFinal opcode announced => cases refused
  | payload header announced => cases refused

end HeaderStage

/-- A parser refuses what a field shows. -/
theorem HeaderParser.takesField_of_refused
    {parser : HeaderParser}
    {input : List UInt8}
    {refusal : Refusal}
    (refused : (parser.verdict input).answer = .error refusal) :
    refusal.TakesField := by
  induction parser, input using feed_induction with
  | complete parser input header complete =>
      rw [verdict_of_complete complete] at refused
      cases refused
  | short parser input waiting short =>
      rw [verdict_of_short waiting short] at refused
      cases refused
  | refused parser input refusal' waiting full refusedField =>
      rw [verdict_of_refused waiting full refusedField] at refused
      cases refused
      exact HeaderStage.takesField_of_advance refusedField
  | advanced parser input next waiting full advanced inductionHypothesis =>
      rw [verdict_of_advanced waiting full advanced] at refused
      exact inductionHypothesis refused

namespace Decoder

theorem takesHeader_of_reserve
    {memory : Memory}
    {limit held announced : Nat}
    {refusal : Refusal}
    (refused : PendingMessage.reserve memory limit held announced = .error refusal) :
    refusal.TakesHeader := by
  simp only [PendingMessage.reserve] at refused
  split at refused
  · cases refused
    trivial
  · split at refused
    · cases refused
    · cases refused
      trivial

/-- The number of octets that a decoder holds of the message that is pending. -/
def heldSize (decoder : Decoder) : Nat :=
  (decoder.pending.map (·.payload.size)).getD 0

/-- A header is rejected because its frame is out of place, or because there is no room for
its fragment behind what is held. -/
theorem reject_cases
    {decoder : Decoder}
    {header : FrameHeader}
    {announced : Nat}
    {refusal : Refusal}
    (refused : decoder.accept header announced = .error refusal) :
    (refusal.TakesHeader ∧ refusal.size? = none) ∨
      PendingMessage.reserve decoder.memory decoder.limit decoder.heldSize announced =
        .error refusal := by
  unfold accept at refused
  split at refused
  · split at refused
    · cases refused
      exact .inl ⟨trivial, rfl⟩
    · split at refused
      · cases refused
        exact .inl ⟨trivial, rfl⟩
      · cases refused
  · split at refused
    · cases refused
      exact .inl ⟨trivial, rfl⟩
    · rename_i message pending
      split at refused
      · rename_i reserved
        cases refused
        right
        rw [heldSize, pending]
        exact reserved
      · cases refused
  · split at refused
    · cases refused
      exact .inl ⟨trivial, rfl⟩
    · rename_i pending
      split at refused
      · rename_i reserved
        cases refused
        right
        rw [heldSize, pending]
        exact reserved
      · cases refused

/-- The rules for frames take a whole header. -/
theorem takesHeader_of_accept
    {decoder : Decoder}
    {header : FrameHeader}
    {announced : Nat}
    {refusal : Refusal}
    (refused : decoder.accept header announced = .error refusal) :
    refusal.TakesHeader := by
  rcases reject_cases refused with ⟨takes, -⟩ | reserved
  · exact takes
  · exact takesHeader_of_reserve reserved

/-- Every refusal of a decoder calls for a close code. -/
theorem callsForClose_of_refused
    {decoder : Decoder}
    {input : List UInt8}
    {refusal : Refusal}
    (refused : (decoder.verdict input).answer = .error refusal) :
    refusal.CallsForClose := by
  induction decoder, input using feed_induction with
  | headerRefused decoder input parser rest refusal' between parsed =>
      rw [verdict_of_header_refused between parsed] at refused
      cases refused
      have takes := HeaderParser.takesField_of_refused
        (congrArg HeaderParser.Verdict.answer parsed)
      exact takes.callsForClose
  | headerShort decoder input parser rest count between parsed =>
      rw [verdict_of_header_short between parsed] at refused
      cases refused
  | rejected decoder input parser rest header announced refusal' between parsed rejection =>
      rw [verdict_of_rejected between parsed rejection] at refused
      cases refused
      exact (takesHeader_of_accept rejection).callsForClose
  | accepted decoder input parser rest header announced next between parsed acceptance
      inductionHypothesis =>
      rw [verdict_of_accepted between parsed acceptance] at refused
      exact inductionHypothesis refused
  | payloadShort decoder input frame inFlight short =>
      rw [verdict_of_payload_short inFlight short] at refused
      cases refused
  | delivered decoder input frame delivered next inFlight full finished =>
      rw [verdict_of_delivered inFlight full finished] at refused
      cases refused
  | continued decoder input frame next inFlight full finished inductionHypothesis =>
      rw [verdict_of_continued inFlight full finished] at refused
      exact inductionHypothesis refused

end Decoder
end WebSocket
