import WebSocket.Proofs.Grammar.Encoding
import WebSocket.Proofs.Grammar.Stream

/-!
# Decoding what was written

Frames that are written one behind the other are delivered one by one, up to the first
that is not acceptable. A decoder that accepts all of them is as new behind the last.
-/

namespace WebSocket
namespace Decoder

open Grammar

/-- The octets of frames that are written one behind the other, each with its mask. -/
def writtenAll (sent : List (Option MaskingKey × Frame)) : List UInt8 :=
  sent.flatMap fun (mask, frame) => written mask frame

@[simp] theorem writtenAll_nil : writtenAll [] = [] := rfl

@[simp] theorem writtenAll_cons
    (mask : Option MaskingKey)
    (frame : Frame)
    (sent : List (Option MaskingKey × Frame)) :
    writtenAll ((mask, frame) :: sent) = written mask frame ++ writtenAll sent := rfl

@[simp] theorem writtenAll_append (earlier later : List (Option MaskingKey × Frame)) :
    writtenAll (earlier ++ later) = writtenAll earlier ++ writtenAll later :=
  List.flatMap_append

section Written

variable
    {role : Role}
    {limit : Nat}
    {memory : Memory}
    {mask : Option MaskingKey}
    {sent : Frame}

/-- A frame that is acceptable is delivered by itself. -/
theorem verdict_of_acceptable
    (sendable : Sendable role memory mask sent)
    (accepted : acceptable limit sent = true)
    (rest : List UInt8) :
    (new role.peer limit memory).verdict (written mask sent ++ rest) =
      ⟨new role.peer limit memory, rest, .ok (.ready sent)⟩ := by
  have follows := follows_frame role.peer limit memory fits_none (written mask sent ++ rest)
  have found := frame_written limit sendable rest
  rw [accepted, if_pos rfl] at found
  rw [Option.map_none, found] at follows
  obtain ⟨next, kept, -, verdict⟩ := follows
  obtain rfl : next = none := Option.map_eq_none_iff.mp kept
  exact verdict

/-- A frame that is not acceptable ends decoding. -/
theorem answer_of_not_acceptable
    (sendable : Sendable role memory mask sent)
    (rejected : acceptable limit sent = false)
    (rest : List UInt8) :
    ((new role.peer limit memory).verdict (written mask sent ++ rest)).answer =
      .error (objection limit sent) := by
  have follows := follows_frame role.peer limit memory fits_none (written mask sent ++ rest)
  have found := frame_written limit sendable rest
  rw [rejected, if_neg Bool.false_ne_true] at found
  rw [Option.map_none, found] at follows
  exact follows.1

end Written

/-- Decoding what was written delivers the frames up to the first that is not acceptable,
and refuses that one. -/
theorem decodeFrom_writtenAll
    {role : Role}
    {memory : Memory}
    (limit offset : Nat)
    {sent : List (Option MaskingKey × Frame)}
    (sendable : ∀ item ∈ sent, Sendable role memory item.1 item.2) :
    let outcome := (new role.peer limit memory).decodeFrom offset (writtenAll sent)
    let frames := sent.map Prod.snd
    outcome.deliveries.map Prod.snd = frames.takeWhile (acceptable limit) ∧
      outcome.refusal = (frames.find? (!acceptable limit ·)).map (objection limit) ∧
      (outcome.refusal = none → outcome.decoder = new role.peer limit memory) := by
  induction sent generalizing offset with
  | nil =>
      have waits : 0 < (new role.peer limit memory).wanted := Nat.one_pos
      rw [writtenAll_nil, decodeFrom_nil waits]
      exact ⟨rfl, rfl, fun _ => rfl⟩
  | cons item sent inductionHypothesis =>
      obtain ⟨mask, frame⟩ := item
      have first := sendable _ List.mem_cons_self
      have others := fun offset => inductionHypothesis offset fun item member =>
        sendable item (List.mem_cons_of_mem _ member)
      rw [writtenAll_cons]
      cases accepted : acceptable limit frame with
      | true =>
          rw [decodeFrom_of_ready offset (verdict_of_acceptable first accepted _)]
          obtain ⟨delivered, refused, renewed⟩ := others
            (offset + ((written mask frame ++ writtenAll sent).length -
              (writtenAll sent).length))
          refine ⟨?_, ?_, renewed⟩
          · rw [List.map_cons, List.takeWhile_cons_of_pos accepted, ← delivered]
            rfl
          · rw [List.map_cons, List.find?_cons_of_neg (by simp [accepted]), ← refused]
            rfl
      | false =>
          rcases verdict : (new role.peer limit memory).verdict
            (written mask frame ++ writtenAll sent) with ⟨next, rest, answer⟩
          have refused := answer_of_not_acceptable first accepted (writtenAll sent)
          rw [verdict] at refused
          obtain rfl : answer = .error (objection limit frame) := refused
          rw [decodeFrom_of_refused offset verdict]
          refine ⟨?_, ?_, nofun⟩
          · rw [List.map_cons, List.takeWhile_cons_of_neg (by simp [accepted])]
            rfl
          · rw [List.map_cons, List.find?_cons_of_pos (by simp [accepted])]
            rfl

end Decoder
end WebSocket
