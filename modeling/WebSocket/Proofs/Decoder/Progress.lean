import WebSocket.Proofs.Decoder.Parts
import WebSocket.Proofs.Decoder.Yields
import WebSocket.Proofs.Grammar.Fragments

/-!
# What is in progress

A decoder has something in progress from the first octet of a frame on, and from one fragment
of a message to the next. So octets that lead to neither a frame nor a refusal leave something
in progress.
-/

namespace WebSocket
namespace Decoder

open Grammar

variable
    {role : Role}
    {limit : Nat}
    {memory : Memory}

/-- A decoder has something in progress exactly if its stream ends with something open. -/
theorem Yields.inProgress_eq
    {taken : List UInt8}
    {frames : List Frame}
    {next : Decoder}
    (yields : (new role limit memory).Yields taken frames next) :
    next.inProgress = (transcript role limit memory none 0 taken).ending.isOpen := by
  obtain ⟨-, -, rfl⟩ := yields 0
  exact (reads_decodeFrom role limit memory fits_none 0 taken).inProgress

/-- A frame that delivers nothing leaves its message pending. -/
theorem isSome_of_fold
    {pending next : Option Frame}
    {header : FrameHeader}
    {payload : List UInt8}
    (folds : fold pending header payload = (none, next)) :
    next.isSome = true := by
  unfold fold at folds
  split at folds
  · cases folds
  · dsimp only at folds
    split at folds <;> cases folds
    rfl

/-- A decoder that asks for more behind octets, or behind a message that was pending, has
something in progress. -/
theorem inProgress_of_needMore
    {pending : Option PendingMessage}
    (fits : Fits pending)
    {stream : List UInt8}
    (begun : stream ≠ [] ∨ pending.isSome = true)
    {count : Nat}
    (asks : ((between role limit memory pending).verdict stream).answer =
      .ok (.needMore count)) :
    ((between role limit memory pending).verdict stream).decoder.inProgress = true := by
  induction size : stream.length using Nat.strongRecOn
    generalizing pending stream with
  | _ size inductionHypothesis =>
      subst size
      have follows := follows_frame role limit memory fits stream
      cases scanned : frame role limit memory (pending.map PendingMessage.toFrame)
          stream with
      | ended =>
          rw [scanned] at follows
          rw [follows.2]
          cases stream <;> cases pending <;> simp_all
      | refused refusal =>
          rw [scanned] at follows
          cases follows.1.symm.trans asks
      | found item rest =>
          obtain ⟨delivered, later⟩ := item
          rw [scanned] at follows
          obtain ⟨next, rfl, fitsNext, resumes⟩ := follows
          cases delivered with
          | some frame =>
              rw [resumes] at asks
              cases asks
          | none =>
              -- Only a fragment delivers nothing, and its message goes on.
              obtain ⟨physical, -, -, folds⟩ := exists_physical_of_frame scanned
              have kept : next.isSome = true :=
                Option.isSome_map.symm.trans (isSome_of_fold folds)
              rw [resumes] at asks ⊢
              exact inductionHypothesis rest.length (length_rest_lt_frame scanned) fitsNext
                (.inr kept) asks rfl

/-- Octets that lead to neither a frame nor a refusal are in progress. -/
theorem Yields.inProgress_of_needMore
    {taken octets : List UInt8}
    {frames : List Frame}
    {start next : Decoder}
    (yields : (new role limit memory).Yields taken frames start)
    (begun : octets ≠ [])
    {count : Nat}
    (asks : start.verdict octets = ⟨next, [], .ok (.needMore count)⟩) :
    next.inProgress = true := by
  obtain ⟨-, accepted, rfl⟩ := yields 0
  obtain ⟨whole, behind, -, -, fits, -, stands⟩ := exists_passes fits_none 0 taken accepted
  have both := (between role limit memory behind).verdict_append
    (unfinished role taken) octets
  rw [stands] at both
  replace both := both.trans asks
  have inProgress := Decoder.inProgress_of_needMore fits
    (.inl (List.append_ne_nil_of_right_ne_nil _ begun)) (congrArg Verdict.answer both)
  rwa [both] at inProgress

end Decoder
end WebSocket
