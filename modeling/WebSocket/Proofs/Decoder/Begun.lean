import WebSocket.Proofs.Decoder.Written
import WebSocket.Proofs.Decoder.Yields
import WebSocket.Proofs.Grammar.Prefixes

/-!
# Decoding frames that are still under way

What has arrived of frames that were written one behind the other is a number of whole
frames and a part of the next one. A decoder that accepts the frames has delivered the whole
ones by then, and has something in progress exactly if the part is not empty.
-/

namespace WebSocket
namespace Decoder

open Grammar

/-- Whether octets are the front of the first of some frames, but not all of it. -/
def Begins (part : List UInt8) : List (Option MaskingKey × Frame) → Prop
  | [] => part = []
  | (mask, frame) :: _ => part <+: written mask frame ∧ part ≠ written mask frame

theorem written_ne_nil (mask : Option MaskingKey) (frame : Frame) :
    written mask frame ≠ [] := by
  rw [written, FrameHeader.encode_eq_encodeAs, FrameHeader.encodeAs]
  exact List.cons_ne_nil _ _

/-- The front of frames that were written one behind the other is that of whole frames and
of a part of the next one. -/
theorem exists_begins
    {stream : List UInt8}
    {sent : List (Option MaskingKey × Frame)}
    (front : stream <+: writtenAll sent) :
    ∃ whole later part,
      sent = whole ++ later ∧ stream = writtenAll whole ++ part ∧ Begins part later := by
  induction sent generalizing stream with
  | nil => exact ⟨[], [], [], rfl, List.prefix_nil.mp front, rfl⟩
  | cons item sent inductionHypothesis =>
      obtain ⟨mask, frame⟩ := item
      rw [writtenAll_cons] at front
      by_cases whole : written mask frame <+: stream
      · obtain ⟨rest, rfl⟩ := whole
        obtain ⟨whole, later, part, rfl, rfl, begins⟩ :=
          inductionHypothesis ((List.prefix_append_right_inj _).mp front)
        refine ⟨(mask, frame) :: whole, later, part, rfl, ?_, begins⟩
        rw [writtenAll_cons, List.append_assoc]
      · refine ⟨[], (mask, frame) :: sent, stream, rfl, rfl, ?_, ?_⟩
        · have either := List.prefix_or_prefix_of_prefix front (List.prefix_append _ _)
          exact either.resolve_right whole
        · rintro rfl
          exact whole List.prefix_rfl

section Begins

variable
    {role : Role}
    {limit : Nat}
    {memory : Memory}

/-- Behind a part of a frame that it accepts, a decoder awaits the rest. -/
theorem verdict_of_begins
    {mask : Option MaskingKey}
    {sent : Frame}
    (sendable : Sendable role memory mask sent)
    (accepted : acceptable limit sent = true)
    {part : List UInt8}
    (front : part <+: written mask sent)
    (cut : part ≠ written mask sent) :
    ∃ next count,
      (new role.peer limit memory).verdict part = ⟨next, [], .ok (.needMore count)⟩ ∧
        next.inProgress = !part.isEmpty := by
  have found := frame_written limit sendable []
  rw [accepted, if_pos rfl, List.append_nil] at found
  have short : part.length < (written mask sent).length :=
    Nat.lt_of_le_of_ne front.length_le (mt front.eq_of_length cut)
  have ended := (settles_frame role.peer limit memory none).take_of_found found short
  rw [← List.prefix_iff_eq_take.mp front] at ended
  have follows := follows_frame role.peer limit memory fits_none part
  rw [Option.map_none, ended] at follows
  obtain ⟨⟨count, asks⟩, inProgress⟩ := follows
  refine ⟨_, count, ?_, inProgress.trans (by simp)⟩
  exact Verdict.ext rfl (verdict_of_needMore asks).1 asks

/-- A decoder delivers frames that it accepts, and is as new behind them. -/
theorem yields_writtenAll
    {sent : List (Option MaskingKey × Frame)}
    (sendable : ∀ item ∈ sent, Sendable role memory item.1 item.2)
    (accepted : ∀ item ∈ sent, acceptable limit item.2 = true) :
    (new role.peer limit memory).Yields (writtenAll sent) (sent.map Prod.snd)
      (new role.peer limit memory) := by
  induction sent with
  | nil => exact yields_nil Nat.one_pos
  | cons item sent inductionHypothesis =>
      obtain ⟨mask, frame⟩ := item
      obtain ⟨sendableFirst, sendableThen⟩ := List.forall_mem_cons.mp sendable
      obtain ⟨acceptedFirst, acceptedThen⟩ := List.forall_mem_cons.mp accepted
      have fed := verdict_of_acceptable sendableFirst acceptedFirst []
      rw [List.append_nil] at fed
      have first : (new role.peer limit memory).Yields (written mask frame) [frame]
          (new role.peer limit memory) := by
        intro offset
        rw [decodeFrom_of_whole fed]
        exact ⟨rfl, rfl, rfl⟩
      exact first.append (inductionHypothesis sendableThen acceptedThen)

/-- What has arrived of frames that a decoder accepts leads to the whole ones among them. -/
theorem exists_yields_of_begins
    {whole later : List (Option MaskingKey × Frame)}
    (sendable : ∀ item ∈ whole ++ later, Sendable role memory item.1 item.2)
    (accepted : ∀ item ∈ whole ++ later, acceptable limit item.2 = true)
    {part : List UInt8}
    (begins : Begins part later) :
    ∃ next,
      (new role.peer limit memory).Yields (writtenAll whole ++ part) (whole.map Prod.snd)
          next ∧
        next.inProgress = !part.isEmpty := by
  obtain ⟨sendableWhole, sendableLater⟩ := List.forall_mem_append.mp sendable
  obtain ⟨acceptedWhole, acceptedLater⟩ := List.forall_mem_append.mp accepted
  have first := yields_writtenAll sendableWhole acceptedWhole
  cases later with
  | nil =>
      obtain rfl : part = [] := begins
      rw [List.append_nil]
      exact ⟨_, first, rfl⟩
  | cons item later =>
      obtain ⟨next, count, fed, inProgress⟩ :=
        verdict_of_begins (sendableLater item List.mem_cons_self)
          (acceptedLater item List.mem_cons_self) begins.1 begins.2
      refine ⟨next, ?_, inProgress⟩
      simpa using first.append (yields_of_needMore fed)

end Begins
end Decoder
end WebSocket
