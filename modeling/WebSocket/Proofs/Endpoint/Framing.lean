import WebSocket.Proofs.Decoder.Begun
import WebSocket.Proofs.Endpoint.Writes

/-!
# The frames on the wire

Every submission puts the front of its frame on the wire, behind whatever is there by then.
So the wire holds whole frames and at most the front of one more, up to the first submission
that fails when a part of its frame is on the wire already. Nothing is remembered of such a
failure, and what is submitted next goes right behind that part.
-/

namespace WebSocket
namespace Endpoint

open Grammar
open Decoder (Begins writtenAll)

/-- What a submission comes to on the wire. -/
structure Transmission where
  /-- The mask that its frame has, or would have had. -/
  mask : Option MaskingKey
  frame : Frame
  /-- The octets that went on the wire. -/
  part : List UInt8
  answer : Except Error Unit

namespace Transmission

/-- The octets of the whole frame. -/
def octets (transmission : Transmission) : List UInt8 :=
  written transmission.mask transmission.frame

theorem octets_ne_nil (transmission : Transmission) : transmission.octets ≠ [] :=
  Decoder.written_ne_nil _ _

theorem ne_octets_of_silent
    (transmission : Transmission)
    (silent : transmission.part = []) :
    transmission.part ≠ transmission.octets := by
  rw [silent]
  exact transmission.octets_ne_nil.symm

/-- Whether some octets of the frame went on the wire, but not all of them. -/
def isCut (transmission : Transmission) : Bool :=
  transmission.part != [] && transmission.part != transmission.octets

/-- Whether the front of a frame went on the wire, and all of it exactly if the submission
succeeded. -/
structure IsFront (role : Role) (transmission : Transmission) : Prop where
  masks : Masks role transmission.mask
  front : transmission.part <+: transmission.octets
  whole : transmission.answer = .ok () ↔ transmission.part = transmission.octets
  assigned : transmission.part ≠ [] → transmission.frame.opcode.isAssigned = true

end Transmission

/-- What a submission comes to on the wire. -/
def transmission (endpoint : Endpoint) (submission : Submission) : Transmission :=
  let before := endpoint.channel.outbound.wire.size
  let (report, next) := endpoint.submit submission
  { mask := endpoint.nextMask
    frame := submission.frame
    part := next.channel.outbound.wire.toList.drop before
    answer := report.answer }

/-- What submissions that are made one after the other come to on the wire. -/
def transmitEach (endpoint : Endpoint) : List Submission → List Transmission
  | [] => []
  | submission :: later =>
      endpoint.transmission submission :: (endpoint.submit submission).2.transmitEach later

/-- A submission puts the front of its frame on the wire, or nothing. -/
theorem isFront_transmission (endpoint : Endpoint) (submission : Submission) :
    let transmission := endpoint.transmission submission
    transmission.IsFront endpoint.role ∧
      (endpoint.submit submission).2.role = endpoint.role ∧
      (endpoint.submit submission).2.channel.outbound.wire.toList =
        endpoint.channel.outbound.wire.toList ++ transmission.part := by
  cases allowed : submission.isAllowed with
  | true =>
      obtain ⟨part, transmits⟩ := endpoint.exists_transmits_submit allowed
      have appended : (endpoint.transmission submission).part = part := by
        rw [transmission]
        dsimp only
        rw [transmits.wire, ← Array.length_toList, List.drop_left]
      dsimp only
      refine ⟨⟨endpoint.masks_nextMask, ?_, ?_, ?_⟩, transmits.role, ?_⟩
      · rw [appended]
        exact transmits.front
      · rw [appended]
        exact transmits.whole
      · exact fun _ => submission.isAssigned_frame allowed
      · rw [appended]
        exact transmits.wire
  | false =>
      obtain ⟨error, answer, -, same⟩ := endpoint.exists_refuses_submit allowed
      have fails : (endpoint.submit submission).1.answer ≠ .ok () := by
        intro done
        cases answer.symm.trans done
      have nothing : (endpoint.transmission submission).part = [] := by
        rw [transmission]
        dsimp only
        rw [same, ← Array.length_toList, List.drop_length]
      dsimp only
      rw [same, nothing, List.append_nil]
      refine ⟨⟨endpoint.masks_nextMask, ?_, ?_, absurd nothing⟩, rfl, rfl⟩
      · rw [nothing]
        exact List.nil_prefix
      · rw [nothing]
        exact iff_of_false fails (Transmission.octets_ne_nil _).symm

/-- Submissions put the fronts of their frames on the wire one behind the other. -/
theorem wire_submitEach (endpoint : Endpoint) (submissions : List Submission) :
    let transmissions := endpoint.transmitEach submissions
    let (answers, last) := endpoint.submitEach submissions
    answers = transmissions.map Transmission.answer ∧
      last.channel.outbound.wire.toList =
        endpoint.channel.outbound.wire.toList ++ transmissions.flatMap Transmission.part ∧
      ∀ transmission ∈ transmissions, transmission.IsFront endpoint.role := by
  induction submissions generalizing endpoint with
  | nil =>
      have none_sent : ∀ transmission ∈ ([] : List Transmission),
          transmission.IsFront endpoint.role := by simp
      exact ⟨rfl, (List.append_nil _).symm, none_sent⟩
  | cons submission later inductionHypothesis =>
      obtain ⟨isFront, role, wire⟩ := endpoint.isFront_transmission submission
      obtain ⟨answers, wireThen, fronts⟩ := inductionHypothesis (endpoint.submit submission).2
      dsimp only [transmitEach, submitEach]
      rw [role] at fronts
      refine ⟨congrArg (_ :: ·) answers, ?_, List.forall_mem_cons.mpr ⟨isFront, fronts⟩⟩
      rw [wireThen, wire, List.flatMap_cons, List.append_assoc]

/-! ## Framed streams -/

/-- Whether nothing goes on the wire behind a frame that was cut. -/
def NothingBehindCut (transmissions : List Transmission) : Prop :=
  transmissions.Pairwise fun earlier later => earlier.isCut = true → later.part = []

instance (transmissions : List Transmission) : Decidable (NothingBehindCut transmissions) :=
  inferInstanceAs (Decidable (transmissions.Pairwise _))

/-- The frames of which something went on the wire, in order. -/
def framesBegun (transmissions : List Transmission) : List (Option MaskingKey × Frame) :=
  (transmissions.filter (·.part != [])).map fun transmission =>
    (transmission.mask, transmission.frame)

/-- The frames of the submissions that succeeded, in order. -/
def framesSent (transmissions : List Transmission) : List (Option MaskingKey × Frame) :=
  (transmissions.filter (·.answer.isOk)).map fun transmission =>
    (transmission.mask, transmission.frame)

section Cons

variable
    {role : Role}
    {transmission : Transmission}
    (isFront : transmission.IsFront role)
    (later : List Transmission)

theorem framesBegun_cons_of_silent (silent : transmission.part = []) :
    framesBegun (transmission :: later) = framesBegun later := by
  simp [framesBegun, silent]

theorem framesBegun_cons_of_begun (begun : transmission.part ≠ []) :
    framesBegun (transmission :: later) =
      (transmission.mask, transmission.frame) :: framesBegun later := by
  simp [framesBegun, begun]

include isFront

theorem framesSent_cons_of_whole (whole : transmission.part = transmission.octets) :
    framesSent (transmission :: later) =
      (transmission.mask, transmission.frame) :: framesSent later := by
  have succeeds : transmission.answer.isOk = true := by
    rw [isFront.whole.mpr whole]
    rfl
  simp [framesSent, succeeds]

theorem framesSent_cons_of_cut (cut : transmission.part ≠ transmission.octets) :
    framesSent (transmission :: later) = framesSent later := by
  have fails : transmission.answer.isOk = false := by
    cases answered : transmission.answer with
    | error error => rfl
    | ok done => exact absurd (isFront.whole.mp answered) cut
  simp [framesSent, fails]

end Cons

/-- Nothing is sent where nothing goes on the wire. -/
theorem framesSent_of_silent
    {role : Role}
    {transmissions : List Transmission}
    (fronts : ∀ transmission ∈ transmissions, transmission.IsFront role)
    (silent : ∀ transmission ∈ transmissions, transmission.part = []) :
    framesSent transmissions = [] := by
  induction transmissions with
  | nil => rfl
  | cons transmission later inductionHypothesis =>
      obtain ⟨isFront, frontsThen⟩ := List.forall_mem_cons.mp fronts
      obtain ⟨nothing, silentThen⟩ := List.forall_mem_cons.mp silent
      rw [framesSent_cons_of_cut isFront later (transmission.ne_octets_of_silent nothing)]
      exact inductionHypothesis frontsThen silentThen

/-- Whether octets are those of the first frames that were sent, and of a part of the next
one that has begun. -/
structure Frames
    (transmissions : List Transmission)
    (stream : List UInt8)
    (whole : List (Option MaskingKey × Frame))
    (part : List UInt8) : Prop where
  sent : whole <+: framesSent transmissions
  octets : stream = writtenAll whole ++ part
  /-- All that is on the wire holds all frames that were sent. -/
  total : stream = transmissions.flatMap Transmission.part →
    whole = framesSent transmissions
  begun : ∃ later, framesBegun transmissions = whole ++ later ∧ Begins part later

section Frames

variable
    {role : Role}
    {transmission : Transmission}
    (isFront : transmission.IsFront role)
    {later : List Transmission}
    {stream : List UInt8}

include isFront

/-- A submission that puts nothing on the wire leaves the stream to the later ones. -/
theorem frames_cons_of_silent
    (silent : transmission.part = [])
    {whole : List (Option MaskingKey × Frame)}
    {part : List UInt8}
    (frames : Frames later stream whole part) :
    Frames (transmission :: later) stream whole part := by
  have cut := transmission.ne_octets_of_silent silent
  have sentThen := framesSent_cons_of_cut isFront later cut
  refine ⟨sentThen ▸ frames.sent, frames.octets, ?_, ?_⟩
  · rw [sentThen, List.flatMap_cons, silent]
    exact frames.total
  · rw [framesBegun_cons_of_silent later silent]
    exact frames.begun

/-- Behind a frame that was sent whole, the stream follows the later ones. -/
theorem frames_cons_of_whole
    (sent : transmission.part = transmission.octets)
    {whole : List (Option MaskingKey × Frame)}
    {part : List UInt8}
    (frames : Frames later stream whole part) :
    Frames (transmission :: later) (transmission.part ++ stream)
      ((transmission.mask, transmission.frame) :: whole) part := by
  obtain ⟨front, rfl, total, others, begun, begins⟩ := frames
  have some_octets : transmission.part ≠ [] := by
    rw [sent]
    exact transmission.octets_ne_nil
  have sentThen := framesSent_cons_of_whole isFront later sent
  refine ⟨?_, ?_, ?_, others, ?_, begins⟩
  · rw [sentThen]
    exact (List.prefix_cons_inj _).mpr front
  · rw [sent, Decoder.writtenAll_cons, List.append_assoc]
    rfl
  · intro same
    rw [sentThen, total (List.append_cancel_left same)]
  · rw [framesBegun_cons_of_begun later some_octets, begun, List.cons_append]

omit isFront in
/-- A stream that ends within the frame of the first submission is a part of that frame. -/
theorem frames_cons_of_begins
    (some_octets : transmission.part ≠ [])
    (front : stream <+: transmission.octets)
    (cut : stream ≠ transmission.octets)
    (total : stream = (transmission :: later).flatMap Transmission.part →
      framesSent (transmission :: later) = []) :
    Frames (transmission :: later) stream [] stream := by
  have begun := framesBegun_cons_of_begun later some_octets
  exact ⟨List.nil_prefix, rfl, fun same => (total same).symm, _, begun, front, cut⟩

end Frames

/-- As long as nothing goes on the wire behind a frame that was cut, what is there at any
time is the octets of frames that were sent, and of a part of the next one. -/
theorem exists_frames
    {role : Role}
    {transmissions : List Transmission}
    (fronts : ∀ transmission ∈ transmissions, transmission.IsFront role)
    (clean : NothingBehindCut transmissions)
    {stream : List UInt8}
    (front : stream <+: transmissions.flatMap Transmission.part) :
    ∃ whole part, Frames transmissions stream whole part := by
  induction transmissions generalizing stream with
  | nil =>
      refine ⟨[], [], List.nil_prefix, List.prefix_nil.mp front, fun _ => rfl, [], rfl, ?_⟩
      rfl
  | cons transmission later inductionHypothesis =>
      obtain ⟨isFront, frontsThen⟩ := List.forall_mem_cons.mp fronts
      obtain ⟨quiet, cleanThen⟩ := List.pairwise_cons.mp clean
      rw [List.flatMap_cons] at front
      by_cases silent : transmission.part = []
      · rw [silent] at front
        obtain ⟨whole, part, frames⟩ := inductionHypothesis frontsThen cleanThen front
        exact ⟨whole, part, frames_cons_of_silent isFront silent frames⟩
      by_cases sent : transmission.part = transmission.octets
      · by_cases reached : transmission.part <+: stream
        · obtain ⟨rest, rfl⟩ := reached
          obtain ⟨whole, part, frames⟩ := inductionHypothesis frontsThen cleanThen
            ((List.prefix_append_right_inj _).mp front)
          exact ⟨_, part, frames_cons_of_whole isFront sent frames⟩
        · have within : stream <+: transmission.part :=
            (List.prefix_or_prefix_of_prefix front (List.prefix_append _ _)).resolve_right
              reached
          refine ⟨[], stream, frames_cons_of_begins silent (sent ▸ within) ?_ ?_⟩
          · rintro rfl
            exact reached (sent ▸ List.prefix_rfl)
          · rintro rfl
            exact absurd (List.prefix_append _ _) reached
      · -- The frame was cut, so this is all there is on the wire.
        have isCut : transmission.isCut = true := by
          simp [Transmission.isCut, silent, sent]
        have nothing : ∀ other ∈ later, other.part = [] := fun other member =>
          quiet other member isCut
        rw [List.flatMap_eq_nil_iff.mpr nothing, List.append_nil] at front
        refine ⟨[], stream, frames_cons_of_begins silent (front.trans isFront.front) ?_ ?_⟩
        · rintro rfl
          exact sent (isFront.front.eq_of_length_le front.length_le)
        · intro _
          rw [framesSent_cons_of_cut isFront later sent, framesSent_of_silent frontsThen nothing]

/-- Every submission puts the front of its frame on the wire, and the whole frame exactly if
it succeeds. As long as nothing goes on the wire behind a frame that was cut, the wire holds
at all times the frames that were sent by then, one behind the other, and at most a part of
one more. Wherever the peer is in these octets, its decoder has delivered the whole frames
and refused nothing, if it accepts the frames. -/
theorem submitEach_framed
    (endpoint : Endpoint)
    {submissions : List Submission}
    (clean : NothingBehindCut (endpoint.transmitEach submissions)) :
    let transmissions := endpoint.transmitEach submissions
    let (answers, last) := endpoint.submitEach submissions
    let before := endpoint.channel.outbound.wire.toList
    let after := last.channel.outbound.wire.toList
    answers = transmissions.map Transmission.answer ∧
      (∀ transmission ∈ transmissions, transmission.IsFront endpoint.role) ∧
      after = before ++ transmissions.flatMap Transmission.part ∧
      ∀ stream, before ++ stream <+: after →
        ∃ whole part,
          Frames transmissions stream whole part ∧
          ∀ limit memory,
            (∀ item ∈ framesBegun transmissions,
              acceptable limit item.2 = true ∧ memory.hasRoom item.2.length = true) →
            ∀ pieces : List (List UInt8), pieces.flatten = stream →
              let decoded :=
                (Decoder.new endpoint.role.peer limit memory).decodePieces pieces
              decoded.deliveries.map Prod.snd = whole.map Prod.snd ∧
                decoded.refusal = none ∧
                decoded.decoder.inProgress = !part.isEmpty := by
  obtain ⟨answers, wire, fronts⟩ := endpoint.wire_submitEach submissions
  refine ⟨answers, fronts, wire, ?_⟩
  intro stream front
  rw [wire, List.prefix_append_right_inj] at front
  obtain ⟨whole, part, frames⟩ := exists_frames fronts clean front
  refine ⟨whole, part, frames, ?_⟩
  obtain ⟨-, rfl, -, later, begun, begins⟩ := frames
  rw [begun]
  intro limit memory accepted pieces same
  have sendable : ∀ item ∈ whole ++ later, Sendable endpoint.role memory item.1 item.2 := by
    intro item member
    obtain ⟨-, room⟩ := accepted item member
    rw [← begun, framesBegun] at member
    obtain ⟨transmission, kept, rfl⟩ := List.mem_map.mp member
    obtain ⟨made, some_octets⟩ := List.mem_filter.mp kept
    have isFront := fronts transmission made
    exact ⟨isFront.masks, isFront.assigned (by simpa using some_octets), room⟩
  obtain ⟨next, yields, inProgress⟩ := Decoder.exists_yields_of_begins sendable
    (fun item member => (accepted item member).1) begins
  obtain ⟨delivered, refused, reached⟩ := yields 0
  have outcome := Decoder.outcome_decodePieces endpoint.role.peer limit memory pieces
  rw [same] at outcome
  rw [← outcome] at delivered refused reached
  exact ⟨delivered, refused, (congrArg Decoder.inProgress reached).trans inProgress⟩

/-- A server sends a message in portions, has a close code refused and fails within the
frame of the next message. The submission behind it fails at once. -/
theorem submitEach_framed_fault_in_frame :
    let full : Acceptance := .fault ⟨.wouldBlock, "full"⟩
    let endpoint := new .server {}
      { outbound := { answers := [.upTo 1, .fault ⟨.interrupted, "again"⟩, .upTo 1, .upTo 2,
          .upTo 1, .upTo 2, full, full] } } (.ofArray #[] default)
    let submissions : List Submission :=
      [.write (.data .text) [0x61, 0x62, 0x63], .close .serviceRestart,
        .write (.data .binary) [0x64, 0x65], .write (.control .ping) []]
    let result := endpoint.submitEach submissions
    let wire := result.2.channel.outbound.wire.toList
    let decoded := (Decoder.new .client 3).decodePieces [wire]
    NothingBehindCut (endpoint.transmitEach submissions) ∧
      result.1.map Except.isOk = [true, false, false, false] ∧
      wire = [0x81, 0x03, 0x61, 0x62, 0x63, 0x82, 0x02] ∧
      decoded.deliveries.map Prod.snd = [⟨.data .text, [0x61, 0x62, 0x63]⟩] ∧
      decoded.refusal = none ∧
      decoded.decoder.inProgress = true := by
  intro full endpoint submissions result wire decoded
  have clean : NothingBehindCut (endpoint.transmitEach submissions) := by
    decide +kernel
  obtain ⟨-, -, wire, framed⟩ := submitEach_framed endpoint clean
  obtain ⟨whole, part, ⟨-, -, all, -⟩, decodes⟩ :=
    framed (endpoint.submitEach submissions).2.channel.outbound.wire.toList List.prefix_rfl
  obtain ⟨delivered, refused, -⟩ :=
    decodes 3 .standard (by decide +kernel) [_] List.flatten_singleton
  rw [all wire] at delivered
  exact ⟨clean, by decide +kernel, by decide +kernel, delivered.trans (by decide +kernel),
    refused, by decide +kernel⟩

/-- Nothing is remembered of a frame that was cut. Here a server fails behind the header of
a message, and the frame that it sends next goes right behind that header. The client takes
it for the payload of the message. -/
theorem submitEach_behind_cut :
    let endpoint := new .server {}
      { outbound := { answers := [.upTo 2, .fault ⟨.wouldBlock, "full"⟩] } }
      (.ofArray #[] default)
    let submissions : List Submission :=
      [.write (.data .text) [0x61, 0x62, 0x63], .write (.data .binary) [0x78]]
    let result := endpoint.submitEach submissions
    let wire := result.2.channel.outbound.wire.toList
    ¬NothingBehindCut (endpoint.transmitEach submissions) ∧
      result.1.map Except.isOk = [false, true] ∧
      wire = [0x81, 0x03, 0x82, 0x01, 0x78] ∧
      ((Decoder.new .client 3).decodePieces [wire]).deliveries.map Prod.snd =
        [⟨.data .text, [0x82, 0x01, 0x78]⟩] ∧
      ((Decoder.new .client 3).decodePieces [wire]).refusal = none := by
  exact ⟨by decide +kernel, by decide +kernel, by decide +kernel, by decide +kernel,
    by decide +kernel⟩

end Endpoint
end WebSocket
