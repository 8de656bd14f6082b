import WebSocket.Proofs.Endpoint.Latch
import WebSocket.Proofs.Endpoint.Records

/-!
# Announced sizes and the wire

Each frame that an endpoint sends is announced in one record, with the length of its payload
and the size of its header. That size is found before a client draws the key of the frame, so
it leaves the key out: what a server announces adds up to the octets on its wire, and what a
client announces falls short of them by the octets of one key for each frame.
-/

namespace WebSocket

open Log
open Grammar (Masks written unmask)

/-- What a record announces of a frame that is about to be sent. -/
structure Announcement where
  opcode : Opcode
  payloadSize : Nat
  headerSize : Nat
  deriving DecidableEq, Repr

namespace Announcement

/-- The record of an announcement. -/
def record (announcement : Announcement) : Record :=
  (Event.sending announcement.opcode announcement.payloadSize announcement.headerSize).record

/-- The number of octets that are announced in all. -/
def size (announcement : Announcement) : Nat :=
  announcement.payloadSize + announcement.headerSize

end Announcement

/-- The announcement of a frame, with a header of two octets and of the further ones that hold
the length. -/
def Frame.announcement (frame : Frame) : Announcement where
  opcode := frame.opcode
  payloadSize := frame.length
  headerSize := if frame.length < 126 then 2 else if frame.length < 65536 then 4 else 10

/-- The number of octets that the key takes in a frame. -/
def Role.keySize : Role → Nat
  | .server => 0
  | .client => 4

/-- The octets of the key in a frame. -/
def keyOctets (mask : Option MaskingKey) : List UInt8 :=
  (mask.map MaskingKey.octets).getD []

/-! ## One frame -/

/-- The announced size of a header is its size without a key. -/
theorem size_eq_headerSize (opcode : Opcode) (frame : Frame) :
    ({ opcode } : FrameHeader).size frame.length = frame.announcement.headerSize := by
  unfold FrameHeader.size LengthFormat.ofLength Frame.announcement
  by_cases short : frame.length < 126
  · simp [short]
  · by_cases medium : frame.length < 65536 <;> simp [short, medium]

/-- Ahead of the key and of the payload stand as many octets as are announced. -/
theorem exists_header_written (mask : Option MaskingKey) (frame : Frame) :
    ∃ header : List UInt8, header.length = frame.announcement.headerSize ∧
      written mask frame = header ++ keyOctets mask ++ unmask mask frame.payload := by
  let format := LengthFormat.ofLength frame.length
  let whole : FrameHeader := { opcode := frame.opcode, mask }
  refine ⟨whole.firstOctet :: (format.toByte ||| FrameHeader.flag mask.isSome 0x80) ::
    BigEndian.encode format.extraSize frame.length, ?_, ?_⟩
  · rw [← size_eq_headerSize frame.opcode, List.length_cons, List.length_cons,
      BigEndian.length_encode, FrameHeader.size]
    dsimp only [format]
    rw [Option.isSome_none, if_neg Bool.false_ne_true]
    omega
  · rw [written, FrameHeader.encode_eq_encodeAs]
    rfl

theorem length_keyOctets
    {role : Role}
    {mask : Option MaskingKey}
    (masks : Masks role mask) :
    (keyOctets mask).length = role.keySize := by
  cases role with
  | server =>
      cases masks
      rfl
  | client =>
      obtain ⟨key, rfl⟩ := Option.isSome_iff_exists.mp masks
      rfl

namespace Endpoint

/-- The command that a submission is. -/
def Submission.command (submission : Submission) : Command :=
  (Request.submit submission).command

/-- A submission that is not refused tells of one announcement. -/
theorem events_submit
    (endpoint : Endpoint)
    {submission : Submission}
    (allowed : submission.isAllowed = true) :
    let announced := submission.frame.announcement
    (endpoint.submit submission).1.events =
      #[.sending announced.opcode announced.payloadSize announced.headerSize] := by
  have told : ∀ opcode payload, opcode.isAssigned = true →
      (endpoint.write opcode payload).1.events =
        #[.sending opcode payload.length (({ opcode } : FrameHeader).size payload.length)] := by
    intro opcode payload assigned
    rw [write, if_pos assigned]
  rw [endpoint.submit_of_isAllowed allowed, told _ _ (submission.isAssigned_frame allowed)]
  exact congrArg (fun size => #[Event.sending _ _ size]) (size_eq_headerSize _ submission.frame)

/-- A submission that succeeds is not refused. -/
theorem isAllowed_of_succeeds
    {endpoint : Endpoint}
    {submission : Submission}
    (succeeds : (endpoint.submit submission).1.answer = .ok ()) :
    submission.isAllowed = true := by
  by_contra refused
  obtain ⟨error, refuses⟩ :=
    endpoint.exists_refuses_submit (Bool.eq_false_iff.mpr refused)
  cases refuses.answer.symm.trans succeeds

end Endpoint

open Endpoint (Submission)

theorem Answer.ok_of_error?_eq_none
    {answer : Except Error Unit}
    (none_failed : (Answer.done answer).error? = none) :
    answer = .ok () := by
  cases answer with
  | ok done => rfl
  | error error => cases none_failed

/-! ## Runs -/

/-- Whether a response accounts for a frame that was sent: it has one record, which announces
the payload and the octets of the header ahead of the key. -/
structure Response.Accounts (response : Response) (role : Role) (frame : Frame) : Prop where
  records : response.records = [frame.announcement.record]
  written : ∃ header mask, header.length = frame.announcement.headerSize ∧ Masks role mask ∧
    response.written = header ++ keyOctets mask ++ unmask mask frame.payload

/-- The key is all that is on the wire and not announced. -/
theorem Response.Accounts.length_written
    {role : Role}
    {frame : Frame}
    {response : Response}
    (accounts : response.Accounts role frame) :
    response.written.length = frame.announcement.size + role.keySize := by
  obtain ⟨header, mask, size, masks, written⟩ := accounts.written
  rw [written, List.length_append, List.length_append, size, length_keyOctets masks,
    Grammar.length_unmask, Announcement.size]
  change _ + frame.announcement.payloadSize = _
  omega

namespace Session

/-- What a submission puts on the wire is written in its response. -/
theorem written_perform
    (session : Session)
    {command : Command}
    {part : List UInt8}
    (wire : (session.perform command).2.endpoint.channel.outbound.wire.toList =
      session.endpoint.channel.outbound.wire.toList ++ part) :
    (session.perform command).1.written = part := by
  change ((session.perform command).2.endpoint.channel.outbound.wire.extract
    session.endpoint.channel.outbound.wire.size).toList = part
  have size := congrArg List.length wire
  rw [List.length_append, Array.length_toList, Array.length_toList] at size
  rw [Array.toList_extract, wire, size, ← Array.length_toList]
  simp

/-- A session submits what it is commanded to, and records what its threshold admits. -/
theorem perform_command (session : Session) (submission : Submission) :
    (session.perform submission.command).1.answer =
        .done (session.endpoint.submit submission).1.answer ∧
      (session.perform submission.command).1.records =
        session.threshold.records (session.endpoint.submit submission).1.events ∧
      (session.perform submission.command).2 =
        { session with endpoint := (session.endpoint.submit submission).2 } := by
  cases submission with
  | write opcode payload => exact ⟨rfl, rfl, rfl⟩
  | close code => exact ⟨rfl, rfl, rfl⟩

/-- A submission that succeeds accounts for its frame. -/
theorem accounts_perform
    {session : Session}
    (admits : session.threshold.admits .debug = true)
    {submission : Submission}
    (succeeds : (session.perform submission.command).1.answer.error? = none) :
    (session.perform submission.command).1.Accounts session.endpoint.role submission.frame ∧
      (session.perform submission.command).2.threshold = session.threshold ∧
      (session.perform submission.command).2.endpoint.role = session.endpoint.role ∧
      (session.perform submission.command).2.endpoint.channel.outbound.wire.toList =
        session.endpoint.channel.outbound.wire.toList ++
          (session.perform submission.command).1.written := by
  obtain ⟨answer, records, next⟩ := session.perform_command submission
  rw [answer] at succeeds
  have done := Answer.ok_of_error?_eq_none succeeds
  have allowed := Endpoint.isAllowed_of_succeeds done
  obtain ⟨part, transmits⟩ := session.endpoint.exists_transmits_submit allowed
  obtain rfl := transmits.whole.mp done
  have wrote : (session.perform submission.command).1.written =
      written session.endpoint.nextMask submission.frame := by
    apply session.written_perform
    rw [next]
    exact transmits.wire
  obtain ⟨header, size, octets⟩ :=
    exists_header_written session.endpoint.nextMask submission.frame
  rw [next, wrote]
  refine ⟨⟨?_, header, _, size, session.endpoint.masks_nextMask, wrote.trans octets⟩, rfl,
    transmits.role, transmits.wire⟩
  have admitted : ∀ opcode length headerSize,
      session.threshold.admits (Event.sending opcode length headerSize).level = true :=
    fun _ _ _ => admits
  rw [records, session.endpoint.events_submit allowed]
  simp [Threshold.records, admitted, Announcement.record]

/-- Responses that were given already stand ahead of the others. -/
theorem performAllFrom_eq
    (session : Session)
    (responses : Array Response)
    (commands : List Command) :
    session.performAllFrom responses commands =
      (responses ++ (session.performAllFrom #[] commands).1,
        (session.performAllFrom #[] commands).2) := by
  induction commands generalizing session responses with
  | nil => simp [performAllFrom]
  | cons command later inductionHypothesis =>
      have given := inductionHypothesis (session.perform command).2
      dsimp only [performAllFrom]
      rw [given (responses.push _), given (#[].push _)]
      simp

theorem performAll_cons (session : Session) (command : Command) (later : List Command) :
    session.performAll (command :: later) =
      ((session.perform command).1 :: ((session.perform command).2.performAll later).1,
        ((session.perform command).2.performAll later).2) := by
  dsimp only [performAll, performAllFrom]
  rw [performAllFrom_eq]
  simp

/-- Submissions that succeed account for their frames one by one. -/
theorem accounts_performAll
    {session : Session}
    (admits : session.threshold.admits .debug = true)
    {submissions : List Submission}
    (succeed : ∀ response ∈ (session.performAll (submissions.map Submission.command)).1,
      response.answer.error? = none) :
    let (responses, last) := session.performAll (submissions.map Submission.command)
    List.Forall₂ (fun response frame => response.Accounts session.endpoint.role frame)
        responses (submissions.map Submission.frame) ∧
      last.endpoint.channel.outbound.wire.toList =
        session.endpoint.channel.outbound.wire.toList ++ responses.flatMap Response.written := by
  induction submissions generalizing session with
  | nil => exact ⟨.nil, (List.append_nil _).symm⟩
  | cons submission later inductionHypothesis =>
      rw [List.map_cons, performAll_cons] at succeed
      obtain ⟨succeeds, succeedThen⟩ := List.forall_mem_cons.mp succeed
      obtain ⟨accounts, threshold, role, wire⟩ := accounts_perform admits succeeds
      obtain ⟨accountsThen, wireThen⟩ :=
        inductionHypothesis (threshold ▸ admits) succeedThen
      rw [role] at accountsThen
      rw [List.map_cons, performAll_cons]
      refine ⟨.cons accounts accountsThen, ?_⟩
      rw [List.flatMap_cons, ← List.append_assoc, ← wire]
      exact wireThen

/-- What is announced of frames falls short of their octets by one key for each frame. -/
theorem length_flatMap_written
    {role : Role}
    {responses : List Response}
    {frames : List Frame}
    (accounts : List.Forall₂ (fun response frame => response.Accounts role frame)
      responses frames) :
    (responses.flatMap Response.written).length =
      (frames.map fun frame => frame.announcement.size).sum + role.keySize * frames.length := by
  induction accounts with
  | nil => rfl
  | cons first _ inductionHypothesis =>
      rw [List.flatMap_cons, List.length_append, first.length_written, inductionHypothesis,
        List.map_cons, List.sum_cons, List.length_cons, Nat.mul_add_one]
      omega

theorem flatMap_records
    {role : Role}
    {responses : List Response}
    {frames : List Frame}
    (accounts : List.Forall₂ (fun response frame => response.Accounts role frame)
      responses frames) :
    responses.flatMap Response.records = frames.map fun frame => frame.announcement.record := by
  induction accounts with
  | nil => rfl
  | cons first _ inductionHypothesis =>
      rw [List.flatMap_cons, first.records, inductionHypothesis]
      rfl

/-- Whatever frames a session submits with success, over whatever channel, it records one
announcement for each of them, in order, if it records messages for debugging at all. The
announcement holds the opcode of the frame, the length of its payload, and the number of octets
that go on the wire ahead of key and payload. The announced sizes of a server add up to the
octets that it puts on the wire. Those of a client leave out the four octets of each key. -/
theorem announcements_performAll
    (session : Session)
    (admits : session.threshold.admits .debug = true)
    (submissions : List Submission)
    (succeed : ∀ response ∈ (session.performAll (submissions.map Submission.command)).1,
      response.answer.error? = none) :
    let (responses, last) := session.performAll (submissions.map Submission.command)
    let role := session.endpoint.role
    let frames := submissions.map Submission.frame
    let before := session.endpoint.channel.outbound.wire
    let after := last.endpoint.channel.outbound.wire
    responses.flatMap Response.records = frames.map (fun frame => frame.announcement.record) ∧
      List.Forall₂ (fun response frame => response.Accounts role frame) responses frames ∧
      after.toList = before.toList ++ responses.flatMap Response.written ∧
      after.size = before.size + (frames.map fun frame => frame.announcement.size).sum +
        role.keySize * frames.length := by
  obtain ⟨accounts, wire⟩ := accounts_performAll admits succeed
  refine ⟨flatMap_records accounts, accounts, wire, ?_⟩
  have size := congrArg List.length wire
  rw [List.length_append, length_flatMap_written accounts, Array.length_toList,
    Array.length_toList, ← Nat.add_assoc] at size
  exact size

/-- A client over a channel that takes a few octets at a time announces a message whose length
takes two octets more, and a close frame. The two keys are not announced. -/
theorem announcements_performAll_message_and_close :
    let channel : Channel :=
      { outbound := { answers := [.upTo 3, .fault ⟨.interrupted, "again"⟩, .upTo 90] } }
    let session : Session :=
      { endpoint := .new .client {} channel (.ofArray #[⟨1, 2, 3, 4⟩] ⟨5, 6, 7, 8⟩)
        threshold := .upTo .trace }
    let submissions : List Submission :=
      [.write (.data .binary) (List.replicate 126 0x61), .close .normal]
    let (responses, last) := session.performAll (submissions.map Submission.command)
    (∀ response ∈ responses, response.answer.error? = none) ∧
      responses.flatMap Response.records =
        [(⟨.data .binary, 126, 4⟩ : Announcement).record,
          (⟨.control .close, 2, 2⟩ : Announcement).record] ∧
      last.endpoint.channel.outbound.wire.size = (126 + 4) + (2 + 2) + 4 * 2 := by
  intro channel session submissions
  have succeed : ∀ response ∈ (session.performAll (submissions.map Submission.command)).1,
      response.answer.error? = none := by
    decide +kernel
  obtain ⟨records, -, -, size⟩ := announcements_performAll session rfl submissions succeed
  exact ⟨succeed, records.trans (by decide +kernel), size.trans (by decide +kernel)⟩

/-- The key of a frame goes with its header on the wire, and not into its announcement. Here a
client announces a header of two octets and puts six on the wire ahead of the payload. -/
theorem performAll_announces_no_key :
    let session : Session :=
      { endpoint := .new .client {} .stream (.ofArray #[⟨1, 2, 3, 4⟩] default)
        threshold := .upTo .debug }
    let (responses, last) := session.performAll [.write (.data .text) [0x68, 0x69]]
    (∀ response ∈ responses, response.answer.error? = none) ∧
      (responses.flatMap Response.records).map Record.message =
        ["Sending WebSocket TEXT frame (length 2, incl. 2 header)"] ∧
      last.endpoint.channel.outbound.wire.toList =
        [0x81, 0x82, 0x01, 0x02, 0x03, 0x04, 0x69, 0x6b] ∧
      2 + 2 ≠ last.endpoint.channel.outbound.wire.size := by
  exact ⟨by decide +kernel, by decide +kernel, by decide +kernel, by decide +kernel⟩

end Session
end WebSocket
