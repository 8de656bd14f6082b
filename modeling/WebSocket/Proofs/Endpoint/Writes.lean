import WebSocket.Endpoint.Write
import WebSocket.Proofs.Channel.Draining
import WebSocket.Proofs.Decoder.Written

/-!
# Writing one frame after another

A write puts the front of one frame on the wire, and the whole frame exactly if it succeeds,
which it does over a channel that goes on taking octets. The peer's decoder delivers whole
frames up to the first that it does not accept.
-/

namespace WebSocket
namespace Endpoint

open Grammar

/-! ## Single frames -/

/-- The mask of the next frame that an endpoint writes. -/
def nextMask (endpoint : Endpoint) : Option MaskingKey :=
  match endpoint.role with
  | .server => none
  | .client => some endpoint.keys.draw.1

theorem masks_nextMask (endpoint : Endpoint) : Masks endpoint.role endpoint.nextMask := by
  unfold nextMask
  cases endpoint.role with
  | server => rfl
  | client => rfl

/-- Whether an operation puts a part of the octets on the wire: the front of them, and all
of them exactly if it succeeds. It does succeed if the channel goes on taking octets. -/
structure Transmits
    (endpoint : Endpoint)
    (octets part : List UInt8)
    (result : Report Unit × Endpoint) : Prop where
  role : result.2.role = endpoint.role
  wire :
    result.2.channel.outbound.wire.toList = endpoint.channel.outbound.wire.toList ++ part
  front : part <+: octets
  whole : result.1.answer = .ok () ↔ part = octets
  advances : endpoint.channel.outbound.Advances →
    result.1.answer = .ok () ∧ result.2.channel.outbound.Advances

theorem exists_transmits_transmit (endpoint : Endpoint) (octets : List UInt8) :
    ∃ part, endpoint.Transmits octets part (endpoint.transmit octets) := by
  obtain ⟨part, puts⟩ := endpoint.channel.outbound.exists_puts_writeAll octets
  have answered : (endpoint.transmit octets).1.answer =
      (endpoint.channel.outbound.writeAll octets).answer.mapError .io := rfl
  refine ⟨part, rfl, puts.wire, puts.front, ?_, ?_⟩
  · rw [answered, ← puts.whole]
    cases (endpoint.channel.outbound.writeAll octets).answer with
    | error error => exact iff_of_false nofun nofun
    | ok done => exact iff_of_true rfl rfl
  · intro advances
    obtain ⟨done, later⟩ := advances.writeAll octets
    rw [answered, done]
    exact ⟨rfl, later⟩

/-- The header of a server's frame goes on the wire before any of its payload. -/
theorem exists_transmits_transmitPlain
    (endpoint : Endpoint)
    (opcode : Opcode)
    (payload : List UInt8) :
    ∃ part, endpoint.Transmits (written none ⟨opcode, payload⟩) part
      (endpoint.transmitPlain opcode payload) := by
  let header := ({ opcode } : FrameHeader).encode payload.length
  obtain ⟨first, head⟩ := endpoint.exists_transmits_transmit header
  unfold transmitPlain
  dsimp only
  cases answered : (endpoint.transmit header).1.answer with
  | error error =>
      have failed : (endpoint.transmit header).1.answer ≠ .ok () := by simp [answered]
      have cut : first ≠ written none ⟨opcode, payload⟩ := by
        rintro rfl
        have all := (List.prefix_append header payload).length_le
        exact failed (head.whole.mpr (head.front.eq_of_length_le all))
      refine ⟨first, head.role, head.wire, head.front.trans (List.prefix_append _ _),
        iff_of_false failed cut, ?_⟩
      exact fun advances => absurd (head.advances advances).1 failed
  | ok done =>
      obtain rfl : first = header := head.whole.mp answered
      obtain ⟨second, body⟩ :=
        (endpoint.transmit header).2.exists_transmits_transmit payload
      refine ⟨header ++ second, body.role.trans head.role, ?_, ?_, ?_, ?_⟩
      · rw [← List.append_assoc, ← head.wire]
        exact body.wire
      · exact (List.prefix_append_right_inj header).mpr body.front
      · exact body.whole.trans (List.append_cancel_left_eq header second payload ▸ Iff.rfl)
      · exact fun advances => body.advances (head.advances advances).2

theorem exists_transmits_transmitMasked
    (endpoint : Endpoint)
    (opcode : Opcode)
    (payload : List UInt8) :
    ∃ part, endpoint.Transmits (written (some endpoint.keys.draw.1) ⟨opcode, payload⟩) part
      (endpoint.transmitMasked opcode payload) := by
  have octets :
      written (some endpoint.keys.draw.1) ⟨opcode, payload⟩ =
        ({ opcode, mask := some endpoint.keys.draw.1 } : FrameHeader).encode
            payload.length ++
          endpoint.keys.draw.1.mask payload := by
    rw [MaskingKey.mask_eq_maskFrom]
    rfl
  obtain ⟨part, transmits⟩ :=
    ({ endpoint with keys := endpoint.keys.draw.2 } : Endpoint).exists_transmits_transmit
      (written (some endpoint.keys.draw.1) ⟨opcode, payload⟩)
  rw [octets] at transmits ⊢
  exact ⟨part, transmits.role, transmits.wire, transmits.front, transmits.whole,
    transmits.advances⟩

/-- A write puts the front of a frame on the wire, masked as the role of the endpoint
demands. -/
theorem exists_transmits_write
    (endpoint : Endpoint)
    {opcode : Opcode}
    (assigned : opcode.isAssigned = true)
    (payload : List UInt8) :
    ∃ part, endpoint.Transmits (written endpoint.nextMask ⟨opcode, payload⟩) part
      (endpoint.write opcode payload) := by
  unfold write nextMask
  rw [if_pos assigned]
  dsimp only
  cases role : endpoint.role with
  | server =>
      obtain ⟨part, transmits⟩ := endpoint.exists_transmits_transmitPlain opcode payload
      exact ⟨part, transmits.role, transmits.wire, transmits.front, transmits.whole,
        transmits.advances⟩
  | client =>
      obtain ⟨part, transmits⟩ := endpoint.exists_transmits_transmitMasked opcode payload
      exact ⟨part, transmits.role, transmits.wire, transmits.front, transmits.whole,
        transmits.advances⟩

/-! ## Sequences of frames -/

/-- Something that the user of an endpoint submits for sending. -/
inductive Submission
  | write (opcode : Opcode) (payload : List UInt8)
  | close (code : CloseCode)

/-- Whether a submission may be sent and has a payload that finds room on a host. -/
def Submission.IsValid : Submission → Prop
  | .write opcode payload => opcode.isAssigned = true ∧ payload.length < 2 ^ 47
  | .close code => code.isSendable = true

/-- The frame that a submission sends. -/
def Submission.frame : Submission → Frame
  | .write opcode payload => ⟨opcode, payload⟩
  | .close code => ⟨.control .close, BigEndian.encode 2 code.toUInt16.toNat⟩

/-- Send what is submitted. -/
def submit (endpoint : Endpoint) : Submission → Report Unit × Endpoint
  | .write opcode payload => endpoint.write opcode payload
  | .close code => endpoint.close code

/-- The answers to submissions that are made one after the other, and the endpoint behind
them. -/
def submitEach (endpoint : Endpoint) : List Submission → List (Except Error Unit) × Endpoint
  | [] => ([], endpoint)
  | submission :: later =>
      let (report, next) := endpoint.submit submission
      let (answers, last) := next.submitEach later
      (report.answer :: answers, last)

/-- Whether a submission is not refused before anything of it is sent. -/
def Submission.isAllowed : Submission → Bool
  | .write opcode _ => opcode.isAssigned
  | .close code => code.isSendable

theorem Submission.IsValid.isAllowed
    {submission : Submission}
    (valid : submission.IsValid) :
    submission.isAllowed = true := by
  cases submission with
  | write opcode payload => exact valid.1
  | close code => exact valid

/-- What is not refused has an opcode with an assigned meaning. -/
theorem Submission.isAssigned_frame
    (submission : Submission)
    (allowed : submission.isAllowed = true) :
    submission.frame.opcode.isAssigned = true := by
  cases submission with
  | write opcode payload => exact allowed
  | close code => rfl

/-- A submission that is not refused writes its frame. -/
theorem submit_of_isAllowed
    (endpoint : Endpoint)
    {submission : Submission}
    (allowed : submission.isAllowed = true) :
    endpoint.submit submission =
      endpoint.write submission.frame.opcode submission.frame.payload := by
  cases submission with
  | write opcode payload => rfl
  | close code =>
      have sendable : code.isSendable = true := allowed
      rw [submit, close, if_pos sendable]
      rfl

/-- A submission that is not refused puts the front of its frame on the wire. -/
theorem exists_transmits_submit
    (endpoint : Endpoint)
    {submission : Submission}
    (allowed : submission.isAllowed = true) :
    ∃ part, endpoint.Transmits (written endpoint.nextMask submission.frame) part
      (endpoint.submit submission) := by
  rw [endpoint.submit_of_isAllowed allowed]
  exact endpoint.exists_transmits_write (submission.isAssigned_frame allowed) _

/-- Whether an operation answers with an error and does nothing else. -/
structure Refuses
    (endpoint : Endpoint)
    (error : Error)
    (result : Report Unit × Endpoint) : Prop where
  answer : result.1.answer = .error error
  calls : result.1.calls = #[]
  same : result.2 = endpoint

theorem refuses_write
    (endpoint : Endpoint)
    {opcode : Opcode}
    (unassigned : opcode.isAssigned = false)
    (payload : List UInt8) :
    endpoint.Refuses (.protocol (.invalidOpcode opcode.toByte))
      (endpoint.write opcode payload) := by
  rw [write, if_neg (Bool.eq_false_iff.mp unassigned)]
  exact ⟨rfl, rfl, rfl⟩

theorem refuses_close
    (endpoint : Endpoint)
    {code : CloseCode}
    (unsendable : code.isSendable = false) :
    endpoint.Refuses (.invalidCloseCode code.toUInt16) (endpoint.close code) := by
  rw [close, if_neg (Bool.eq_false_iff.mp unsendable)]
  exact ⟨rfl, rfl, rfl⟩

/-- A submission that is not allowed is refused. -/
theorem exists_refuses_submit
    (endpoint : Endpoint)
    {submission : Submission}
    (refused : submission.isAllowed = false) :
    ∃ error, endpoint.Refuses error (endpoint.submit submission) := by
  cases submission with
  | write opcode payload => exact ⟨_, endpoint.refuses_write refused payload⟩
  | close code => exact ⟨_, endpoint.refuses_close refused⟩

/-- A frame that is submitted can be sent to a host with room for it. -/
theorem sendable_frame
    {role : Role}
    {memory : Memory}
    {mask : Option MaskingKey}
    {submission : Submission}
    (masks : Masks role mask)
    (valid : submission.IsValid)
    (room : ∀ size < 2 ^ 47, memory.hasRoom size = true) :
    Sendable role memory mask submission.frame := by
  cases submission with
  | write opcode payload => exact ⟨masks, valid.1, room _ valid.2⟩
  | close code => exact ⟨masks, rfl, room 2 (by decide)⟩

/-- A submission that is valid puts its frame on the wire of a channel that goes on taking
octets. -/
theorem submit_of_advances
    {endpoint : Endpoint}
    (advances : endpoint.channel.outbound.Advances)
    {submission : Submission}
    (valid : submission.IsValid) :
    (endpoint.submit submission).1.answer = .ok () ∧
      (endpoint.submit submission).2.role = endpoint.role ∧
      (endpoint.submit submission).2.channel.outbound.Advances ∧
      (endpoint.submit submission).2.channel.outbound.wire.toList =
        endpoint.channel.outbound.wire.toList ++
          written endpoint.nextMask submission.frame := by
  obtain ⟨part, transmits⟩ := endpoint.exists_transmits_submit valid.isAllowed
  obtain ⟨done, later⟩ := transmits.advances advances
  have whole := transmits.whole.mp done
  exact ⟨done, transmits.role, later, whole ▸ transmits.wire⟩

/-- Submissions put their frames on the wire one behind the other. -/
theorem submitEach_of_advances
    {endpoint : Endpoint}
    (advances : endpoint.channel.outbound.Advances)
    {submissions : List Submission}
    (valid : ∀ submission ∈ submissions, submission.IsValid)
    {memory : Memory}
    (room : ∀ size < 2 ^ 47, memory.hasRoom size = true) :
    (∀ answer ∈ (endpoint.submitEach submissions).1, answer = .ok ()) ∧
      ∃ sent : List (Option MaskingKey × Frame),
        sent.map Prod.snd = submissions.map Submission.frame ∧
          (∀ item ∈ sent, Sendable endpoint.role memory item.1 item.2) ∧
          (endpoint.submitEach submissions).2.channel.outbound.wire.toList =
            endpoint.channel.outbound.wire.toList ++ Decoder.writtenAll sent := by
  induction submissions generalizing endpoint with
  | nil => exact ⟨nofun, [], rfl, nofun, (List.append_nil _).symm⟩
  | cons submission later inductionHypothesis =>
      obtain ⟨validFirst, validThen⟩ := List.forall_mem_cons.mp valid
      obtain ⟨doneFirst, role, advancesThen, wireFirst⟩ :=
        submit_of_advances advances validFirst
      obtain ⟨done, sent, frames, sendable, wire⟩ :=
        inductionHypothesis advancesThen validThen
      refine ⟨List.forall_mem_cons.mpr ⟨doneFirst, done⟩,
        (endpoint.nextMask, submission.frame) :: sent, ?_, ?_, ?_⟩
      · rw [List.map_cons, List.map_cons, frames]
      · rw [role] at sendable
        exact List.forall_mem_cons.mpr
          ⟨sendable_frame endpoint.masks_nextMask validFirst room, sendable⟩
      · rw [Decoder.writtenAll_cons, ← List.append_assoc, ← wireFirst]
        exact wire

/-- The code that a close frame was submitted with is read from it. -/
theorem closeCode?_frame (code : CloseCode) :
    (Submission.close code).frame.closeCode? = some (.ofUInt16 code.toUInt16) := by
  have number :
      UInt16.ofNat (BigEndian.decode (BigEndian.encode 2 code.toUInt16.toNat)) =
        code.toUInt16 := by
    rw [BigEndian.decode_encode_of_lt code.toUInt16.toNat_lt, UInt16.ofNat_toNat]
  exact congrArg (fun value => some (CloseCode.ofUInt16 value)) number

/-- What an endpoint writes, the decoder of its peer delivers frame by frame, with the same
opcodes and payloads, up to the first frame that is not acceptable. That frame is refused
for what there is against it. If there is none, all octets are taken and the decoder is as
new. Close frames carry the codes that they were submitted with. -/
theorem decodePieces_submitEach
    (endpoint : Endpoint)
    (accepts : endpoint.channel.outbound.answers = [])
    (memory : Memory)
    (room : ∀ size < 2 ^ 47, memory.hasRoom size = true)
    (limit : Nat)
    (submissions : List Submission)
    (valid : ∀ submission ∈ submissions, submission.IsValid) :
    let (answers, last) := endpoint.submitEach submissions
    let before := endpoint.channel.outbound.wire.size
    let octets := last.channel.outbound.wire.toList.drop before
    let peer := Decoder.new endpoint.role.peer limit memory
    let decoded := peer.decodePieces [octets]
    let frames := submissions.map Submission.frame
    (∀ answer ∈ answers, answer = .ok ()) ∧
      decoded.deliveries.map Prod.snd = frames.takeWhile (acceptable limit) ∧
      decoded.refusal = (frames.find? (!acceptable limit ·)).map (objection limit) ∧
      ((∀ frame ∈ frames, acceptable limit frame = true) →
        decoded.refusal = none ∧ decoded.offset = octets.length ∧ decoded.decoder = peer) ∧
      ∀ code, (Submission.close code).frame.closeCode? =
        some (.ofUInt16 code.toUInt16) := by
  have advances : endpoint.channel.outbound.Advances := by simp [Outbound.Advances, accepts]
  obtain ⟨done, sent, frames, sendable, wire⟩ := submitEach_of_advances advances valid room
  have octets :
      (endpoint.submitEach submissions).2.channel.outbound.wire.toList.drop
          endpoint.channel.outbound.wire.size =
        Decoder.writtenAll sent := by
    rw [wire, ← Array.length_toList, List.drop_left]
  have atOnce := Decoder.outcome_decodePieces endpoint.role.peer limit memory
    [Decoder.writtenAll sent]
  rw [List.flatten_cons, List.flatten_nil, List.append_nil] at atOnce
  obtain ⟨delivered, refused, renewed⟩ := Decoder.decodeFrom_writtenAll limit 0 sendable
  rw [← atOnce, frames] at delivered refused
  rw [← atOnce] at renewed
  dsimp only
  rw [octets]
  refine ⟨done, delivered, refused, ?_, closeCode?_frame⟩
  intro allAccepted
  have nothing : (submissions.map Submission.frame).find? (!acceptable limit ·) = none := by
    rw [List.find?_eq_none]
    intro frame member
    rw [allAccepted frame member]
    exact Bool.false_ne_true
  rw [nothing] at refused
  refine ⟨refused, ?_, renewed refused⟩
  have total := Decoder.offset_feedPieces refused
  rw [List.flatten_cons, List.flatten_nil, List.append_nil, Nat.zero_add] at total
  exact total

/-- A masked message, a ping and a close frame reach the peer, which takes everything. -/
theorem decodePieces_text_ping_close :
    let endpoint := new .client {} .stream (.ofArray #[⟨1, 2, 3, 4⟩] default)
    let submissions : List Submission :=
      [.write (.data .text) [0x68, 0x69], .write (.control .ping) [], .close .normal]
    let octets := (endpoint.submitEach submissions).2.channel.outbound.wire.toList
    let decoded := (Decoder.new .server 2).decodePieces [octets]
    (∀ submission ∈ submissions, submission.IsValid) ∧
      decoded.deliveries.map Prod.snd = submissions.map Submission.frame ∧
      decoded.refusal = none ∧
      decoded.decoder = Decoder.new .server 2 := by
  have valid : ∀ submission ∈ ([.write (.data .text) [0x68, 0x69],
      .write (.control .ping) [], .close .normal] : List Submission),
      submission.IsValid := by
    simp [Submission.IsValid, Opcode.isAssigned, CloseCode.isSendable, CloseCode.toUInt16]
  have room : ∀ size < 2 ^ 47, Memory.standard.hasRoom size = true :=
    fun size small => decide_eq_true small
  obtain ⟨-, delivered, -, all, -⟩ := decodePieces_submitEach
    (new .client {} .stream (.ofArray #[⟨1, 2, 3, 4⟩] default)) rfl .standard room 2 _ valid
  obtain ⟨accepted, -, renewed⟩ := all (by decide)
  exact ⟨valid, delivered, accepted, renewed⟩

end Endpoint

end WebSocket
