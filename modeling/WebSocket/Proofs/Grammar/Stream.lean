import WebSocket.Proofs.BigEndian
import WebSocket.Proofs.Decoder.Chunking
import WebSocket.Proofs.Grammar.Header

/-!
# Decoders read streams

A decoder between frames answers what the grammar says of the next frame, and is between
frames again behind it. So decoding a stream, in pieces of any size, is reading it.
-/

namespace WebSocket
namespace Grammar

/-! ## Announced lengths -/

theorem item_lt_of_announcement
    {role : Role}
    {announced : Nat}
    {stream rest : List UInt8}
    (found : announcement role stream = .found announced rest) :
    announced < 128 := by
  obtain ⟨octet, between, -, foundNumber⟩ := Scanner.found_of_bind found
  have small : octet.toNat % 128 < 128 := Nat.mod_lt _ (by decide)
  cases role <;> cases masked : decide (128 ≤ octet.toNat) <;>
    simp only [masked] at foundNumber <;> cases foundNumber <;> exact small

theorem item_lt_of_length
    {announced item : Nat}
    {stream rest : List UInt8}
    (small : announced < 128)
    (found : length announced stream = .found item rest) :
    item < 2 ^ 63 := by
  unfold length at found
  split at found
  · obtain ⟨octets, between, foundOctets, foundItem⟩ := Scanner.found_of_bind found
    have narrow := BigEndian.decode_lt octets
    rw [Scanner.length_of_octets foundOctets] at narrow
    cases foundItem
    exact Nat.lt_trans narrow (by decide)
  · split at found
    · obtain ⟨octets, between, foundOctets, foundItem⟩ := Scanner.found_of_bind found
      by_cases large : 2 ^ 63 ≤ BigEndian.decode octets
      · simp only [if_pos large] at foundItem
        cases foundItem
      · simp only [if_neg large] at foundItem
        cases foundItem
        exact Nat.lt_of_not_le large
    · cases found
      exact Nat.lt_trans small (by decide)

/-- Announced lengths have 63 bits. -/
theorem length_lt_of_header
    {role : Role}
    {opened : FrameHeader}
    {announced : Nat}
    {stream rest : List UInt8}
    (found : header role stream = .found (opened, announced) rest) :
    announced < 2 ^ 63 := by
  obtain ⟨opening, behindOpening, -, found⟩ := Scanner.found_of_bind found
  obtain ⟨number, behindNumber, foundNumber, found⟩ := Scanner.found_of_bind found
  obtain ⟨length, behindLength, foundLength, found⟩ := Scanner.found_of_bind found
  obtain ⟨mask, behindMask, -, found⟩ := Scanner.found_of_bind found
  cases found
  exact item_lt_of_length (item_lt_of_announcement foundNumber) foundLength

end Grammar

namespace Decoder

open Grammar

/-! ## Decoders between frames -/

/-- A decoder that awaits a frame while the given message is pending. -/
def between
    (role : Role)
    (limit : Nat)
    (memory : Memory)
    (pending : Option PendingMessage) : Decoder :=
  { new role limit memory with pending }

/-- Whether a message that is pending has found room. -/
def Fits (pending : Option PendingMessage) : Prop :=
  ∀ message, pending = some message → message.payload.size < 2 ^ 63

theorem fits_none : Fits none := nofun

/-- The message that is pending behind a header that is accepted. -/
def opened (pending : Option PendingMessage) : Opcode → Option PendingMessage
  | .control _ => pending
  | .data opcode => some (pending.getD { opcode })

/-- The message that is pending behind a physical frame. -/
def folded
    (pending : Option PendingMessage)
    (header : FrameHeader)
    (payload : List UInt8) : Option PendingMessage :=
  match header.opcode with
  | .control _ => pending
  | .data opcode =>
      if header.isFinal then none else some ((pending.getD { opcode }).append payload)

theorem length_toFrame (message : PendingMessage) :
    message.toFrame.length = message.payload.size :=
  Array.length_toList

theorem toFrame_append (message : PendingMessage) (payload : List UInt8) :
    (message.append payload).toFrame =
      { message.toFrame with payload := message.toFrame.payload ++ payload } := by
  rw [PendingMessage.toFrame, PendingMessage.toList_payload_append]
  rfl

/-- Folding a frame over a message leaves the message that the decoder keeps. -/
theorem fold_snd
    (pending : Option PendingMessage)
    (header : FrameHeader)
    (payload : List UInt8) :
    (fold (pending.map PendingMessage.toFrame) header payload).2 =
      (folded pending header payload).map PendingMessage.toFrame := by
  unfold fold folded
  cases opcode : header.opcode with
  | control opcode => rfl
  | data opcode =>
      cases header.isFinal with
      | true => rfl
      | false =>
          cases pending with
          | none => simp [PendingMessage.toFrame, PendingMessage.append]
          | some message => simp [toFrame_append]

section Header

variable
    {limit : Nat}
    {memory : Memory}
    {pending : Option PendingMessage}

/-- The size of a message behind a fragment is counted exactly. -/
theorem sizeAfter_eq
    {held announced : Nat}
    (fits : held < 2 ^ 63)
    (small : announced < 2 ^ 63) :
    PendingMessage.sizeAfter held announced = held + announced ∧
      held + announced < PendingMessage.largestSize := by
  rw [PendingMessage.sizeAfter, PendingMessage.largestSize, UInt64.size]
  omega

/-- Sizes that have found room are counted exactly. -/
theorem reserve_eq
    {held announced : Nat}
    (fits : held < 2 ^ 63)
    (small : announced < 2 ^ 63) :
    PendingMessage.reserve memory limit held announced =
      match crowding? limit memory (held + announced) with
      | some refusal => .error refusal
      | none => .ok () := by
  unfold PendingMessage.reserve crowding?
  rw [(sizeAfter_eq fits small).1]
  dsimp only
  split
  · rfl
  · split <;> rfl

/-- A decoder accepts the headers that break no rule. -/
theorem accept_between
    (role : Role)
    (limit : Nat)
    (memory : Memory)
    (fits : Fits pending)
    (parser : HeaderParser)
    (header : FrameHeader)
    {announced : Nat}
    (small : announced < 2 ^ 63) :
    ((between role limit memory pending).withParser parser).accept header announced =
      match broken? limit memory (pending.map PendingMessage.toFrame) header announced with
      | some refusal => .error refusal
      | none =>
          .ok ((between role limit memory (opened pending header.opcode)).withParser
            parser) := by
  obtain ⟨opcode, isFinal, _, _, _, _⟩ := header
  cases opcode with
  | control opcode =>
      cases isFinal with
      | false => rfl
      | true =>
          by_cases large : 125 < announced
          · simp [accept, broken?, controlLimit, large]
          · simp [accept, broken?, controlLimit, large, opened]
  | data opcode =>
      cases pending with
      | none =>
          have room : PendingMessage.reserve memory limit 0 announced = _ :=
            reserve_eq (by decide) small
          rw [Nat.zero_add] at room
          cases opcode with
          | continuation => rfl
          | _ =>
              simp only [accept, broken?, between, withParser, new, Option.map_none, room]
              cases crowding? limit memory announced with
              | some refusal => rfl
              | none => rfl
      | some message =>
          have room :
              PendingMessage.reserve memory limit message.payload.size announced = _ :=
            reserve_eq (fits message rfl) small
          cases opcode with
          | continuation =>
              simp only [accept, broken?, between, withParser, new, Option.map_some, room,
                length_toFrame]
              cases crowding? limit memory (message.payload.size + announced) with
              | some refusal => rfl
              | none => rfl
          | _ => rfl

theorem lt_of_crowding?
    {size : Nat}
    (uncrowded : crowding? limit memory size = none) :
    size < 2 ^ 63 := by
  unfold crowding? at uncrowded
  split at uncrowded
  · cases uncrowded
  · split at uncrowded
    · rename_i room
      exact memory.size_lt_of_hasRoom room
    · cases uncrowded

/-- A message that a frame is folded over has found room. -/
theorem fits_folded
    {header : FrameHeader}
    {payload : List UInt8}
    (fits : Fits pending)
    (whole : broken? limit memory (pending.map PendingMessage.toFrame) header
      payload.length = none) :
    Fits (folded pending header payload) := by
  obtain ⟨opcode, isFinal, _, _, _, _⟩ := header
  cases opcode with
  | control opcode => exact fits
  | data opcode =>
      cases isFinal with
      | true => exact nofun
      | false =>
          intro message kept
          cases kept
          have size :
              ((pending.getD { opcode }).append payload).payload.size =
                (pending.getD { opcode }).payload.size + payload.length := by
            rw [← Array.length_toList, PendingMessage.toList_payload_append,
              List.length_append, Array.length_toList]
          rw [size]
          cases pending with
          | none =>
              cases opcode with
              | continuation => cases whole
              | _ =>
                  rw [Option.getD_none, Array.size_empty, Nat.zero_add]
                  exact lt_of_crowding? whole
          | some message =>
              cases opcode with
              | continuation =>
                  rw [Option.getD_some, ← length_toFrame]
                  exact lt_of_crowding? whole
              | _ => cases whole

end Header

/-! ## Payloads -/

theorem unmask_eq (header : FrameHeader) (remaining : Nat) (payload : List UInt8) :
    InFlight.unmask { header, remaining } payload = unmask header.mask payload := by
  unfold InFlight.unmask unmask
  cases header.mask with
  | none => rfl
  | some key => exact key.maskAt_eq_maskFrom 0 payload

/-- A frame that is closed out is folded over the message that is pending. -/
theorem finishFrame_between
    (role : Role)
    (limit : Nat)
    (memory : Memory)
    (pending : Option PendingMessage)
    {parser : HeaderParser}
    (received : parser.role = role)
    (header : FrameHeader)
    (remaining : Nat)
    (payload : List UInt8) :
    let frame : InFlight := { header, remaining }
    let decoder :=
      (between role limit memory (opened pending header.opcode)).withParser parser
    (decoder.collect frame payload).finishFrame (frame.advance payload) =
      ((fold (pending.map PendingMessage.toFrame) header (unmask header.mask payload)).1,
        between role limit memory
          (folded pending header (unmask header.mask payload))) := by
  subst received
  rw [← unmask_eq header remaining payload]
  obtain ⟨opcode, isFinal, _, _, _, _⟩ := header
  cases opcode with
  | control opcode =>
      have control : ∀ octets : List UInt8,
          ((#[] : Array UInt8) ++ octets).toList = octets := by
        simp
      exact Prod.ext (congrArg some (congrArg (Frame.mk (.control opcode)) (control _))) rfl
  | data opcode =>
      cases isFinal with
      | true =>
          refine Prod.ext (congrArg some ?_) rfl
          cases pending with
          | none => exact toFrame_append { opcode } _
          | some message => exact toFrame_append message _
      | false =>
          cases pending with
          | none => rfl
          | some message => rfl

/-! ## Frames -/

section Frame

variable
    (role : Role)
    (limit : Nat)
    (memory : Memory)

/-- Whether feeding a decoder that awaits a frame comes to what reading the frame comes
to. Behind a frame that delivers nothing, the call goes on with the next one. -/
def Verdict.Follows (verdict : Verdict) (isOpen : Bool) :
    Scan (Option Frame × Option Frame) → Prop
  | .ended =>
      (∃ count, verdict.answer = .ok (.needMore count)) ∧
        verdict.decoder.inProgress = isOpen
  | .refused refusal =>
      verdict.answer = .error refusal ∧ verdict.decoder.inProgress = true
  | .found (delivered, later) rest =>
      ∃ next, next.map PendingMessage.toFrame = later ∧ Fits next ∧
        verdict =
          match delivered with
          | some frame => ⟨between role limit memory next, rest, .ok (.ready frame)⟩
          | none => (between role limit memory next).verdict rest

variable {role limit memory}

theorem inProgress_of_isIdle_eq_false
    {decoder : Decoder}
    (busy : decoder.parser.isIdle = false) : decoder.inProgress = true := by
  rw [inProgress, busy]
  rfl

theorem parser_absorb (decoder : Decoder) (frame : InFlight) (piece : List UInt8) :
    (decoder.absorb frame piece).parser = decoder.parser := by
  unfold absorb collect
  split <;> rfl

/-- Behind a header, a decoder follows the body of the frame. -/
theorem follows_body
    {pending : Option PendingMessage}
    (fits : Fits pending)
    {parser : HeaderParser}
    (received : parser.role = role)
    (busy : parser.isIdle = false)
    {header : FrameHeader}
    {announced : Nat}
    (whole : broken? limit memory (pending.map PendingMessage.toFrame) header announced =
      none)
    (stream : List UInt8) :
    ((((between role limit memory (opened pending header.opcode)).withParser parser).begin
        header announced).verdict stream).Follows role limit memory true
      (body limit memory (pending.map PendingMessage.toFrame) header announced stream) := by
  rw [body, whole]
  dsimp only
  by_cases short : stream.length < announced
  · rw [Scanner.bind_of_ended (Scanner.octets_of_lt short),
      verdict_of_payload_short rfl short]
    refine ⟨⟨_, rfl⟩, inProgress_of_isIdle_eq_false ?_⟩
    dsimp only
    rw [parser_absorb]
    exact busy
  · have full : announced ≤ stream.length := Nat.le_of_not_lt short
    have size : (unmask header.mask (stream.take announced)).length = announced := by
      rw [length_unmask, List.length_take_of_le full]
    have fitsBehind :
        Fits (folded pending header (unmask header.mask (stream.take announced))) :=
      fits_folded fits (by rw [size]; exact whole)
    have finished :=
      finishFrame_between role limit memory pending received header announced
        (stream.take announced)
    dsimp only at finished
    rw [← finishFrame_withInFlight, ← collect_withInFlight] at finished
    have kept := fold_snd pending header (unmask header.mask (stream.take announced))
    rw [Scanner.bind_of_found (Scanner.octets_of_le full), Scanner.pure_apply]
    rcases folding : fold (pending.map PendingMessage.toFrame) header
      (unmask header.mask (stream.take announced)) with ⟨_ | delivered, later⟩
    · rw [folding] at finished kept
      exact ⟨_, kept.symm, fitsBehind, verdict_of_continued rfl full finished⟩
    · rw [folding] at finished kept
      exact ⟨_, kept.symm, fitsBehind, verdict_of_delivered rfl full finished⟩

/-- A decoder that has parsed a header checks the rules and follows the body. -/
theorem follows_behind_header
    {pending : Option PendingMessage}
    (fits : Fits pending)
    {parser : HeaderParser}
    {stream rest : List UInt8}
    {header : FrameHeader}
    {announced : Nat}
    (parsed : (HeaderParser.new role).verdict stream =
      ⟨parser, rest, .ok (.ready (header, announced))⟩)
    (busy : parser.isIdle = false)
    (small : announced < 2 ^ 63) :
    ((between role limit memory pending).verdict stream).Follows role limit memory true
      (body limit memory (pending.map PendingMessage.toFrame) header announced rest) := by
  have received := (HeaderParser.new role).role_verdict stream
  rw [parsed] at received
  have acceptance := accept_between role limit memory fits parser header small
  cases whole : broken? limit memory (pending.map PendingMessage.toFrame) header
      announced with
  | some refusal =>
      rw [whole] at acceptance
      rw [body, whole, verdict_of_rejected rfl parsed acceptance]
      exact ⟨rfl, inProgress_of_isIdle_eq_false busy⟩
  | none =>
      rw [whole] at acceptance
      rw [verdict_of_accepted rfl parsed acceptance]
      exact follows_body fits received busy whole rest

/-- A decoder that awaits a frame follows the grammar of frames. -/
theorem follows_frame
    (role : Role)
    (limit : Nat)
    (memory : Memory)
    {pending : Option PendingMessage}
    (fits : Fits pending)
    (stream : List UInt8) :
    ((between role limit memory pending).verdict stream).Follows role limit memory
      (!(stream.isEmpty && pending.isNone))
      (frame role limit memory (pending.map PendingMessage.toFrame) stream) := by
  rcases parsed : (HeaderParser.new role).verdict stream with ⟨parser, rest, answer⟩
  have reads := HeaderParser.reads_new role stream
  have idle := (HeaderParser.new role).isIdle_verdict stream
  rw [parsed] at reads idle
  rw [HeaderParser.isIdle_new, Bool.true_and] at idle
  -- Only a stream without octets leaves the parser idle, and it ends the header.
  have nonempty : header role stream ≠ .ended → stream.isEmpty = false := by
    intro goesOn
    cases stream with
    | nil => exact absurd rfl goesOn
    | cons octet stream => rfl
  cases scanned : header role stream with
  | ended =>
      rw [scanned] at reads
      obtain ⟨count, rfl⟩ := reads
      rw [frame, Scanner.bind_of_ended scanned, verdict_of_header_short rfl parsed]
      refine ⟨⟨count, rfl⟩, ?_⟩
      change (!parser.isIdle || pending.isSome) = _
      rw [show parser.isIdle = stream.isEmpty from idle]
      cases stream <;> cases pending <;> rfl
  | refused refusal =>
      rw [scanned] at reads nonempty
      obtain rfl : answer = .error refusal := reads
      rw [frame, Scanner.bind_of_refused scanned, verdict_of_header_refused rfl parsed]
      exact ⟨rfl, inProgress_of_isIdle_eq_false (idle.trans (nonempty nofun))⟩
  | found item behind =>
      obtain ⟨header, announced⟩ := item
      rw [scanned] at reads nonempty
      obtain ⟨rfl, rfl⟩ : answer = .ok (.ready (header, announced)) ∧ rest = behind := reads
      rw [frame, Scanner.bind_of_found scanned, nonempty nofun]
      exact follows_behind_header fits parsed (idle.trans (nonempty nofun))
        (length_lt_of_header scanned)

end Frame

/-! ## Streams -/

/-- Whether decoding comes to what is read. -/
structure Outcome.Reads (outcome : Outcome) (transcript : Transcript) : Prop where
  deliveries : outcome.deliveries = transcript.deliveries
  refusal : outcome.refusal = transcript.ending.refusal?
  inProgress : outcome.decoder.inProgress = transcript.ending.isOpen

/-- Behind a frame that is read, a decoder awaits the next one. -/
theorem decodeFrom_found
    {role : Role}
    {limit : Nat}
    {memory : Memory}
    {pending : Option PendingMessage}
    (fits : Fits pending)
    {stream rest : List UInt8}
    {delivered later : Option Frame}
    (found : frame role limit memory (pending.map PendingMessage.toFrame) stream =
      .found (delivered, later) rest)
    (offset : Nat) :
    let behind := offset + (stream.length - rest.length)
    ∃ next, next.map PendingMessage.toFrame = later ∧ Fits next ∧
      (between role limit memory pending).decodeFrom offset stream =
        ((between role limit memory next).decodeFrom behind rest).after
          (delivered.map (behind, ·)).toList := by
  have follows := follows_frame role limit memory fits stream
  have shorter := length_rest_lt_frame found
  rw [found] at follows
  obtain ⟨next, kept, fitsBehind, resumed⟩ := follows
  refine ⟨next, kept, fitsBehind, ?_⟩
  cases delivered with
  | none =>
      have total : offset + stream.length =
          offset + (stream.length - rest.length) + rest.length := by
        omega
      exact decodeFrom_congr resumed total
  | some frame => exact decodeFrom_of_ready offset resumed

/-- A decoder that awaits a frame reads a stream. -/
theorem reads_decodeFrom
    (role : Role)
    (limit : Nat)
    (memory : Memory)
    {pending : Option PendingMessage}
    (fits : Fits pending)
    (offset : Nat)
    (stream : List UInt8) :
    ((between role limit memory pending).decodeFrom offset stream).Reads
      (transcript role limit memory (pending.map PendingMessage.toFrame) offset
        stream) := by
  induction size : stream.length using Nat.strongRecOn
    generalizing pending offset stream with
  | _ size inductionHypothesis =>
      subst size
      have follows := follows_frame role limit memory fits stream
      rcases verdict : (between role limit memory pending).verdict stream with
        ⟨next, left, answer⟩
      cases scanned : frame role limit memory (pending.map PendingMessage.toFrame)
          stream with
      | ended =>
          rw [scanned, verdict] at follows
          obtain ⟨⟨count, rfl⟩, isOpen⟩ := follows
          rw [transcript_eq, scanned, decodeFrom_of_needMore offset verdict]
          rw [Option.isNone_map]
          cases whole : stream.isEmpty && pending.isNone with
          | true =>
              rw [whole] at isOpen
              exact ⟨rfl, rfl, isOpen⟩
          | false =>
              rw [whole] at isOpen
              exact ⟨rfl, rfl, isOpen⟩
      | refused refusal =>
          rw [scanned, verdict] at follows
          obtain ⟨rfl, isOpen⟩ : answer = .error refusal ∧ next.inProgress = true := follows
          rw [transcript_eq, scanned, decodeFrom_of_refused offset verdict]
          exact ⟨rfl, rfl, isOpen⟩
      | found item rest =>
          obtain ⟨delivered, later⟩ := item
          obtain ⟨kept, rfl, fitsBehind, resumes⟩ := decodeFrom_found fits scanned offset
          have readsRest := inductionHypothesis rest.length (length_rest_lt_frame scanned)
            fitsBehind (offset + (stream.length - rest.length)) rest rfl
          rw [transcript_eq, scanned, resumes]
          exact ⟨congrArg (_ ++ ·) readsRest.deliveries, readsRest.refusal,
            readsRest.inProgress⟩

/-- Decoding a stream, in pieces of any size, is reading it: the same frames are
delivered at the same offsets, the same rule is broken first if one is, and something is
left open in the same cases. -/
theorem decodePieces_reads
    (role : Role)
    (limit : Nat)
    (memory : Memory)
    (pieces : List (List UInt8)) :
    let stream := (new role limit memory).decodePieces pieces
    let meaning := transcript role limit memory none 0 pieces.flatten
    stream.deliveries = meaning.deliveries ∧
      stream.refusal = meaning.ending.refusal? ∧
      stream.decoder.inProgress = meaning.ending.isOpen := by
  have outcome := outcome_decodePieces role limit memory pieces
  have reads : ((new role limit memory).decodeFrom 0 pieces.flatten).Reads
      (transcript role limit memory none 0 pieces.flatten) :=
    reads_decodeFrom role limit memory fits_none 0 pieces.flatten
  rw [← outcome] at reads
  exact ⟨reads.deliveries, reads.refusal, reads.inProgress⟩

end Decoder
end WebSocket
