import WebSocket.Proofs.Decoder.Feeds
import WebSocket.Proofs.Grammar.Physical
import WebSocket.Proofs.Grammar.Stream

/-!
# Limits on what a decoder holds

Room for a fragment is reserved when its header is complete, against what the message holds
by then. So no message grows beyond the limit, and one that would is refused before any
octet of the fragment is taken. Control frames have a limit of their own.
-/

namespace WebSocket

/-- Whether a frame is no longer than its kind may be. -/
def Frame.Keeps (limit : Nat) (frame : Frame) : Prop :=
  match frame.opcode with
  | .data _ => frame.length ≤ limit
  | .control _ => frame.length ≤ 125

theorem InFlight.length_unmask (frame : InFlight) (piece : List UInt8) :
    (frame.unmask piece).length = piece.length := by
  unfold unmask
  cases frame.header.mask with
  | none => rfl
  | some key =>
      dsimp only
      rw [key.maskAt_eq_maskFrom, key.length_maskFrom]

theorem PendingMessage.size_append (message : PendingMessage) (octets : List UInt8) :
    (message.append octets).payload.size = message.payload.size + octets.length := by
  rw [← Array.length_toList, toList_payload_append, List.length_append, Array.length_toList]

namespace Decoder

/-- Whether a decoder keeps to its limit: what it holds of a message, what is still to come
of the fragment in flight included, and what it holds and announces of a control frame. -/
structure Keeps (limit : Nat) (decoder : Decoder) : Prop where
  sameLimit : decoder.limit = limit
  pending : ∀ message, decoder.pending = some message → message.payload.size ≤ limit
  data : ∀ frame opcode, decoder.inFlight = some frame → frame.header.opcode = .data opcode →
    ∃ message, decoder.pending = some message ∧
      message.payload.size + frame.remaining ≤ limit
  control : ∀ frame opcode, decoder.inFlight = some frame →
    frame.header.opcode = .control opcode →
      frame.control.size = frame.received ∧ frame.received + frame.remaining ≤ 125

/-- Whether a decoder stays within a bound, for whatever reason it reserves no more room: what
it holds of a message, what is still to come of the fragment in flight included. What it holds
and announces of a control frame has a bound of its own. -/
structure Bounded (limit bound : Nat) (decoder : Decoder) : Prop where
  sameLimit : decoder.limit = limit
  reserves : ∀ {held announced : Nat},
    PendingMessage.reserve decoder.memory limit held announced = .ok () →
      held + announced ≤ bound
  pending : ∀ message, decoder.pending = some message → message.payload.size ≤ bound
  data : ∀ frame opcode, decoder.inFlight = some frame → frame.header.opcode = .data opcode →
    ∃ message, decoder.pending = some message ∧
      message.payload.size + frame.remaining ≤ bound
  control : ∀ frame opcode, decoder.inFlight = some frame →
    frame.header.opcode = .control opcode →
      frame.control.size = frame.received ∧ frame.received + frame.remaining ≤ 125

variable
    {limit bound : Nat}
    {decoder next : Decoder}

/-- Between the payloads of frames only a message counts. -/
theorem bounded_of_inFlight_eq_none
    (between : decoder.inFlight = none)
    (sameLimit : decoder.limit = limit)
    (reserves : ∀ {held announced : Nat},
      PendingMessage.reserve decoder.memory limit held announced = .ok () →
        held + announced ≤ bound)
    (pending : ∀ message, decoder.pending = some message → message.payload.size ≤ bound) :
    decoder.Bounded limit bound where
  sameLimit
  reserves
  pending
  data := by
    intro frame opcode inFlight
    cases between.symm.trans inFlight
  control := by
    intro frame opcode inFlight
    cases between.symm.trans inFlight

/-! ## Headers -/

/-- Room is reserved only for what can be held. A message that finds room is counted
exactly. -/
theorem fits_of_reserve
    {memory : Memory}
    {held announced : Nat}
    (reserved : PendingMessage.reserve memory limit held announced = .ok ()) :
    held + announced ≤ limit ∧ held + announced < 1 <<< 63 := by
  simp only [PendingMessage.reserve] at reserved
  split at reserved
  · cases reserved
  · rename_i within
    split at reserved
    · rename_i room
      have small := memory.size_lt_of_hasRoom room
      have counted : PendingMessage.sizeAfter held announced = held + announced := by
        rw [PendingMessage.sizeAfter, PendingMessage.largestSize, UInt64.size] at small ⊢
        omega
      rw [counted] at within small
      exact ⟨Nat.le_of_not_lt within, small⟩
    · cases reserved

/-- A decoder that stays within its limit keeps to it. -/
theorem Bounded.keeps (bounded : decoder.Bounded limit limit) : decoder.Keeps limit :=
  ⟨bounded.sameLimit, bounded.pending, bounded.data, bounded.control⟩

theorem bounded_new (role : Role) (limit : Nat) (memory : Memory) :
    (new role limit memory).Bounded limit limit :=
  bounded_of_inFlight_eq_none rfl rfl (fun reserved => (fits_of_reserve reserved).1) nofun

/-- A header that is accepted announces a short control frame, or a fragment that room is
reserved for behind the message that is pending then. -/
theorem accept_cases
    {header : FrameHeader}
    {announced : Nat}
    (acceptance : decoder.accept header announced = .ok next) :
    (∃ opcode, header.opcode = .control opcode ∧ announced ≤ 125 ∧ next = decoder) ∨
      ∃ opcode message, header.opcode = .data opcode ∧
        PendingMessage.reserve decoder.memory decoder.limit message.payload.size announced =
          .ok () ∧
        next = { decoder with pending := some message } := by
  unfold accept at acceptance
  split at acceptance
  · rename_i opcode carries
    split at acceptance
    · cases acceptance
    · split at acceptance
      · cases acceptance
      · rename_i short
        cases acceptance
        exact .inl ⟨opcode, carries, Nat.le_of_not_lt short, rfl⟩
  · rename_i carries
    split at acceptance
    · cases acceptance
    · rename_i message held
      split at acceptance
      · cases acceptance
      · rename_i reserved
        cases acceptance
        exact .inr ⟨_, message, carries, reserved, by rw [← held]⟩
  · rename_i opcode _ carries
    split at acceptance
    · cases acceptance
    · split at acceptance
      · cases acceptance
      · rename_i reserved
        cases acceptance
        exact .inr ⟨opcode, { opcode }, carries, reserved, rfl⟩

theorem Bounded.withParser (bounded : decoder.Bounded limit bound) (parser : HeaderParser) :
    (decoder.withParser parser).Bounded limit bound :=
  ⟨bounded.sameLimit, bounded.reserves, bounded.pending, bounded.data, bounded.control⟩

/-- A header that is accepted announces no more than the bound leaves room for. -/
theorem Bounded.begin
    (bounded : decoder.Bounded limit bound)
    {header : FrameHeader}
    {announced : Nat}
    (acceptance : decoder.accept header announced = .ok next) :
    (next.begin header announced).Bounded limit bound := by
  obtain ⟨sameLimit, reserves, held, -, -⟩ := bounded
  rcases accept_cases acceptance with
    ⟨opcode, carries, short, rfl⟩ | ⟨opcode, message, carries, reserved, rfl⟩
  · refine ⟨sameLimit, reserves, held, ?_, ?_⟩
    · intro frame opcode' begun data
      cases begun
      cases carries.symm.trans data
    · intro frame opcode' begun _
      cases begun
      exact ⟨rfl, (Nat.zero_add announced).symm ▸ short⟩
  · have within := reserves (sameLimit ▸ reserved)
    refine ⟨sameLimit, reserves, ?_, ?_, ?_⟩
    · intro message' pending
      cases pending
      exact Nat.le_trans (Nat.le_add_right _ _) within
    · intro frame opcode' begun _
      cases begun
      exact ⟨message, rfl, within⟩
    · intro frame opcode' begun control
      cases begun
      cases carries.symm.trans control

/-! ## Payloads -/

/-- What is taken of a payload is no longer to come. -/
theorem Bounded.absorb
    (bounded : decoder.Bounded limit bound)
    {frame : InFlight}
    (inFlight : decoder.inFlight = some frame)
    {piece : List UInt8}
    (within : piece.length ≤ frame.remaining) :
    (decoder.absorb frame piece).Bounded limit bound := by
  obtain ⟨sameLimit, reserves, held, data, control⟩ := bounded
  have width := frame.length_unmask piece
  cases carries : frame.header.opcode with
  | control opcode =>
      obtain ⟨counted, short⟩ := control frame opcode inFlight carries
      have unchanged : decoder.collect frame piece = decoder := by
        rw [collect, carries]
        rfl
      rw [Decoder.absorb, unchanged]
      refine ⟨sameLimit, reserves, held, ?_, ?_⟩
      · intro frame' opcode' begun data
        cases begun
        cases carries.symm.trans data
      · intro frame' opcode' begun _
        cases begun
        have grown : (frame.advance piece).control.size =
            frame.control.size + piece.length := by
          rw [InFlight.advance, carries, ← width, ← Array.length_toList,
            ← frame.control.length_toList, ← List.length_append, ← Array.toList_appendList]
          rfl
        refine ⟨grown.trans (congrArg (· + piece.length) counted), ?_⟩
        rw [InFlight.remaining_advance]
        simp only [InFlight.advance]
        omega
  | data opcode =>
      obtain ⟨message, pending, room⟩ := data frame opcode inFlight carries
      have grown := message.size_append (frame.unmask piece)
      rw [width] at grown
      have collected : decoder.collect frame piece =
          { decoder with pending := some (message.append (frame.unmask piece)) } := by
        rw [collect, carries, pending]
        rfl
      rw [Decoder.absorb, collected]
      refine ⟨sameLimit, reserves, ?_, ?_, ?_⟩
      · intro message' pending'
        cases pending'
        omega
      · intro frame' opcode' begun _
        cases begun
        refine ⟨_, rfl, ?_⟩
        rw [InFlight.remaining_advance]
        omega
      · intro frame' opcode' begun control
        cases begun
        cases carries.symm.trans control

/-- A frame that is closed out leaves a decoder within the bound, and so is a message that is
delivered. A control frame that is delivered is short. -/
theorem Bounded.finishFrame
    (bounded : decoder.Bounded limit bound)
    {frame : InFlight}
    (inFlight : decoder.inFlight = some frame)
    {delivered : Option Frame}
    (finished : decoder.finishFrame frame = (delivered, next)) :
    next.Bounded limit bound ∧ ∀ whole, delivered = some whole → whole.Keeps bound := by
  obtain ⟨sameLimit, reserves, held, data, control⟩ := bounded
  unfold Decoder.finishFrame at finished
  dsimp only at finished
  split at finished
  · rename_i opcode carries
    obtain ⟨counted, short⟩ := control frame opcode inFlight carries
    cases finished
    refine ⟨bounded_of_inFlight_eq_none rfl sameLimit reserves held, ?_⟩
    intro whole delivers
    cases delivers
    change frame.control.toList.length ≤ 125
    rw [Array.length_toList]
    omega
  · split at finished
    · cases finished
      refine ⟨bounded_of_inFlight_eq_none rfl sameLimit reserves nofun, ?_⟩
      intro whole delivers
      obtain ⟨message, pending, rfl⟩ := Option.map_eq_some_iff.mp delivers
      change message.payload.toList.length ≤ bound
      rw [Array.length_toList]
      exact held message pending
    · cases finished
      exact ⟨bounded_of_inFlight_eq_none rfl sameLimit reserves held, nofun⟩

/-! ## Calls -/

/-- Whether a call leaves a decoder within the bound, and delivers nothing beyond it. -/
structure Verdict.Bounded (limit bound : Nat) (verdict : Verdict) : Prop where
  decoder : verdict.decoder.Bounded limit bound
  frame : ∀ frame, verdict.answer = .ok (.ready frame) → frame.Keeps bound

/-- Whatever a decoder is fed, it stays within its bound. -/
theorem Bounded.verdict (bounded : decoder.Bounded limit bound) (input : List UInt8) :
    (decoder.verdict input).Bounded limit bound := by
  induction decoder, input using feed_induction with
  | headerRefused decoder input parser rest refusal between parsed =>
      rw [verdict_of_header_refused between parsed]
      exact ⟨bounded.withParser parser, nofun⟩
  | headerShort decoder input parser rest count between parsed =>
      rw [verdict_of_header_short between parsed]
      exact ⟨bounded.withParser parser, nofun⟩
  | rejected decoder input parser rest header announced refusal between parsed rejection =>
      rw [verdict_of_rejected between parsed rejection]
      exact ⟨bounded.withParser parser, nofun⟩
  | accepted decoder input parser rest header announced next between parsed acceptance
      inductionHypothesis =>
      rw [verdict_of_accepted between parsed acceptance]
      exact inductionHypothesis ((bounded.withParser parser).begin acceptance)
  | payloadShort decoder input frame inFlight short =>
      rw [verdict_of_payload_short inFlight short]
      exact ⟨bounded.absorb inFlight (Nat.le_of_lt short), nofun⟩
  | delivered decoder input frame delivered next inFlight full finished =>
      have absorbed := bounded.absorb inFlight (List.length_take_le _ input)
      rw [← finishFrame_withInFlight] at finished
      obtain ⟨boundedNext, keepsFrame⟩ := absorbed.finishFrame rfl finished
      rw [verdict_of_delivered inFlight full (by rwa [← finishFrame_withInFlight])]
      refine ⟨boundedNext, ?_⟩
      intro frame' delivers
      cases delivers
      exact keepsFrame delivered rfl
  | continued decoder input frame next inFlight full finished inductionHypothesis =>
      have absorbed := bounded.absorb inFlight (List.length_take_le _ input)
      rw [verdict_of_continued inFlight full finished]
      rw [← finishFrame_withInFlight] at finished
      exact inductionHypothesis (absorbed.finishFrame rfl finished).1

/-- Whatever feeds are made, the decoder stays within its bound and delivers nothing beyond. -/
theorem Bounded.feedEach (bounded : decoder.Bounded limit bound) (inputs : List (List UInt8)) :
    (decoder.feedEach inputs).2.Bounded limit bound ∧
      ∀ frame, .ok (.ready frame) ∈ (decoder.feedEach inputs).1 → frame.Keeps bound := by
  induction inputs generalizing decoder with
  | nil => exact ⟨bounded, nofun⟩
  | cons input later inductionHypothesis =>
      have first := bounded.verdict input
      obtain ⟨last, others⟩ := inductionHypothesis first.decoder
      refine ⟨last, ?_⟩
      intro frame member
      rcases List.mem_cons.mp member with here | there
      · exact first.frame frame here.symm
      · exact others frame there

/-! ## What is refused -/

section Refusals

open Grammar

variable
    {role : Role}
    {memory : Memory}
    {pending : Option PendingMessage}

/-- A stream that is not refused begins with frames that are not refused. -/
theorem frame_ne_refused
    (fits : Fits pending)
    {offset : Nat}
    {stream : List UInt8}
    (accepted : ((between role limit memory pending).decodeFrom offset stream).refusal =
      none)
    (refusal : Refusal) :
    frame role limit memory (pending.map PendingMessage.toFrame) stream ≠
      .refused refusal := by
  intro refused
  have reads := (reads_decodeFrom role limit memory fits offset stream).refusal
  rw [accepted, transcript_eq, refused] at reads
  cases reads

/-- Behind physical frames that are not refused, a decoder holds what they leave open. -/
theorem decodeFrom_physicals
    (fits : Fits pending)
    (offset : Nat)
    (earlier : List (Physical role))
    (stream : List UInt8)
    (accepted : ((between role limit memory pending).decodeFrom offset
      (earlier.flatMap Physical.octets ++ stream)).refusal = none) :
    ∃ behind next, Fits next ∧
      next.map (·.toFrame.length) =
        earlier.foldl (fun openLength physical => physical.tally openLength)
          (pending.map (·.toFrame.length)) ∧
      ((between role limit memory pending).decodeFrom offset
          (earlier.flatMap Physical.octets ++ stream)).decoder =
        ((between role limit memory next).decodeFrom behind stream).decoder ∧
      ((between role limit memory next).decodeFrom behind stream).refusal = none := by
  induction earlier generalizing pending offset with
  | nil => exact ⟨offset, pending, fits, rfl, rfl, accepted⟩
  | cons physical earlier inductionHypothesis =>
      rw [List.flatMap_cons, List.append_assoc] at accepted ⊢
      cases broken : broken? limit memory (pending.map PendingMessage.toFrame)
          physical.header physical.payload.length with
      | some refusal =>
          have refused := Physical.frame_opening_of_broken broken
            (unmask physical.mask physical.payload ++
              (earlier.flatMap Physical.octets ++ stream))
          rw [← List.append_assoc] at refused
          exact absurd refused (frame_ne_refused fits accepted refusal)
      | none =>
          have found := Physical.frame_octets broken
            (earlier.flatMap Physical.octets ++ stream)
          have length := physical.map_length_fold_snd (pending.map PendingMessage.toFrame)
          rcases folding : fold (pending.map PendingMessage.toFrame) physical.header
            physical.payload with ⟨delivered, later⟩
          rw [folding] at found length
          obtain ⟨next, kept, fitsNext, resumes⟩ := decodeFrom_found fits found offset
          rw [resumes] at accepted ⊢
          obtain ⟨behind, last, fitsLast, tallied, reached, acceptedLast⟩ :=
            inductionHypothesis fitsNext _ accepted
          refine ⟨behind, last, fitsLast, ?_, reached, acceptedLast⟩
          rw [← kept, Option.map_map, Option.map_map] at length
          rw [List.foldl_cons, tallied]
          exact congrArg (earlier.foldl _) length

/-- A decoder that has taken a part of a header answers what follows like a decoder that is
fed the whole header. -/
theorem verdict_of_partial_header
    (fits : Fits pending)
    (offset : Nat)
    (physical : Physical role)
    {arrived missing : List UInt8}
    (whole : arrived ++ missing = physical.opening)
    (nonempty : missing ≠ [])
    (rest : List UInt8) :
    ((between role limit memory pending).decodeFrom offset arrived).decoder.verdict
        (missing ++ rest) =
      (between role limit memory pending).verdict (physical.opening ++ rest) := by
  have scanned := physical.header_opening []
  rw [List.append_nil] at scanned
  have short : arrived.length < physical.opening.length := by
    rw [← whole, List.length_append]
    have positive := List.length_pos_iff.mpr nonempty
    omega
  have ended : Grammar.header role arrived = .ended := by
    have taken := (settles_header role).take_of_found scanned short
    rwa [← whole, List.take_left] at taken
  have follows := follows_frame role limit memory fits arrived
  rw [frame, Scanner.bind_of_ended ended] at follows
  obtain ⟨⟨count, asks⟩, -⟩ := follows
  have nothing := (verdict_of_needMore asks).1
  rcases verdict : (between role limit memory pending).verdict arrived with
    ⟨next, left, answer⟩
  rw [verdict] at asks nothing
  obtain rfl : answer = .ok (.needMore count) := asks
  obtain rfl : left = [] := nothing
  have both := (between role limit memory pending).verdict_append arrived (missing ++ rest)
  rw [verdict, ← List.append_assoc, whole] at both
  rw [decodeFrom_of_needMore offset verdict]
  exact both.symm

/-- A frame that breaks a rule is refused behind its header. -/
theorem verdict_of_broken
    (fits : Fits pending)
    (physical : Physical role)
    {refusal : Refusal}
    (broken : broken? limit memory (pending.map PendingMessage.toFrame) physical.header
      physical.payload.length = some refusal)
    (rest : List UInt8) :
    ((between role limit memory pending).verdict (physical.opening ++ rest)).answer =
        .error refusal ∧
      ((between role limit memory pending).verdict (physical.opening ++ rest)).rest =
        rest := by
  have small := LengthFormat.lt_of_holds physical.holds
  obtain ⟨parser, parsed⟩ :=
    HeaderParser.exists_ready_of_header (physical.header_opening rest)
  have acceptance := accept_between role limit memory fits parser physical.header small
  rw [broken] at acceptance
  rw [verdict_of_rejected rfl parsed acceptance]
  exact ⟨rfl, rfl⟩

/-- A frame that breaks no rule is not refused behind its header. -/
theorem answer_of_unbroken
    (fits : Fits pending)
    (physical : Physical role)
    (whole : broken? limit memory (pending.map PendingMessage.toFrame) physical.header
      physical.payload.length = none) :
    ∃ parsed,
      ((between role limit memory pending).verdict physical.opening).answer =
        .ok parsed := by
  have follows := follows_frame role limit memory fits physical.opening
  by_cases empty : physical.payload.length = 0
  · have nothing : unmask physical.mask physical.payload = [] := by
      apply List.eq_nil_of_length_eq_zero
      rw [length_unmask, empty]
    have found := Physical.frame_octets whole []
    rw [List.append_nil, Physical.octets, nothing, List.append_nil] at found
    rcases folding : fold (pending.map PendingMessage.toFrame) physical.header
      physical.payload with ⟨_ | delivered, later⟩
    · rw [found, folding] at follows
      obtain ⟨next, -, -, resumed⟩ := follows
      have waits : 0 < (between role limit memory next).wanted := Nat.one_pos
      rw [resumed, verdict_nil waits]
      exact ⟨_, rfl⟩
    · rw [found, folding] at follows
      obtain ⟨next, -, -, resumed⟩ := follows
      rw [resumed]
      exact ⟨_, rfl⟩
  · have short : ([] : List UInt8).length < physical.payload.length :=
      Nat.pos_of_ne_zero empty
    have scanned := physical.header_opening []
    rw [List.append_nil] at scanned
    have ended : body limit memory (pending.map PendingMessage.toFrame) physical.header
        physical.payload.length [] = .ended := by
      rw [body, whole]
      exact Scanner.bind_of_ended (Scanner.octets_of_lt short)
    have endedFrame : frame role limit memory (pending.map PendingMessage.toFrame)
        physical.opening = .ended := (Scanner.bind_of_found scanned).trans ended
    rw [endedFrame] at follows
    obtain ⟨⟨count, asks⟩, -⟩ := follows
    exact ⟨_, asks⟩

/-- Whether a frame carries a fragment in order: one that goes on with a message exactly if
one is open. -/
def InOrder (next : Physical role) (openLength : Option Nat) : Prop :=
  ∃ opcode, next.opcode = .data opcode ∧
    (opcode = .continuation ↔ openLength.isSome = true)

/-- A fragment in order breaks no rule but those for the size of its message. -/
theorem broken?_of_inOrder
    {pending : Option Frame}
    {next : Physical role}
    (inOrder : InOrder next (pending.map Frame.length)) :
    broken? limit memory pending next.header next.payload.length =
      crowding? limit memory
        ((pending.map Frame.length).getD 0 + next.payload.length) := by
  obtain ⟨opcode, carries, continues⟩ := inOrder
  rw [Option.isSome_map] at continues
  unfold broken?
  rw [show next.header.opcode = next.opcode from rfl, carries]
  cases pending with
  | none =>
      rw [Option.map_none, Option.getD_none, Nat.zero_add]
      cases opcode with
      | continuation => cases continues.mp rfl
      | _ => rfl
  | some message =>
      cases opcode with
      | continuation => rfl
      | _ => cases continues.mpr rfl

/-- Whatever feeds are made of a new decoder, it keeps to its limit and delivers nothing
beyond. Suppose it has refused nothing so far and has taken some physical frames and a part
of the header of a fragment in order. If the fragment would make its message longer than the
limit, then it is refused behind the last octet of its header, with the exact size of the
message. Otherwise it is refused behind its header only for a lack of room. -/
theorem keeps_feedEach_new
    (role : Role)
    (limit : Nat)
    (memory : Memory)
    (inputs : List (List UInt8)) :
    let (answers, decoder) := (new role limit memory).feedEach inputs
    let taken := (new role limit memory).takenEach inputs
    decoder.Keeps limit ∧
      (∀ frame, .ok (.ready frame) ∈ answers → frame.Keeps limit) ∧
      ((∀ refusal, .error refusal ∉ answers) →
        ∀ (earlier : List (Physical role)) (next : Physical role) arrived missing rest,
          taken = earlier.flatMap Physical.octets ++ arrived →
          arrived ++ missing = next.opening →
          missing ≠ [] →
          InOrder next (Physical.openLength earlier) →
          let size := (Physical.openLength earlier).getD 0 + next.payload.length
          (limit < size →
            (decoder.feed (missing ++ rest)).answer =
                .error (.messageTooLong size limit) ∧
              (decoder.feed (missing ++ rest)).consumed = missing.length ∧
              (decoder.feed (missing ++ rest)).rest = rest) ∧
          (size ≤ limit →
            (∃ parsed, (decoder.feed missing).answer = .ok parsed) ∨
              memory.hasRoom size = false ∧
                (decoder.feed missing).answer = .error (.outOfMemory size))) := by
  obtain ⟨bounded, delivers⟩ := (bounded_new role limit memory).feedEach inputs
  refine ⟨bounded.keeps, delivers, ?_⟩
  intro accepted earlier next arrived missing rest taken whole nonempty inOrder
  have waits : 0 < (new role limit memory).wanted := Nat.one_pos
  obtain ⟨unrefused, reached⟩ := decodeFrom_takenEach waits 0 accepted
  rw [taken] at unrefused reached
  obtain ⟨behind, pending, fits, tallied, led, -⟩ :=
    decodeFrom_physicals fits_none 0 earlier arrived unrefused
  have openLength : (pending.map PendingMessage.toFrame).map Frame.length =
      Physical.openLength earlier := by
    rw [Option.map_map]
    exact tallied
  -- What the decoder answers is what a decoder that awaits the frame answers to it.
  have answers : ∀ rest,
      ((new role limit memory).feedEach inputs).2.verdict (missing ++ rest) =
        (between role limit memory pending).verdict (next.opening ++ rest) := by
    intro rest
    rw [← reached]
    exact (congrArg (·.verdict (missing ++ rest)) led).trans
      (verdict_of_partial_header fits behind next whole nonempty rest)
  rw [← openLength] at inOrder ⊢
  have broken : broken? limit memory (pending.map PendingMessage.toFrame) next.header
      next.payload.length = _ := broken?_of_inOrder inOrder
  constructor
  · intro long
    rw [crowding?, if_pos long] at broken
    obtain ⟨refused, left⟩ := verdict_of_broken fits next broken rest
    rw [← answers] at refused left
    refine ⟨refused, ?_, left⟩
    have total := ((new role limit memory).feedEach inputs).2.consumed_add_length_rest_feed
      (missing ++ rest)
    rw [show (((new role limit memory).feedEach inputs).2.feed (missing ++ rest)).rest = rest
      from left, List.length_append] at total
    exact Nat.add_right_cancel total
  · intro short
    have alone := answers []
    rw [List.append_nil, List.append_nil] at alone
    rw [crowding?, if_neg (Nat.not_lt.mpr short)] at broken
    split at broken
    · obtain ⟨parsed, accepts⟩ := answer_of_unbroken fits next broken
      rw [← alone] at accepts
      exact .inl ⟨parsed, accepts⟩
    · rename_i full
      have refused := (verdict_of_broken fits next broken []).1
      rw [List.append_nil, ← alone] at refused
      exact .inr ⟨Bool.eq_false_iff.mpr full, refused⟩

/-- A fragment that goes on with a message around a ping is refused behind its header. -/
theorem feedEach_fragment_beyond_limit :
    let first : Physical .client :=
      ⟨.data .text, false, none, [0x61, 0x62], .inline 2, rfl, rfl, rfl, by decide⟩
    let ping : Physical .client :=
      ⟨.control .ping, true, none, [0x70], .inline 1, rfl, rfl, rfl, by decide⟩
    let next : Physical .client :=
      ⟨.data .continuation, true, none, [0x63, 0x64], .inline 2, rfl, rfl, rfl, by decide⟩
    let inputs : List (List UInt8) := [[0x01, 0x02, 0x61, 0x62], [0x89, 0x01, 0x70], [0x80]]
    let (answers, decoder) := (new .client 3).feedEach inputs
    answers.all Except.isOk = true ∧
      (new .client 3).takenEach inputs = [first, ping].flatMap Physical.octets ++ [0x80] ∧
      InOrder next (Physical.openLength [first, ping]) ∧
      (decoder.feed [0x02, 0x63]).answer = .error (.messageTooLong 4 3) ∧
      (decoder.feed [0x02, 0x63]).rest = [0x63] := by
  intro first ping next inputs
  have ok : ((new .client 3).feedEach inputs).1.all Except.isOk = true := by decide +kernel
  have taken : (new .client 3).takenEach inputs =
      [first, ping].flatMap Physical.octets ++ [0x80] := by
    decide +kernel
  have inOrder : InOrder next (Physical.openLength [first, ping]) :=
    ⟨.continuation, rfl, fun _ => rfl, fun _ => rfl⟩
  have accepted : ∀ refusal, .error refusal ∉ ((new .client 3).feedEach inputs).1 :=
    fun refusal member => Bool.false_ne_true (List.all_eq_true.mp ok _ member)
  obtain ⟨-, -, refuses⟩ := keeps_feedEach_new .client 3 .standard inputs
  obtain ⟨refused, -, left⟩ :=
    (refuses accepted [first, ping] next [0x80] [0x02] [0x63] taken (by decide) nofun inOrder).1
      (by decide)
  exact ⟨ok, taken, inOrder, refused, left⟩

end Refusals

end Decoder
end WebSocket
