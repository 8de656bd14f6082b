import WebSocket.Proofs.Grammar.Header
import WebSocket.Proofs.Header.Operations

/-!
# Header parsers with staging memory

A header parser may also hold the octets of a field in memory of a fixed size, of which a new
field overwrites only the front, and enter what it reads into one header as it goes, up to the
bit that makes it refuse a field. A reset leaves the memory as it is. None of what is left over
there ever shows: such a parser answers, takes and tells the same as one that holds no more
than the octets of the current field.
-/

namespace WebSocket

/-! ## Memory for one field -/

/-- Memory for the octets of one field. -/
abbrev Staging := Vector UInt8 8

namespace Staging

/-- Overwrite the memory from a position on. -/
def overwrite
    (staging : Staging)
    (start : Nat)
    (octets : List UInt8)
    (within : start + octets.length ≤ 8) : Staging :=
  ⟨(staging.toList.take start ++ octets ++
      staging.toList.drop (start + octets.length)).toArray, by
    simp only [List.size_toArray, List.length_append, List.length_take, List.length_drop,
      Vector.length_toList]
    omega⟩

/-- Behind what was ahead of the position stand the octets that were written. -/
theorem take_overwrite
    (staging : Staging)
    {start : Nat}
    {octets : List UInt8}
    (within : start + octets.length ≤ 8) :
    (staging.overwrite start octets within).toList.take (start + octets.length) =
      staging.toList.take start ++ octets := by
  have size : (staging.toList.take start ++ octets).length = start + octets.length := by
    rw [List.length_append, List.length_take, Vector.length_toList]
    omega
  rw [← size]
  exact List.take_append_length

end Staging

/-- The number of fields that may follow a field. -/
def HeaderField.fieldsLeft : HeaderField → Nat
  | .initial => 4
  | .length => 3
  | .extendedLength16 => 2
  | .extendedLength64 => 2
  | .mask => 1
  | .payload => 0

/-! ## Parsing -/

/-- A resumable parser for one header at a time, with memory for one field. -/
structure StagedParser where
  /-- The role of the endpoint that receives the header. -/
  role : Role
  /-- The field that it waits for. -/
  field : HeaderField := .initial
  /-- The memory. What an earlier field left there stays until it is overwritten. -/
  staging : Staging := .replicate 8 0
  /-- The number of octets in front of the memory that belong to the current field. -/
  staged : Nat := 0
  /-- What has been read of the header. -/
  header : FrameHeader := { opcode := .control .close }
  /-- The payload length that was read last. -/
  length : Nat := 0
  fits : staged ≤ field.width := by exact Nat.zero_le _

namespace StagedParser

/-- A parser for an endpoint of the given role, before any octet of a header. -/
def new (role : Role) : StagedParser := { role }

/-- Whether no octet of a header has been taken. -/
def isIdle (parser : StagedParser) : Bool :=
  parser.field == .initial && parser.staged == 0

/-- The number of octets that the current field still lacks. -/
def wanted (parser : StagedParser) : Nat :=
  parser.field.width - parser.staged

/-- Forget the header and wait for the next one. The memory stays as it is. -/
def reset (parser : StagedParser) : StagedParser :=
  { parser with
    field := .initial
    staged := 0
    header := { opcode := .control .close }
    length := 0
    fits := Nat.zero_le _ }

theorem staged_add_le
    {parser : StagedParser}
    {octets : List UInt8}
    (within : octets.length ≤ parser.wanted) :
    parser.staged + octets.length ≤ parser.field.width :=
  Nat.add_le_of_le_sub' parser.fits within

/-- Stage further octets of the current field. -/
def stage
    (parser : StagedParser)
    (octets : List UInt8)
    (within : octets.length ≤ parser.wanted) : StagedParser :=
  { parser with
    staging := parser.staging.overwrite parser.staged octets
      (Nat.le_trans (staged_add_le within) parser.field.width_le_eight)
    staged := parser.staged + octets.length
    fits := staged_add_le within }

/-- Wait for a field. -/
def enter (parser : StagedParser) (field : HeaderField) : StagedParser :=
  { parser with field, staged := 0, fits := Nat.zero_le _ }

/-- The field that follows the length of a frame. -/
def afterLength (parser : StagedParser) : HeaderField :=
  match parser.role with
  | .server => .mask
  | .client => .payload

/-- Find the field that follows the announcement of how the length is written. -/
def afterFormat (parser : StagedParser) :
    LengthFormat → Except Refusal HeaderField × StagedParser
  | .inline length => (.ok parser.afterLength, { parser with length := length.toNat })
  | .extended16 => (.ok .extendedLength16, parser)
  | .extended64 => (.ok .extendedLength64, parser)

/-- Read the flags and the opcode. The flags are entered before they are checked. -/
def readInitial (parser : StagedParser) (first : UInt8) :
    Except Refusal HeaderField × StagedParser :=
  let header :=
    { parser.header with
      isFinal := first &&& 0x80 ≠ 0
      rsv1 := first &&& 0x40 ≠ 0
      rsv2 := first &&& 0x20 ≠ 0
      rsv3 := first &&& 0x10 ≠ 0 }
  let value := first &&& 0x0F
  let opcode := Opcode.ofByte value
  if header.rsv1 || header.rsv2 || header.rsv3 then
    (.error .reservedBits, { parser with header })
  else if opcode.isAssigned then (.ok .length, { parser with header := { header with opcode } })
  else (.error (.unassignedOpcode value), { parser with header })

/-- Read the mask bit and the seven-bit length. -/
def readLength (parser : StagedParser) (second : UInt8) :
    Except Refusal HeaderField × StagedParser :=
  match parser.role, decide (second &&& 0x80 ≠ 0) with
  | .server, false => (.error .missingMask, parser)
  | .client, true => (.error .unexpectedMask, parser)
  | _, _ => parser.afterFormat (LengthFormat.ofByte second)

/-- Read a length of two octets. -/
def readLength16 (parser : StagedParser) : Except Refusal HeaderField × StagedParser :=
  (.ok parser.afterLength,
    { parser with length := BigEndian.decode (parser.staging.toList.take 2) })

/-- Read a length of eight octets, whose top bit has to be clear. -/
def readLength64 (parser : StagedParser) : Except Refusal HeaderField × StagedParser :=
  let length := BigEndian.decode parser.staging.toList
  if 1 <<< 63 ≤ length then (.error (.lengthTooLarge length), parser)
  else (.ok parser.afterLength, { parser with length })

/-- Read the key. -/
def readMask (parser : StagedParser) : Except Refusal HeaderField × StagedParser :=
  let mask := MaskingKey.ofOctets? (parser.staging.toList.take 4)
  (.ok .payload, { parser with header := { parser.header with mask } })

/-- Read the current field, all of which has been staged, and find the field that follows. -/
def advance (parser : StagedParser) : Except Refusal HeaderField × StagedParser :=
  match parser.field with
  | .initial => parser.readInitial (parser.staging.toList.headD 0)
  | .length => parser.readLength (parser.staging.toList.headD 0)
  | .extendedLength16 => parser.readLength16
  | .extendedLength64 => parser.readLength64
  | .mask => parser.readMask
  | .payload => (.ok .payload, parser)

/-- What comes of feeding a parser. -/
structure Fed where
  parser : StagedParser
  /-- The number of octets taken. -/
  consumed : Nat
  /-- The octets left over. -/
  rest : List UInt8
  answer : Except Refusal (Parse (FrameHeader × Nat))
  /-- What there is to tell, in order. -/
  events : Array Log.Event

theorem fieldsLeft_afterLength_le (parser : StagedParser) :
    parser.afterLength.fieldsLeft ≤ 1 := by
  unfold afterLength
  cases parser.role <;> decide

/-- Each field that is read leaves fewer fields to come. -/
theorem fieldsLeft_advance
    {parser after : StagedParser}
    {next : HeaderField}
    (waiting : parser.field ≠ .payload)
    (advanced : parser.advance = (.ok next, after)) :
    next.fieldsLeft < parser.field.fieldsLeft := by
  have few := parser.fieldsLeft_afterLength_le
  unfold advance at advanced
  cases field : parser.field with
  | initial =>
      simp only [field, readInitial] at advanced
      split at advanced
      · cases advanced
      · split at advanced
        · cases advanced
          decide
        · cases advanced
  | length =>
      simp only [field, readLength] at advanced
      split at advanced
      · cases advanced
      · cases advanced
      · unfold afterFormat at advanced
        split at advanced <;> cases advanced
        · exact Nat.lt_of_le_of_lt few (by decide)
        · decide
        · decide
  | extendedLength16 =>
      simp only [field] at advanced
      cases advanced
      exact Nat.lt_of_le_of_lt few (by decide)
  | extendedLength64 =>
      simp only [field, readLength64] at advanced
      split at advanced
      · cases advanced
      · cases advanced
        exact Nat.lt_of_le_of_lt few (by decide)
  | mask =>
      simp only [field] at advanced
      cases advanced
      decide
  | payload => exact absurd field waiting

/-- Feed a parser in a call that has taken `consumed` octets and told `events` so far. -/
def feedFrom
    (parser : StagedParser)
    (input : List UInt8)
    (consumed : Nat)
    (events : Array Log.Event) : Fed :=
  if waiting : parser.field = .payload then
    { parser
      consumed
      rest := input
      answer := .ok (.ready (parser.header, parser.length))
      events }
  else
    let piece := input.take parser.wanted
    let rest := input.drop parser.wanted
    let consumed := consumed + piece.length
    let filled := parser.stage piece (List.length_take_le _ input)
    let width := parser.field.width
    if filled.staged < width then
      { parser := filled
        consumed
        rest
        answer := .ok (.needMore (width - filled.staged))
        events := events.push (.fieldIncomplete parser.field filled.staged) }
    else
      match advanced : filled.advance with
      | (.error refusal, after) =>
          { parser := after
            consumed
            rest
            answer := .error refusal
            events := events.push (.refused refusal) }
      | (.ok next, after) =>
          have : next.fieldsLeft < filled.field.fieldsLeft :=
            fieldsLeft_advance waiting advanced
          feedFrom (after.enter next) rest consumed
            (events.push (.fieldComplete parser.field next))
termination_by parser.field.fieldsLeft

/-- Take in as much of the input as belongs to the header. -/
def feed (parser : StagedParser) (input : List UInt8) : Fed :=
  parser.feedFrom input 0 #[]

/-! ## What a parser stands for -/

/-- Whether what has been read is what is known at a stage. -/
def Knows (staged : StagedParser) : HeaderStage → Prop
  | .initial => staged.header.mask = none
  | .length isFinal opcode => staged.header = { opcode, isFinal }
  | .extendedLength16 isFinal opcode => staged.header = { opcode, isFinal }
  | .extendedLength64 isFinal opcode => staged.header = { opcode, isFinal }
  | .mask isFinal opcode announced =>
      staged.header = { opcode, isFinal } ∧ staged.length = announced
  | .payload header announced => staged.header = header ∧ staged.length = announced

/-- Whether a parser with staging memory stands for one that holds the octets of a field. -/
structure Represents (staged : StagedParser) (parser : HeaderParser) : Prop where
  role : staged.role = parser.role
  field : staged.field = parser.stage.field
  held : staged.staging.toList.take staged.staged = parser.held
  knows : staged.Knows parser.stage

theorem represents_new (role : Role) : (new role).Represents (.new role) :=
  ⟨rfl, rfl, rfl, rfl⟩

section Represents

variable
    {staged : StagedParser}
    {parser : HeaderParser}
    (represents : staged.Represents parser)

include represents

theorem Represents.length_held : parser.held.length = staged.staged := by
  have fits := Nat.le_trans staged.fits staged.field.width_le_eight
  rw [← represents.held, List.length_take, Vector.length_toList, Nat.min_eq_left fits]

theorem Represents.wanted : staged.wanted = parser.wanted := by
  rw [StagedParser.wanted, represents.field, ← represents.length_held]
  rfl

theorem Represents.isIdle : staged.isIdle = parser.isIdle := by
  rw [StagedParser.isIdle, HeaderParser.isIdle, represents.field, ← represents.length_held]
  cases parser.stage <;> cases parser.held <;> rfl

/-- What is left in the memory does not show behind a reset. -/
theorem Represents.reset : staged.reset.Represents parser.reset :=
  ⟨represents.role, rfl, rfl, rfl⟩

theorem Represents.stage
    {octets : List UInt8}
    (within : octets.length ≤ staged.wanted) :
    (staged.stage octets within).Represents (parser.hold octets) where
  role := represents.role
  field := represents.field
  held := by
    rw [HeaderParser.held_hold, ← represents.held]
    exact staged.staging.take_overwrite
      (Nat.le_trans (staged_add_le within) staged.field.width_le_eight)
  knows := represents.knows

end Represents

/-! ## Reading a field -/

/-- Whether a field that is read leads to the refusal or to the stage that it leads to for
another parser, and leaves what stands for that parser behind. -/
def Agrees (result : Except Refusal HeaderField × StagedParser) (parser : HeaderParser) :
    Except Refusal HeaderStage → Prop
  | .error refusal => result.1 = .error refusal ∧ result.2.Represents parser
  | .ok next =>
      result.1 = .ok next.field ∧ (result.2.enter next.field).Represents (parser.enter next)

section Agrees

variable
    {staged after : StagedParser}
    {parser : HeaderParser}
    {isFinal : Bool}
    {opcode : Opcode}

theorem error_of_agrees
    {refusal : Refusal}
    {advanced : Except Refusal HeaderStage}
    (agrees : Agrees (.error refusal, after) parser advanced) :
    advanced = .error refusal ∧ after.Represents parser := by
  cases advanced with
  | error refusal' =>
      obtain ⟨same, represents⟩ := agrees
      cases same
      exact ⟨rfl, represents⟩
  | ok next => cases agrees.1

theorem ok_of_agrees
    {field : HeaderField}
    {advanced : Except Refusal HeaderStage}
    (agrees : Agrees (.ok field, after) parser advanced) :
    ∃ next, advanced = .ok next ∧ field = next.field ∧
      (after.enter field).Represents (parser.enter next) := by
  cases advanced with
  | error refusal => cases agrees.1
  | ok next =>
      obtain ⟨same, represents⟩ := agrees
      cases same
      exact ⟨next, rfl, rfl, represents⟩

theorem agrees_ok
    (next : HeaderStage)
    (role : after.role = parser.role)
    (knows : after.Knows next) :
    Agrees (.ok next.field, after) parser (.ok next) := by
  refine ⟨rfl, role, rfl, rfl, ?_⟩
  cases next <;> exact knows

theorem agrees_afterLength
    {announced : Nat}
    (sameRole : after.role = staged.role)
    (role : staged.role = parser.role)
    (header : after.header = { opcode, isFinal })
    (length : after.length = announced) :
    Agrees (.ok staged.afterLength, after) parser
      (.ok (HeaderStage.afterLength parser.role isFinal opcode announced)) := by
  have roles := sameRole.trans role
  rw [afterLength, role]
  cases received : parser.role with
  | server => exact agrees_ok (.mask isFinal opcode announced) roles ⟨header, length⟩
  | client => exact agrees_ok (.payload { opcode, isFinal } announced) roles ⟨header, length⟩

theorem agrees_afterFormat
    (role : staged.role = parser.role)
    (header : staged.header = { opcode, isFinal })
    (format : LengthFormat) :
    Agrees (staged.afterFormat format) parser
      (.ok (HeaderStage.afterFormat parser.role isFinal opcode format)) := by
  cases format with
  | inline length => exact agrees_afterLength rfl role header rfl
  | extended16 => exact agrees_ok (.extendedLength16 isFinal opcode) role header
  | extended64 => exact agrees_ok (.extendedLength64 isFinal opcode) role header

/-- The flags are checked one by one or all at once. -/
theorem flags_eq (octet : UInt8) :
    (decide (octet &&& 0x40 ≠ 0) || decide (octet &&& 0x20 ≠ 0) ||
      decide (octet &&& 0x10 ≠ 0)) = decide (octet &&& 0x70 ≠ 0) := by
  refine HeaderParser.octet_of_forall_lt ?_ octet
  decide +kernel

theorem agrees_readInitial
    (represents : staged.Represents parser)
    (initial : parser.stage = .initial)
    (octet : UInt8) :
    Agrees (staged.readInitial octet) parser (HeaderStage.readInitial octet) := by
  have flags := flags_eq octet
  have unmasked := represents.knows
  rw [initial] at unmasked
  -- What has been entered before a refusal is no more than a new parser may have.
  have entered : ∀ header : FrameHeader, header.mask = none →
      StagedParser.Represents { staged with header } parser := by
    intro header same
    refine ⟨represents.role, represents.field, represents.held, ?_⟩
    rw [initial]
    exact same
  unfold readInitial HeaderStage.readInitial
  dsimp only
  rw [flags]
  by_cases reserved : octet &&& 0x70 ≠ 0
  · rw [if_pos (decide_eq_true reserved), if_pos reserved]
    exact ⟨rfl, entered _ unmasked⟩
  · rw [if_neg (mt of_decide_eq_true reserved), if_neg reserved]
    by_cases assigned : (Opcode.ofByte (octet &&& 0x0F)).isAssigned = true
    · rw [if_pos assigned, if_pos assigned]
      rw [decide_eq_false reserved, Bool.or_eq_false_iff, Bool.or_eq_false_iff] at flags
      obtain ⟨⟨rsv1, rsv2⟩, rsv3⟩ := flags
      refine agrees_ok (.length _ _) represents.role ?_
      rw [rsv1, rsv2, rsv3, unmasked]
      rfl
    · rw [if_neg assigned, if_neg assigned]
      exact ⟨rfl, entered _ unmasked⟩

theorem agrees_readLength
    (represents : staged.Represents parser)
    (header : staged.header = { opcode, isFinal })
    (octet : UInt8) :
    Agrees (staged.readLength octet) parser
      (HeaderStage.readLength parser.role isFinal opcode octet) := by
  have role := represents.role
  have follows := agrees_afterFormat role header (LengthFormat.ofByte octet)
  unfold readLength HeaderStage.readLength
  cases received : parser.role with
  | server =>
      rw [received] at role follows
      rw [role]
      cases decide (octet &&& 0x80 ≠ 0) with
      | false => exact ⟨rfl, represents⟩
      | true => exact follows
  | client =>
      rw [received] at role follows
      rw [role]
      cases decide (octet &&& 0x80 ≠ 0) with
      | false => exact follows
      | true => exact ⟨rfl, represents⟩

theorem agrees_readLength64
    (represents : staged.Represents parser)
    (header : staged.header = { opcode, isFinal }) :
    Agrees staged.readLength64 parser
      (HeaderStage.readLength64 parser.role isFinal opcode staged.staging.toList) := by
  unfold readLength64 HeaderStage.readLength64
  dsimp only
  split
  · exact ⟨rfl, represents⟩
  · exact agrees_afterLength rfl represents.role header rfl

/-- The first octet of a field is the first one in the memory. -/
theorem headD_take_one (staging : Staging) :
    (staging.toList.take 1).headD 0 = staging.toList.headD 0 := by
  cases staging.toList <;> rfl

/-- A field is read alike. -/
theorem Represents.advance
    (represents : staged.Represents parser)
    (full : staged.staged = staged.field.width) :
    Agrees staged.advance parser (parser.stage.advance parser.role parser.held) := by
  have knows := represents.knows
  have held := represents.held
  rw [full, represents.field] at held
  unfold StagedParser.advance
  rw [represents.field, ← held]
  cases stage : parser.stage with
  | initial =>
      have read := agrees_readInitial represents stage (staged.staging.toList.headD 0)
      change Agrees _ parser (HeaderStage.readInitial ((staged.staging.toList.take 1).headD 0))
      rw [headD_take_one]
      exact read
  | length isFinal opcode =>
      rw [stage] at knows
      have read := agrees_readLength represents knows (staged.staging.toList.headD 0)
      change Agrees _ parser (HeaderStage.readLength parser.role isFinal opcode
        ((staged.staging.toList.take 1).headD 0))
      rw [headD_take_one]
      exact read
  | extendedLength16 isFinal opcode =>
      rw [stage] at knows
      exact agrees_afterLength rfl represents.role knows rfl
  | extendedLength64 isFinal opcode =>
      rw [stage] at knows
      have read := agrees_readLength64 represents knows
      rw [← List.take_of_length_le (Nat.le_of_eq staged.staging.length_toList)] at read
      exact read
  | mask isFinal opcode announced =>
      rw [stage] at knows
      obtain ⟨header, length⟩ := knows
      refine agrees_ok (.payload _ announced) represents.role ⟨?_, length⟩
      rw [header]
      rfl
  | payload header announced =>
      rw [stage] at knows
      exact agrees_ok (.payload header announced) represents.role knows

end Agrees

/-! ## Feeding -/

/-- Whether calls show the same, and leave a parser with staging memory that stands for the
other one. -/
structure Fed.Represents (fed : Fed) (fed' : HeaderParser.Fed) : Prop where
  parser : fed.parser.Represents fed'.parser
  consumed : fed.consumed = fed'.consumed
  rest : fed.rest = fed'.rest
  answer : fed.answer = fed'.answer
  events : fed.events = fed'.events

/-- A field that is complete is read alike. -/
theorem Represents.advance_stage
    {staged : StagedParser}
    {parser : HeaderParser}
    (represents : staged.Represents parser)
    {octets : List UInt8}
    (within : octets.length ≤ staged.wanted)
    (full : ¬ (staged.stage octets within).staged < staged.field.width) :
    Agrees (staged.stage octets within).advance (parser.hold octets)
      (parser.stage.advance parser.role (parser.held ++ octets)) :=
  (represents.stage within).advance
    (Nat.le_antisymm (staged.stage octets within).fits (Nat.le_of_not_lt full))

theorem Represents.complete?_eq_none
    {staged : StagedParser}
    {parser : HeaderParser}
    (represents : staged.Represents parser)
    (waiting : staged.field ≠ .payload) :
    parser.stage.complete? = none := by
  rw [represents.field] at waiting
  cases stage : parser.stage with
  | payload header announced =>
      rw [stage] at waiting
      exact absurd rfl waiting
  | _ => rfl

/-- The equation of feeding in terms of the memory, as long as there is a field to read. -/
theorem Represents.feedFrom_eq
    {staged : StagedParser}
    {parser : HeaderParser}
    (represents : staged.Represents parser)
    (waiting : staged.field ≠ .payload)
    (input : List UInt8)
    (consumed : Nat)
    (events : Array Log.Event) :
    let piece := input.take staged.wanted
    let rest := input.drop staged.wanted
    let filled := staged.stage piece (List.length_take_le _ input)
    parser.feedFrom input consumed events =
      if filled.staged < staged.field.width then
        { parser := parser.hold piece
          consumed := consumed + piece.length
          rest
          answer := .ok (.needMore (staged.field.width - filled.staged))
          events := events.push (.fieldIncomplete staged.field filled.staged) }
      else
        match parser.stage.advance parser.role (parser.held ++ piece) with
        | .error refusal =>
            { parser := parser.hold piece
              consumed := consumed + piece.length
              rest
              answer := .error refusal
              events := events.push (.refused refusal) }
        | .ok next =>
            (parser.enter next).feedFrom rest (consumed + piece.length)
              (events.push (.fieldComplete staged.field next.field)) := by
  intro piece rest filled
  have size : (parser.held ++ piece).length = filled.staged :=
    (represents.stage _).length_held
  rw [HeaderParser.feedFrom_eq, represents.complete?_eq_none waiting]
  simp only [← represents.wanted, ← represents.field]
  rw [size]
  rfl

/-- What feeding comes to shows alike. -/
theorem Represents.feedFrom
    {staged : StagedParser}
    {parser : HeaderParser}
    (represents : staged.Represents parser)
    (input : List UInt8)
    (consumed : Nat)
    (events : Array Log.Event) :
    (staged.feedFrom input consumed events).Represents
      (parser.feedFrom input consumed events) := by
  fun_induction StagedParser.feedFrom staged input consumed events generalizing parser with
  | case1 staged input consumed events complete =>
      have knows := represents.knows
      rw [represents.field] at complete
      rw [HeaderParser.feedFrom_eq]
      cases stage : parser.stage with
      | payload header announced =>
          rw [stage] at knows
          obtain ⟨rfl, rfl⟩ := knows
          exact ⟨represents, rfl, rfl, rfl, rfl⟩
      | _ =>
          rw [stage] at complete
          cases complete
  | case2 staged input consumed events waiting piece rest consumed' filled width =>
      rename_i short
      have held : filled.Represents (parser.hold piece) := represents.stage _
      rw [represents.feedFrom_eq waiting, if_pos short]
      exact ⟨held, rfl, rfl, rfl, rfl⟩
  | case3 staged input consumed events waiting piece rest consumed' filled width full refusal
      after =>
      rename_i refused
      have agrees := represents.advance_stage _ full
      rw [refused] at agrees
      obtain ⟨read, left⟩ := error_of_agrees agrees
      rw [represents.feedFrom_eq waiting, if_neg full, read]
      exact ⟨left, rfl, rfl, rfl, rfl⟩
  | case4 staged input consumed events waiting piece rest consumed' filled width full next
      after advanced =>
      rename_i inductionHypothesis
      have agrees := represents.advance_stage _ full
      rw [advanced] at agrees
      obtain ⟨next, read, rfl, follows⟩ := ok_of_agrees agrees
      rw [represents.feedFrom_eq waiting, if_neg full, read]
      exact inductionHypothesis follows

theorem Represents.feed
    {staged : StagedParser}
    {parser : HeaderParser}
    (represents : staged.Represents parser)
    (input : List UInt8) :
    (staged.feed input).Represents (parser.feed input) :=
  represents.feedFrom input 0 #[]

/-! ## Operations -/

/-- What shows of an operation that leads to a parser. -/
def observe
    (parser : StagedParser)
    (fed? : Option (Except Refusal (Parse (FrameHeader × Nat)) × Nat)) :
    HeaderParser.Observation :=
  ⟨fed?, parser.field, parser.isIdle, parser.wanted⟩

/-- Carry out an operation. -/
def operate (parser : StagedParser) :
    HeaderParser.Operation → HeaderParser.Observation × StagedParser
  | .feed input =>
      let fed := parser.feed input
      (fed.parser.observe (some (fed.answer, fed.consumed)), fed.parser)
  | .reset => (parser.reset.observe none, parser.reset)

/-- Carry out operations, one after the other. -/
def operateEach (parser : StagedParser) :
    List HeaderParser.Operation → List HeaderParser.Observation × StagedParser
  | [] => ([], parser)
  | operation :: later =>
      let (observation, next) := parser.operate operation
      let (observations, last) := next.operateEach later
      (observation :: observations, last)

theorem operateEach_cons
    (parser : StagedParser)
    (operation : HeaderParser.Operation)
    (later : List HeaderParser.Operation) :
    parser.operateEach (operation :: later) =
      ((parser.operate operation).1 :: ((parser.operate operation).2.operateEach later).1,
        ((parser.operate operation).2.operateEach later).2) := rfl

section Operations

variable
    {staged : StagedParser}
    {parser : HeaderParser}
    (represents : staged.Represents parser)

include represents

theorem Represents.observe
    (fed? : Option (Except Refusal (Parse (FrameHeader × Nat)) × Nat)) :
    staged.observe fed? = parser.observe fed? := by
  rw [StagedParser.observe, represents.field, represents.isIdle, represents.wanted]
  rfl

/-- An operation shows the same. -/
theorem Represents.operate (operation : HeaderParser.Operation) :
    (staged.operate operation).1 = (parser.operate operation).1 ∧
      (staged.operate operation).2.Represents (parser.operate operation).2 := by
  cases operation with
  | feed input =>
      have fed := represents.feed input
      refine ⟨?_, fed.parser⟩
      rw [StagedParser.operate, fed.answer, fed.consumed]
      exact fed.parser.observe _
  | reset => exact ⟨represents.reset.observe none, represents.reset⟩

/-- Operations show the same, one after the other. -/
theorem Represents.operateEach (operations : List HeaderParser.Operation) :
    (staged.operateEach operations).1 = (parser.operateEach operations).1 ∧
      (staged.operateEach operations).2.Represents (parser.operateEach operations).2 := by
  induction operations generalizing staged parser with
  | nil => exact ⟨rfl, represents⟩
  | cons operation later inductionHypothesis =>
      obtain ⟨shows, follows⟩ := represents.operate operation
      obtain ⟨showsLater, last⟩ := inductionHypothesis follows
      rw [operateEach_cons, HeaderParser.operateEach_cons, shows, showsLater]
      exact ⟨rfl, last⟩

end Operations

end StagedParser
end WebSocket
