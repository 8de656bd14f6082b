import WebSocket.Proofs.BigEndian
import WebSocket.Proofs.Checked
import WebSocket.Proofs.Header.Codec
import WebSocket.Proofs.Header.Operations

/-!
# The ranges of headers

Whatever has been done to a header parser, it holds no more of a field than the field has
octets, and it announces no payload of `2 ^ 63` octets or more. So nothing that it computes
goes out of range. A header that is written keeps every bit of the length that it announces.
-/

namespace WebSocket

/-! ## Stages -/

namespace HeaderStage

/-- Whether a stage announces a payload of fewer than `2 ^ 63` octets, if it announces one. -/
def InRange : HeaderStage → Prop
  | .mask _ _ announced => announced < 2 ^ 63
  | .payload _ announced => announced < 2 ^ 63
  | _ => True

theorem inRange_afterLength
    (role : Role)
    (isFinal : Bool)
    (opcode : Opcode)
    {announced : Nat}
    (small : announced < 2 ^ 63) :
    (afterLength role isFinal opcode announced).InRange := by
  cases role with
  | server => exact small
  | client => exact small

theorem inRange_afterFormat
    (role : Role)
    (isFinal : Bool)
    (opcode : Opcode)
    (format : LengthFormat) :
    (afterFormat role isFinal opcode format).InRange := by
  cases format with
  | inline announced =>
      apply inRange_afterLength
      exact Nat.lt_trans announced.toNat_lt (by decide)
  | extended16 => trivial
  | extended64 => trivial

/-- A field leads to no stage that announces too much. -/
theorem inRange_advance
    {role : Role}
    {stage next : HeaderStage}
    {octets : List UInt8}
    (inRange : stage.InRange)
    (full : octets.length = stage.width)
    (advanced : stage.advance role octets = .ok next) :
    next.InRange := by
  cases stage with
  | initial =>
      simp only [advance, readInitial] at advanced
      split at advanced
      · cases advanced
      · split at advanced
        · cases advanced
          trivial
        · cases advanced
  | length isFinal opcode =>
      simp only [advance, readLength] at advanced
      split at advanced
      · cases advanced
      · cases advanced
      · cases advanced
        exact inRange_afterFormat _ isFinal opcode _
  | extendedLength16 isFinal opcode =>
      cases advanced
      have small := BigEndian.decode_lt octets
      rw [show octets.length = 2 from full] at small
      have within : BigEndian.decode octets < 2 ^ 63 := Nat.lt_trans small (by decide)
      exact inRange_afterLength role isFinal opcode within
  | extendedLength64 isFinal opcode =>
      simp only [advance, readLength64] at advanced
      split at advanced
      · cases advanced
      · rename_i small
        cases advanced
        exact inRange_afterLength role isFinal opcode (Nat.lt_of_not_le small)
  | mask isFinal opcode announced =>
      cases advanced
      exact inRange
  | payload header announced =>
      cases advanced
      exact inRange

end HeaderStage

namespace HeaderParser

/-! ## States that are reached -/

/-- Whether a parser holds no more than one field, and announces no more than a payload may
have. -/
structure InRange (parser : HeaderParser) : Prop where
  held : parser.held.length ≤ parser.stage.width
  stage : parser.stage.InRange

/-- Whether a parser holds no more of a field than the field has octets, and no more than the
eight octets that there is room for. -/
def FitsStaging (parser : HeaderParser) : Prop :=
  parser.held.length ≤ parser.stage.width ∧ parser.stage.width ≤ 8

theorem inRange_new (role : Role) : (new role).InRange := ⟨Nat.zero_le _, trivial⟩

variable {parser : HeaderParser} {input : List UInt8}

theorem InRange.fitsStaging (inRange : parser.InRange) : parser.FitsStaging :=
  ⟨inRange.held, parser.stage.field.width_le_eight⟩

/-- A parser may hold what it wants, and no more. -/
theorem InRange.hold
    (inRange : parser.InRange)
    {octets : List UInt8}
    (within : octets.length ≤ parser.wanted) :
    (parser.hold octets).InRange := by
  refine ⟨?_, inRange.stage⟩
  have held := inRange.held
  rw [wanted] at within
  rw [held_hold, List.length_append, stage_hold]
  omega

/-- A field that is complete fills its stage. -/
theorem InRange.length_field
    (inRange : parser.InRange)
    (full : parser.wanted ≤ input.length) :
    (parser.held ++ input.take parser.wanted).length = parser.stage.width := by
  have held := inRange.held
  rw [List.length_append, List.length_take, Nat.min_eq_left full, wanted]
  omega

theorem InRange.enter
    (inRange : parser.InRange)
    {next : HeaderStage}
    (full : parser.wanted ≤ input.length)
    (advanced : parser.stage.advance parser.role
      (parser.held ++ input.take parser.wanted) = .ok next) :
    (parser.enter next).InRange :=
  ⟨Nat.zero_le _,
    HeaderStage.inRange_advance inRange.stage (inRange.length_field full) advanced⟩

theorem InRange.verdict (inRange : parser.InRange) (input : List UInt8) :
    (parser.verdict input).parser.InRange := by
  induction parser, input using feed_induction with
  | complete parser input header complete =>
      rw [verdict_of_complete complete]
      exact inRange
  | short parser input waiting short =>
      rw [verdict_of_short waiting short]
      exact inRange.hold (Nat.le_of_lt short)
  | refused parser input refusal waiting full refused =>
      rw [verdict_of_refused waiting full refused]
      exact inRange.hold (List.length_take_le _ input)
  | advanced parser input next waiting full advanced inductionHypothesis =>
      rw [verdict_of_advanced waiting full advanced]
      exact inductionHypothesis (inRange.enter full advanced)

theorem InRange.operateEach
    (inRange : parser.InRange)
    (operations : List Operation) :
    (parser.operateEach operations).2.InRange := by
  induction operations generalizing parser with
  | nil => exact inRange
  | cons operation later inductionHypothesis =>
      rw [operateEach_cons]
      cases operation with
      | feed input => exact inductionHypothesis (inRange.verdict input)
      | reset => exact inductionHypothesis (inRange_new parser.role)

/-! ## Parsing with checks -/

/-- The number of octets that the current field still lacks, checked. -/
def checkedWanted (parser : HeaderParser) : Option Nat :=
  Checked.sub parser.stage.width parser.held.length

/-- A call of `feed` that is under way. -/
structure Underway where
  parser : HeaderParser
  /-- The number of octets taken. -/
  consumed : Nat
  /-- What there is to tell so far. -/
  events : Array Log.Event

/-- Take in what has arrived of one field, with every operation checked. There is room for
eight octets of a field. -/
def checkedTurn (input : List UInt8) (call : Underway) : Option (Fed ⊕ Underway) :=
  let parser := call.parser
  match parser.stage.complete? with
  | some header =>
      some (.inl
        { parser
          consumed := call.consumed
          rest := input.drop call.consumed
          answer := .ok (.ready header)
          events := call.events })
  | none => do
      let field := parser.stage.field
      let wanted ← parser.checkedWanted
      let left ← Checked.sub input.length call.consumed
      let taken := min wanted left
      let staged ← Checked.add parser.held.length taken
      let staged ← Checked.position 8 staged
      let consumed ← Checked.add call.consumed taken
      let piece ← Checked.slice input call.consumed consumed
      let held := parser.held ++ piece
      if staged < field.width then
        let missing ← Checked.sub field.width staged
        some (.inl
          { parser := { parser with held }
            consumed
            rest := input.drop consumed
            answer := .ok (.needMore missing)
            events := call.events.push (.fieldIncomplete field staged) })
      else
        match parser.stage.advance parser.role held with
        | .error refusal =>
            some (.inl
              { parser := { parser with held }
                consumed
                rest := input.drop consumed
                answer := .error refusal
                events := call.events.push (.refused refusal) })
        | .ok next =>
            some (.inr
              { parser := { parser with stage := next, held := [] }
                consumed
                events := call.events.push (.fieldComplete field next.field) })

/-- Feed a parser, with every operation checked. -/
def checkedFeed (parser : HeaderParser) (input : List UInt8) : Option Fed :=
  Checked.loop (fun call => call.parser.stage.fieldsLeft) (checkedTurn input)
    { parser, consumed := 0, events := #[] }

/-- What a call that is under way comes to. -/
def Underway.run (input : List UInt8) (call : Underway) : Fed :=
  call.parser.feedFrom (input.drop call.consumed) call.consumed call.events

theorem InRange.checkedWanted (inRange : parser.InRange) :
    parser.checkedWanted = some parser.wanted :=
  Checked.sub_eq_some inRange.held

/-- A parser that held two octets of a field of one would want less than nothing. -/
example : checkedWanted { role := .server, held := [0x81, 0x80] } = none := by decide

section Turns

variable
    {consumed : Nat}
    {events : Array Log.Event}

/-- What a turn leaves is what is behind the octets that it takes. -/
theorem drop_add_length_take (octets : List UInt8) (start count : Nat) :
    octets.drop (start + ((octets.drop start).take count).length) =
      (octets.drop start).drop count := by
  rw [← List.drop_drop, List.length_take]
  exact List.drop_eq_drop_min.symm

/-- The octets that a turn takes are those that the field lacks, as far as they have
arrived. -/
theorem checkedTurn_of_waiting
    (small : input.length < 2 ^ 63)
    (inRange : parser.InRange)
    (within : consumed ≤ input.length)
    (waiting : parser.stage.complete? = none) :
    let field := parser.stage.field
    let piece := (input.drop consumed).take parser.wanted
    let rest := (input.drop consumed).drop parser.wanted
    let held := parser.held ++ piece
    checkedTurn input ⟨parser, consumed, events⟩ =
      if held.length < field.width then
        some (.inl
          { parser := { parser with held }
            consumed := consumed + piece.length
            rest
            answer := .ok (.needMore (field.width - held.length))
            events := events.push (.fieldIncomplete field held.length) })
      else
        match parser.stage.advance parser.role held with
        | .error refusal =>
            some (.inl
              { parser := { parser with held }
                consumed := consumed + piece.length
                rest
                answer := .error refusal
                events := events.push (.refused refusal) })
        | .ok next =>
            some (.inr
              { parser := parser.enter next
                consumed := consumed + piece.length
                events := events.push (.fieldComplete field next.field) }) := by
  intro field piece rest held
  have fits := inRange.held
  have wide := parser.stage.field.width_le_eight
  have width : parser.stage.width = field.width := rfl
  have left : (input.drop consumed).length = input.length - consumed := List.length_drop
  have taken : min parser.wanted (input.length - consumed) = piece.length := by
    rw [List.length_take, left]
  have few : piece.length ≤ input.length - consumed := taken ▸ Nat.min_le_right _ _
  have lacked : piece.length ≤ parser.wanted := taken ▸ Nat.min_le_left _ _
  rw [wanted] at lacked
  have staged : parser.held.length + piece.length = held.length :=
    List.length_append.symm
  have front : (input.drop consumed).take piece.length = piece := by
    rw [← taken, ← left]
    exact List.take_eq_take_min.symm
  have back : input.drop (consumed + piece.length) = rest :=
    drop_add_length_take input consumed parser.wanted
  have order : held.length ≤ 8 := by
    rw [← staged]
    exact Nat.le_trans (Nat.add_le_of_le_sub' fits lacked) wide
  simp only [checkedTurn, waiting, inRange.checkedWanted, Option.bind_eq_bind,
    Option.bind_some, Checked.sub_eq_some within, taken,
    Checked.add_eq_some (show parser.held.length + piece.length < 2 ^ 64 by omega),
    Checked.add_eq_some (show consumed + piece.length < 2 ^ 64 by omega),
    Checked.slice_eq_some (show consumed + piece.length ≤ input.length by omega),
    staged, Checked.position_eq_some order, front, back]
  split
  · rename_i short
    rw [Checked.sub_eq_some (Nat.le_of_lt short)]
    rfl
  · rfl

/-- A turn of a parser that holds no more than one field stays in range. -/
theorem checkedTurn_eq_some
    (small : input.length < 2 ^ 63)
    {call : Underway}
    (inRange : call.parser.InRange)
    (within : call.consumed ≤ input.length) :
    checkedTurn input call = some (.inl (call.run input)) ∨
      ∃ next, checkedTurn input call = some (.inr next) ∧
        next.parser.stage.fieldsLeft < call.parser.stage.fieldsLeft ∧
        (next.parser.InRange ∧ next.consumed ≤ input.length) ∧
        next.run input = call.run input := by
  obtain ⟨parser, consumed, events⟩ := call
  dsimp only at inRange within
  unfold Underway.run
  rw [feedFrom_eq]
  dsimp only
  cases waiting : parser.stage.complete? with
  | some header =>
      left
      rw [checkedTurn]
      dsimp only
      rw [waiting]
  | none =>
      rw [checkedTurn_of_waiting small inRange within waiting]
      dsimp only
      by_cases short : (parser.held ++ (input.drop consumed).take parser.wanted).length <
          parser.stage.field.width
      · left
        rw [if_pos short, if_pos short]
      · rw [if_neg short, if_neg short]
        cases field : parser.stage.advance parser.role
            (parser.held ++ (input.drop consumed).take parser.wanted) with
        | error refusal => exact .inl rfl
        | ok next =>
            have full : parser.wanted ≤ (input.drop consumed).length := by
              have held := inRange.held
              rw [List.length_append, List.length_take] at short
              rw [wanted, HeaderStage.width] at *
              omega
            refine .inr ⟨_, rfl, HeaderStage.fieldsLeft_advance waiting field,
              ⟨inRange.enter full field, ?_⟩, ?_⟩
            · have taken := List.length_take_le' parser.wanted (input.drop consumed)
              rw [List.length_drop] at taken
              exact Nat.add_le_of_le_sub' within taken
            · rw [drop_add_length_take]
              rfl

end Turns

/-- Feeding a parser that holds no more than one field stays in range. -/
theorem InRange.checkedFeed
    (inRange : parser.InRange)
    (small : input.length < 2 ^ 63) :
    parser.checkedFeed input = some (parser.feed input) := by
  refine Checked.loop_eq_some (Underway.run input)
    (fun call : Underway => call.parser.InRange ∧ call.consumed ≤ input.length) ?_
    ⟨inRange, Nat.zero_le _⟩
  rintro call ⟨inRange, within⟩
  exact checkedTurn_eq_some small inRange within

end HeaderParser

/-! ## Writing headers -/

/-- The shortest way to write a length, with every cast checked. -/
def LengthFormat.checkedOfLength (length : Nat) : Option LengthFormat :=
  if length < 126 then
    (Checked.narrow 8 length).map fun octet => .inline (UInt8.ofNat octet)
  else if length < 65536 then some .extended16
  else some .extended64

theorem LengthFormat.checkedOfLength_eq_some (length : Nat) :
    checkedOfLength length = some (ofLength length) := by
  unfold checkedOfLength ofLength
  split
  · rename_i short
    rw [Checked.narrow_eq_some (Nat.lt_trans short (by decide))]
    rfl
  · split <;> rfl

namespace FrameHeader

/-- The number of octets that a header takes, with every operation checked. -/
def checkedSize (header : FrameHeader) (length : Nat) : Option Nat := do
  let format ← LengthFormat.checkedOfLength length
  let size ← Checked.add 2 format.extraSize
  Checked.add size (if header.mask.isSome then 4 else 0)

/-- The octets of a header, with every cast checked. -/
def checkedEncode (header : FrameHeader) (length : Nat) : Option (List UInt8) := do
  let format ← LengthFormat.checkedOfLength length
  let fixed := [header.firstOctet, format.toByte ||| flag header.mask.isSome 0x80]
  let extended ←
    match format with
    | .inline _ => some []
    | .extended16 => (Checked.narrow 16 length).map fun word => [BigEndian.encode 2 word]
    | .extended64 => (Checked.narrow 64 length).map fun word => [BigEndian.encode 8 word]
  some (fixed :: extended ++ (header.mask.map MaskingKey.octets).toList).flatten

theorem checkedSize_eq_some (header : FrameHeader) (length : Nat) :
    header.checkedSize length = some (header.size length) := by
  have most := header.size_le_maxSize length
  unfold size maxSize at most
  have small : 2 + (LengthFormat.ofLength length).extraSize < 2 ^ 64 := by omega
  simp only [checkedSize, LengthFormat.checkedOfLength_eq_some, Option.bind_eq_bind,
    Option.bind_some, Checked.add_eq_some small]
  exact Checked.add_eq_some (Nat.lt_of_le_of_lt most (by decide))

/-- A length that is written keeps all its bits. -/
theorem checkedEncode_eq_some
    (header : FrameHeader)
    {length : Nat}
    (small : length < 2 ^ 64) :
    header.checkedEncode length = some (header.encode length) := by
  simp only [checkedEncode, LengthFormat.checkedOfLength_eq_some, Option.bind_eq_bind,
    Option.bind_some, encode, segments, secondOctet]
  cases format : LengthFormat.ofLength length with
  | inline octet => rfl
  | extended16 =>
      have short : length < 2 ^ 16 := by
        unfold LengthFormat.ofLength at format
        split at format
        · cases format
        · split at format
          · assumption
          · cases format
      rw [Checked.narrow_eq_some short]
      rfl
  | extended64 =>
      rw [Checked.narrow_eq_some small]
      rfl

end FrameHeader
end WebSocket
