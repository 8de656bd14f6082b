import WebSocket.Header.Stage
import WebSocket.Log.Event
import WebSocket.Parse

/-!
# Parsing headers

A header parser takes a header in as it arrives, in pieces of any size, and never
takes an octet beyond its end. It holds the octets of the field it waits for and
what the fields before it said.
-/

namespace WebSocket

/-- A resumable parser for one header at a time. -/
structure HeaderParser where
  /-- The role of the endpoint that receives the header. -/
  role : Role
  stage : HeaderStage := .initial
  /-- The octets held of the field that the stage waits for. -/
  held : List UInt8 := []
  deriving DecidableEq, Repr

namespace HeaderParser

/-- A parser for an endpoint of the given role, before any octet of a header. -/
def new (role : Role) : HeaderParser := { role }

/-- Whether no octet of a header has been taken. -/
def isIdle (parser : HeaderParser) : Bool :=
  parser.stage == .initial && parser.held.isEmpty

/-- The number of octets that the current field still lacks. -/
def wanted (parser : HeaderParser) : Nat :=
  parser.stage.width - parser.held.length

/-- Forget the header and wait for the next one. -/
def reset (parser : HeaderParser) : HeaderParser := new parser.role

@[simp] theorem reset_new (role : Role) : (new role).reset = new role := rfl

@[simp] theorem isIdle_new (role : Role) : (new role).isIdle = true := rfl

/-- What comes of feeding a parser. -/
structure Fed where
  parser : HeaderParser
  /-- The number of octets taken. -/
  consumed : Nat
  /-- The octets left over. -/
  rest : List UInt8
  answer : Except Refusal (Parse (FrameHeader × Nat))
  /-- What there is to tell, in order. -/
  events : Array Log.Event

/-- Feed a parser in a call that has taken `consumed` octets and told `events` so
far. -/
def feedFrom
    (parser : HeaderParser)
    (input : List UInt8)
    (consumed : Nat)
    (events : Array Log.Event) : Fed :=
  match waiting : parser.stage.complete? with
  | some header =>
      { parser, consumed, rest := input, answer := .ok (.ready header), events }
  | none =>
      let piece := input.take parser.wanted
      let rest := input.drop parser.wanted
      let consumed := consumed + piece.length
      let held := parser.held ++ piece
      let field := parser.stage.field
      if held.length < field.width then
        { parser := { parser with held }
          consumed
          rest
          answer := .ok (.needMore (field.width - held.length))
          events := events.push (.fieldIncomplete field held.length) }
      else
        match advanced : parser.stage.advance parser.role held with
        | .error refusal =>
            { parser := { parser with held }
              consumed
              rest
              answer := .error refusal
              events := events.push (.refused refusal) }
        | .ok next =>
            have := HeaderStage.fieldsLeft_advance waiting advanced
            feedFrom { parser with stage := next, held := [] } rest consumed
              (events.push (.fieldComplete field next.field))
termination_by parser.stage.fieldsLeft

/-- Take in as much of the input as belongs to the header. After a refusal the
parser keeps the octets that were refused and refuses them again until it is
reset. -/
def feed (parser : HeaderParser) (input : List UInt8) : Fed :=
  parser.feedFrom input 0 #[]

/-- Feeding a parser never makes octets. -/
theorem length_rest_feedFrom_le
    (parser : HeaderParser)
    (input : List UInt8)
    (consumed : Nat)
    (events : Array Log.Event) :
    (parser.feedFrom input consumed events).rest.length ≤ input.length := by
  fun_induction feedFrom parser input consumed events with
  | case1 => exact Nat.le_refl _
  | case2 _ _ _ _ _ _ rest => simp [rest]
  | case3 _ _ _ _ _ _ rest => simp [rest]
  | case4 parser input consumed events _ _ rest _ _ _ _ _ _ _ inductionHypothesis =>
      have shorter : rest.length ≤ input.length := by simp [rest]
      omega

/-- Feeding a parser leaves at most what it was fed. -/
theorem length_rest_feed_le
    (parser : HeaderParser)
    (input : List UInt8) :
    (parser.feed input).rest.length ≤ input.length :=
  parser.length_rest_feedFrom_le input 0 #[]

/-- A header that is parsed from its beginning takes octets. -/
theorem length_rest_feed_lt
    {parser : HeaderParser}
    {input : List UInt8}
    {header : FrameHeader × Nat}
    (idle : parser.isIdle = true)
    (complete : (parser.feed input).answer = .ok (.ready header)) :
    (parser.feed input).rest.length < input.length := by
  obtain ⟨role, stage, held⟩ := parser
  simp only [isIdle, Bool.and_eq_true, beq_iff_eq, List.isEmpty_iff] at idle
  obtain ⟨rfl, rfl⟩ := idle
  cases input with
  | nil =>
      rw [feed, feedFrom] at complete
      simp [HeaderStage.complete?, HeaderStage.field, HeaderField.width] at complete
  | cons octet input =>
      have shorter :
          ((octet :: input).drop ({ role } : HeaderParser).wanted).length <
            (octet :: input).length := by
        simp [wanted, HeaderStage.width, HeaderStage.field, HeaderField.width]
      rw [feed, feedFrom]
      simp only [HeaderStage.complete?]
      split
      · exact shorter
      · split
        · exact shorter
        · exact Nat.lt_of_le_of_lt (length_rest_feedFrom_le _ _ _ _) shorter

end HeaderParser
end WebSocket
