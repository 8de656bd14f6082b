import WebSocket.Decoder.Feed

/-!
# What is told of refusals

Parsing and decoding tell of a refusal exactly when they answer one, and then once, however
many headers and fragments a call takes in before it.
-/

namespace WebSocket

/-- What was refused, if something was. -/
def refused? {α : Type} : Except Refusal α → Option Refusal
  | .error refusal => some refusal
  | .ok _ => none

namespace Log

/-- The refusal that an event tells of, if it tells of one. -/
def Event.refusal? : Event → Option Refusal
  | .refused refusal => some refusal
  | _ => none

/-- The refusals that events tell of, in order. -/
def refusalsIn (events : Array Event) : List Refusal := events.toList.filterMap Event.refusal?

@[simp] theorem refusalsIn_empty : refusalsIn #[] = [] := rfl

@[simp] theorem refusalsIn_push (events : Array Event) (event : Event) :
    refusalsIn (events.push event) = refusalsIn events ++ event.refusal?.toList := by
  rw [refusalsIn, Array.toList_push, List.filterMap_append]
  cases told : event.refusal? with
  | none => rw [List.filterMap_cons_none told]; rfl
  | some refusal => rw [List.filterMap_cons_some told]; rfl

@[simp] theorem refusalsIn_append (earlier later : Array Event) :
    refusalsIn (earlier ++ later) = refusalsIn earlier ++ refusalsIn later := by
  rw [refusalsIn, Array.toList_append, List.filterMap_append]
  rfl

/-- The events at level error are those that tell of refusals. -/
theorem filter_level_eq_error (events : List Event) :
    events.filter (fun event => event.level = .error) =
      (events.filterMap Event.refusal?).map .refused := by
  induction events with
  | nil => rfl
  | cons event later inductionHypothesis =>
      cases event with
      | refused refusal => exact congrArg (.refused refusal :: ·) inductionHypothesis
      | _ => exact inductionHypothesis

end Log

open Log

/-- A parser that has told of no refusal tells of the one that it answers, and of no other. -/
theorem HeaderParser.refusalsIn_feedFrom
    (parser : HeaderParser)
    (input : List UInt8)
    (consumed : Nat)
    {events : Array Event}
    (quiet : refusalsIn events = []) :
    refusalsIn (parser.feedFrom input consumed events).events =
      (refused? (parser.feedFrom input consumed events).answer).toList := by
  fun_induction feedFrom parser input consumed events with
  | case1 => exact quiet
  | case2 => rw [refusalsIn_push, quiet]; rfl
  | case3 => rw [refusalsIn_push, quiet]; rfl
  | case4 parser input consumed events waiting piece rest _ held field full next advanced _
      inductionHypothesis =>
      apply inductionHypothesis
      rw [refusalsIn_push, quiet]
      rfl

namespace Decoder

namespace Feeding

/-- Whether a pass has told of the refusal that it ends the call with, and of no other. -/
def Step.TellsRefusal : Step → Prop
  | .finished fed => refusalsIn fed.events = (refused? fed.answer).toList
  | .again next => refusalsIn next.events = []

variable {feeding : Feeding}

theorem tellsRefusal_takePayload
    (quiet : refusalsIn feeding.events = [])
    (frame : InFlight) :
    (feeding.takePayload frame).TellsRefusal := by
  unfold takePayload
  dsimp only
  split
  · exact quiet
  · have told : ∀ opcode length,
        refusalsIn (feeding.events.push (.frameReceived opcode length)) = [] := by
      intro opcode length
      rw [refusalsIn_push, quiet]
      rfl
    split
    · exact told _ _
    · exact told _ _

theorem tellsRefusal_takeFrame
    (quiet : refusalsIn feeding.events = [])
    (header : FrameHeader)
    (announced : Nat) :
    (feeding.takeFrame header announced).TellsRefusal := by
  have told :
      refusalsIn (feeding.events.push (.headerComplete header.opcode announced)) = [] := by
    rw [refusalsIn_push, quiet]
    rfl
  unfold takeFrame
  dsimp only
  split
  · change refusalsIn (Array.push _ _) = _
    rw [refusalsIn_push, told]
    rfl
  · exact tellsRefusal_takePayload told _

/-- A pass tells of the refusal that it ends the call with, if the passes before it have
told of none. -/
theorem tellsRefusal_pass (quiet : refusalsIn feeding.events = []) :
    feeding.pass.TellsRefusal := by
  unfold pass
  split
  · exact tellsRefusal_takePayload quiet _
  · have told : refusalsIn
        (feeding.events ++ (feeding.decoder.parser.feed feeding.input).events) =
          (refused? (feeding.decoder.parser.feed feeding.input).answer).toList := by
      rw [refusalsIn_append, quiet]
      exact feeding.decoder.parser.refusalsIn_feedFrom feeding.input 0 refusalsIn_empty
    dsimp only
    split
    · rename_i refusal refused
      rw [refused] at told
      exact told
    · rename_i count asks
      rw [asks] at told
      exact told
    · rename_i header announced ready
      rw [ready] at told
      exact tellsRefusal_takeFrame told header announced

theorem refusalsIn_run (quiet : refusalsIn feeding.events = []) :
    refusalsIn feeding.run.events = (refused? feeding.run.answer).toList := by
  fun_induction run feeding with
  | case1 feeding fed step =>
      have tells := tellsRefusal_pass quiet
      rw [step] at tells
      exact tells
  | case2 feeding next step _ inductionHypothesis =>
      have tells := tellsRefusal_pass quiet
      rw [step] at tells
      exact inductionHypothesis tells

end Feeding

/-- A call tells of the refusal that it answers, and of no other. -/
theorem refusalsIn_feed (decoder : Decoder) (input : List UInt8) :
    refusalsIn (decoder.feed input).events = (refused? (decoder.feed input).answer).toList :=
  Feeding.refusalsIn_run refusalsIn_empty

end Decoder
end WebSocket
