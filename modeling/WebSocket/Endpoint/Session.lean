import WebSocket.Endpoint.Read
import WebSocket.Endpoint.Write

/-!
# Sessions

A session is the life of an endpoint under a sequence of commands, with a
threshold for what it tells. Its user looks at the close code of every frame that
is delivered. The threshold decides what is recorded and nothing else.
-/

namespace WebSocket

/-- What the user of an endpoint asks for. -/
inductive Command
  /-- Read a frame. -/
  | read (limit : Option Duration) (ready : Bool)
  /-- Read frames until a read delivers none. -/
  | readAll (limit : Option Duration) (ready : Bool)
  /-- Write a message or a control frame. -/
  | write (opcode : Opcode) (payload : List UInt8)
  /-- Write a close frame. -/
  | close (code : CloseCode)
  /-- Let the channel bring more, and add to its answers. -/
  | deliver
      (arrivals : List Arrival)
      (readiness : List (Except IoError Bool))
      (acceptances : List Acceptance)
  /-- Change the threshold of what is recorded. -/
  | setThreshold (threshold : Log.Threshold)

/-- What a command is answered with. -/
inductive Answer
  | read (result : Except Error (Option Frame))
  | readAll (results : List (Except Error (Option Frame)))
  | done (result : Except Error Unit)

/-- What comes of a command. -/
structure Response where
  answer : Answer
  /-- The close code that the endpoint has recorded by now. -/
  closeCode? : Option CloseCode
  /-- The octets put on the wire. -/
  written : List UInt8
  /-- The calls that reached the owner of the channel, in order. -/
  calls : Array Call
  /-- What was recorded, in order. -/
  records : List Log.Record

/-- An endpoint in use. -/
structure Session where
  endpoint : Endpoint
  threshold : Log.Threshold := .off

namespace Session

/-- What there is to tell of a read, the close code of its frame included. -/
def readEvents (report : Endpoint.Report (Option Frame)) : Array Log.Event :=
  match report.answer with
  | .ok (some frame) => report.events ++ frame.closeCodeEvents
  | _ => report.events

/-- Carry a command out. The result is its answer, what there is to tell, the calls
that were made and the endpoint afterwards. -/
def carryOut
    (endpoint : Endpoint) :
    Command → Answer × Array Log.Event × Array Call × Endpoint
  | .read limit ready =>
      let (report, endpoint) := endpoint.read limit ready
      (.read report.answer, readEvents report, report.calls, endpoint)
  | .readAll limit ready =>
      let (reports, endpoint) := endpoint.readAll limit ready
      (.readAll (reports.map Endpoint.Report.answer).toList,
        reports.flatMap readEvents,
        reports.flatMap Endpoint.Report.calls,
        endpoint)
  | .write opcode payload =>
      let (report, endpoint) := endpoint.write opcode payload
      (.done report.answer, report.events, report.calls, endpoint)
  | .close code =>
      let (report, endpoint) := endpoint.close code
      (.done report.answer, report.events, report.calls, endpoint)
  | .deliver arrivals readiness acceptances =>
      let channel := endpoint.channel.deliver arrivals readiness acceptances
      (.done (.ok ()), #[], #[], { endpoint with channel })
  | .setThreshold _ => (.done (.ok ()), #[], #[], endpoint)

/-- The threshold after a command. -/
def thresholdAfter (threshold : Log.Threshold) : Command → Log.Threshold
  | .setThreshold threshold => threshold
  | _ => threshold

/-- Perform a command. -/
def perform (session : Session) (command : Command) : Response × Session :=
  let before := session.endpoint.channel.outbound.wire.size
  let threshold := thresholdAfter session.threshold command
  let (answer, events, calls, endpoint) := carryOut session.endpoint command
  ({ answer
     closeCode? := endpoint.closeCode?
     written := (endpoint.channel.outbound.wire.extract before).toList
     calls := endpoint.channel.ownerCalls calls
     records := threshold.records events },
    { endpoint, threshold })

/-- Perform commands in order, behind responses that were given already. -/
def performAllFrom
    (session : Session)
    (responses : Array Response) : List Command → Array Response × Session
  | [] => (responses, session)
  | command :: commands =>
      let (response, session) := session.perform command
      session.performAllFrom (responses.push response) commands

/-- Perform commands in order. -/
def performAll
    (session : Session)
    (commands : List Command) : List Response × Session :=
  let (responses, session) := session.performAllFrom #[] commands
  (responses.toList, session)

end Session
end WebSocket
