import WebSocket.Endpoint.Reading

/-!
# Reading frames

Reading hands over one message or control frame at a time. The first read that
fails is the last one that touches the channel, and leaves behind the close code
that the peer should be sent.
-/

namespace WebSocket
namespace Endpoint

/-- Record what a read has left behind. A failure is recorded together with the close
code that it calls for. -/
def afterRead (endpoint : Endpoint) (ended : Reading.Ended) : Endpoint :=
  let endpoint :=
    { endpoint with
      decoder := ended.decoder
      channel := { endpoint.channel with inbound := ended.inbound } }
  match ended.answer with
  | .ok _ => endpoint
  | .error failure =>
      { endpoint with
        hasFailed := true
        closeCode? := failure.closeCode?.or endpoint.closeCode? }

/-- Read the next message or control frame. If none begins within the time limit
there is nothing to deliver. Pass `ready` if octets are known to be waiting. -/
def read
    (endpoint : Endpoint)
    (limit : Option Duration)
    (ready : Bool) : Report (Option Frame) × Endpoint :=
  if endpoint.hasFailed then
    ({ answer := .error .alreadyClosed, events := #[.readAfterFailure] }, endpoint)
  else
    let reading : Reading :=
      { decoder := endpoint.decoder, inbound := endpoint.channel.inbound, ready }
    let ended := reading.run endpoint.config limit
    ({ answer := ended.answer.mapError ReadFailure.error
       events := ended.events
       calls := ended.calls },
      endpoint.afterRead ended)

@[simp] theorem inbound_afterRead (endpoint : Endpoint) (ended : Reading.Ended) :
    (endpoint.afterRead ended).channel.inbound = ended.inbound := by
  unfold afterRead
  split <;> rfl

/-- A read that delivers a frame lowers the backlog of the channel. -/
theorem backlog_read_lt
    {endpoint next : Endpoint}
    {limit : Option Duration}
    {ready : Bool}
    {report : Report (Option Frame)}
    {frame : Frame}
    (result : endpoint.read limit ready = (report, next))
    (delivered : report.answer = .ok (some frame)) :
    next.channel.inbound.backlog < endpoint.channel.inbound.backlog := by
  unfold read at result
  split at result
  · cases result
    cases delivered
  · cases result
    rw [inbound_afterRead]
    cases answer : (Reading.run
        { decoder := endpoint.decoder, inbound := endpoint.channel.inbound, ready }
        endpoint.config limit).answer with
    | error failure =>
        simp only [answer] at delivered
        cases delivered
    | ok frame =>
        simp only [answer] at delivered
        cases delivered
        exact Reading.backlog_run_lt answer

/-- Read frames, each in the same way, until a read delivers none. The reports of all
reads follow those that are made already. -/
def readAllFrom
    (endpoint : Endpoint)
    (limit : Option Duration)
    (ready : Bool)
    (reports : Array (Report (Option Frame))) :
    Array (Report (Option Frame)) × Endpoint :=
  match result : endpoint.read limit ready with
  | (report, next) =>
      match delivered : report.answer with
      | .ok (some _) =>
          have := backlog_read_lt result delivered
          next.readAllFrom limit ready (reports.push report)
      | _ => (reports.push report, next)
termination_by endpoint.channel.inbound.backlog

/-- Read frames, each in the same way, until a read delivers none. -/
def readAll
    (endpoint : Endpoint)
    (limit : Option Duration)
    (ready : Bool) : Array (Report (Option Frame)) × Endpoint :=
  endpoint.readAllFrom limit ready #[]

end Endpoint
end WebSocket
