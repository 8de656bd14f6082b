import WebSocket.Decoder.Feed
import WebSocket.Endpoint.Basic

/-!
# Reads under way

A read waits for the channel, takes what the frame that is arriving still lacks
and repeats this until a frame is complete. While a frame or message is in
progress every wait is bounded by the frame timeout. The read ends because each
further pass has taken octets, or an interruption, from the channel.
-/

namespace WebSocket

/-- Why a read fails. -/
structure ReadFailure where
  error : Error
  /-- Whether a frame or message was in progress. -/
  midFrame : Bool
  deriving DecidableEq, Repr

namespace ReadFailure

/-- The close code that the peer should be sent. A frame that is cut short counts as
a violation of the protocol even if the channel is at fault. -/
def closeCode? (failure : ReadFailure) : Option CloseCode :=
  match failure.error.closeCode? with
  | some code => some code
  | none => if failure.midFrame then some .protocolError else none

end ReadFailure

/-- A read that is under way. -/
structure Reading where
  decoder : Decoder
  inbound : Inbound
  /-- Whether the next read is made without waiting first. -/
  ready : Bool
  events : Array Log.Event := #[]
  calls : Array Call := #[]

namespace Reading

/-- What comes of a read. -/
structure Ended where
  decoder : Decoder
  inbound : Inbound
  answer : Except ReadFailure (Option Frame)
  events : Array Log.Event
  calls : Array Call

/-- What a pass leads to. -/
inductive Step
  | finished (ended : Ended)
  | again (reading : Reading)

/-- End the read with an answer. -/
def finish
    (reading : Reading)
    (answer : Except ReadFailure (Option Frame)) : Step :=
  .finished
    { decoder := reading.decoder
      inbound := reading.inbound
      answer
      events := reading.events
      calls := reading.calls }

/-- End the read with a failure, after telling of it. -/
def fail
    (reading : Reading)
    (event : Log.Event)
    (error : Error)
    (midFrame : Bool) : Step :=
  finish { reading with events := reading.events.push event }
    (.error { error, midFrame })

/-- Feed the decoder with octets that were read. -/
def decode (reading : Reading) (octets : List UInt8) : Step :=
  let fed := reading.decoder.feed octets
  let reading :=
    { reading with
      decoder := fed.decoder
      events := reading.events ++ fed.events }
  match fed.answer with
  | .ok (.ready frame) => reading.finish (.ok (some frame))
  | .ok (.needMore _) => .again reading
  | .error refusal => reading.finish (.error { error := refusal.error, midFrame := true })

/-- Read as much as is wanted, within the size of a chunk. -/
def receive (reading : Reading) (config : Config) : Step :=
  let inProgress := reading.decoder.inProgress
  let size := min reading.decoder.wanted config.chunkSize
  let (answer, inbound) := reading.inbound.read size
  let reading :=
    { reading with
      inbound
      ready := false
      calls := reading.calls.push (.read size answer) }
  match answer with
  | .ok [] =>
      if inProgress then
        reading.fail (.refused .truncated) Refusal.truncated.error true
      else reading.fail .closedByPeer .connectionClosed false
  | .ok octets => reading.decode octets
  | .error error =>
      if error.isInterruption then .again reading
      else reading.fail (.readFailed error) (.io error) inProgress

/-- One pass: wait, unless the channel is known to be ready, and then read. -/
def pass
    (reading : Reading)
    (config : Config)
    (limit : Option Duration) : Step :=
  if reading.ready then reading.receive config
  else
    let inProgress := reading.decoder.inProgress
    let wait := if inProgress then some config.frameTimeout else limit
    let (answer, inbound) := reading.inbound.poll
    let reading :=
      { reading with
        inbound
        calls := reading.calls.push (.poll wait answer) }
    match answer with
    | .ok true => reading.receive config
    | .ok false =>
        if inProgress then
          reading.fail (.refused .stalled) Refusal.stalled.error true
        else
          finish
            { reading with events := reading.events.push (.nothingReceived limit) }
            (.ok none)
    | .error error => reading.fail (.pollFailed error) (.io error) inProgress

/-- Whether what a pass leads to has a smaller backlog than `bound`, if octets or an
interruption were taken for it. -/
def Step.Lowers (bound : Nat) : Step → Prop
  | .again reading => reading.inbound.backlog < bound
  | .finished ended =>
      ∀ frame, ended.answer = .ok (some frame) → ended.inbound.backlog < bound

/-- Decoding leaves the backlog as it is. -/
theorem lowers_decode
    {reading : Reading}
    {bound : Nat}
    (octets : List UInt8)
    (lower : reading.inbound.backlog < bound) :
    (reading.decode octets).Lowers bound := by
  unfold decode
  dsimp only
  split
  · exact fun _ _ => lower
  · exact lower
  · exact fun _ delivered => nomatch delivered

/-- A read from the channel lowers the backlog, or ends the call without a frame. -/
theorem lowers_receive (reading : Reading) (config : Config) :
    (reading.receive config).Lowers reading.inbound.backlog := by
  unfold receive
  dsimp only
  split
  · split <;> exact fun _ delivered => nomatch delivered
  · rename_i octets some_octets brought
    exact lowers_decode octets
      (Inbound.backlog_read_lt_of_octets brought fun none => some_octets none)
  · rename_i error brought
    split
    · exact Inbound.backlog_read_lt_of_fault brought
    · exact fun _ delivered => nomatch delivered

/-- Every pass that another one follows, or that delivers a frame, lowers the
backlog. -/
theorem lowers_pass
    (reading : Reading)
    (config : Config)
    (limit : Option Duration) :
    (reading.pass config limit).Lowers reading.inbound.backlog := by
  unfold pass
  split
  · exact reading.lowers_receive config
  · dsimp only
    split
    · have lowers := lowers_receive
        { reading with
          inbound := reading.inbound.poll.2
          calls := reading.calls.push
            (.poll
              (if reading.decoder.inProgress then some config.frameTimeout
                else limit)
              reading.inbound.poll.1) }
        config
      rwa [Inbound.backlog_poll] at lowers
    · split <;> exact fun _ delivered => nomatch delivered
    · exact fun _ delivered => nomatch delivered

/-- Make passes until one of them ends the read. -/
def run
    (reading : Reading)
    (config : Config)
    (limit : Option Duration) : Ended :=
  match step : reading.pass config limit with
  | .finished ended => ended
  | .again next =>
      have : next.inbound.backlog < reading.inbound.backlog := by
        have lowers := reading.lowers_pass config limit
        rw [step] at lowers
        exact lowers
      next.run config limit
termination_by reading.inbound.backlog

/-- A read that delivers a frame lowers the backlog. -/
theorem backlog_run_lt
    {reading : Reading}
    {config : Config}
    {limit : Option Duration}
    {frame : Frame}
    (delivered : (reading.run config limit).answer = .ok (some frame)) :
    (reading.run config limit).inbound.backlog < reading.inbound.backlog := by
  fun_induction run reading config limit with
  | case1 reading ended step =>
      have lowers := reading.lowers_pass config limit
      rw [step] at lowers
      exact lowers frame delivered
  | case2 reading next step shorter inductionHypothesis =>
      exact Nat.lt_trans (inductionHypothesis delivered) shorter

end Reading

end WebSocket
