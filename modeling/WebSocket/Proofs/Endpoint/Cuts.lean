import WebSocket.Proofs.Decoder.Traffic
import WebSocket.Proofs.Endpoint.Runs

/-!
# Streams that are cut

A stream of whole messages may be cut anywhere. An endpoint delivers the frames that are
complete by then, and fails without a close code, or goes on, only where nothing has begun.
The end of the stream, a time limit and a failure of the channel all tell the same cuts
apart.
-/

namespace WebSocket
namespace Endpoint

open Grammar

/-- Whether a read fails, and leaves the given close code behind or none. -/
structure Fails
    (report : Report (Option Frame))
    (next : Endpoint)
    (error : Error)
    (code? : Option CloseCode) : Prop where
  answer : report.answer = .error error
  hasFailed : next.hasFailed = true
  closeCode? : next.closeCode? = code?

/-- Whether a read does not fail, and leaves no close code behind. -/
structure GoesOn
    (report : Report (Option Frame))
    (next : Endpoint)
    (frame? : Option Frame) : Prop where
  answer : report.answer = .ok frame?
  hasFailed : next.hasFailed = false
  closeCode? : next.closeCode? = none

/-- Whether a read comes to what follows from its last call, behind octets that are cut
cleanly or not. -/
def EndsWith
    (isClean : Bool)
    (report : Report (Option Frame))
    (next : Endpoint) : Call → Prop
  | .read size (.ok []) =>
      0 < size ∧
        if isClean then Fails report next .connectionClosed none
        else Fails report next (.protocol .incompleteFrame) (some .protocolError)
  | .poll _ (.ok false) =>
      if isClean then GoesOn report next none
      else Fails report next (.protocol .incompleteFrame) (some .protocolError)
  | .read _ (.error error) =>
      error.isInterruption = false ∧
        Fails report next (.io error) (if isClean then none else some .protocolError)
  | .poll _ (.error error) =>
      Fails report next (.io error) (if isClean then none else some .protocolError)
  | .read _ (.ok _) => ∃ frame, GoesOn report next (some frame)
  | _ => False

section Ends

variable
    {endpoint : Endpoint}
    {ended : Reading.Ended}
    {report : Report (Option Frame)}
    (answered : report.answer = ended.answer.mapError ReadFailure.error)

include answered

theorem fails_afterRead
    (unrecorded : endpoint.closeCode? = none)
    {failure : ReadFailure}
    (fails : ended.answer = .error failure) :
    Fails report (endpoint.afterRead ended) failure.error failure.closeCode? := by
  rw [afterRead_of_error endpoint fails]
  refine ⟨?_, rfl, ?_⟩
  · rw [answered, fails]
    rfl
  · rw [unrecorded, Option.or_none]

theorem goesOn_afterRead
    (reads : endpoint.hasFailed = false)
    (unrecorded : endpoint.closeCode? = none)
    {frame? : Option Frame}
    (delivers : ended.answer = .ok frame?) :
    GoesOn report (endpoint.afterRead ended) frame? := by
  rw [afterRead_of_ok endpoint delivers]
  refine ⟨?_, reads, unrecorded⟩
  rw [answered, delivers]
  rfl

/-- A failure of the channel calls for a close code if something has begun. -/
theorem fails_io
    (unrecorded : endpoint.closeCode? = none)
    {error : IoError}
    {midFrame : Bool}
    (fails : ended.answer = .error { error := .io error, midFrame }) :
    Fails report (endpoint.afterRead ended) (.io error)
      (if !midFrame then none else some .protocolError) := by
  have failed := fails_afterRead answered unrecorded fails
  cases midFrame with
  | false => exact failed
  | true => exact failed

/-- A call that brings no octets ends a read as it should. -/
theorem endsWith_of_conclusion?
    (reads : endpoint.hasFailed = false)
    (unrecorded : endpoint.closeCode? = none)
    {last : Call}
    (asks : ∀ size answer, last = .read size answer → 0 < size)
    (concludes : Reading.conclusion? ended.decoder last = some ended.answer) :
    EndsWith (!ended.decoder.inProgress) report (endpoint.afterRead ended) last := by
  rcases last with ⟨size, error | _ | ⟨octet, octets⟩⟩ | ⟨offered, answer⟩ |
    ⟨wait, error | _ | _⟩
  · cases interrupts : error.isInterruption with
    | true =>
        rw [Reading.conclusion?, if_pos interrupts] at concludes
        cases concludes
    | false =>
        rw [Reading.conclusion?, if_neg (by simp [interrupts])] at concludes
        exact ⟨interrupts, fails_io answered unrecorded (Option.some.inj concludes).symm⟩
  · have failed := fails_afterRead answered unrecorded (Option.some.inj concludes).symm
    refine ⟨asks size _ rfl, ?_⟩
    unfold Reading.endOfStream at failed
    cases inProgress : ended.decoder.inProgress with
    | true =>
        rw [if_pos inProgress] at failed
        exact failed
    | false =>
        rw [if_neg (by simp [inProgress])] at failed
        exact failed
  · cases concludes
  · cases concludes
  · exact fails_io answered unrecorded (Option.some.inj concludes).symm
  · rw [Reading.conclusion?] at concludes
    cases inProgress : ended.decoder.inProgress with
    | true =>
        rw [if_pos inProgress] at concludes
        exact fails_afterRead answered unrecorded (Option.some.inj concludes).symm
    | false =>
        rw [if_neg (by simp [inProgress])] at concludes
        exact goesOn_afterRead answered reads unrecorded (Option.some.inj concludes).symm
  · cases concludes

/-- A read that refuses nothing ends as it should. -/
theorem endsWith_of_answers
    (reads : endpoint.hasFailed = false)
    (unrecorded : endpoint.closeCode? = none)
    {last : Call}
    (asks : ∀ size answer, last = .read size answer → 0 < size)
    {answer : Except Refusal (Parse Frame)}
    (answers : ended.Answers last answer)
    {offset : Nat}
    (accepted : (Decoder.Outcome.ofAnswer offset ended.decoder answer).refusal = none) :
    EndsWith (!ended.decoder.inProgress) report (endpoint.afterRead ended) last := by
  rcases answer with refusal | count | frame
  · cases accepted
  · exact endsWith_of_conclusion? answered reads unrecorded asks answers
  · obtain ⟨some_octets, delivers⟩ := answers
    have goesOn := goesOn_afterRead answered reads unrecorded delivers
    rcases last with ⟨size, error | _ | ⟨octet, octets⟩⟩ | ⟨offered, answer⟩ |
      ⟨wait, answer⟩
    · exact absurd rfl some_octets
    · exact absurd rfl some_octets
    · exact ⟨frame, goesOn⟩
    · exact absurd rfl some_octets
    · exact absurd rfl some_octets

end Ends

/-- Whatever a channel brings of traffic and however often it interrupts, a new endpoint has
delivered the frames that are complete by then and nothing else. What ends a read behind
these octets shows whether the cut is clean: the end of the stream is a closed connection,
and a time limit leaves nothing to deliver, only if nothing has begun, and else either is a
frame cut short. A failure of the channel is reported as it is, and calls for a close code
only if something has begun. -/
theorem read_cut
    {role : Role}
    {config : Config}
    {channel : Channel}
    {keys : KeySupply}
    {memory : Memory}
    (room : ∀ size < 2 ^ 47, memory.hasRoom size = true)
    {commands : List Command}
    {run : Run}
    (ran : (new role config channel keys memory).runEach commands = run)
    (reads : run.endpoint.hasFailed = false)
    {limit : Option Duration}
    {ready : Bool}
    {report : Report (Option Frame)}
    {next : Endpoint}
    (result : run.endpoint.read limit ready = (report, next))
    {traffic : Traffic role}
    (fits : ∀ message ∈ traffic.messages, message.Fits config.maxPayloadLength)
    (cut : takenBy run report <+: traffic.octets) :
    run.frames = traffic.framesWithin (broughtBy run.calls).length ∧
      run.frames ++ (delivered? report.answer).toList =
        traffic.framesWithin (takenBy run report).length ∧
      ∃ earlier last,
        report.calls.toList = earlier ++ [last] ∧
        EndsWith (traffic.IsClean (takenBy run report).length) report next last := by
  obtain ⟨yields, unrecorded⟩ := yields_runEach ran reads
  obtain ⟨ended, accounts, calls, answered, rfl⟩ :=
    accounts_of_read result reads yields.wanted_pos
  have early : broughtBy run.calls <+: traffic.octets := (List.prefix_append _ _).trans cut
  have first := (Decoder.decodeFrom_cut room fits early).1
  have frames : run.frames = traffic.framesWithin (broughtBy run.calls).length :=
    (yields 0).1.symm.trans (congrArg (List.map Prod.snd) first)
  obtain ⟨deliveries, delivered, both⟩ :=
    yields.decodeFrom_append 0 (broughtBy ended.calls.toList)
  obtain ⟨earlier, last, answer, made, comes, answers⟩ := accounts.comes
  rw [Decoder.decodeFrom_of_whole comes, ← calls] at both
  have decoded := Decoder.decodeFrom_cut room fits cut
  rw [takenBy, both] at decoded
  obtain ⟨complete, accepted, idle⟩ := decoded
  have asks : ∀ size answer, last = .read size answer → 0 < size := by
    rintro size answer rfl
    obtain ⟨decoder, -, positive, -⟩ := accounts.modest earlier size answer [] made
    exact positive
  -- The cut alone decides whether the decoder has something in progress.
  have clean : (!decide (traffic.IsClean _)) = ended.decoder.inProgress :=
    idle.symm.trans (congrArg Decoder.inProgress (Decoder.Outcome.decoder_ofAnswer _ _ _))
  refine ⟨frames, ?_, earlier, last, calls ▸ made, ?_⟩
  · rw [takenBy, Traffic.framesWithin, ← complete, answered, ← map_snd_ofAnswer answers,
      ← delivered]
    exact List.map_append.symm
  · rw [takenBy, Bool.not_eq_eq_eq_not.mp clean]
    exact endsWith_of_answers answered reads unrecorded asks answers accepted

/-- A stream that stops behind a ping between two fragments. The pings are delivered, and
the time limit meets a message that has begun. -/
theorem read_cut_between_fragments :
    let frame (opcode : Opcode) (isFinal : Bool) (octet : UInt8) payload :=
      Physical.ofClient opcode isFinal ⟨octet, 2, 3, octet⟩ payload
    let ping : ControlFrame .server :=
      ⟨frame (.control .ping) true 1 [0x70] rfl (by decide), .ping, rfl, rfl, by decide⟩
    let fragments : Fragments .server .text :=
      .more [ping] ⟨frame (.data .text) false 6 [0x61, 0x62] rfl (by decide), rfl, rfl⟩
        (.last [ping]
          ⟨frame (.data .continuation) true 8 [0x63] rfl (by decide), rfl, rfl⟩)
    let traffic : Traffic .server := ⟨[⟨.text, .inl rfl, fragments⟩], []⟩
    let inbound : Inbound :=
      { arrivals := [.octets (traffic.octets.take 9), .fault ⟨.interrupted, "again"⟩,
          .octets ((traffic.octets.take 22).drop 9)]
        readiness := .queued }
    let run := (new .server {} { inbound } (.ofArray #[] default)).runEach
      [.read none true, .write (.control .pong) [0x70], .read none false]
    let read := run.endpoint.read none false
    run.endpoint.hasFailed = false ∧
      takenBy run read.1 = traffic.octets.take 22 ∧
      run.frames = [ping.frame, ping.frame] ∧
      (∃ earlier last,
        read.1.calls.toList = earlier ++ [last] ∧ EndsWith false read.1 read.2 last) ∧
      read.2.closeCode? = some .protocolError := by
  intro frame ping fragments traffic inbound run read
  have room : ∀ size < 2 ^ 47, Memory.standard.hasRoom size = true :=
    fun size small => decide_eq_true small
  have fits : ∀ message ∈ traffic.messages, message.Fits (25 * 1024 * 1024) := by
    intro message member
    rw [List.mem_singleton.mp member]
    exact ⟨by decide, by decide⟩
  have reads : run.endpoint.hasFailed = false := by decide +kernel
  have result : run.endpoint.read none false = (read.1, read.2) := rfl
  have taken : takenBy run read.1 = traffic.octets.take 22 := by decide +kernel
  have cut : takenBy run read.1 <+: traffic.octets := by
    rw [taken]
    exact List.take_prefix 22 traffic.octets
  obtain ⟨frames, -, ends⟩ := read_cut room rfl reads result fits cut
  rw [taken] at ends
  refine ⟨reads, taken, ?_, ends, by decide +kernel⟩
  rw [frames]
  decide +kernel

end Endpoint
end WebSocket
