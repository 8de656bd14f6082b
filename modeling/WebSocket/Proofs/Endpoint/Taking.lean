import WebSocket.Proofs.Decoder.Parts
import WebSocket.Proofs.Endpoint.Runs

/-!
# What reads take

A read asks the channel for what is missing of the header field or payload in which the
octets taken so far end. So it ends behind the frame that it delivers, or behind the field
that shows why a frame is refused, and whatever follows is left in the channel.
-/

namespace WebSocket

open Grammar

/-- Whether an error tells of a frame that breaks a rule, rather than of one that is cut
short or of the channel. -/
def Error.isViolation : Error → Bool
  | .protocol violation => violation != .incompleteFrame
  | .messageTooLong _ _ => true
  | .outOfMemory _ => true
  | _ => false

namespace Reading

theorem brought_of_conclusion?
    {decoder : Decoder}
    {last : Call}
    {answer : Except ReadFailure (Option Frame)}
    (concludes : conclusion? decoder last = some answer) :
    last.brought = [] := by
  unfold conclusion? at concludes
  split at concludes <;> first | rfl | cases concludes

/-- What follows from a call that brings no octets is not a violation. -/
theorem isViolation_of_conclusion?
    {decoder : Decoder}
    {last : Call}
    {failure : ReadFailure}
    (concludes : conclusion? decoder last = some (.error failure)) :
    failure.error.isViolation = false := by
  unfold conclusion? at concludes
  split at concludes
  · cases concludes
    unfold endOfStream
    split <;> rfl
  · split at concludes <;> cases concludes
    rfl
  · split at concludes <;> cases concludes
    rfl
  · cases concludes
    rfl
  · cases concludes

variable
    {ended : Ended}
    {last : Call}
    {answer : Except Refusal (Parse Frame)}

/-- A frame that a read delivers is one that its decoder answers. -/
theorem Ended.Answers.ready
    (answers : ended.Answers last answer)
    {frame : Frame}
    (delivers : ended.answer = .ok (some frame)) :
    answer = .ok (.ready frame) := by
  rcases answer with refusal | count | frame'
  · cases delivers.symm.trans answers.2
  · rw [Answers, delivers] at answers
    cases conclusion?_ne_frame _ _ _ answers
  · cases delivers.symm.trans answers.2
    rfl

/-- A violation that a read answers is one that its decoder refuses. -/
theorem Ended.Answers.refused
    (answers : ended.Answers last answer)
    {failure : ReadFailure}
    (fails : ended.answer = .error failure)
    (violates : failure.error.isViolation = true) :
    ∃ refusal, answer = .error refusal ∧ refusal.error = failure.error := by
  rcases answer with refusal | count | frame
  · cases fails.symm.trans answers.2
    exact ⟨refusal, rfl, rfl⟩
  · rw [Answers, fails] at answers
    rw [isViolation_of_conclusion? answers] at violates
    cases violates
  · cases fails.symm.trans answers.2

end Reading

namespace Endpoint

/-- Whether a read behind a run takes no octet that it does not need, if the run has taken
all octets of the stream so far. -/
structure Frugal
    (role : Role)
    (limit : Nat)
    (memory : Memory)
    (run : Run)
    (report : Report (Option Frame))
    (next : Endpoint) : Prop where
  /-- Each call asks for an octet at least, and for no more than is missing of the header
  field or payload in which what was taken before ends. -/
  asks : ∀ before size answer after,
    report.calls.toList = before ++ .read size answer :: after →
    0 < size ∧
      size ≤ missing role (broughtBy run.calls ++ broughtBy before) ∧
      (Call.read size answer).brought.length ≤ size
  /-- Calls are made until one of them brings nothing, a frame is complete or one breaks a
  rule. -/
  persists : ∃ earlier last, report.calls.toList = earlier ++ [last] ∧
    (last.brought = [] ∨
      (∃ frame, report.answer = .ok (some frame)) ∨
      ∃ refusal,
        (transcript role limit memory none 0 (takenBy run report)).ending =
          .refused refusal ∧
        report.answer = .error refusal.error)
  /-- What the calls bring is decoded whole, and nothing else is. -/
  consumes : (run.endpoint.decoder.verdict (broughtBy report.calls.toList)).rest = [] ∧
    (run.endpoint.decoder.verdict (broughtBy report.calls.toList)).decoder = next.decoder ∧
    ((Decoder.new role limit memory).decodePieces [takenBy run report]).decoder =
      next.decoder
  /-- What the calls bring comes off the front of what is unread. -/
  leaves : broughtBy report.calls.toList ++ next.channel.inbound.unread =
    run.endpoint.channel.inbound.unread
  /-- A frame is delivered behind the last octet of the frames that were taken. -/
  delivers : ∀ frame, report.answer = .ok (some frame) →
    ∃ earlier, earlier.map Prod.snd = run.frames ∧
      (transcript role limit memory none 0 (takenBy run report)).deliveries =
        earlier ++ [((takenBy run report).length, frame)]
  /-- A frame that breaks a rule is refused behind the last octet that shows it. -/
  refuses : ∀ error, report.answer = .error error → error.isViolation = true →
    ∃ refusal whole tail behind,
      (transcript role limit memory none 0 (takenBy run report)).ending =
        .refused refusal ∧
      refusal.error = error ∧
      takenBy run report = whole ++ tail ∧
      Passes role limit memory none whole behind ∧
      Decoder.ShownBy role tail error

section MapError

variable
    {answer : Except ReadFailure (Option Frame)}
    {frame? : Option Frame}
    {error : Error}

theorem ok_of_mapError (delivers : answer.mapError ReadFailure.error = .ok frame?) :
    answer = .ok frame? := by
  cases answer with
  | error failure => cases delivers
  | ok frame? => exact congrArg Except.ok (Except.ok.inj delivers)

theorem error_of_mapError (fails : answer.mapError ReadFailure.error = .error error) :
    ∃ failure, answer = .error failure ∧ failure.error = error := by
  cases answer with
  | error failure => exact ⟨failure, rfl, Except.error.inj fails⟩
  | ok frame? => cases fails

end MapError

section Frugal

variable
    {role : Role}
    {limit : Nat}
    {memory : Memory}
    {start : Decoder}
    {taken : List UInt8}
    {frames : List Frame}

/-- What a call asks for is no more than what is missing. -/
theorem asks_of_modest
    (yields : (Decoder.new role limit memory).Yields taken frames start)
    {calls before after : List Call}
    (modest : Reading.Modest start calls)
    {size : Nat}
    {answer : Except IoError (List UInt8)}
    (made : calls = before ++ .read size answer :: after) :
    0 < size ∧
      size ≤ missing role (taken ++ broughtBy before) ∧
      (Call.read size answer).brought.length ≤ size := by
  obtain ⟨decoder, fed, positive, within, short⟩ := modest before size answer after made
  obtain ⟨-, accepted, reached⟩ := yields.append (Decoder.yields_of_needMore fed) 0
  have wanted : _ = missing role (taken ++ broughtBy before) :=
    Decoder.wanted_decodeFrom Decoder.fits_none accepted
  rw [← wanted]
  refine ⟨positive, ?_, short⟩
  exact Nat.le_trans within (Nat.le_of_eq (congrArg Decoder.wanted reached.symm))

/-- A refusal comes behind the octets that show it. -/
theorem exists_shownBy_of_accounts
    (yields : (Decoder.new role limit memory).Yields taken frames start)
    {source : Inbound}
    {ended : Reading.Ended}
    (accounts : ended.Accounts start source)
    {refusal : Refusal}
    (refused : (start.verdict (broughtBy ended.calls.toList)).answer = .error refusal) :
    ∃ whole tail behind,
      taken ++ broughtBy ended.calls.toList = whole ++ tail ∧
      Passes role limit memory none whole behind ∧
      Decoder.ShownBy role tail refusal.error := by
  obtain ⟨⟨earlier, last, answer, made, comes, answers⟩, modest, -⟩ := accounts
  rw [comes] at refused
  obtain rfl : answer = .error refusal := refused
  -- Only a read brings octets to refuse, and it asked for what was wanted by then.
  cases last with
  | poll wait answer => exact absurd rfl answers.1
  | write offered answer => exact absurd rfl answers.1
  | read size answer =>
      obtain ⟨decoder, fed, -, within, short⟩ := modest earlier size answer [] made
      obtain ⟨-, accepted, reached⟩ := yields.append (Decoder.yields_of_needMore fed) 0
      have both := start.verdict_append (broughtBy earlier) (Call.read size answer).brought
      rw [fed] at both
      rw [made, broughtBy_append, broughtBy_singleton] at comes ⊢
      have rejects : (decoder.verdict (Call.read size answer).brought).answer =
          .error refusal :=
        (congrArg Decoder.Verdict.answer both).symm.trans
          (congrArg Decoder.Verdict.answer comes)
      rw [← reached] at rejects within
      rw [← List.append_assoc]
      exact Decoder.exists_shownBy Decoder.fits_none 0 accepted
        (Nat.le_trans short within) rejects

/-- A read that accounts for its calls is frugal. -/
theorem frugal_of_accounts
    {run : Run}
    (yields : (Decoder.new role limit memory).Yields (broughtBy run.calls) run.frames
      run.endpoint.decoder)
    {ended : Reading.Ended}
    (accounts : ended.Accounts run.endpoint.decoder run.endpoint.channel.inbound)
    {report : Report (Option Frame)}
    (calls : report.calls = ended.calls)
    (answered : report.answer = ended.answer.mapError ReadFailure.error) :
    Frugal role limit memory run report (run.endpoint.afterRead ended) := by
  obtain ⟨earlier, last, answer, made, comes, answers⟩ := accounts.comes
  -- Decoding everything at once is decoding what the run took, and then what the read took.
  obtain ⟨deliveries, delivered, both⟩ :=
    yields.decodeFrom_append 0 (broughtBy ended.calls.toList)
  have reads : ((Decoder.new role limit memory).decodeFrom 0
      (broughtBy run.calls ++ broughtBy ended.calls.toList)).Reads
        (transcript role limit memory none 0
          (broughtBy run.calls ++ broughtBy ended.calls.toList)) :=
    Decoder.reads_decodeFrom role limit memory Decoder.fits_none 0 _
  rw [Decoder.decodeFrom_of_whole comes] at both
  have pieces := Decoder.outcome_decodePieces role limit memory
    [broughtBy run.calls ++ broughtBy ended.calls.toList]
  rw [List.flatten_singleton, both] at pieces
  rw [both] at reads
  refine
    { asks := ?_, persists := ?_, consumes := ?_, leaves := ?_, delivers := ?_, refuses := ?_ }
  · intro before size answer after made
    rw [calls] at made
    exact asks_of_modest yields accounts.modest made
  · refine ⟨earlier, last, calls ▸ made, ?_⟩
    rcases answer with refusal | count | frame
    · have ending := Ending.eq_refused_of_refusal? reads.refusal.symm
      rw [takenBy, calls, answered, answers.2]
      exact .inr (.inr ⟨refusal, ending, rfl⟩)
    · exact .inl (Reading.brought_of_conclusion? answers)
    · rw [answered, answers.2]
      exact .inr (.inl ⟨frame, rfl⟩)
  · rw [takenBy, calls, decoder_afterRead, comes]
    exact ⟨rfl, rfl, (congrArg Decoder.Outcome.decoder pieces).trans
      (Decoder.Outcome.decoder_ofAnswer _ _ _)⟩
  · rw [calls, inbound_afterRead]
    exact accounts.unread
  · intro frame delivers
    obtain rfl := answers.ready (ok_of_mapError (answered.symm.trans delivers))
    rw [takenBy, calls, ← reads.deliveries, List.length_append, Nat.zero_add]
    exact ⟨deliveries, delivered, rfl⟩
  · intro error fails violates
    obtain ⟨failure, failed, rfl⟩ := error_of_mapError (answered.symm.trans fails)
    obtain ⟨refusal, rfl, same⟩ := answers.refused failed violates
    obtain ⟨whole, tail, behind, parts, passes, shown⟩ :=
      exists_shownBy_of_accounts yields accounts (congrArg Decoder.Verdict.answer comes)
    have ending := Ending.eq_refused_of_refusal? reads.refusal.symm
    rw [takenBy, calls, ← same]
    exact ⟨refusal, whole, tail, behind, ending, rfl, parts, passes, shown⟩

end Frugal

/-- Behind any run that has not failed a read is frugal: each of its calls asks for an octet
at least, and for no more than is missing of the header field or payload at hand, until one
brings nothing. So a frame is delivered behind its last octet, a frame that breaks a rule is
refused behind the last octet that shows it, and all octets that were taken have been
decoded. Unless the channel was made to bring more in between, the rest of its stream is
still to be read. -/
theorem frugal_read
    {role : Role}
    {config : Config}
    {channel : Channel}
    {keys : KeySupply}
    {memory : Memory}
    {commands : List Command}
    {run : Run}
    (ran : (new role config channel keys memory).runEach commands = run)
    (reads : run.endpoint.hasFailed = false)
    {limit : Option Duration}
    {ready : Bool}
    {report : Report (Option Frame)}
    {next : Endpoint}
    (result : run.endpoint.read limit ready = (report, next)) :
    Frugal role config.maxPayloadLength memory run report next ∧
      ((∀ command ∈ commands, command.delivers = false) →
        takenBy run report ++ next.channel.inbound.unread = channel.inbound.unread) := by
  obtain ⟨yields, -⟩ := yields_runEach ran reads
  obtain ⟨ended, accounts, calls, answered, rfl⟩ :=
    accounts_of_read result reads yields.wanted_pos
  have frugal := frugal_of_accounts yields accounts calls answered
  refine ⟨frugal, ?_⟩
  intro steady
  have serves := (new role config channel keys memory).serves_runEach steady
  rw [ran] at serves
  rw [takenBy, List.append_assoc, frugal.leaves]
  exact serves.drains fun _ => Nat.one_pos

/-- A server takes the header of a message that is too long, and leaves its payload. -/
theorem frugal_read_too_long :
    let first : List UInt8 := [0x81, 0x81, 1, 2, 3, 4, 0x60]
    let header : List UInt8 := [0x82, 0x85, 5, 6, 7, 8]
    let payload : List UInt8 := [0x61, 0x62, 0x63, 0x64, 0x65]
    let stream := first ++ header ++ payload
    let run := (new .server { maxPayloadLength := 4 }
      { inbound := { arrivals := [.octets stream] } } (.ofArray #[] default)).runEach
        [.read none true]
    let read := run.endpoint.read none false
    run.endpoint.hasFailed = false ∧
      Frugal .server 4 .standard run read.1 read.2 ∧
      takenBy run read.1 ++ read.2.channel.inbound.unread = stream ∧
      read.2.closeCode? = some .messageTooBig ∧
      read.2.channel.inbound.unread = payload := by
  intro first header payload stream run read
  have reads : run.endpoint.hasFailed = false := by decide +kernel
  have steady : ∀ command ∈ [Command.read none true], command.delivers = false := by
    simp [Command.delivers]
  have result : run.endpoint.read none false = (read.1, read.2) := rfl
  obtain ⟨frugal, leaves⟩ := frugal_read rfl reads result
  exact ⟨reads, frugal, leaves steady, by decide +kernel, by decide +kernel⟩

end Endpoint
end WebSocket
