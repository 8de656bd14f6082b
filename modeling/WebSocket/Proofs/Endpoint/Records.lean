import WebSocket.Proofs.Endpoint.Sending
import WebSocket.Proofs.Log.Refusals

/-!
# What a session records

A call that refuses something, on either side, records that at level error, once. No other
call records anything at that level, however it fails. The threshold of a session decides
what of all that is told is recorded, and nothing else.
-/

namespace WebSocket

open Log

/-- Whether an error stands for something that the endpoint refused, rather than for a
failure of the channel or for the end of reading. -/
def Error.isRefusal : Error → Bool
  | .protocol _ => true
  | .messageTooLong _ _ => true
  | .outOfMemory _ => true
  | .invalidCloseCode _ => true
  | _ => false

theorem Refusal.isRefusal_error (refusal : Refusal) : refusal.error.isRefusal = true := by
  cases refusal <;> rfl

/-- The error that is answered, if one is. -/
def failure? {α : Type} : Except Error α → Option Error
  | .error error => some error
  | .ok _ => none

/-- Whether events tell of the refusal that an error stands for, if it stands for one, and of
no other. -/
def TellsOf (error? : Option Error) (events : Array Event) : Prop :=
  (refusalsIn events).map Refusal.error = (error?.filter Error.isRefusal).toList

section TellsOf

variable {events : Array Event}

theorem tellsOf_refusal
    {refusal : Refusal}
    (told : refusalsIn events = [refusal]) :
    TellsOf (some refusal.error) events := by
  rw [TellsOf, told, Option.filter_some, if_pos refusal.isRefusal_error]
  rfl

theorem tellsOf_none (quiet : refusalsIn events = []) : TellsOf none events := by
  rw [TellsOf, quiet]
  rfl

theorem tellsOf_other
    (quiet : refusalsIn events = [])
    {error : Error}
    (other : error.isRefusal = false) :
    TellsOf (some error) events := by
  rw [TellsOf, quiet, Option.filter_some, if_neg (Bool.eq_false_iff.mp other)]
  rfl

end TellsOf

/-! ## Reading -/

namespace Reading

/-- Whether a pass has told of the refusal that it ends the read with, and of no other. -/
def Step.TellsRefusal : Step → Prop
  | .finished ended => TellsOf (failure? (ended.answer.mapError ReadFailure.error)) ended.events
  | .again next => refusalsIn next.events = []

variable {reading : Reading}

theorem tellsRefusal_decode (quiet : refusalsIn reading.events = []) (octets : List UInt8) :
    (reading.decode octets).TellsRefusal := by
  have told : refusalsIn (reading.events ++ (reading.decoder.feed octets).events) =
      (refused? (reading.decoder.feed octets).answer).toList := by
    rw [refusalsIn_append, quiet]
    exact reading.decoder.refusalsIn_feed octets
  unfold decode
  dsimp only
  split
  · rename_i frame ready
    rw [ready] at told
    exact tellsOf_none told
  · rename_i count asks
    rw [asks] at told
    exact told
  · rename_i refusal refused
    rw [refused] at told
    exact tellsOf_refusal told

theorem tellsRefusal_fail_refused
    (quiet : refusalsIn reading.events = [])
    (refusal : Refusal)
    (midFrame : Bool) :
    (reading.fail (.refused refusal) refusal.error midFrame).TellsRefusal := by
  apply tellsOf_refusal
  rw [refusalsIn_push, quiet]
  rfl

theorem tellsRefusal_fail_other
    (quiet : refusalsIn reading.events = [])
    {event : Event}
    (silent : event.refusal? = none)
    {error : Error}
    (other : error.isRefusal = false)
    (midFrame : Bool) :
    (reading.fail event error midFrame).TellsRefusal := by
  refine tellsOf_other ?_ other
  rw [refusalsIn_push, quiet, silent]
  rfl

theorem tellsRefusal_receive (quiet : refusalsIn reading.events = []) (config : Config) :
    (reading.receive config).TellsRefusal := by
  unfold receive
  dsimp only
  split
  · split
    · exact tellsRefusal_fail_refused quiet .truncated true
    · exact tellsRefusal_fail_other quiet rfl rfl false
  · refine tellsRefusal_decode ?_ _
    exact quiet
  · split
    · exact quiet
    · exact tellsRefusal_fail_other quiet rfl rfl _

/-- A pass tells of the refusal that it ends the read with, if the passes before it have
told of none. -/
theorem tellsRefusal_pass
    (quiet : refusalsIn reading.events = [])
    (config : Config)
    (limit : Option Duration) :
    (reading.pass config limit).TellsRefusal := by
  unfold pass
  split
  · exact tellsRefusal_receive quiet config
  · dsimp only
    split
    · refine tellsRefusal_receive ?_ config
      exact quiet
    · split
      · exact tellsRefusal_fail_refused quiet .stalled true
      · apply tellsOf_none
        rw [refusalsIn_push, quiet]
        rfl
    · exact tellsRefusal_fail_other quiet rfl rfl _

theorem tellsOf_run
    (quiet : refusalsIn reading.events = [])
    (config : Config)
    (limit : Option Duration) :
    TellsOf (failure? ((reading.run config limit).answer.mapError ReadFailure.error))
      (reading.run config limit).events := by
  fun_induction run reading config limit with
  | case1 reading ended step =>
      have tells := tellsRefusal_pass quiet config limit
      rw [step] at tells
      exact tells
  | case2 reading next step shorter inductionHypothesis =>
      have tells := tellsRefusal_pass quiet config limit
      rw [step] at tells
      exact inductionHypothesis tells

end Reading

namespace Endpoint

/-- Whether an operation tells of the refusal that it answers, and of no other. -/
def Report.TellsRefusal {α : Type} (report : Report α) : Prop :=
  TellsOf (failure? report.answer) report.events

theorem tellsRefusal_read (endpoint : Endpoint) (limit : Option Duration) (ready : Bool) :
    (endpoint.read limit ready).1.TellsRefusal := by
  unfold read
  split
  · exact tellsOf_other rfl rfl
  · exact Reading.tellsOf_run refusalsIn_empty endpoint.config limit

/-! ## Writing -/

/-- A write fails with a refusal only if it tells of it. -/
theorem tellsRefusal_write (endpoint : Endpoint) (opcode : Opcode) (payload : List UInt8) :
    (endpoint.write opcode payload).1.TellsRefusal := by
  by_cases assigned : opcode.isAssigned = true
  · obtain ⟨used, -, answer, answered, -⟩ := endpoint.exists_spends_write assigned payload
    have silent : refusalsIn (endpoint.write opcode payload).1.events = [] := by
      rw [write, if_pos assigned]
      rfl
    rw [Report.TellsRefusal, answered]
    cases answer with
    | ok done => exact tellsOf_none silent
    | error error => exact tellsOf_other silent rfl
  · rw [write, if_neg assigned]
    exact tellsOf_refusal rfl

theorem tellsRefusal_close (endpoint : Endpoint) (code : CloseCode) :
    (endpoint.close code).1.TellsRefusal := by
  unfold close
  dsimp only
  split
  · exact endpoint.tellsRefusal_write _ _
  · exact tellsOf_refusal rfl

end Endpoint

/-! ## Commands -/

/-- The error that an answer comes to, if it comes to one. Reads that are made until one
delivers no frame fail once at most. -/
def Answer.error? : Answer → Option Error
  | .read result => failure? result
  | .readAll results => results.findSome? failure?
  | .done result => failure? result

namespace Session

/-- The user's look at the close code of a frame tells of no refusal. -/
theorem refusalsIn_readEvents (report : Endpoint.Report (Option Frame)) :
    refusalsIn (readEvents report) = refusalsIn report.events := by
  unfold readEvents
  split
  · rename_i frame delivered
    rw [refusalsIn_append, Frame.closeCodeEvents]
    cases frame.closeCode? <;> exact List.append_nil _
  · rfl

section ReadAll

variable
    {reports : Array (Endpoint.Report (Option Frame))}
    {report : Endpoint.Report (Option Frame)}

/-- Whether reads have told of no refusal and not failed. -/
structure Untroubled (reports : Array (Endpoint.Report (Option Frame))) : Prop where
  quiet : refusalsIn (reports.flatMap readEvents) = []
  unfailed : (reports.map Endpoint.Report.answer).toList.findSome? failure? = none

theorem refusalsIn_flatMap_push (untroubled : Untroubled reports) :
    refusalsIn ((reports.push report).flatMap readEvents) = refusalsIn report.events := by
  rw [← Array.append_singleton, Array.flatMap_append, refusalsIn_append, untroubled.quiet,
    List.nil_append]
  simp [refusalsIn_readEvents]

theorem findSome?_push (untroubled : Untroubled reports) :
    ((reports.push report).map Endpoint.Report.answer).toList.findSome? failure? =
      failure? report.answer := by
  rw [Array.map_push, Array.toList_push, List.findSome?_append, untroubled.unfailed,
    Option.none_or, List.findSome?_singleton]

/-- Of reads that are made until one delivers no frame, only the last one may fail. -/
theorem tellsOf_readAllFrom
    (endpoint : Endpoint)
    (limit : Option Duration)
    (ready : Bool)
    (untroubled : Untroubled reports) :
    let all := (endpoint.readAllFrom limit ready reports).1
    TellsOf ((all.map Endpoint.Report.answer).toList.findSome? failure?)
      (all.flatMap readEvents) := by
  induction endpoint, reports using Endpoint.readAllFrom.induct limit ready with
  | case1 endpoint reports report next result frame delivered _ inductionHypothesis =>
      have tells := endpoint.tellsRefusal_read limit ready
      rw [result, Endpoint.Report.TellsRefusal, delivered] at tells
      rw [Endpoint.readAllFrom_of_frame result delivered]
      apply inductionHypothesis
      constructor
      · rw [refusalsIn_flatMap_push untroubled]
        exact List.map_eq_nil_iff.mp tells
      · rw [findSome?_push untroubled, delivered]
        rfl
  | case2 endpoint reports report next result nothing =>
      have tells := endpoint.tellsRefusal_read limit ready
      rw [result] at tells
      rw [Endpoint.readAllFrom_of_end result nothing]
      dsimp only
      rw [findSome?_push untroubled, TellsOf, refusalsIn_flatMap_push untroubled]
      exact tells

end ReadAll

/-- A command tells of the refusal that it answers, and of no other. -/
theorem tellsOf_carryOut (endpoint : Endpoint) (command : Command) :
    let (answer, events, _, _) := carryOut endpoint command
    TellsOf answer.error? events := by
  cases command with
  | read limit ready =>
      have tells := endpoint.tellsRefusal_read limit ready
      dsimp only [carryOut, Answer.error?]
      rw [TellsOf, refusalsIn_readEvents]
      exact tells
  | readAll limit ready =>
      have untroubled : Untroubled #[] := ⟨by simp, by simp⟩
      exact tellsOf_readAllFrom endpoint limit ready untroubled
  | write opcode payload => exact endpoint.tellsRefusal_write opcode payload
  | close code => exact endpoint.tellsRefusal_close code
  | deliver arrivals readiness acceptances => exact tellsOf_none rfl
  | setThreshold threshold => exact tellsOf_none rfl

end Session

/-! ## Records -/

/-- How much a threshold lets through: every level up to its rank. -/
def Log.Threshold.rank : Threshold → Nat
  | .off => 0
  | .upTo level => level.rank

namespace Log

theorem admits_of_rank_le
    {lower higher : Threshold}
    (within : lower.rank ≤ higher.rank)
    {level : Level}
    (admitted : lower.admits level = true) :
    higher.admits level = true := by
  have positive : 0 < level.rank := by cases level <;> decide
  cases lower with
  | off => cases admitted
  | upTo highest =>
      have reaches : level.rank ≤ higher.rank :=
        Nat.le_trans (of_decide_eq_true admitted) within
      cases higher with
      | off => exact absurd reaches (Nat.not_le_of_gt positive)
      | upTo most => exact decide_eq_true reaches

/-- A lower threshold records what it admits of the records of a higher one. -/
theorem records_eq_filter
    {lower higher : Threshold}
    (within : lower.rank ≤ higher.rank)
    (events : Array Event) :
    lower.records events =
      (higher.records events).filter fun record => lower.admits record.level := by
  rw [Threshold.records, Threshold.records, List.filter_map, List.filter_filter]
  congr 1
  apply List.filter_congr
  intro event _
  cases admitted : lower.admits event.level with
  | false => exact (Bool.and_eq_false_imp.mpr fun passes => absurd passes
      (Bool.eq_false_iff.mp admitted)).symm
  | true => exact (Bool.and_eq_true_iff.mpr ⟨admitted, admits_of_rank_le within admitted⟩).symm

/-- The records at level error. -/
def errorsIn (records : List Record) : List Record :=
  records.filter fun record => record.level = .error

/-- A threshold that lets anything through lets the records of refusals through, and nothing
else is recorded at level error. -/
theorem errorsIn_records (level : Level) (events : Array Event) :
    errorsIn ((Threshold.upTo level).records events) =
      (refusalsIn events).map fun refusal => (Event.refused refusal).record := by
  have admitted : (Threshold.upTo level).admits .error = true := by cases level <;> rfl
  have kinds : ∀ events : List Event,
      errorsIn (events.map Event.record) =
        (events.filterMap Event.refusal?).map fun refusal => (Event.refused refusal).record := by
    intro events
    rw [errorsIn, List.filter_map]
    have told := congrArg (List.map Event.record) (filter_level_eq_error events)
    rw [List.map_map] at told
    exact told
  have kept : (fun event => if (Threshold.upTo level).admits event.level then event.refusal?
      else none) = Event.refusal? := by
    funext event
    cases event with
    | refused refusal => exact if_pos admitted
    | _ => exact ite_self none
  rw [Threshold.records, kinds, List.filterMap_filter, kept]
  rfl

end Log

/-- What the records of a response have to do with its answer. -/
structure Response.RecordsRefusal (response : Response) : Prop where
  /-- A refusal is recorded once at level error, as what it is. -/
  refused : ∀ error, response.answer.error? = some error → error.isRefusal = true →
    ∃ refusal : Refusal, refusal.error = error ∧
      errorsIn response.records = [(Event.refused refusal).record]
  /-- Nothing else is recorded at that level. -/
  others : (∀ error, response.answer.error? = some error → error.isRefusal = false) →
    errorsIn response.records = []

/-- Events that tell of the refusal that is answered are recorded as they should. -/
theorem recordsRefusal_of_tellsOf
    {response : Response}
    {level : Level}
    {events : Array Event}
    (tells : TellsOf response.answer.error? events)
    (records : response.records = (Threshold.upTo level).records events) :
    response.RecordsRefusal := by
  have errors := errorsIn_records level events
  rw [← records] at errors
  constructor
  · intro error answered refused
    rw [TellsOf, answered, Option.filter_some, if_pos refused] at tells
    obtain ⟨refusal, told, stands⟩ := List.map_eq_singleton_iff.mp tells
    exact ⟨refusal, stands, by rw [errors, told]; rfl⟩
  · intro others
    have none : response.answer.error?.filter Error.isRefusal = none := by
      rw [Option.filter_eq_none_iff]
      intro error answered
      exact Bool.eq_false_iff.mp (others error answered)
    rw [TellsOf, none] at tells
    rw [errors, List.map_eq_nil_iff.mp tells]
    rfl

/-- Whether a command changes the threshold of what is recorded. -/
def Command.setsThreshold : Command → Bool
  | .setThreshold _ => true
  | _ => false

/-- A response with the records that a threshold admits and no others. -/
def Response.upTo (threshold : Threshold) (response : Response) : Response :=
  { response with
    records := response.records.filter fun record => threshold.admits record.level }

namespace Session

theorem threshold_perform
    (session : Session)
    {command : Command}
    (steady : command.setsThreshold = false) :
    (session.perform command).2.threshold = session.threshold := by
  cases command with
  | setThreshold threshold => cases steady
  | _ => rfl

/-- A command is recorded as its refusal demands, if anything is. -/
theorem recordsRefusal_perform
    (session : Session)
    {command : Command}
    {level : Level}
    (records : (session.perform command).2.threshold = .upTo level) :
    (session.perform command).1.RecordsRefusal := by
  have recorded : (session.perform command).1.records =
      (Threshold.upTo level).records (carryOut session.endpoint command).2.1 :=
    congrArg (Threshold.records · _) records
  exact recordsRefusal_of_tellsOf (tellsOf_carryOut session.endpoint command) recorded

section Thresholds

variable {lower higher : Threshold}

/-- A command comes to the same under a lower threshold, but for what is recorded. -/
theorem perform_upTo
    (within : lower.rank ≤ higher.rank)
    (endpoint : Endpoint)
    {command : Command}
    (steady : command.setsThreshold = false) :
    let quiet := perform { endpoint, threshold := lower } command
    let loud := perform { endpoint, threshold := higher } command
    quiet.1 = loud.1.upTo lower ∧ quiet.2.endpoint = loud.2.endpoint := by
  have threshold : ∀ threshold, thresholdAfter threshold command = threshold := by
    intro threshold
    cases command with
    | setThreshold other => cases steady
    | _ => rfl
  dsimp only [perform]
  rw [threshold, threshold, records_eq_filter within]
  exact ⟨rfl, rfl⟩

/-- Commands are answered the same under a lower threshold, behind responses that are. -/
theorem performAllFrom_upTo
    (within : lower.rank ≤ higher.rank)
    (endpoint : Endpoint)
    (responses : Array Response)
    {commands : List Command}
    (steady : ∀ command ∈ commands, command.setsThreshold = false) :
    let quiet := performAllFrom { endpoint, threshold := lower }
      (responses.map (·.upTo lower)) commands
    let loud := performAllFrom { endpoint, threshold := higher } responses commands
    quiet.1 = loud.1.map (·.upTo lower) := by
  induction commands generalizing endpoint responses with
  | nil => rfl
  | cons command later inductionHypothesis =>
      obtain ⟨first, steadyThen⟩ := List.forall_mem_cons.mp steady
      have both := perform_upTo within endpoint first
      have quiet := threshold_perform { endpoint, threshold := lower } first
      have loud := threshold_perform { endpoint, threshold := higher } first
      rw [performAllFrom, performAllFrom]
      generalize perform { endpoint, threshold := lower } command = low at both quiet ⊢
      generalize perform { endpoint, threshold := higher } command = high at both loud ⊢
      obtain ⟨response, next, threshold⟩ := low
      obtain ⟨response', next', threshold'⟩ := high
      obtain ⟨same, sameNext⟩ := both
      dsimp only at same sameNext quiet loud ⊢
      subst same sameNext quiet loud
      rw [← Array.map_push]
      exact inductionHypothesis _ _ steadyThen

end Thresholds

/-- Every response of a session that records anything is recorded as its refusal demands. -/
theorem recordsRefusal_performAllFrom
    {session : Session}
    {level : Level}
    (threshold : session.threshold = .upTo level)
    {responses : Array Response}
    (recorded : ∀ response ∈ responses, response.RecordsRefusal)
    {commands : List Command}
    (steady : ∀ command ∈ commands, command.setsThreshold = false) :
    ∀ response ∈ (session.performAllFrom responses commands).1, response.RecordsRefusal := by
  induction commands generalizing session responses with
  | nil => exact recorded
  | cons command later inductionHypothesis =>
      obtain ⟨first, steadyThen⟩ := List.forall_mem_cons.mp steady
      have thresholdThen := (session.threshold_perform first).trans threshold
      rw [performAllFrom]
      apply inductionHypothesis thresholdThen ?_ steadyThen
      intro response member
      rcases Array.mem_push.mp member with made | rfl
      · exact recorded response made
      · exact session.recordsRefusal_perform thresholdThen

/-- Whatever commands an endpoint carries out, over whatever channel, each call that is answered
by a refusal has it recorded once at level error, and no other call has anything recorded at that
level, whatever it takes in and however it fails. A lower threshold records exactly what it admits
of the records under a higher one, in order, and changes nothing else: the answers, the close
codes, the octets written, the calls on the channel and the endpoint are the same. -/
theorem records_performAll
    (role : Role)
    (config : Config)
    (channel : Channel)
    (keys : KeySupply)
    (memory : Memory)
    {commands : List Command}
    (steady : ∀ command ∈ commands, command.setsThreshold = false)
    {lower higher : Threshold}
    (within : lower.rank ≤ higher.rank) :
    let endpoint := Endpoint.new role config channel keys memory
    let (quietly, last) := performAll { endpoint, threshold := lower } commands
    let (loudly, last') := performAll { endpoint, threshold := higher } commands
    (lower ≠ .off → ∀ response ∈ quietly, response.RecordsRefusal) ∧
      quietly = loudly.map (·.upTo lower) ∧
      last.endpoint = last'.endpoint := by
  intro endpoint
  have same := performAllFrom_upTo within endpoint #[] steady
  rw [Array.map_empty] at same
  -- Both sessions reach the endpoint behind the commands.
  have reaches := fun threshold : Threshold =>
    Endpoint.endpoint_performAllFrom { endpoint, threshold } #[] commands
  refine ⟨?_, ?_, (reaches lower).trans (reaches higher).symm⟩
  · intro something response member
    obtain ⟨level, threshold⟩ : ∃ level, (Session.mk endpoint lower).threshold = .upTo level := by
      cases lower with
      | off => exact absurd rfl something
      | upTo level => exact ⟨level, rfl⟩
    exact recordsRefusal_performAllFrom threshold
      (fun response none => absurd none (Array.not_mem_empty response)) steady response
      (Array.mem_toList_iff.mp member)
  · rw [← Array.toList_map]
    exact congrArg Array.toList same

/-- A client reads a message in two fragments. It refuses to send an opcode without a meaning,
meets a channel that is full, refuses to send a close code that may not be sent, and refuses a
frame with a reserved bit, which is the end of reading. -/
theorem records_performAll_refusals_on_both_sides :
    let channel : Channel :=
      { inbound := { arrivals := [.octets [0x01, 0x01, 0x61, 0x80, 0x01, 0x62, 0xc1, 0x00]] }
        outbound := { answers := [.fault ⟨.wouldBlock, "full"⟩] } }
    let endpoint := Endpoint.new .client {} channel (.ofArray #[] default)
    let commands : List Command :=
      [.read none true, .write (.data (.reserved 3)) [0x61], .write (.data .text) [0x61],
        .close .serviceRestart, .read none true, .read none true]
    let quietly := performAll { endpoint, threshold := .upTo .error } commands
    let loudly := performAll { endpoint, threshold := .upTo .trace } commands
    (∀ command ∈ commands, command.setsThreshold = false) ∧
      (Threshold.upTo .error).rank ≤ (Threshold.upTo .trace).rank ∧
      (∀ response ∈ quietly.1, response.RecordsRefusal) ∧
      quietly.1 = loudly.1.map (·.upTo (.upTo .error)) ∧
      quietly.1.map (fun response => response.records.length) = [0, 1, 0, 1, 1, 0] ∧
      loudly.1.map (fun response => (errorsIn response.records).length) = [0, 1, 0, 1, 1, 0] := by
  intro channel endpoint commands quietly loudly
  have steady : ∀ command ∈ commands, command.setsThreshold = false := by decide
  have within : (Threshold.upTo .error).rank ≤ (Threshold.upTo .trace).rank := by decide
  obtain ⟨records, same, -⟩ :=
    records_performAll .client {} channel (.ofArray #[] default) .standard steady within
  exact ⟨steady, within, records (by decide), same, by decide +kernel, by decide +kernel⟩

end Session
end WebSocket
