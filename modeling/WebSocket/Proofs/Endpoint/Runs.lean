import WebSocket.Endpoint.Session
import WebSocket.Proofs.Decoder.Yields
import WebSocket.Proofs.Endpoint.Calls
import WebSocket.Proofs.Endpoint.Reads

/-!
# Runs of an endpoint

Whatever its user asks for, an endpoint that has not failed has decoded the octets that its
calls brought, has delivered the frames that they lead to and has refused none of them.
Writing has no part in this.
-/

namespace WebSocket
namespace Endpoint

/-! ## Writing -/

/-- Whether an operation leaves the reading side of an endpoint alone. -/
structure KeepsReading (endpoint : Endpoint) (calls : List Call) (next : Endpoint) : Prop where
  quiet : broughtBy calls = []
  decoder : next.decoder = endpoint.decoder
  inbound : next.channel.inbound = endpoint.channel.inbound
  hasFailed : next.hasFailed = endpoint.hasFailed
  closeCode? : next.closeCode? = endpoint.closeCode?

theorem keepsReading_refl (endpoint : Endpoint) : endpoint.KeepsReading [] endpoint :=
  ⟨rfl, rfl, rfl, rfl, rfl⟩

theorem broughtBy_offers (offers : Array (List UInt8 × Except IoError Nat)) :
    broughtBy (offers.map fun (offered, answer) => Call.write offered answer).toList = [] := by
  rw [Array.toList_map]
  induction offers.toList with
  | nil => rfl
  | cons offer later inductionHypothesis => exact inductionHypothesis

theorem keepsReading_transmit (endpoint : Endpoint) (octets : List UInt8) :
    endpoint.KeepsReading (endpoint.transmit octets).1.calls.toList
      (endpoint.transmit octets).2 :=
  ⟨broughtBy_offers _, rfl, rfl, rfl, rfl⟩

theorem KeepsReading.trans
    {endpoint next last : Endpoint}
    {calls later : List Call}
    (first : endpoint.KeepsReading calls next)
    (second : next.KeepsReading later last) :
    endpoint.KeepsReading (calls ++ later) last where
  quiet := by rw [broughtBy_append, first.quiet, second.quiet]; rfl
  decoder := second.decoder.trans first.decoder
  inbound := second.inbound.trans first.inbound
  hasFailed := second.hasFailed.trans first.hasFailed
  closeCode? := second.closeCode?.trans first.closeCode?

theorem keepsReading_transmitPlain
    (endpoint : Endpoint)
    (opcode : Opcode)
    (payload : List UInt8) :
    endpoint.KeepsReading (endpoint.transmitPlain opcode payload).1.calls.toList
      (endpoint.transmitPlain opcode payload).2 := by
  have head := endpoint.keepsReading_transmit (({ opcode } : FrameHeader).encode payload.length)
  unfold transmitPlain
  dsimp only
  split
  · exact head
  · dsimp only
    rw [Array.toList_append]
    exact head.trans (keepsReading_transmit _ payload)

theorem keepsReading_transmitMasked
    (endpoint : Endpoint)
    (opcode : Opcode)
    (payload : List UInt8) :
    endpoint.KeepsReading (endpoint.transmitMasked opcode payload).1.calls.toList
      (endpoint.transmitMasked opcode payload).2 :=
  ⟨broughtBy_offers _, rfl, rfl, rfl, rfl⟩

/-- A write leaves the reading side of an endpoint alone. -/
theorem keepsReading_write (endpoint : Endpoint) (opcode : Opcode) (payload : List UInt8) :
    endpoint.KeepsReading (endpoint.write opcode payload).1.calls.toList
      (endpoint.write opcode payload).2 := by
  unfold write
  split
  · cases endpoint.role with
    | server => exact endpoint.keepsReading_transmitPlain opcode payload
    | client => exact endpoint.keepsReading_transmitMasked opcode payload
  · exact endpoint.keepsReading_refl

theorem keepsReading_close (endpoint : Endpoint) (code : CloseCode) :
    endpoint.KeepsReading (endpoint.close code).1.calls.toList (endpoint.close code).2 := by
  unfold close
  dsimp only
  split
  · exact endpoint.keepsReading_write _ _
  · exact endpoint.keepsReading_refl

/-! ## Reading -/

/-- The frame that a read delivers, if it delivers one. -/
def delivered? : Except Error (Option Frame) → Option Frame
  | .ok frame? => frame?
  | .error _ => none

/-- Whether the decoder of an endpoint that has not failed wants something. -/
def Waits (endpoint : Endpoint) : Prop :=
  endpoint.hasFailed = false → 0 < endpoint.decoder.wanted

/-- Whether an operation that does not fail decodes the octets that its calls bring,
delivers the frames that they lead to, and records nothing. A failure lasts. -/
structure Leads
    (endpoint : Endpoint)
    (frames : List Frame)
    (calls : List Call)
    (next : Endpoint) : Prop where
  lasts : next.hasFailed = false → endpoint.hasFailed = false
  decodes : next.hasFailed = false → 0 < endpoint.decoder.wanted →
    endpoint.decoder.Yields (broughtBy calls) frames next.decoder
  recorded : next.hasFailed = false → next.closeCode? = endpoint.closeCode?

/-- Whether an operation takes the octets that its calls bring off the front of what is
unread, besides. -/
structure Serves
    (endpoint : Endpoint)
    (frames : List Frame)
    (calls : List Call)
    (next : Endpoint) : Prop extends Leads endpoint frames calls next where
  drains : endpoint.Waits →
    broughtBy calls ++ next.channel.inbound.unread = endpoint.channel.inbound.unread

section Leads

variable
    {endpoint next last : Endpoint}
    {frames others : List Frame}
    {calls later : List Call}

theorem Leads.waits (leads : endpoint.Leads frames calls next) (waits : endpoint.Waits) :
    next.Waits := by
  intro reads
  exact (leads.decodes reads (waits (leads.lasts reads))).wanted_pos

/-- The second operation decodes on from where the first one leads, which waits for more
because nothing was refused. -/
theorem Leads.trans
    (first : endpoint.Leads frames calls next)
    (second : next.Leads others later last) :
    endpoint.Leads (frames ++ others) (calls ++ later) last where
  lasts reads := first.lasts (second.lasts reads)
  decodes reads waits := by
    have yields := first.decodes (second.lasts reads) waits
    rw [broughtBy_append]
    exact yields.append (second.decodes reads yields.wanted_pos)
  recorded reads := (second.recorded reads).trans (first.recorded (second.lasts reads))

theorem Serves.trans
    (first : endpoint.Serves frames calls next)
    (second : next.Serves others later last) :
    endpoint.Serves (frames ++ others) (calls ++ later) last where
  toLeads := first.toLeads.trans second.toLeads
  drains waits := by
    rw [broughtBy_append, List.append_assoc, second.drains (first.waits waits)]
    exact first.drains waits

theorem KeepsReading.serves (keeps : endpoint.KeepsReading calls next) :
    endpoint.Serves [] calls next where
  lasts reads := keeps.hasFailed.symm.trans reads
  decodes _ waits := by
    rw [keeps.quiet, keeps.decoder]
    exact Decoder.yields_nil waits
  recorded _ := keeps.closeCode?
  drains _ := by
    rw [keeps.quiet, keeps.inbound]
    rfl

end Leads

theorem serves_refl (endpoint : Endpoint) : endpoint.Serves [] [] endpoint :=
  endpoint.keepsReading_refl.serves

/-- A read that begins has made no calls. -/
theorem tracks_beginRead
    (endpoint : Endpoint)
    (waits : 0 < endpoint.decoder.wanted)
    (ready : Bool) :
    (endpoint.beginRead ready).Tracks endpoint.decoder endpoint.channel.inbound :=
  ⟨waits, Decoder.verdict_nil waits, Reading.modest_nil _, rfl⟩

theorem accounts_read
    (endpoint : Endpoint)
    (waits : 0 < endpoint.decoder.wanted)
    (limit : Option Duration)
    (ready : Bool) :
    ((endpoint.beginRead ready).run endpoint.config limit).Accounts endpoint.decoder
      endpoint.channel.inbound :=
  Reading.accounts_run (endpoint.tracks_beginRead waits ready) endpoint.config limit

/-- A read delivers the frame that its octets lead to. -/
theorem map_snd_ofAnswer
    {ended : Reading.Ended}
    {last : Call}
    {answer : Except Refusal (Parse Frame)}
    (answers : ended.Answers last answer)
    (offset : Nat)
    (next : Decoder) :
    (Decoder.Outcome.ofAnswer offset next answer).deliveries.map Prod.snd =
      (delivered? (ended.answer.mapError ReadFailure.error)).toList := by
  rcases answer with refusal | count | frame
  · rw [answers.2]
    rfl
  · rcases concluded : ended.answer with failure | _ | frame
    · rfl
    · rfl
    · rw [Reading.Ended.Answers, concluded] at answers
      cases Reading.conclusion?_ne_frame _ _ _ answers
  · rw [answers.2]
    rfl

/-- A read that does not fail decodes what its calls bring. -/
theorem yields_of_accounts
    {start : Decoder}
    {source : Inbound}
    {ended : Reading.Ended}
    (accounts : ended.Accounts start source)
    {frame? : Option Frame}
    (answered : ended.answer = .ok frame?) :
    start.Yields (broughtBy ended.calls.toList) frame?.toList ended.decoder := by
  obtain ⟨earlier, last, answer, -, comes, answers⟩ := accounts.comes
  intro offset
  have frames := map_snd_ofAnswer answers (offset + (broughtBy ended.calls.toList).length)
    ended.decoder
  rw [answered] at frames
  rw [Decoder.decodeFrom_of_whole comes]
  refine ⟨frames, ?_, Decoder.Outcome.decoder_ofAnswer _ _ _⟩
  rcases answer with refusal | count | frame
  · cases answered.symm.trans answers.2
  · rfl
  · rfl

/-- A read takes what it decodes off the front of what is unread, whether it fails or not. -/
theorem serves_read
    (endpoint : Endpoint)
    (limit : Option Duration)
    (ready : Bool) :
    endpoint.Serves (delivered? (endpoint.read limit ready).1.answer).toList
      (endpoint.read limit ready).1.calls.toList (endpoint.read limit ready).2 := by
  cases failed : endpoint.hasFailed with
  | true =>
      rw [read, if_pos failed]
      exact endpoint.serves_refl
  | false =>
      rw [read_of_not_hasFailed failed]
      dsimp only
      have accounts := fun waits => endpoint.accounts_read waits limit ready
      generalize (endpoint.beginRead ready).run endpoint.config limit = ended at accounts ⊢
      -- Octets are accounted for even if the read fails, for what they lead to is not asked.
      have drains : endpoint.Waits →
          broughtBy ended.calls.toList ++ (endpoint.afterRead ended).channel.inbound.unread =
            endpoint.channel.inbound.unread := by
        intro waits
        rw [inbound_afterRead]
        exact (accounts (waits failed)).unread
      cases answered : ended.answer with
      | error failure =>
          have next := endpoint.afterRead_of_error answered
          refine { lasts := ?_, decodes := ?_, recorded := ?_, drains }
          all_goals
            intro reads
            rw [next] at reads
            cases reads
      | ok frame? =>
          have next := endpoint.afterRead_of_ok answered
          refine { lasts := fun _ => failed, decodes := ?_, recorded := ?_, drains }
          · intro _ waits
            rw [next]
            exact yields_of_accounts (accounts waits) answered
          · intro _
            rw [next]

/-- The frames that reads deliver, in order. -/
def framesOf (reports : Array (Report (Option Frame))) : List Frame :=
  (reports.map Report.answer).toList.filterMap delivered?

/-- The calls that reads make, in order. -/
def callsOf (reports : Array (Report (Option Frame))) : List Call :=
  (reports.flatMap Report.calls).toList

theorem framesOf_push (reports : Array (Report (Option Frame))) (report : Report _) :
    framesOf (reports.push report) =
      framesOf reports ++ (delivered? report.answer).toList := by
  rw [framesOf, Array.map_push, Array.toList_push, List.filterMap_append]
  rfl

theorem callsOf_push (reports : Array (Report (Option Frame))) (report : Report _) :
    callsOf (reports.push report) = callsOf reports ++ report.calls.toList := by
  simp [callsOf]

section ReadAll

variable
    {endpoint next : Endpoint}
    {limit : Option Duration}
    {ready : Bool}
    {report : Report (Option Frame)}

theorem readAllFrom_of_frame
    {frame : Frame}
    (result : endpoint.read limit ready = (report, next))
    (delivered : report.answer = .ok (some frame))
    (reports : Array (Report (Option Frame))) :
    endpoint.readAllFrom limit ready reports =
      next.readAllFrom limit ready (reports.push report) := by
  rw [readAllFrom]
  split
  rename_i report' next' result'
  cases result'.symm.trans result
  split
  · rfl
  · rename_i other
    exact absurd delivered (other frame)

theorem readAllFrom_of_end
    (result : endpoint.read limit ready = (report, next))
    (nothing : ∀ frame, report.answer ≠ .ok (some frame))
    (reports : Array (Report (Option Frame))) :
    endpoint.readAllFrom limit ready reports = (reports.push report, next) := by
  rw [readAllFrom]
  split
  rename_i report' next' result'
  cases result'.symm.trans result
  split
  · rename_i frame delivered
    exact absurd delivered (nothing frame)
  · rfl

end ReadAll

/-- Reads that follow each other serve together, behind those that were made already. -/
theorem serves_readAllFrom
    {start endpoint : Endpoint}
    {reports : Array (Report (Option Frame))}
    (serves : start.Serves (framesOf reports) (callsOf reports) endpoint)
    (limit : Option Duration)
    (ready : Bool) :
    start.Serves (framesOf (endpoint.readAllFrom limit ready reports).1)
      (callsOf (endpoint.readAllFrom limit ready reports).1)
      (endpoint.readAllFrom limit ready reports).2 := by
  have more : ∀ (endpoint next : Endpoint) reports report,
      start.Serves (framesOf reports) (callsOf reports) endpoint →
      endpoint.read limit ready = (report, next) →
      start.Serves (framesOf (reports.push report)) (callsOf (reports.push report)) next := by
    intro endpoint next reports report serves result
    have read := endpoint.serves_read limit ready
    rw [result] at read
    rw [framesOf_push, callsOf_push]
    exact serves.trans read
  induction endpoint, reports using readAllFrom.induct limit ready with
  | case1 endpoint reports report next result frame delivered _ inductionHypothesis =>
      rw [readAllFrom_of_frame result delivered]
      exact inductionHypothesis (more endpoint next reports report serves result)
  | case2 endpoint reports report next result nothing =>
      rw [readAllFrom_of_end result nothing]
      exact more endpoint next reports report serves result

end Endpoint

/-! ## Commands -/

/-- The frames that an answer delivers, in order. -/
def Answer.frames : Answer → List Frame
  | .read result => (Endpoint.delivered? result).toList
  | .readAll results => results.filterMap Endpoint.delivered?
  | .done _ => []

/-- Whether a command lets the channel bring more. -/
def Command.delivers : Command → Bool
  | .deliver _ _ _ => true
  | _ => false

namespace Endpoint

/-- What commands come to: the frames that they deliver and the calls that they make, in
order, and the endpoint behind them. -/
structure Run where
  frames : List Frame
  calls : List Call
  endpoint : Endpoint

/-- Carry commands out, one after the other. -/
def runEach (endpoint : Endpoint) : List Command → Run
  | [] => ⟨[], [], endpoint⟩
  | command :: later =>
      let (answer, _, calls, next) := Session.carryOut endpoint command
      let run := next.runEach later
      ⟨answer.frames ++ run.frames, calls.toList ++ run.calls, run.endpoint⟩

/-- A session reaches the endpoint behind its commands. -/
theorem endpoint_performAllFrom
    (session : Session)
    (responses : Array Response)
    (commands : List Command) :
    (session.performAllFrom responses commands).2.endpoint =
      (session.endpoint.runEach commands).endpoint := by
  induction commands generalizing session responses with
  | nil => rfl
  | cons command later inductionHypothesis =>
      rw [Session.performAllFrom]
      exact inductionHypothesis _ _

/-- A command that does not let the channel bring more takes what its calls bring off the
front of what is unread. -/
theorem serves_carryOut
    (endpoint : Endpoint)
    {command : Command}
    (steady : command.delivers = false) :
    let (answer, _, calls, next) := Session.carryOut endpoint command
    endpoint.Serves answer.frames calls.toList next := by
  cases command with
  | read limit ready => exact endpoint.serves_read limit ready
  | readAll limit ready =>
      have fresh : endpoint.Serves (framesOf #[]) (callsOf #[]) endpoint := by
        simpa [framesOf, callsOf] using endpoint.serves_refl
      exact serves_readAllFrom fresh limit ready
  | write opcode payload => exact (endpoint.keepsReading_write opcode payload).serves
  | close code => exact (endpoint.keepsReading_close code).serves
  | deliver arrivals readiness acceptances => cases steady
  | setThreshold threshold => exact endpoint.serves_refl

theorem leads_carryOut (endpoint : Endpoint) (command : Command) :
    let (answer, _, calls, next) := Session.carryOut endpoint command
    endpoint.Leads answer.frames calls.toList next := by
  cases delivers : command.delivers with
  | false => exact (endpoint.serves_carryOut delivers).toLeads
  | true =>
      cases command with
      | deliver arrivals readiness acceptances =>
          exact ⟨id, fun _ waits => Decoder.yields_nil waits, fun _ => rfl⟩
      | _ => cases delivers

/-- Whatever its user asks for, an endpoint that has not failed has decoded the octets that
its calls brought. -/
theorem leads_runEach (endpoint : Endpoint) (commands : List Command) :
    let run := endpoint.runEach commands
    endpoint.Leads run.frames run.calls run.endpoint := by
  induction commands generalizing endpoint with
  | nil => exact endpoint.serves_refl.toLeads
  | cons command later inductionHypothesis =>
      exact (endpoint.leads_carryOut command).trans (inductionHypothesis _)

/-- Commands that do not let the channel bring more take what their calls bring off the
front of what is unread. -/
theorem serves_runEach
    (endpoint : Endpoint)
    {commands : List Command}
    (steady : ∀ command ∈ commands, command.delivers = false) :
    let run := endpoint.runEach commands
    endpoint.Serves run.frames run.calls run.endpoint := by
  induction commands generalizing endpoint with
  | nil => exact endpoint.serves_refl
  | cons command later inductionHypothesis =>
      refine (endpoint.serves_carryOut (steady command List.mem_cons_self)).trans ?_
      exact inductionHypothesis _ fun other member =>
        steady other (List.mem_cons_of_mem _ member)

/-! ## The read behind a run -/

/-- The octets that the calls of a run, and those of a read behind it, have brought. -/
def takenBy (run : Run) (report : Report (Option Frame)) : List UInt8 :=
  broughtBy run.calls ++ broughtBy report.calls.toList

/-- Behind commands of which none failed, a new endpoint has decoded what their calls
brought, and has recorded no close code. -/
theorem yields_runEach
    {role : Role}
    {config : Config}
    {channel : Channel}
    {keys : KeySupply}
    {memory : Memory}
    {commands : List Command}
    {run : Run}
    (ran : (new role config channel keys memory).runEach commands = run)
    (reads : run.endpoint.hasFailed = false) :
    (Decoder.new role config.maxPayloadLength memory).Yields (broughtBy run.calls) run.frames
        run.endpoint.decoder ∧
      run.endpoint.closeCode? = none := by
  have leads := (new role config channel keys memory).leads_runEach commands
  rw [ran] at leads
  exact ⟨leads.decodes reads Nat.one_pos, leads.recorded reads⟩

/-- A read behind a run that has not failed reports what it comes to, and accounts for its
calls. -/
theorem accounts_of_read
    {endpoint next : Endpoint}
    {limit : Option Duration}
    {ready : Bool}
    {report : Report (Option Frame)}
    (result : endpoint.read limit ready = (report, next))
    (reads : endpoint.hasFailed = false)
    (waits : 0 < endpoint.decoder.wanted) :
    ∃ ended : Reading.Ended,
      ended.Accounts endpoint.decoder endpoint.channel.inbound ∧
        report.calls = ended.calls ∧
        report.answer = ended.answer.mapError ReadFailure.error ∧
        next = endpoint.afterRead ended := by
  rw [read_of_not_hasFailed reads] at result
  obtain ⟨rfl, rfl⟩ := Prod.mk.inj result
  exact ⟨_, endpoint.accounts_read waits limit ready, rfl, rfl, rfl⟩

end Endpoint
end WebSocket
