import WebSocket.Proofs.Decoder.Progress
import WebSocket.Proofs.Endpoint.Sides
import WebSocket.Proofs.Endpoint.Taking

/-!
# How long reads wait

A read waits before it reads, but for a first time that its caller vouches for. It waits as
long as its caller likes only while nothing has begun, so it comes back without a frame only
if it has taken nothing, and then it leaves everything as it was.
-/

namespace WebSocket

open Grammar

/-! ## The calls of a pass -/

namespace Reading

/-- How long a read waits: as long as its caller likes, unless something is in progress. -/
def patience (decoder : Decoder) (config : Config) (limit : Option Duration) :
    Option Duration :=
  if decoder.inProgress then some config.frameTimeout else limit

/-- The calls that a pass may make. -/
inductive Makes (reading : Reading) (config : Config) (limit : Option Duration) :
    List Call → Prop
  | reads
      (ready : reading.ready = true)
      (size : Nat)
      (answer : Except IoError (List UInt8)) :
      Makes reading config limit [.read size answer]
  | polls
      (unready : reading.ready = false)
      (answer : Except IoError Bool) :
      Makes reading config limit [.poll (patience reading.decoder config limit) answer]
  | pollsAndReads
      (unready : reading.ready = false)
      (size : Nat)
      (answer : Except IoError (List UInt8)) :
      Makes reading config limit
        [.poll (patience reading.decoder config limit) (.ok true), .read size answer]

/-- Whether the given calls have been made by the end of a pass, none of them by a read that
is ready for another one at once. -/
def Step.HasMade (calls : List Call) : Step → Prop
  | .finished ended => ended.calls.toList = calls
  | .again next => next.calls.toList = calls ∧ next.ready = false

variable {reading : Reading}

theorem hasMade_decode
    (spent : reading.ready = false)
    (octets : List UInt8) :
    (reading.decode octets).HasMade reading.calls.toList := by
  unfold decode
  dsimp only
  split
  · rfl
  · exact ⟨rfl, spent⟩
  · rfl

theorem hasMade_receive (reading : Reading) (config : Config) :
    ∃ size answer,
      (reading.receive config).HasMade (reading.calls.toList ++ [.read size answer]) := by
  refine ⟨min reading.decoder.wanted config.chunkSize,
    (reading.inbound.read (min reading.decoder.wanted config.chunkSize)).1, ?_⟩
  rw [← Array.toList_push]
  unfold receive
  dsimp only
  split
  · split <;> rfl
  · exact hasMade_decode rfl _
  · split
    · exact ⟨rfl, rfl⟩
    · rfl

/-- A pass makes a poll and then a read, but for a read at once when it is ready. -/
theorem makes_pass (reading : Reading) (config : Config) (limit : Option Duration) :
    ∃ made, Makes reading config limit made ∧
      (reading.pass config limit).HasMade (reading.calls.toList ++ made) := by
  cases ready : reading.ready with
  | true =>
      obtain ⟨size, answer, made⟩ := reading.hasMade_receive config
      rw [pass, if_pos ready]
      exact ⟨_, .reads ready size answer, made⟩
  | false =>
      rw [pass, if_neg (Bool.eq_false_iff.mp ready)]
      dsimp only
      rcases answered : reading.inbound.poll with ⟨error | _ | _, inbound⟩
      · exact ⟨_, .polls ready _, Array.toList_push⟩
      · refine ⟨_, .polls ready (.ok false), ?_⟩
        unfold patience
        dsimp only
        split <;> exact Array.toList_push
      · obtain ⟨size, answer, made⟩ := hasMade_receive
          { reading with
            inbound
            calls := reading.calls.push
              (.poll (patience reading.decoder config limit) (.ok true)) }
          config
        refine ⟨_, .pollsAndReads ready size answer, ?_⟩
        rw [Array.toList_push, List.append_assoc] at made
        exact made

/-! ## The calls of a read -/

/-- Whether a call is due from a read that waits up to a time limit, behind the calls that it
has made: a first read from the channel if that is known to be ready, another one right behind
a poll that told of something to read, or a poll that waits as long as its decoder allows. -/
def IsDue
    (start : Decoder)
    (config : Config)
    (limit : Option Duration)
    (ready : Bool)
    (before : List Call) : Call → Prop
  | .read _ _ =>
      (before = [] ∧ ready = true) ∨ ∃ earlier wait, before = earlier ++ [.poll wait (.ok true)]
  | .poll wait _ =>
      (before = [] → ready = false) ∧
        ∃ decoder count,
          start.verdict (broughtBy before) = ⟨decoder, [], .ok (.needMore count)⟩ ∧
            wait = patience decoder config limit
  | .write _ _ => False

section Due

variable
    {start : Decoder}
    {source : Inbound}
    {config : Config}
    {limit : Option Duration}
    {ready : Bool}
    {calls made : List Call}

theorem Makes.ne_nil (makes : reading.Makes config limit made) : made ≠ [] := by
  cases makes <;> exact List.cons_ne_nil _ _

/-- Whatever calls a pass makes are due. -/
theorem each_due_of_makes
    (tracks : reading.Tracks start source)
    (each : Each (IsDue start config limit ready) reading.calls.toList)
    (spent : reading.ready = (reading.calls.toList.isEmpty && ready))
    (makes : reading.Makes config limit made) :
    Each (IsDue start config limit ready) (reading.calls.toList ++ made) := by
  have polls : reading.ready = false → ∀ answer,
      IsDue start config limit ready reading.calls.toList
        (.poll (patience reading.decoder config limit) answer) := by
    intro unready answer
    refine ⟨?_, _, _, tracks.comes, rfl⟩
    intro first
    rw [unready, first] at spent
    exact spent.symm
  cases makes with
  | reads atOnce size answer =>
      rw [atOnce] at spent
      obtain ⟨first, vouched⟩ := Bool.and_eq_true_iff.mp spent.symm
      exact each.append (.inl ⟨List.isEmpty_iff.mp first, vouched⟩)
  | polls unready answer => exact each.append (polls unready answer)
  | pollsAndReads unready size answer =>
      have polled := each.append (polls unready (.ok true))
      have reads : IsDue start config limit ready
          (reading.calls.toList ++ [.poll (patience reading.decoder config limit) (.ok true)])
          (.read size answer) :=
        .inr ⟨_, _, rfl⟩
      have both := polled.append reads
      rwa [List.append_assoc] at both

/-- Every call of a read is due. -/
theorem each_due_run
    (tracks : reading.Tracks start source)
    (each : Each (IsDue start config limit ready) reading.calls.toList)
    (spent : reading.ready = (reading.calls.toList.isEmpty && ready)) :
    Each (IsDue start config limit ready) (reading.run config limit).calls.toList := by
  fun_induction run reading config limit with
  | case1 reading ended step =>
      obtain ⟨made, makes, hasMade⟩ := reading.makes_pass config limit
      rw [step] at hasMade
      rw [show ended.calls.toList = _ from hasMade]
      exact each_due_of_makes tracks each spent makes
  | case2 reading next step shorter inductionHypothesis =>
      obtain ⟨made, makes, hasMade, unready⟩ := by
        have makes := reading.makes_pass config limit
        rwa [step] at makes
      have accounts := accounts_pass tracks config limit
      rw [step] at accounts
      have later := each_due_of_makes tracks each spent makes
      rw [← hasMade] at later
      refine inductionHypothesis accounts later ?_
      have some : next.calls.toList ≠ [] := by
        rw [hasMade]
        exact List.append_ne_nil_of_right_ne_nil _ makes.ne_nil
      rw [unready, List.isEmpty_eq_false_iff.mpr some, Bool.false_and]

end Due

/-- A read that comes back without a frame or a failure has fed nothing to its decoder, which
has nothing in progress. -/
theorem Ended.Accounts.nothing
    {role : Role}
    {limit : Nat}
    {memory : Memory}
    {taken : List UInt8}
    {frames : List Frame}
    {start : Decoder}
    (yields : (Decoder.new role limit memory).Yields taken frames start)
    {source : Inbound}
    {ended : Ended}
    (accounts : ended.Accounts start source)
    (nothing : ended.answer = .ok none) :
    broughtBy ended.calls.toList = [] ∧ start.inProgress = false ∧ ended.decoder = start := by
  obtain ⟨earlier, last, answer, -, comes, answers⟩ := accounts.comes
  rcases answer with refusal | count | frame
  · cases nothing.symm.trans answers.2
  · rw [Answers, nothing] at answers
    have idle : ended.decoder.inProgress = false := by
      unfold conclusion? at answers
      split at answers <;> first
        | cases answers
        | (split at answers <;> cases answers)
      rename_i idle
      exact Bool.eq_false_iff.mpr idle
    have empty : broughtBy ended.calls.toList = [] := by
      by_contra begun
      rw [yields.inProgress_of_needMore begun comes] at idle
      cases idle
    rw [empty, Decoder.verdict_nil yields.wanted_pos] at comes
    obtain ⟨rfl, -, -⟩ := Decoder.Verdict.mk.inj comes
    exact ⟨empty, idle, rfl⟩
  · cases nothing.symm.trans answers.2

end Reading

namespace Endpoint

/-! ## Settings -/

theorem config_read (endpoint : Endpoint) (limit : Option Duration) (ready : Bool) :
    (endpoint.read limit ready).2.config = endpoint.config := by
  unfold read
  split
  · rfl
  · dsimp only
    unfold afterRead
    split <;> rfl

theorem config_readAllFrom
    (endpoint : Endpoint)
    (limit : Option Duration)
    (ready : Bool)
    (reports : Array (Report (Option Frame))) :
    (endpoint.readAllFrom limit ready reports).2.config = endpoint.config := by
  induction endpoint, reports using readAllFrom.induct limit ready with
  | case1 endpoint reports report next result frame delivered _ inductionHypothesis =>
      have read := endpoint.config_read limit ready
      rw [result] at read
      rw [readAllFrom_of_frame result delivered]
      exact inductionHypothesis.trans read
  | case2 endpoint reports report next result nothing =>
      have read := endpoint.config_read limit ready
      rw [result] at read
      rw [readAllFrom_of_end result nothing]
      exact read

theorem config_submit (endpoint : Endpoint) (submission : Submission) :
    (endpoint.submit submission).2.config = endpoint.config :=
  congrArg (fun submitted => submitted.2.config) (endpoint.submit_writingAs endpoint submission)

/-- The settings of an endpoint stay as they are. -/
theorem config_runEach (endpoint : Endpoint) (commands : List Command) :
    (endpoint.runEach commands).endpoint.config = endpoint.config := by
  induction commands generalizing endpoint with
  | nil => rfl
  | cons command later inductionHypothesis =>
      refine (inductionHypothesis _).trans ?_
      cases command with
      | read limit ready => exact endpoint.config_read limit ready
      | readAll limit ready => exact endpoint.config_readAllFrom limit ready #[]
      | write opcode payload => exact endpoint.config_submit (.write opcode payload)
      | close code => exact endpoint.config_submit (.close code)
      | deliver arrivals readiness acceptances => rfl
      | setThreshold threshold => rfl

/-! ## Waiting -/

/-- The endpoint with another inbound side of its channel. -/
def withInbound (endpoint : Endpoint) (inbound : Inbound) : Endpoint :=
  { endpoint with channel := { endpoint.channel with inbound } }

/-- Whether a read may begin with a call, given whether the channel is known to be ready. -/
def Begins (ready : Bool) : Call → Prop
  | .read _ _ => ready = true
  | .poll _ _ => ready = false
  | .write _ _ => False

/-- Whether a read behind a run waits as it should, up to the given time limit or at once,
if the run has taken all octets of the stream so far. -/
structure Patient
    (role : Role)
    (config : Config)
    (memory : Memory)
    (run : Run)
    (limit : Option Duration)
    (ready : Bool)
    (report : Report (Option Frame))
    (next : Endpoint) : Prop where
  /-- The first call is a read from the channel if that is known to be ready, and a poll
  otherwise. -/
  begins : ∃ first later, report.calls.toList = first :: later ∧ Begins ready first
  /-- Every other read from the channel comes right behind a poll that told of something to
  read. -/
  reads : ∀ before size answer after,
    report.calls.toList = before ++ .read size answer :: after →
    before = [] ∨ ∃ earlier wait, before = earlier ++ [.poll wait (.ok true)]
  /-- A poll is bounded by the frame timeout if the octets taken by then end within a frame or
  message, and by the time limit otherwise. -/
  waits : ∀ before wait answer after,
    report.calls.toList = before ++ .poll wait answer :: after →
    wait =
      if (transcript role config.maxPayloadLength memory none 0
          (broughtBy run.calls ++ broughtBy before)).ending.isOpen then
        some config.frameTimeout
      else limit
  /-- Behind octets that the read itself has taken, every poll is bounded by the frame
  timeout. -/
  hurries : ∀ before wait answer after,
    report.calls.toList = before ++ .poll wait answer :: after →
    broughtBy before ≠ [] → wait = some config.frameTimeout
  /-- If there is nothing to deliver then no octet was taken, no frame or message was open,
  and the endpoint is the same over what is left of its inbound channel, where just as much
  is unread. -/
  nothing : report.answer = .ok none →
    broughtBy report.calls.toList = [] ∧
      (transcript role config.maxPayloadLength memory none 0
        (broughtBy run.calls)).ending.isOpen = false ∧
      next = run.endpoint.withInbound next.channel.inbound ∧
      next.channel.inbound.unread = run.endpoint.channel.inbound.unread

/-- Without calls ahead of it a read from the channel is due only if that is ready. -/
theorem begins_of_isDue
    {start : Decoder}
    {config : Config}
    {limit : Option Duration}
    {ready : Bool}
    {first : Call}
    (due : Reading.IsDue start config limit ready [] first) :
    Begins ready first := by
  cases first with
  | read size answer =>
      rcases due with ⟨-, vouched⟩ | ⟨earlier, wait, none⟩
      · exact vouched
      · exact absurd none.symm (List.append_ne_nil_of_right_ne_nil _ (List.cons_ne_nil _ _))
  | poll wait answer => exact due.1 rfl
  | write offered answer => exact due

/-- Behind octets that were accepted a poll waits as long as what they lead to allows. -/
theorem wait_of_isDue
    {role : Role}
    {config : Config}
    {memory : Memory}
    {taken : List UInt8}
    {frames : List Frame}
    {start : Decoder}
    (yields : (Decoder.new role config.maxPayloadLength memory).Yields taken frames start)
    {limit wait : Option Duration}
    {ready : Bool}
    {before : List Call}
    {answer : Except IoError Bool}
    (due : Reading.IsDue start config limit ready before (.poll wait answer)) :
    (wait =
      if (transcript role config.maxPayloadLength memory none 0
          (taken ++ broughtBy before)).ending.isOpen then
        some config.frameTimeout
      else limit) ∧
      (broughtBy before ≠ [] → wait = some config.frameTimeout) := by
  obtain ⟨-, decoder, count, comes, rfl⟩ := due
  rw [← (yields.append (Decoder.yields_of_needMore comes)).inProgress_eq]
  refine ⟨rfl, ?_⟩
  intro begun
  exact if_pos (yields.inProgress_of_needMore begun comes)

/-- Behind any run that has not failed a read waits as it should. It begins with a poll,
unless the channel is known to be ready, and each further read from the channel comes right
behind a poll of its own. While nothing has begun it waits as long as its caller likes, and
otherwise no longer than a frame may take. If it comes back with nothing, then it has taken
no octet, nothing was in progress, and neither the decoder nor what was recorded of a failure
has changed, so that a later read goes on as if this one had not been made. -/
theorem patient_read
    {role : Role}
    {config : Config}
    {channel : Channel}
    {keys : KeySupply}
    {memory : Memory}
    {commands : List Command}
    {run : Run}
    (ran : (new role config channel keys memory).runEach commands = run)
    (reads : run.endpoint.hasFailed = false)
    {limit : Option Duration}
    {ready : Bool}
    {report : Report (Option Frame)}
    {next : Endpoint}
    (result : run.endpoint.read limit ready = (report, next)) :
    Patient role config memory run limit ready report next := by
  obtain ⟨yields, -⟩ := yields_runEach ran reads
  have settings := (new role config channel keys memory).config_runEach commands
  rw [ran] at settings
  replace settings : run.endpoint.config = config := settings
  have due : Each (Reading.IsDue run.endpoint.decoder run.endpoint.config limit ready)
      ((run.endpoint.beginRead ready).run run.endpoint.config limit).calls.toList :=
    Reading.each_due_run (run.endpoint.tracks_beginRead yields.wanted_pos ready) (each_nil _)
      rfl
  have accounts := run.endpoint.accounts_read yields.wanted_pos limit ready
  rw [read_of_not_hasFailed reads] at result
  obtain ⟨rfl, rfl⟩ := Prod.mk.inj result
  rw [settings] at due accounts ⊢
  generalize (run.endpoint.beginRead ready).run config limit = ended at due accounts ⊢
  refine { begins := ?_, reads := ?_, waits := ?_, hurries := ?_, nothing := ?_ }
  · obtain ⟨earlier, last, -, made, -⟩ := accounts.comes
    obtain ⟨first, later, whole⟩ :=
      List.exists_cons_of_ne_nil (List.append_ne_nil_of_right_ne_nil earlier
        (List.cons_ne_nil last []))
    refine ⟨first, later, made.trans whole, ?_⟩
    exact begins_of_isDue (due [] first later (made.trans whole))
  · intro before size answer after made
    exact (due before _ after made).imp_left And.left
  · intro before wait answer after made
    exact (wait_of_isDue yields (due before _ after made)).1
  · intro before wait answer after made
    exact (wait_of_isDue yields (due before _ after made)).2
  · intro nothing
    have answered := ok_of_mapError nothing
    obtain ⟨empty, idle, same⟩ := accounts.nothing yields answered
    have unread := accounts.unread
    rw [empty] at unread
    rw [run.endpoint.afterRead_of_ok answered, same]
    exact ⟨empty, yields.inProgress_eq.symm.trans idle, rfl, unread⟩

/-- A client reads a ping at once. Then it is told of octets, is interrupted when it reads
them, and has to wait for the rest until it gives up. -/
theorem patient_read_interrupted :
    let ping : List UInt8 := [0x89, 0x00]
    let pong : List UInt8 := [0x8a, 0x00]
    let inbound : Inbound :=
      { arrivals := [.octets ping, .fault ⟨.interrupted, "interrupted"⟩, .octets pong]
        readiness := .scripted [.ok true, .ok true, .ok false] }
    let run := (new .client {} { inbound } (.ofArray #[] default)).runEach [.read none true]
    let read := run.endpoint.read none false
    run.endpoint.hasFailed = false ∧
      Patient .client {} .standard run none false read.1 read.2 ∧
      (run.frames = [⟨.control .ping, []⟩] ∧ read.1.answer = .ok none) ∧
      read.2 = run.endpoint.withInbound read.2.channel.inbound ∧
      read.2.channel.inbound.arrivals = [.octets pong] := by
  intro ping pong inbound run read
  have reads : run.endpoint.hasFailed = false := by decide +kernel
  have result : run.endpoint.read none false = (read.1, read.2) := rfl
  have patient := patient_read rfl reads result
  have nothing : read.1.answer = .ok none := by decide +kernel
  exact ⟨reads, patient, ⟨by decide +kernel, nothing⟩, (patient.nothing nothing).2.2.1,
    by decide +kernel⟩

end Endpoint
end WebSocket
