import WebSocket.Proofs.Decoder.Progress
import WebSocket.Proofs.Decoder.Refusals
import WebSocket.Proofs.Endpoint.Sides
import WebSocket.Proofs.Endpoint.Taking

/-!
# The first read that fails

An endpoint has no close code until a read fails. The first read that fails is the last one
that looks at the channel or at the decoder, and the close code that it leaves behind is
there to stay. Writing goes on as if nothing had happened.
-/

namespace WebSocket
namespace Endpoint

open Grammar

/-! ## Requests as commands -/

/-- The command that a request is. -/
def Request.command : Request → Command
  | .read limit ready => .read limit ready
  | .submit (.write opcode payload) => .write opcode payload
  | .submit (.close code) => .close code

/-- The frames, the calls and the endpoint that requests come to are those that their
commands come to. -/
theorem runEach_command (endpoint : Endpoint) (requests : List Request) :
    endpoint.runEach (requests.map Request.command) =
      { frames := (endpoint.serveEach requests).1.filterMap Reply.frame?
        calls := (endpoint.serveEach requests).1.flatMap Reply.calls
        endpoint := (endpoint.serveEach requests).2 } := by
  induction requests generalizing endpoint with
  | nil => rfl
  | cons request later inductionHypothesis =>
      cases request with
      | read limit ready =>
          have others := inductionHypothesis (endpoint.read limit ready).2
          rw [List.map_cons, runEach, serveEach_cons]
          cases delivered : delivered? (endpoint.read limit ready).1.answer <;>
            simp [Request.command, Session.carryOut, Answer.frames, serve, Reply.frame?,
              Reply.calls, others, delivered]
      | submit submission =>
          have others := inductionHypothesis (endpoint.submit submission).2
          have first : endpoint.runEach
              ((Request.submit submission).command :: later.map Request.command) =
                let run := (endpoint.submit submission).2.runEach (later.map Request.command)
                { run with
                  calls := (endpoint.submit submission).1.calls.toList ++ run.calls } := by
            cases submission <;> rfl
          rw [List.map_cons, first, others, serveEach_cons, serve]
          rfl

/-- An endpoint has failed behind a request exactly if that was a read that failed. -/
theorem hasFailed_serve
    {endpoint : Endpoint}
    (reads : endpoint.hasFailed = false)
    (request : Request) :
    (endpoint.serve request).2.hasFailed = (endpoint.serve request).1.isFailedRead := by
  cases request with
  | read limit ready =>
      rw [serve, read_of_not_hasFailed reads]
      dsimp only [Reply.isFailedRead]
      generalize (endpoint.beginRead ready).run endpoint.config limit = ended
      cases answered : ended.answer with
      | error failure =>
          rw [afterRead_of_error endpoint answered]
          rfl
      | ok frame? =>
          rw [afterRead_of_ok endpoint answered]
          exact reads
  | submit submission =>
      exact (endpoint.keepsReading_submit submission).hasFailed.trans reads

theorem hasFailed_serveEach
    {endpoint : Endpoint}
    (reads : endpoint.hasFailed = false)
    {requests : List Request}
    (unfailed : ∀ reply ∈ (endpoint.serveEach requests).1, reply.isFailedRead = false) :
    (endpoint.serveEach requests).2.hasFailed = false := by
  induction requests generalizing endpoint with
  | nil => exact reads
  | cons request later inductionHypothesis =>
      rw [serveEach_cons] at unfailed ⊢
      obtain ⟨first, unfailedThen⟩ := List.forall_mem_cons.mp unfailed
      exact inductionHypothesis ((hasFailed_serve reads request).trans first) unfailedThen

/-! ## The close code -/

/-- Whether a call fails with the given error, and not only with an interruption of a read. -/
def FailsWith (error : IoError) : Call → Prop
  | .poll _ answer => answer = .error error
  | .read _ answer => answer = .error error ∧ error.isInterruption = false
  | .write _ _ => False

/-- The errors of reads that fail, each with the close code that is recorded for it, given
whether a frame or message has begun and the last call that was made. -/
inductive Records (isOpen : Bool) (last : Call) : Error → Option CloseCode → Prop
  | violation (violation : ProtocolError) :
      Records isOpen last (.protocol violation) (some .protocolError)
  | tooLong (size maximum : Nat) :
      Records isOpen last (.messageTooLong size maximum) (some .messageTooBig)
  | outOfMemory (size : Nat) :
      Records isOpen last (.outOfMemory size) (some .internalError)
  | channel
      {error : IoError}
      (fails : FailsWith error last) :
      Records isOpen last (.io error) (if isOpen then some .protocolError else none)
  | closed : Records isOpen last .connectionClosed none

/-- A refusal of the decoder is recorded by its own close code. -/
theorem records_of_callsForClose
    {refusal : Refusal}
    (calls : refusal.CallsForClose)
    (isOpen : Bool)
    (last : Call) :
    Records isOpen last refusal.error
      (ReadFailure.closeCode? { error := refusal.error, midFrame := true }) := by
  unfold Refusal.CallsForClose at calls
  generalize refusal.error = error at calls ⊢
  cases error with
  | protocol violation => exact .violation violation
  | messageTooLong size maximum => exact .tooLong size maximum
  | outOfMemory size => exact .outOfMemory size
  | connectionClosed => cases calls
  | alreadyClosed => cases calls
  | io error => cases calls
  | invalidCloseCode value => cases calls
  | invalidText => cases calls

/-- What a call without octets leads to is recorded by what the decoder has begun. -/
theorem records_of_conclusion?
    {decoder : Decoder}
    {last : Call}
    {failure : ReadFailure}
    (concludes : Reading.conclusion? decoder last = some (.error failure)) :
    Records decoder.inProgress last failure.error failure.closeCode? := by
  -- A failure of the channel calls for a close code only if something has begun.
  have channel : ∀ error, FailsWith error last →
      Records decoder.inProgress last (.io error)
        (ReadFailure.closeCode? { error := .io error, midFrame := decoder.inProgress }) :=
    fun error fails => .channel fails
  rcases last with ⟨size, error | _ | ⟨octet, octets⟩⟩ | ⟨offered, answer⟩ |
    ⟨wait, error | _ | _⟩
  · cases interrupts : error.isInterruption with
    | true =>
        rw [Reading.conclusion?, if_pos interrupts] at concludes
        cases concludes
    | false =>
        rw [Reading.conclusion?, if_neg (by simp [interrupts])] at concludes
        cases concludes
        exact channel error ⟨rfl, interrupts⟩
  · cases concludes
    unfold Reading.endOfStream
    split
    · exact .violation .incompleteFrame
    · exact .closed
  · cases concludes
  · cases concludes
  · cases concludes
    exact channel error rfl
  · rw [Reading.conclusion?] at concludes
    split at concludes
    · cases concludes
      exact .violation .incompleteFrame
    · cases concludes
  · cases concludes

/-- A read that fails behind octets that were accepted calls for the close code that is
recorded for its error. -/
theorem records_of_accounts
    {role : Role}
    {limit : Nat}
    {memory : Memory}
    {taken : List UInt8}
    {frames : List Frame}
    {start : Decoder}
    (yields : (Decoder.new role limit memory).Yields taken frames start)
    {source : Inbound}
    {ended : Reading.Ended}
    (accounts : ended.Accounts start source)
    {failure : ReadFailure}
    (fails : ended.answer = .error failure) :
    ∃ earlier last, ended.calls.toList = earlier ++ [last] ∧
      Records
        (transcript role limit memory none 0
          (taken ++ broughtBy ended.calls.toList)).ending.isOpen
        last failure.error failure.closeCode? := by
  obtain ⟨earlier, last, answer, made, comes, answers⟩ := accounts.comes
  refine ⟨earlier, last, made, ?_⟩
  rcases answer with refusal | count | frame
  · cases fails.symm.trans answers.2
    have refused := congrArg Decoder.Verdict.answer comes
    exact records_of_callsForClose (Decoder.callsForClose_of_refused refused) _ last
  · have reached := yields.append (Decoder.yields_of_needMore comes)
    rw [← reached.inProgress_eq]
    rw [Reading.Ended.Answers, fails] at answers
    exact records_of_conclusion? answers
  · cases fails.symm.trans answers.2

/-! ## Behind a failure -/

/-- The reply to a read behind one that failed: an error, and no call on the channel. -/
def closedReply : Reply :=
  .read { answer := .error .alreadyClosed, events := #[.readAfterFailure] }

/-- Whether requests were served with reading over and done with. -/
structure Latched (endpoint : Endpoint) (served : List Reply × Endpoint) : Prop where
  reads : ∀ reply ∈ readReplies served.1, reply = closedReply
  decoder : served.2.decoder = endpoint.decoder
  inbound : served.2.channel.inbound = endpoint.channel.inbound
  closeCode? : served.2.closeCode? = endpoint.closeCode?

/-- Whether submissions get the same replies and leave the same wire and the same keys
behind. -/
structure WritesAlike (served served' : List Reply × Endpoint) : Prop where
  replies : submissionReplies served.1 = submissionReplies served'.1
  outbound : served.2.channel.outbound = served'.2.channel.outbound
  keys : served.2.keys = served'.2.keys

theorem serveEach_readsOf_of_hasFailed
    {endpoint : Endpoint}
    (failed : endpoint.hasFailed = true)
    (requests : List Request) :
    endpoint.serveEach (readsOf requests) =
      ((readsOf requests).map fun _ => closedReply, endpoint) := by
  induction requests with
  | nil => rfl
  | cons request later inductionHypothesis =>
      cases request with
      | read limit ready =>
          have first : endpoint.serve (.read limit ready) = (closedReply, endpoint) := by
            rw [serve, read, if_pos failed]
            rfl
          rw [readsOf_read, serveEach_cons, first, inductionHypothesis]
          rfl
      | submit submission => exact inductionHypothesis

theorem latched_of_hasFailed
    {endpoint : Endpoint}
    (failed : endpoint.hasFailed = true)
    (requests : List Request) :
    Latched endpoint (endpoint.serveEach requests) := by
  obtain ⟨reads, -, last⟩ := endpoint.serveEach_writingAs endpoint requests
  rw [writingAs_self, serveEach_readsOf_of_hasFailed failed requests] at reads last
  constructor
  · intro reply member
    rw [reads] at member
    obtain ⟨request, -, rfl⟩ := List.mem_map.mp member
    rfl
  all_goals
    rw [last]
    rfl

/-- Submissions do not tell endpoints apart that differ in their reading sides. -/
theorem writesAlike_writingAs (reader other writer : Endpoint) (requests : List Request) :
    WritesAlike ((reader.writingAs writer).serveEach requests)
      ((other.writingAs writer).serveEach requests) := by
  obtain ⟨-, replies, last⟩ := reader.serveEach_writingAs writer requests
  obtain ⟨-, replies', last'⟩ := other.serveEach_writingAs writer requests
  constructor
  · exact replies.trans replies'.symm
  · rw [last, last']
    rfl
  · rw [last, last']
    rfl

/-- No close code is recorded up to the first read that fails, whatever reads and
submissions come before it and whether the submissions fail or not. That read records the
code that its error calls for, where a failure of the channel calls for one exactly if a
frame or message has begun by then. From then on every read answers that reading is over,
without a call on the channel, and neither the decoder nor the close code changes again.
Submissions go on as if that read had come to anything else, such as a frame. -/
theorem read_latches
    (role : Role)
    (config : Config)
    (channel : Channel)
    (keys : KeySupply)
    (memory : Memory)
    {requests : List Request}
    (unfailed : ∀ reply ∈ ((new role config channel keys memory).serveEach requests).1,
      reply.isFailedRead = false)
    (limit : Option Duration)
    (ready : Bool) :
    let (replies, before) := (new role config channel keys memory).serveEach requests
    let (report, after) := before.read limit ready
    let taken := broughtBy (replies.flatMap Reply.calls) ++ broughtBy report.calls.toList
    let meaning := transcript role config.maxPayloadLength memory none 0 taken
    before.closeCode? = none ∧
      (∀ frame?, report.answer = .ok frame? → after.closeCode? = none) ∧
      ∀ error, report.answer = .error error →
        (∃ earlier last, report.calls.toList = earlier ++ [last] ∧
          Records meaning.ending.isOpen last error after.closeCode?) ∧
        ∀ later,
          Latched after (after.serveEach later) ∧
          ∀ ended, WritesAlike (after.serveEach later)
            ((before.afterRead ended).serveEach later) := by
  have reads := hasFailed_serveEach rfl unfailed
  have ran := (new role config channel keys memory).runEach_command requests
  obtain ⟨yields, unrecorded⟩ := yields_runEach ran reads
  generalize (new role config channel keys memory).serveEach requests = served at *
  obtain ⟨replies, before⟩ := served
  dsimp only at reads yields unrecorded ⊢
  rcases result : before.read limit ready with ⟨report, after⟩
  obtain ⟨ended, accounts, calls, answered, rfl⟩ :=
    accounts_of_read result reads yields.wanted_pos
  dsimp only
  rw [calls, answered]
  refine ⟨unrecorded, ?_, ?_⟩
  · intro frame? delivers
    rw [before.afterRead_of_ok (ok_of_mapError delivers)]
    exact unrecorded
  · intro error fails
    obtain ⟨failure, failed, rfl⟩ := error_of_mapError fails
    have next := before.afterRead_of_error failed
    have recorded : (before.afterRead ended).closeCode? = failure.closeCode? := by
      rw [next]
      dsimp only
      rw [unrecorded, Option.or_none]
    rw [recorded]
    refine ⟨records_of_accounts yields accounts failed, ?_⟩
    intro later
    refine ⟨latched_of_hasFailed (by rw [next]) later, ?_⟩
    intro other
    rw [before.afterRead_eq_writingAs ended, before.afterRead_eq_writingAs other]
    exact writesAlike_writingAs _ _ before later

/-- A client whose message stops in the middle reads a ping. The channel fails in the middle
of the frame behind it, and the close frame that follows is sent all the same. -/
theorem read_latches_fault_in_frame :
    let reset : IoError := ⟨.connectionReset, "reset"⟩
    let channel : Channel :=
      { inbound := { arrivals := [.octets [0x89, 0x00, 0x82, 0x02, 0x61], .fault reset] }
        outbound := { answers := [.upTo 3, .fault ⟨.wouldBlock, "full"⟩] } }
    let requests : List Request :=
      [.submit (.write (.data .text) [0x62]), .read none true]
    let later : List Request := [.read none true, .submit (.close .normal), .read none false]
    let (replies, before) :=
      (new .client {} channel (.ofArray #[] ⟨5, 6, 7, 8⟩)).serveEach requests
    let (report, after) := before.read none false
    (∀ reply ∈ replies, reply.isFailedRead = false) ∧
      before.closeCode? = none ∧
      report.answer.isOk = false ∧
      after.closeCode? = some .protocolError ∧
      Latched after (after.serveEach later) ∧
      (after.serveEach later).2.channel.outbound.wire =
        after.channel.outbound.wire ++ #[0x88, 0x82, 5, 6, 7, 8, 0x06, 0xee] := by
  intro reset channel requests later
  have unfailed : ∀ reply ∈
      ((new .client {} channel (.ofArray #[] ⟨5, 6, 7, 8⟩)).serveEach requests).1,
      reply.isFailedRead = false := by
    decide +kernel
  obtain ⟨unrecorded, -, failure⟩ :=
    read_latches .client {} channel (.ofArray #[] ⟨5, 6, 7, 8⟩) .standard unfailed none false
  have fails : (((new .client {} channel (.ofArray #[] ⟨5, 6, 7, 8⟩)).serveEach
      requests).2.read none false).1.answer.isOk = false := by
    decide +kernel
  refine ⟨unfailed, unrecorded, fails, by decide +kernel, ?_, by decide +kernel⟩
  cases answered : (((new .client {} channel (.ofArray #[] ⟨5, 6, 7, 8⟩)).serveEach
      requests).2.read none false).1.answer with
  | ok frame? =>
      rw [answered] at fails
      cases fails
  | error error => exact ((failure error answered).2 later).1

end Endpoint
end WebSocket
