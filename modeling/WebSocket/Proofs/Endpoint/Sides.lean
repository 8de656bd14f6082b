import WebSocket.Proofs.Endpoint.Runs
import WebSocket.Proofs.Endpoint.Writes

/-!
# The two sides of an endpoint

Reading and writing share an endpoint and no part of its state. An endpoint that is asked
to read and to write in turn reads as if it only read, and writes as if it only wrote,
whatever fails on either side.
-/

namespace WebSocket
namespace Endpoint

/-! ## Sides -/

/-- A submission leaves the reading side of an endpoint alone. -/
theorem keepsReading_submit (endpoint : Endpoint) (submission : Submission) :
    endpoint.KeepsReading (endpoint.submit submission).1.calls.toList
      (endpoint.submit submission).2 := by
  cases submission with
  | write opcode payload => exact endpoint.keepsReading_write opcode payload
  | close code => exact endpoint.keepsReading_close code

/-- The endpoint that reads as one endpoint does and writes as another one does. -/
def writingAs (reader writer : Endpoint) : Endpoint :=
  { reader with
    role := writer.role
    keys := writer.keys
    channel := { reader.channel with outbound := writer.channel.outbound } }

@[simp] theorem writingAs_self (endpoint : Endpoint) :
    endpoint.writingAs endpoint = endpoint := rfl

@[simp] theorem hasFailed_writingAs (reader writer : Endpoint) :
    (reader.writingAs writer).hasFailed = reader.hasFailed := rfl

section Sides

variable (reader writer : Endpoint)

theorem afterRead_writingAs (ended : Reading.Ended) :
    (reader.writingAs writer).afterRead ended =
      (reader.afterRead ended).writingAs writer := by
  unfold afterRead
  split
  · rfl
  · rfl

/-- What a read leaves behind writes as before. -/
theorem afterRead_eq_writingAs (endpoint : Endpoint) (ended : Reading.Ended) :
    endpoint.afterRead ended = (endpoint.afterRead ended).writingAs endpoint :=
  endpoint.afterRead_writingAs endpoint ended

/-- A read does not look at the writing side. -/
theorem read_writingAs (limit : Option Duration) (ready : Bool) :
    (reader.writingAs writer).read limit ready =
      ((reader.read limit ready).1, (reader.read limit ready).2.writingAs writer) := by
  cases failed : reader.hasFailed with
  | true =>
      rw [read, if_pos ((reader.hasFailed_writingAs writer).trans failed), read,
        if_pos failed]
  | false =>
      rw [read_of_not_hasFailed ((reader.hasFailed_writingAs writer).trans failed),
        read_of_not_hasFailed failed]
      dsimp only
      rw [afterRead_writingAs]
      rfl

/-- A read leaves an endpoint in its role. -/
@[simp] theorem role_read
    (endpoint : Endpoint)
    (limit : Option Duration)
    (ready : Bool) :
    (endpoint.read limit ready).2.role = endpoint.role :=
  congrArg (fun result => result.2.role) (endpoint.read_writingAs endpoint limit ready)

theorem transmit_writingAs (octets : List UInt8) :
    (reader.writingAs writer).transmit octets =
      ((writer.transmit octets).1, reader.writingAs (writer.transmit octets).2) := rfl

theorem transmitPlain_writingAs (opcode : Opcode) (payload : List UInt8) :
    (reader.writingAs writer).transmitPlain opcode payload =
      ((writer.transmitPlain opcode payload).1,
        reader.writingAs (writer.transmitPlain opcode payload).2) := by
  unfold transmitPlain
  dsimp only
  rw [transmit_writingAs]
  dsimp only
  split
  · rfl
  · rfl

theorem transmitMasked_writingAs (opcode : Opcode) (payload : List UInt8) :
    (reader.writingAs writer).transmitMasked opcode payload =
      ((writer.transmitMasked opcode payload).1,
        reader.writingAs (writer.transmitMasked opcode payload).2) := rfl

theorem write_writingAs (opcode : Opcode) (payload : List UInt8) :
    (reader.writingAs writer).write opcode payload =
      ((writer.write opcode payload).1,
        reader.writingAs (writer.write opcode payload).2) := by
  have role : (reader.writingAs writer).role = writer.role := rfl
  unfold write
  split
  · rw [role]
    cases writer.role with
    | server =>
        dsimp only
        rw [transmitPlain_writingAs]
    | client =>
        dsimp only
        rw [transmitMasked_writingAs]
  · rfl

/-- A submission does not look at the reading side. -/
theorem submit_writingAs (submission : Submission) :
    (reader.writingAs writer).submit submission =
      ((writer.submit submission).1, reader.writingAs (writer.submit submission).2) := by
  cases submission with
  | write opcode payload => exact reader.write_writingAs writer opcode payload
  | close code =>
      unfold submit close
      dsimp only
      split
      · rw [write_writingAs]
      · rfl

end Sides

/-! ## Requests -/

/-- Something that the user of an endpoint asks of it. -/
inductive Request
  | read (limit : Option Duration) (ready : Bool)
  | submit (submission : Submission)

/-- Whether a request is for a read. -/
def Request.isRead : Request → Bool
  | .read _ _ => true
  | .submit _ => false

/-- What comes of a request. -/
inductive Reply
  | read (report : Report (Option Frame))
  | submit (report : Report Unit)

namespace Reply

/-- Whether a reply is to a read. -/
def isRead : Reply → Bool
  | .read _ => true
  | .submit _ => false

/-- The frame that a reply delivers, if it delivers one. -/
def frame? : Reply → Option Frame
  | .read report => delivered? report.answer
  | .submit _ => none

/-- The calls that were made for a reply. -/
def calls : Reply → List Call
  | .read report => report.calls.toList
  | .submit report => report.calls.toList

/-- Whether a reply is to a read that fails. -/
def isFailedRead : Reply → Bool
  | .read report => !report.answer.isOk
  | .submit _ => false

end Reply

/-- Do what is requested. -/
def serve (endpoint : Endpoint) : Request → Reply × Endpoint
  | .read limit ready =>
      let (report, next) := endpoint.read limit ready
      (.read report, next)
  | .submit submission =>
      let (report, next) := endpoint.submit submission
      (.submit report, next)

/-- Do what is requested, one after the other. -/
def serveEach (endpoint : Endpoint) : List Request → List Reply × Endpoint
  | [] => ([], endpoint)
  | request :: later =>
      let (reply, next) := endpoint.serve request
      let (replies, last) := next.serveEach later
      (reply :: replies, last)

theorem serveEach_cons (endpoint : Endpoint) (request : Request) (later : List Request) :
    endpoint.serveEach (request :: later) =
      ((endpoint.serve request).1 :: ((endpoint.serve request).2.serveEach later).1,
        ((endpoint.serve request).2.serveEach later).2) := rfl

/-- The requests for reads, in order. -/
def readsOf (requests : List Request) : List Request :=
  requests.filter Request.isRead

/-- The requests for submissions, in order. -/
def submissionsOf (requests : List Request) : List Request :=
  requests.filter (!·.isRead)

/-- The replies to reads, in order. -/
def readReplies (replies : List Reply) : List Reply :=
  replies.filter Reply.isRead

/-- The replies to submissions, in order. -/
def submissionReplies (replies : List Reply) : List Reply :=
  replies.filter (!·.isRead)

section Cons

variable
    (limit : Option Duration)
    (ready : Bool)
    (submission : Submission)
    (later : List Request)

@[simp] theorem readsOf_read :
    readsOf (.read limit ready :: later) = .read limit ready :: readsOf later := rfl

@[simp] theorem readsOf_submit :
    readsOf (.submit submission :: later) = readsOf later := rfl

@[simp] theorem submissionsOf_read :
    submissionsOf (.read limit ready :: later) = submissionsOf later := rfl

@[simp] theorem submissionsOf_submit :
    submissionsOf (.submit submission :: later) =
      .submit submission :: submissionsOf later := rfl

end Cons

/-- Requests that are made of the two sides in turn are served by each side as on its
own. -/
theorem serveEach_writingAs (reader writer : Endpoint) (requests : List Request) :
    let served := (reader.writingAs writer).serveEach requests
    let read := reader.serveEach (readsOf requests)
    let submitted := writer.serveEach (submissionsOf requests)
    readReplies served.1 = read.1 ∧
      submissionReplies served.1 = submitted.1 ∧
      served.2 = read.2.writingAs submitted.2 := by
  induction requests generalizing reader writer with
  | nil => exact ⟨rfl, rfl, rfl⟩
  | cons request later inductionHypothesis =>
      cases request with
      | read limit ready =>
          obtain ⟨reads, submissions, last⟩ :=
            inductionHypothesis (reader.read limit ready).2 writer
          have served : (reader.writingAs writer).serve (.read limit ready) =
              (.read (reader.read limit ready).1,
                (reader.read limit ready).2.writingAs writer) := by
            rw [serve, read_writingAs]
          rw [readsOf_read, submissionsOf_read, serveEach_cons, served]
          exact ⟨congrArg (_ :: ·) reads, submissions, last⟩
      | submit submission =>
          obtain ⟨reads, submissions, last⟩ :=
            inductionHypothesis reader (writer.submit submission).2
          have served : (reader.writingAs writer).serve (.submit submission) =
              (.submit (writer.submit submission).1,
                reader.writingAs (writer.submit submission).2) := by
            rw [serve, submit_writingAs]
          rw [readsOf_submit, submissionsOf_submit, serveEach_cons, served]
          exact ⟨reads, congrArg (_ :: ·) submissions, last⟩

/-- However reads and submissions are interleaved, the replies to each are those that they
get on their own, and the endpoint behind them reads as behind the reads alone and writes as
behind the submissions alone. So any two requests with the same reads and the same
submissions, each in the same order, get the same replies, with the same calls, and lead to
the same endpoint: the octets on the wire, the keys drawn, the octets left unread and the
close code are the same. In particular a read that fails is not noticed by any submission,
nor a submission that fails or is refused by any read. -/
theorem serveEach_interleaved
    (role : Role)
    (config : Config)
    (channel : Channel)
    (keys : KeySupply)
    (memory : Memory)
    {requests others : List Request}
    (sameReads : readsOf requests = readsOf others)
    (sameSubmissions : submissionsOf requests = submissionsOf others) :
    let start := new role config channel keys memory
    let served := start.serveEach requests
    let served' := start.serveEach others
    let read := start.serveEach (readsOf requests)
    let submitted := start.serveEach (submissionsOf requests)
    readReplies served.1 = readReplies served'.1 ∧
      submissionReplies served.1 = submissionReplies served'.1 ∧
      served.2 = served'.2 ∧
      readReplies served.1 = read.1 ∧
      submissionReplies served.1 = submitted.1 ∧
      served.2 = read.2.writingAs submitted.2 := by
  intro start served served' read submitted
  obtain ⟨reads, submissions, last⟩ := start.serveEach_writingAs start requests
  obtain ⟨reads', submissions', last'⟩ := start.serveEach_writingAs start others
  rw [writingAs_self] at reads submissions last reads' submissions' last'
  rw [← sameReads] at reads' last'
  rw [← sameSubmissions] at submissions' last'
  exact ⟨reads.trans reads'.symm, submissions.trans submissions'.symm, last.trans last'.symm,
    reads, submissions, last⟩

/-- A client reads a frame and then one that is masked, which it refuses. Its second message
stops in the middle, and its third submission is refused. -/
theorem serveEach_interleaved_failures :
    let channel : Channel :=
      { inbound := { arrivals := [.octets [0x89, 0x00, 0x81], .octets [0x80, 0x00]] }
        outbound := { answers := [.upTo 9, .upTo 3, .fault ⟨.wouldBlock, "full"⟩] } }
    let start := new .client {} channel (.ofArray #[⟨1, 2, 3, 4⟩] ⟨5, 6, 7, 8⟩)
    let message (octet : UInt8) : Request :=
      .submit (.write (.data .text) [octet, octet, octet])
    let refused : Request := .submit (.close .serviceRestart)
    let requests :=
      [message 0x61, .read none true, message 0x62, .read none false, refused,
        .read none false, message 0x63]
    let others :=
      [.read none true, .read none false, message 0x61, message 0x62, .read none false,
        refused, message 0x63]
    readsOf requests = readsOf others ∧
      submissionsOf requests = submissionsOf others ∧
      readReplies (start.serveEach requests).1 = readReplies (start.serveEach others).1 ∧
      submissionReplies (start.serveEach requests).1 =
        submissionReplies (start.serveEach others).1 ∧
      (start.serveEach requests).2 = (start.serveEach others).2 ∧
      (start.serveEach others).2.closeCode? = some .protocolError ∧
      (start.serveEach others).2.channel.inbound.unread = [0x00] := by
  intro channel start message refused requests others
  have sameReads : readsOf requests = readsOf others := rfl
  have sameSubmissions : submissionsOf requests = submissionsOf others := rfl
  obtain ⟨reads, submissions, last, -⟩ :=
    serveEach_interleaved .client {} channel (.ofArray #[⟨1, 2, 3, 4⟩] ⟨5, 6, 7, 8⟩) .standard
      sameReads sameSubmissions
  exact ⟨sameReads, sameSubmissions, reads, submissions, last, by decide +kernel,
    by decide +kernel⟩

end Endpoint
end WebSocket
