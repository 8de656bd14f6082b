import WebSocket.Proofs.Endpoint.Latch
import WebSocket.Proofs.Endpoint.Records
import WebSocket.Proofs.Endpoint.Waiting

/-!
# Interruptions

A channel may be interrupted in whatever it does. An endpoint makes a write again that was
interrupted, and waits again behind a read that was. A poll that is interrupted is the end of
reading, as if the channel had failed.
-/

namespace WebSocket

open Grammar

/-! ## The calls of a submission -/

/-- Whether calls are writes, and each one that is interrupted is made again. -/
structure Repeats (calls : List Call) : Prop where
  writes : ∀ call ∈ calls, ∃ offered answer, call = .write offered answer
  again : ∀ ahead offered error behind, calls = ahead ++ .write offered (.error error) :: behind →
    error.isInterruption = true → ∃ answer later, behind = .write offered answer :: later

theorem repeats_nil : Repeats [] where
  writes := List.forall_mem_nil _
  again := by
    intro ahead offered error behind whole
    cases ahead <;> cases whole

theorem Repeats.append
    {first second : List Call}
    (repeats : Repeats first)
    (repeats' : Repeats second) :
    Repeats (first ++ second) where
  writes := List.forall_mem_append.mpr ⟨repeats.writes, repeats'.writes⟩
  again := by
    intro ahead offered error behind whole interrupts
    rcases List.append_eq_append_iff.mp whole with
      ⟨between, rfl, split⟩ | ⟨between, split, rest⟩
    · exact repeats'.again between offered error behind split interrupts
    · cases between with
      | nil => exact repeats'.again [] offered error behind rest.symm interrupts
      | cons call between =>
          obtain ⟨rfl, rfl⟩ := List.cons.inj rest
          obtain ⟨answer, later, rfl⟩ :=
            repeats.again ahead offered error between split interrupts
          exact ⟨answer, later ++ second, rfl⟩

/-- Offers are made again behind interruptions. -/
theorem repeats_of_delivered
    {outbound : Outbound}
    {octets : List UInt8}
    {delivery : Delivery}
    {written : Outbound.Written}
    (delivered : outbound.Delivered octets delivery written) :
    Repeats (delivery.offers.map fun (offered, answer) => .write offered answer) where
  writes := by
    intro call member
    obtain ⟨⟨offered, answer⟩, -, rfl⟩ := List.mem_map.mp member
    exact ⟨offered, answer, rfl⟩
  again := by
    intro ahead offered error behind whole interrupts
    obtain ⟨first, second, split, rfl, mapped⟩ := List.map_eq_append_iff.mp whole
    obtain ⟨⟨offered', answer'⟩, rest, rfl, same, rfl⟩ := List.map_eq_cons_iff.mp mapped
    cases same
    obtain ⟨second, later, rfl⟩ :=
      delivered.delivers.exists_again delivered.answer split interrupts
    exact ⟨second, _, rfl⟩

namespace Endpoint

/-- Whether an operation makes every write again that is interrupted, and does not answer
with an interruption. -/
structure Insists (report : Report Unit) : Prop where
  repeats : Repeats report.calls.toList
  answer : ∀ error, failure? report.answer = some (.io error) → error.isInterruption = false

theorem insists_transmit (endpoint : Endpoint) (octets : List UInt8) :
    Insists (endpoint.transmit octets).1 := by
  obtain ⟨delivery, delivered⟩ := endpoint.channel.outbound.exists_delivered_writeAll octets
  constructor
  · have calls : (endpoint.transmit octets).1.calls.toList =
        delivery.offers.map fun (offered, answer) => .write offered answer :=
      (Array.toList_map ..).trans (congrArg (List.map _) delivered.offers)
    rw [calls]
    exact repeats_of_delivered delivered
  · intro error fails
    have answered : (endpoint.transmit octets).1.answer =
        (endpoint.channel.outbound.writeAll octets).answer.mapError .io := rfl
    rw [answered] at fails
    cases ends : (endpoint.channel.outbound.writeAll octets).answer with
    | ok done =>
        rw [ends] at fails
        cases fails
    | error fault =>
        rw [ends] at fails
        cases fails
        have failed := delivered.answer
        rw [ends] at failed
        exact delivered.delivers.isInterruption_eq_false failed

theorem insists_transmitPlain
    (endpoint : Endpoint)
    (opcode : Opcode)
    (payload : List UInt8) :
    Insists (endpoint.transmitPlain opcode payload).1 := by
  unfold transmitPlain
  dsimp only
  have head := endpoint.insists_transmit (({ opcode } : FrameHeader).encode payload.length)
  split
  · exact head
  · have body := (endpoint.transmit
      (({ opcode } : FrameHeader).encode payload.length)).2.insists_transmit payload
    refine ⟨?_, body.answer⟩
    rw [Array.toList_append]
    exact head.repeats.append body.repeats

theorem insists_write
    (endpoint : Endpoint)
    (opcode : Opcode)
    (payload : List UInt8) :
    Insists (endpoint.write opcode payload).1 := by
  unfold write
  split
  · dsimp only
    cases endpoint.role with
    | server =>
        obtain ⟨repeats, answer⟩ := endpoint.insists_transmitPlain opcode payload
        exact ⟨repeats, answer⟩
    | client =>
        obtain ⟨repeats, answer⟩ :=
          insists_transmit { endpoint with keys := endpoint.keys.draw.2 }
            (({ opcode, mask := some endpoint.keys.draw.1 } : FrameHeader).encode
                payload.length ++
              endpoint.keys.draw.1.mask payload)
        exact ⟨repeats, answer⟩
  · refine ⟨repeats_nil, ?_⟩
    intro error fails
    cases fails

theorem insists_submit (endpoint : Endpoint) (submission : Submission) :
    Insists (endpoint.submit submission).1 := by
  cases submission with
  | write opcode payload => exact endpoint.insists_write opcode payload
  | close code =>
      unfold submit close
      dsimp only
      split
      · exact endpoint.insists_write _ _
      · refine ⟨repeats_nil, ?_⟩
        intro error fails
        cases fails

end Endpoint

/-! ## The calls of a read -/

/-- Whether a read goes on behind a call. -/
def Call.goesOn : Call → Bool
  | .read _ (.ok octets) => !octets.isEmpty
  | .read _ (.error error) => error.isInterruption
  | .poll _ (.ok isReady) => isReady
  | .poll _ (.error _) => false
  | .write _ _ => false

namespace Reading

/-- Whether the read goes on behind every call that has been made, but for the last one if it
has ended. -/
def Step.GoesOn : Step → Prop
  | .finished ended => ∃ earlier last, ended.calls.toList = earlier ++ [last] ∧
      ∀ call ∈ earlier, call.goesOn = true
  | .again next => ∀ call ∈ next.calls.toList, call.goesOn = true

variable
    {reading : Reading}
    {config : Config}
    {limit : Option Duration}

theorem goesOn_push
    {calls : Array Call}
    (goOn : ∀ call ∈ calls.toList, call.goesOn = true)
    {last : Call}
    (goesOn : last.goesOn = true) :
    ∀ call ∈ (calls.push last).toList, call.goesOn = true := by
  rw [Array.toList_push]
  exact List.forall_mem_append.mpr ⟨goOn, List.forall_mem_singleton.mpr goesOn⟩

theorem goesOn_decode
    {earlier : List Call}
    {last : Call}
    (made : reading.calls.toList = earlier ++ [last])
    (goOn : ∀ call ∈ reading.calls.toList, call.goesOn = true)
    (octets : List UInt8) :
    (reading.decode octets).GoesOn := by
  have ahead : ∀ call ∈ earlier, call.goesOn = true := by
    rw [made] at goOn
    exact (List.forall_mem_append.mp goOn).1
  unfold decode
  dsimp only
  split
  · exact ⟨earlier, last, made, ahead⟩
  · exact goOn
  · exact ⟨earlier, last, made, ahead⟩

theorem goesOn_receive
    (goOn : ∀ call ∈ reading.calls.toList, call.goesOn = true)
    (config : Config) :
    (reading.receive config).GoesOn := by
  unfold receive
  dsimp only
  split
  · split <;> exact ⟨_, _, Array.toList_push, goOn⟩
  · rename_i octets some_octets brought
    cases octets with
    | nil => exact absurd rfl some_octets
    | cons octet octets =>
        refine goesOn_decode Array.toList_push (goesOn_push goOn ?_) (octet :: octets)
        rw [brought]
        rfl
  · rename_i error brought
    split
    · rename_i interrupts
      refine goesOn_push goOn ?_
      rw [brought]
      exact interrupts
    · exact ⟨_, _, Array.toList_push, goOn⟩

theorem goesOn_pass
    (goOn : ∀ call ∈ reading.calls.toList, call.goesOn = true)
    (config : Config)
    (limit : Option Duration) :
    (reading.pass config limit).GoesOn := by
  unfold pass
  split
  · exact goesOn_receive goOn config
  · dsimp only
    split
    · rename_i polled
      refine goesOn_receive (goesOn_push goOn ?_) config
      rw [polled]
      rfl
    · split <;> exact ⟨_, _, Array.toList_push, goOn⟩
    · exact ⟨_, _, Array.toList_push, goOn⟩

/-- The last call of a read is the only one that it may not go on behind. -/
theorem goesOn_run
    (goOn : ∀ call ∈ reading.calls.toList, call.goesOn = true)
    (config : Config)
    (limit : Option Duration) :
    ∃ earlier last, (reading.run config limit).calls.toList = earlier ++ [last] ∧
      ∀ call ∈ earlier, call.goesOn = true := by
  fun_induction run reading config limit with
  | case1 reading ended step =>
      have goesOn := goesOn_pass goOn config limit
      rw [step] at goesOn
      exact goesOn
  | case2 reading next step shorter inductionHypothesis =>
      have goesOn := goesOn_pass goOn config limit
      rw [step] at goesOn
      exact inductionHypothesis goesOn

end Reading

namespace Endpoint

/-! ## Replies -/

/-- The error that a reply answers, if it answers one. -/
def Reply.error? : Reply → Option Error
  | .read report => failure? report.answer
  | .submit report => failure? report.answer

/-- Whether what is done for a reply goes on behind every interruption but that of a poll. -/
structure Reply.Persists (reply : Reply) : Prop where
  /-- A write that is interrupted is made again, with the same octets. -/
  writes : ∀ ahead offered error behind,
    reply.calls = ahead ++ .write offered (.error error) :: behind →
      error.isInterruption = true → ∃ answer later, behind = .write offered answer :: later
  /-- Behind a read that is interrupted the channel is polled. -/
  reads : ∀ ahead size error behind,
    reply.calls = ahead ++ .read size (.error error) :: behind →
      error.isInterruption = true → ∃ wait answer later, behind = .poll wait answer :: later
  /-- A poll that fails is the last call, even if it was only interrupted. -/
  polls : ∀ ahead wait error behind,
    reply.calls = ahead ++ .poll wait (.error error) :: behind →
      behind = [] ∧ reply.error? = some (.io error)

theorem persists_of_calls_eq_nil {reply : Reply} (none : reply.calls = []) : reply.Persists := by
  have nothing : ∀ (ahead : List Call) call behind, reply.calls ≠ ahead ++ call :: behind := by
    intro ahead call behind whole
    rw [none] at whole
    exact absurd whole.symm (List.append_ne_nil_of_right_ne_nil _ (List.cons_ne_nil _ _))
  refine ⟨?_, ?_, ?_⟩
  · intro ahead offered error behind whole
    exact absurd whole (nothing ahead _ behind)
  · intro ahead size error behind whole
    exact absurd whole (nothing ahead _ behind)
  · intro ahead wait error behind whole
    exact absurd whole (nothing ahead _ behind)

theorem persists_submit (endpoint : Endpoint) (submission : Submission) :
    (Reply.submit (endpoint.submit submission).1).Persists := by
  obtain ⟨⟨writes, again⟩, -⟩ := endpoint.insists_submit submission
  -- Among writes there is no other call.
  have nothing : ∀ (ahead : List Call) call behind,
      (endpoint.submit submission).1.calls.toList = ahead ++ call :: behind →
        ∃ offered answer, call = .write offered answer := by
    intro ahead call behind whole
    exact writes call (whole ▸ List.mem_append_right _ List.mem_cons_self)
  refine ⟨again, ?_, ?_⟩
  · intro ahead size error behind whole
    obtain ⟨offered, answer, same⟩ := nothing ahead _ behind whole
    cases same
  · intro ahead wait error behind whole
    obtain ⟨offered, answer, same⟩ := nothing ahead _ behind whole
    cases same

section Reads

variable
    {endpoint : Endpoint}
    {limit : Option Duration}
    {ready : Bool}

/-- A poll that fails decides what a read answers. -/
theorem failure?_of_poll
    {start : Decoder}
    {source : Inbound}
    {ended : Reading.Ended}
    (accounts : ended.Accounts start source)
    {earlier : List Call}
    {wait : Option Duration}
    {error : IoError}
    (made : ended.calls.toList = earlier ++ [.poll wait (.error error)]) :
    failure? (ended.answer.mapError ReadFailure.error) = some (.io error) := by
  obtain ⟨earlier', last, answer, made', -, answers⟩ := accounts.comes
  obtain ⟨-, same⟩ := List.append_inj' (made'.symm.trans made) rfl
  obtain rfl := List.singleton_inj.mp same
  rcases answer with refusal | count | frame
  · exact absurd rfl answers.1
  · have failed : some (.error { error := .io error, midFrame := ended.decoder.inProgress }) =
        some ended.answer := answers
    rw [← Option.some.inj failed]
    rfl
  · exact absurd rfl answers.1

/-- A read from the channel that is interrupted is not the last call. -/
theorem not_isInterruption_of_accounts
    {start : Decoder}
    {source : Inbound}
    {ended : Reading.Ended}
    (accounts : ended.Accounts start source)
    {earlier : List Call}
    {size : Nat}
    {error : IoError}
    (made : ended.calls.toList = earlier ++ [.read size (.error error)]) :
    error.isInterruption = false := by
  obtain ⟨earlier', last, answer, made', -, answers⟩ := accounts.comes
  obtain ⟨-, same⟩ := List.append_inj' (made'.symm.trans made) rfl
  obtain rfl := List.singleton_inj.mp same
  rcases answer with refusal | count | frame
  · exact absurd rfl answers.1
  · rw [Reading.Ended.Answers, Reading.conclusion?] at answers
    split at answers
    · cases answers
    · rename_i final
      exact Bool.eq_false_iff.mpr final
  · exact absurd rfl answers.1

theorem persists_read
    (reads : endpoint.hasFailed = false)
    (waits : 0 < endpoint.decoder.wanted) :
    (Reply.read (endpoint.read limit ready).1).Persists := by
  have due : Each (Reading.IsDue endpoint.decoder endpoint.config limit ready)
      ((endpoint.beginRead ready).run endpoint.config limit).calls.toList :=
    Reading.each_due_run (endpoint.tracks_beginRead waits ready) (each_nil _) rfl
  have unmade : ∀ call ∈ (endpoint.beginRead ready).calls.toList, call.goesOn = true :=
    List.forall_mem_nil _
  obtain ⟨earlier, last, made, goOn⟩ := Reading.goesOn_run unmade endpoint.config limit
  have accounts := endpoint.accounts_read waits limit ready
  rw [read_of_not_hasFailed reads]
  generalize (endpoint.beginRead ready).run endpoint.config limit = ended at *
  refine ⟨?_, ?_, ?_⟩
  · intro ahead offered error behind whole
    exact (due ahead _ behind whole).elim
  · intro ahead size error behind whole interrupts
    cases behind with
    | nil => cases (not_isInterruption_of_accounts accounts whole).symm.trans interrupts
    | cons next later =>
        have dueNext := due (ahead ++ [.read size (.error error)]) next later
          (whole.trans (List.append_cons ..))
        cases next with
        | poll wait answer => exact ⟨wait, answer, later, rfl⟩
        | write offered answer => exact dueNext.elim
        | read size' answer =>
            -- A read is due at first, or right behind a poll.
            rcases dueNext with ⟨first, -⟩ | ⟨earlier', wait, polled⟩
            · exact absurd first (List.append_ne_nil_of_right_ne_nil _ (List.cons_ne_nil _ _))
            · obtain ⟨-, same⟩ := List.append_inj' polled rfl
              cases List.singleton_inj.mp same
  · intro ahead wait error behind whole
    rcases List.eq_nil_or_concat behind with rfl | ⟨between, final, rfl⟩
    · exact ⟨rfl, failure?_of_poll accounts whole⟩
    · rw [List.concat_eq_append, ← List.cons_append, ← List.append_assoc] at whole
      obtain ⟨rfl, -⟩ := List.append_inj' (made.symm.trans whole) rfl
      cases goOn _ (List.mem_append_right _ List.mem_cons_self)

/-- A read that answers an interruption has met it in a poll, and records what its decoder has
begun. -/
theorem records_of_isInterruption
    {isOpen : Bool}
    {last : Call}
    {error : IoError}
    {closeCode? : Option CloseCode}
    (records : Records isOpen last (.io error) closeCode?)
    (interrupts : error.isInterruption = true) :
    (∃ wait, last = .poll wait (.error error)) ∧
      closeCode? = if isOpen then some .protocolError else none := by
  cases records with
  | channel fails =>
      refine ⟨?_, rfl⟩
      cases last with
      | read size answer => cases fails.2.symm.trans interrupts
      | write offered answer => exact fails.elim
      | poll wait answer => exact ⟨wait, congrArg (Call.poll wait) fails⟩

/-- A read that answers an interruption is over for good, and leaves a close code behind if a
frame or message has begun. -/
theorem afterRead_of_isInterruption
    {role : Role}
    {limit : Nat}
    {memory : Memory}
    {taken : List UInt8}
    {frames : List Frame}
    (yields : (Decoder.new role limit memory).Yields taken frames endpoint.decoder)
    (unrecorded : endpoint.closeCode? = none)
    {ended : Reading.Ended}
    (accounts : ended.Accounts endpoint.decoder endpoint.channel.inbound)
    {error : IoError}
    (fails : failure? (ended.answer.mapError ReadFailure.error) = some (.io error))
    (interrupts : error.isInterruption = true) :
    let meaning := transcript role limit memory none 0 (taken ++ broughtBy ended.calls.toList)
    (∃ ahead wait, ended.calls.toList = ahead ++ [.poll wait (.error error)]) ∧
      (endpoint.afterRead ended).hasFailed = true ∧
      (endpoint.afterRead ended).closeCode? =
        if meaning.ending.isOpen then some .protocolError else none := by
  cases failed : ended.answer with
  | ok frame? =>
      rw [failed] at fails
      cases fails
  | error failure =>
      rw [failed] at fails
      have same : failure.error = .io error := Option.some.inj fails
      obtain ⟨ahead, last, made, records⟩ := records_of_accounts yields accounts failed
      rw [same] at records
      obtain ⟨⟨wait, rfl⟩, closeCode⟩ := records_of_isInterruption records interrupts
      rw [endpoint.afterRead_of_error failed, unrecorded, Option.or_none]
      exact ⟨⟨ahead, wait, made⟩, rfl, closeCode⟩

end Reads

/-- Behind any run of reads and submissions, whatever the channel does, an operation goes on
behind each interruption of a write or of a read from the channel: a write is made again with
the same octets, and a read from the channel is followed by another poll. None of them is
answered, and nothing is recorded without a read that fails. A poll that is interrupted is
treated like one that fails in any other way. It is the last call, it is what the read
answers, it ends all reading, and it has a close code recorded if a frame or message has
begun. -/
theorem serve_persists
    (role : Role)
    (config : Config)
    (channel : Channel)
    (keys : KeySupply)
    (memory : Memory)
    (earlier : List Request)
    (request : Request) :
    let (replies, before) := (new role config channel keys memory).serveEach earlier
    let (reply, after) := before.serve request
    let taken := broughtBy (replies.flatMap Reply.calls) ++ broughtBy reply.calls
    let meaning := transcript role config.maxPayloadLength memory none 0 taken
    reply.Persists ∧
      (reply.isFailedRead = false →
        after.hasFailed = before.hasFailed ∧ after.closeCode? = before.closeCode?) ∧
      ∀ error, reply.error? = some (.io error) → error.isInterruption = true →
        (∃ ahead wait, reply.calls = ahead ++ [.poll wait (.error error)]) ∧
          after.hasFailed = true ∧
          after.closeCode? = if meaning.ending.isOpen then some .protocolError else none := by
  have ran := (new role config channel keys memory).runEach_command earlier
  generalize (new role config channel keys memory).serveEach earlier = served at *
  obtain ⟨replies, before⟩ := served
  dsimp only at ran ⊢
  cases request with
  | submit submission =>
      have keeps := before.keepsReading_submit submission
      have insists := before.insists_submit submission
      refine ⟨before.persists_submit submission, ?_, ?_⟩
      · intro unfailed
        exact ⟨keeps.hasFailed, keeps.closeCode?⟩
      · intro error answered interrupts
        cases (insists.answer error answered).symm.trans interrupts
  | read limit ready =>
      cases hasFailed : before.hasFailed with
      | true =>
          have closed : before.serve (.read limit ready) = (closedReply, before) := by
            rw [serve, read, if_pos hasFailed]
            rfl
          rw [closed]
          refine ⟨persists_of_calls_eq_nil rfl, ?_, ?_⟩
          · intro unfailed
            cases unfailed
          · intro error answered
            cases answered
      | false =>
          obtain ⟨yields, unrecorded⟩ := yields_runEach ran hasFailed
          have persists : (Reply.read (before.read limit ready).1).Persists :=
            persists_read hasFailed yields.wanted_pos
          rcases result : before.read limit ready with ⟨report, after⟩
          rw [result] at persists
          obtain ⟨ended, accounts, calls, answered, rfl⟩ :=
            accounts_of_read result hasFailed yields.wanted_pos
          have served : before.serve (.read limit ready) =
              (.read report, before.afterRead ended) := by
            rw [serve, result]
          rw [served]
          refine ⟨persists, ?_, ?_⟩
          · intro unfailed
            cases delivers : ended.answer with
            | error failure =>
                rw [Reply.isFailedRead, answered, delivers] at unfailed
                cases unfailed
            | ok frame? =>
                rw [before.afterRead_of_ok delivers]
                exact ⟨hasFailed, rfl⟩
          · intro error fails interrupts
            rw [Reply.error?, answered] at fails
            have made : Reply.calls (.read report) = ended.calls.toList :=
              congrArg Array.toList calls
            rw [made]
            exact afterRead_of_isInterruption yields unrecorded accounts fails interrupts

/-- A client has taken the first octet of a ping and is interrupted as it waits for the second
one. It gives up reading, and holds the peer to blame. Without the interruption it reads the
ping. -/
theorem read_of_interrupted_poll :
    let signal : IoError := ⟨.interrupted, "signal"⟩
    let start (answers : List (Except IoError Bool)) : Endpoint :=
      new .client {}
        { inbound :=
            { arrivals := [.octets [0x89], .octets [0x00]]
              readiness := .scripted answers } }
        (.ofArray #[] default)
    let (report, next) := (start [.ok true, .error signal]).read none false
    let (report', next') := (start [.ok true]).read none false
    signal.isInterruption = true ∧
      (report.answer = .error (.io signal) ∧ report'.answer = .ok (some ⟨.control .ping, []⟩)) ∧
      (next.hasFailed = true ∧ next'.hasFailed = false) ∧
      (next.closeCode? = some .protocolError ∧ next'.closeCode? = none) ∧
      (next.channel.inbound.unread = [0x00] ∧ next'.channel.inbound.unread = []) := by
  exact ⟨by decide +kernel, by decide +kernel, by decide +kernel, by decide +kernel,
    by decide +kernel⟩

end Endpoint
end WebSocket
