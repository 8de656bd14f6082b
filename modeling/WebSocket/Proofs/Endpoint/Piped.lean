import WebSocket.Proofs.Endpoint.Taking

/-!
# Reads over a pipe

A pipe brings octets and nothing else, and is ready exactly if it holds some. A read over a
pipe ends behind octets that complete a frame or break a rule, or else because the pipe is
empty.
-/

namespace WebSocket

namespace Inbound

/-- The reading side of a pipe that holds the given runs of octets. -/
def piped (runs : List (List UInt8)) : Inbound where
  arrivals := runs.map .octets
  readiness := .queued

@[simp] theorem unread_piped (runs : List (List UInt8)) :
    (piped runs).unread = runs.flatten := by
  induction runs with
  | nil => rfl
  | cons run runs inductionHypothesis => exact congrArg (run ++ ·) inductionHypothesis

theorem poll_piped_nil : (piped []).poll = (.ok false, piped []) := rfl

theorem poll_piped_cons (run : List UInt8) (runs : List (List UInt8)) :
    (piped (run :: runs)).poll = (.ok true, piped (run :: runs)) := rfl

/-- A read takes octets off the front of the first run. -/
theorem exists_read_piped
    {run : List UInt8}
    {runs : List (List UInt8)}
    (nonempty : [] ∉ run :: runs)
    {size : Nat}
    (positive : 0 < size) :
    ∃ octet octets rest,
      (piped (run :: runs)).read size = (.ok (octet :: octets), piped rest) ∧
        [] ∉ rest := by
  obtain ⟨some_octets, others⟩ := not_or.mp (mt List.mem_cons.mpr nonempty)
  have taken : run.take size ≠ [] := by
    simp [List.take_eq_nil_iff, Nat.ne_of_gt positive, Ne.symm some_octets]
  obtain ⟨octet, octets, first⟩ := List.exists_cons_of_ne_nil taken
  cases left : run.drop size with
  | nil =>
      refine ⟨octet, octets, runs, ?_, others⟩
      simp [read, piped, first, left]
  | cons next later =>
      refine ⟨octet, octets, (next :: later) :: runs, ?_, by simp [others]⟩
      simp [read, piped, first, left]

end Inbound

namespace Reading

/-- Whether a read under way is over a pipe, and only made without waiting if that holds
octets. -/
def OverPipe (reading : Reading) : Prop :=
  ∃ runs, [] ∉ runs ∧ reading.inbound = .piped runs ∧ (reading.ready = true → runs ≠ [])

/-- Whether a read over a pipe has ended behind octets, or because the pipe is empty. -/
def Ended.OverPipe (ended : Ended) : Prop :=
  ∃ runs, [] ∉ runs ∧ ended.inbound = .piped runs ∧
    ∃ earlier last, ended.calls.toList = earlier ++ [last] ∧
      (last.brought ≠ [] ∨ (runs = [] ∧ ∃ wait, last = .poll wait (.ok false)))

/-- Whether a pass over a pipe ends the read as it should, or leaves one to go on with. -/
def Step.OverPipe : Step → Prop
  | .finished ended => ended.OverPipe
  | .again next => next.OverPipe

/-- Octets that were read either end the read or lead to the next pass. -/
theorem overPipe_decode
    {reading : Reading}
    {runs : List (List UInt8)}
    (nonempty : [] ∉ runs)
    (source : reading.inbound = .piped runs)
    (waits : reading.ready = false)
    {earlier : List Call}
    {last : Call}
    (made : reading.calls.toList = earlier ++ [last])
    (some_octets : last.brought ≠ [])
    (octets : List UInt8) :
    (reading.decode octets).OverPipe := by
  unfold decode
  dsimp only
  split
  · exact ⟨runs, nonempty, source, earlier, last, made, .inl some_octets⟩
  · exact ⟨runs, nonempty, source, by simp [waits]⟩
  · exact ⟨runs, nonempty, source, earlier, last, made, .inl some_octets⟩

theorem overPipe_receive
    {reading : Reading}
    {runs : List (List UInt8)}
    (nonempty : [] ∉ runs)
    (source : reading.inbound = .piped runs)
    (holds : runs ≠ [])
    (wanted : 0 < reading.decoder.wanted)
    (config : Config) :
    (reading.receive config).OverPipe := by
  have positive : 0 < min reading.decoder.wanted config.chunkSize :=
    Nat.lt_min.mpr ⟨wanted, chunkSize_pos config⟩
  obtain ⟨run, later, rfl⟩ := List.exists_cons_of_ne_nil holds
  obtain ⟨octet, octets, rest, brought, nonemptyRest⟩ :=
    Inbound.exists_read_piped nonempty positive
  unfold receive
  dsimp only
  rw [source, brought]
  exact overPipe_decode nonemptyRest rfl rfl Array.toList_push (by simp [Call.brought]) _

theorem overPipe_pass
    {reading : Reading}
    (overPipe : reading.OverPipe)
    (wanted : 0 < reading.decoder.wanted)
    (config : Config)
    (limit : Option Duration) :
    (reading.pass config limit).OverPipe := by
  obtain ⟨runs, nonempty, source, holds⟩ := overPipe
  unfold pass
  split
  · rename_i ready
    exact overPipe_receive nonempty source (holds ready) wanted config
  · dsimp only
    cases runs with
    | nil =>
        rw [source, Inbound.poll_piped_nil]
        dsimp only
        split
        · exact ⟨[], nonempty, rfl, _, _, Array.toList_push, .inr ⟨rfl, _, rfl⟩⟩
        · exact ⟨[], nonempty, rfl, _, _, Array.toList_push, .inr ⟨rfl, _, rfl⟩⟩
    | cons run runs =>
        rw [source, Inbound.poll_piped_cons]
        refine overPipe_receive nonempty ?_ (List.cons_ne_nil run runs) ?_ config
        · rfl
        · exact wanted

/-- A read over a pipe ends behind octets, or because the pipe is empty. -/
theorem overPipe_run
    {start : Decoder}
    {source : Inbound}
    {reading : Reading}
    (overPipe : reading.OverPipe)
    (tracks : reading.Tracks start source)
    (config : Config)
    (limit : Option Duration) :
    (reading.run config limit).OverPipe := by
  fun_induction run reading config limit with
  | case1 reading ended step =>
      have ends := overPipe_pass overPipe tracks.waits config limit
      rw [step] at ends
      exact ends
  | case2 reading next step shorter inductionHypothesis =>
      have goesOn := overPipe_pass overPipe tracks.waits config limit
      have tracksNext := accounts_pass tracks config limit
      rw [step] at goesOn tracksNext
      exact inductionHypothesis goesOn tracksNext

end Reading

namespace Endpoint

/-- What a read over a pipe answers when its decoder answers the given way to the octets
that it took: the frame or the refusal that they lead to, or else, because the pipe is empty,
that nothing has begun or that a frame was cut short. -/
inductive AnswersPiped
    (report : Report (Option Frame))
    (next : Endpoint) : Except Refusal (Parse Frame) → Prop
  | frame
      {frame : Frame}
      (delivers : report.answer = .ok (some frame))
      (reads : next.hasFailed = false) :
      AnswersPiped report next (.ok (.ready frame))
  | nothing
      {count : Nat}
      (empty : next.channel.inbound.unread = [])
      (idle : next.decoder.inProgress = false)
      (delivers : report.answer = .ok none)
      (reads : next.hasFailed = false) :
      AnswersPiped report next (.ok (.needMore count))
  | cutShort
      {count : Nat}
      (empty : next.channel.inbound.unread = [])
      (inProgress : next.decoder.inProgress = true)
      (fails : report.answer = .error (.protocol .incompleteFrame))
      (failed : next.hasFailed = true) :
      AnswersPiped report next (.ok (.needMore count))
  | refused (refusal : Refusal) : AnswersPiped report next (.error refusal)

/-- A read over a pipe takes octets off its front, all of which the decoder takes, and
answers accordingly. -/
theorem answersPiped_read
    {endpoint next : Endpoint}
    {runs : List (List UInt8)}
    (nonempty : [] ∉ runs)
    (source : endpoint.channel.inbound = .piped runs)
    (reads : endpoint.hasFailed = false)
    (waits : 0 < endpoint.decoder.wanted)
    {limit : Option Duration}
    {ready : Bool}
    (holds : ready = true → runs ≠ [])
    {report : Report (Option Frame)}
    (result : endpoint.read limit ready = (report, next)) :
    broughtBy report.calls.toList ++ next.channel.inbound.unread = runs.flatten ∧
      ∃ answer,
        endpoint.decoder.verdict (broughtBy report.calls.toList) =
          ⟨next.decoder, [], answer⟩ ∧
        AnswersPiped report next answer := by
  have overPipe := Reading.overPipe_run ⟨runs, nonempty, source, holds⟩
    (endpoint.tracks_beginRead waits ready) endpoint.config limit
  have accounts := endpoint.accounts_read waits limit ready
  rw [read_of_not_hasFailed reads] at result
  obtain ⟨rfl, rfl⟩ := Prod.mk.inj result
  generalize (endpoint.beginRead ready).run endpoint.config limit = ended at *
  obtain ⟨rest, -, left, earlier, last, made, ends⟩ := overPipe
  obtain ⟨earlier', last', answer, made', comes, answers⟩ := accounts.comes
  obtain ⟨-, same⟩ := List.append_inj' (made.symm.trans made') rfl
  obtain rfl := List.singleton_inj.mp same
  refine ⟨?_, answer, ?_, ?_⟩
  · rw [inbound_afterRead, accounts.unread, source, Inbound.unread_piped]
  · rw [decoder_afterRead]
    exact comes
  · rcases answer with refusal | count | frame
    · exact .refused refusal
    · have quiet : last.brought = [] := Reading.brought_of_conclusion? answers
      obtain ⟨rfl, wait, rfl⟩ := ends.resolve_left (not_not_intro quiet)
      have empty : (endpoint.afterRead ended).channel.inbound.unread = [] := by
        rw [inbound_afterRead, left, Inbound.unread_piped, List.flatten_nil]
      rw [Reading.Ended.Answers, Reading.conclusion?] at answers
      cases inProgress : ended.decoder.inProgress with
      | true =>
          rw [if_pos inProgress] at answers
          have failed := (Option.some.inj answers).symm
          refine .cutShort empty ((congrArg _ (decoder_afterRead _ _)).trans inProgress) ?_ ?_
          · rw [failed]
            rfl
          · rw [afterRead_of_error endpoint failed]
      | false =>
          rw [if_neg (by simp [inProgress])] at answers
          have delivers := (Option.some.inj answers).symm
          refine .nothing empty ((congrArg _ (decoder_afterRead _ _)).trans inProgress) ?_ ?_
          · rw [delivers]
            rfl
          · rw [afterRead_of_ok endpoint delivers]
            exact reads
    · have delivers := answers.2
      refine .frame ?_ ?_
      · rw [delivers]
        rfl
      · rw [afterRead_of_ok endpoint delivers]
        exact reads

end Endpoint
end WebSocket
