import WebSocket.Proofs.Endpoint.Reading

/-!
# The calls that a read makes

A read asks the channel for at least one octet, and for no more than the decoder wants by
then. So the decoder has taken all octets that the channel brought, and the last call of a
read decides what it comes to.
-/

namespace WebSocket

/-! ## What calls bring -/

/-- The octets that a call brings. -/
def Call.brought : Call → List UInt8
  | .read _ (.ok octets) => octets
  | _ => []

/-- The octets that calls bring, in order. -/
def broughtBy (calls : List Call) : List UInt8 := calls.flatMap Call.brought

@[simp] theorem broughtBy_nil : broughtBy [] = [] := rfl

@[simp] theorem broughtBy_append (earlier later : List Call) :
    broughtBy (earlier ++ later) = broughtBy earlier ++ broughtBy later :=
  List.flatMap_append

@[simp] theorem broughtBy_singleton (call : Call) : broughtBy [call] = call.brought :=
  List.append_nil _

/-! ## Rules for calls -/

/-- Whether each call obeys a rule that depends on the calls ahead of it. -/
def Each (rule : List Call → Call → Prop) (calls : List Call) : Prop :=
  ∀ before call after, calls = before ++ call :: after → rule before call

theorem each_nil (rule : List Call → Call → Prop) : Each rule [] := by
  intro before call after whole
  cases before <;> cases whole

theorem Each.append
    {rule : List Call → Call → Prop}
    {calls : List Call}
    (each : Each rule calls)
    {last : Call}
    (obeys : rule calls last) :
    Each rule (calls ++ [last]) := by
  intro before call after whole
  rcases List.eq_nil_or_concat after with rfl | ⟨between, final, rfl⟩
  · obtain ⟨rfl, same⟩ := List.append_inj' whole rfl
    rw [← List.singleton_inj.mp same]
    exact obeys
  · rw [List.concat_eq_append, ← List.cons_append, ← List.append_assoc] at whole
    obtain ⟨rfl, -⟩ := List.append_inj' whole rfl
    exact each before call between rfl

namespace Inbound

theorem unread_poll (inbound : Inbound) : inbound.poll.2.unread = inbound.unread := by
  unfold poll
  split <;> rfl

/-- What a read brings is taken off the front of what is unread. -/
theorem unread_read (inbound : Inbound) (size : Nat) :
    (Call.read size (inbound.read size).1).brought ++ (inbound.read size).2.unread =
      inbound.unread := by
  obtain ⟨arrivals, readiness, joinsArrivals⟩ := inbound
  rcases arrivals with _ | ⟨chunk | error | _ | _, later⟩
  · rfl
  · have whole : chunk.take size ++ chunk.drop size = chunk := List.take_append_drop size chunk
    change chunk.take size ++ (if (chunk.drop size).isEmpty then later
      else .octets (chunk.drop size) :: later).flatMap Arrival.content =
        chunk ++ later.flatMap Arrival.content
    split
    · rename_i empty
      rw [List.isEmpty_iff.mp empty, List.append_nil] at whole
      rw [whole]
    · rw [List.flatMap_cons, ← List.append_assoc]
      exact congrArg (· ++ _) whole
  · rfl
  · rfl
  · rfl

/-- A read brings no more than it asks for. -/
theorem length_brought_read_le (inbound : Inbound) (size : Nat) :
    (Call.read size (inbound.read size).1).brought.length ≤ size := by
  obtain ⟨arrivals, readiness, joinsArrivals⟩ := inbound
  rcases arrivals with _ | ⟨chunk | error | _ | _, later⟩
  · exact Nat.zero_le size
  · exact List.length_take_le size chunk
  · exact Nat.zero_le size
  · exact Nat.zero_le size
  · exact Nat.zero_le size

end Inbound

namespace Reading

/-! ## Reads under way -/

/-- Whether calls ask for no more than a decoder wants that has been fed what the calls
before them brought, and bring no more than they ask for. -/
def Modest (start : Decoder) (calls : List Call) : Prop :=
  ∀ before size answer after, calls = before ++ .read size answer :: after →
    ∃ decoder,
      start.verdict (broughtBy before) = ⟨decoder, [], .ok (.needMore decoder.wanted)⟩ ∧
        0 < size ∧ size ≤ decoder.wanted ∧ (Call.read size answer).brought.length ≤ size

/-- Whether a call asks for no more than a decoder wants that has been fed what the calls
ahead of it brought, and brings no more than it asks for. -/
def IsModest (start : Decoder) (before : List Call) (call : Call) : Prop :=
  ∀ size answer, call = .read size answer → ∃ decoder,
    start.verdict (broughtBy before) = ⟨decoder, [], .ok (.needMore decoder.wanted)⟩ ∧
      0 < size ∧ size ≤ decoder.wanted ∧ (Call.read size answer).brought.length ≤ size

theorem modest_iff_each (start : Decoder) (calls : List Call) :
    Modest start calls ↔ Each (IsModest start) calls := by
  constructor
  · rintro modest before call after whole size answer rfl
    exact modest before size answer after whole
  · intro each before size answer after whole
    exact each before _ after whole size answer rfl

theorem modest_nil (start : Decoder) : Modest start [] :=
  (modest_iff_each start []).mpr (each_nil _)

theorem modest_append
    {start : Decoder}
    {calls : List Call}
    (modest : Modest start calls)
    {call : Call}
    (last : IsModest start calls call) :
    Modest start (calls ++ [call]) :=
  (modest_iff_each start _).mpr (((modest_iff_each start calls).mp modest).append last)

/-- Whether a read under way has fed its first decoder, whole, what its calls brought. -/
structure Tracks (start : Decoder) (source : Inbound) (reading : Reading) : Prop where
  waits : 0 < reading.decoder.wanted
  comes : start.verdict (broughtBy reading.calls.toList) =
    ⟨reading.decoder, [], .ok (.needMore reading.decoder.wanted)⟩
  modest : Modest start reading.calls.toList
  unread : broughtBy reading.calls.toList ++ reading.inbound.unread = source.unread

/-- What a read comes to that is ended by a call that brings no octets. -/
def conclusion? (decoder : Decoder) : Call → Option (Except ReadFailure (Option Frame))
  | .read _ (.ok []) => some (.error (endOfStream decoder))
  | .read _ (.error error) =>
      if error.isInterruption then none
      else some (.error { error := .io error, midFrame := decoder.inProgress })
  | .poll _ (.ok false) =>
      if decoder.inProgress then
        some (.error { error := .protocol .incompleteFrame, midFrame := true })
      else some (.ok none)
  | .poll _ (.error error) =>
      some (.error { error := .io error, midFrame := decoder.inProgress })
  | _ => none

/-- A call that brings no octets does not deliver a frame. -/
theorem conclusion?_ne_frame
    (decoder : Decoder)
    (last : Call)
    (frame : Frame) :
    conclusion? decoder last ≠ some (.ok (some frame)) := by
  intro concludes
  unfold conclusion? at concludes
  split at concludes <;> first | cases concludes | (split at concludes <;> cases concludes)

/-- What a read answers when its decoder answers the given way to the octets of all its
calls: the frame or the refusal that the last octets lead to, or else what follows from the
last call. -/
def Ended.Answers
    (ended : Ended)
    (last : Call) : Except Refusal (Parse Frame) → Prop
  | .ok (.ready frame) => last.brought ≠ [] ∧ ended.answer = .ok (some frame)
  | .ok (.needMore _) => conclusion? ended.decoder last = some ended.answer
  | .error refusal =>
      last.brought ≠ [] ∧ ended.answer = .error { error := refusal.error, midFrame := true }

/-- Whether a read has fed its first decoder, whole, what its calls brought, and answers
accordingly. -/
structure Ended.Accounts (start : Decoder) (source : Inbound) (ended : Ended) : Prop where
  comes : ∃ earlier last answer,
    ended.calls.toList = earlier ++ [last] ∧
      start.verdict (broughtBy ended.calls.toList) = ⟨ended.decoder, [], answer⟩ ∧
      ended.Answers last answer
  modest : Modest start ended.calls.toList
  unread : broughtBy ended.calls.toList ++ ended.inbound.unread = source.unread

/-- Whether a pass ends the read with an account, or leaves one to go on with. -/
def Step.Accounts (start : Decoder) (source : Inbound) : Step → Prop
  | .finished ended => ended.Accounts start source
  | .again next => next.Tracks start source

variable
    {start : Decoder}
    {source : Inbound}
    {reading : Reading}

/-- A call that brings no octets leaves everything to come. -/
theorem tracks_of_quiet
    (tracks : reading.Tracks start source)
    {next : Reading}
    {last : Call}
    (quiet : last.brought = [])
    (asks : ∀ size answer, last = .read size answer →
      0 < size ∧ size ≤ reading.decoder.wanted)
    (decoder : next.decoder = reading.decoder)
    (calls : next.calls = reading.calls.push last)
    (unread : next.inbound.unread = reading.inbound.unread) :
    next.Tracks start source := by
  have made : next.calls.toList = reading.calls.toList ++ [last] := by
    rw [calls, Array.toList_push]
  have brought : broughtBy next.calls.toList = broughtBy reading.calls.toList := by
    rw [made, broughtBy_append, broughtBy_singleton, quiet, List.append_nil]
  refine ⟨?_, ?_, ?_, ?_⟩
  · rw [decoder]
    exact tracks.waits
  · rw [brought, decoder]
    exact tracks.comes
  · rw [made]
    refine modest_append tracks.modest ?_
    rintro size answer rfl
    obtain ⟨positive, within⟩ := asks size answer rfl
    exact ⟨reading.decoder, tracks.comes, positive, within, by rw [quiet]; exact Nat.zero_le _⟩
  · rw [brought, unread]
    exact tracks.unread

/-- What is told has no influence on the account. -/
theorem Tracks.tell (tracks : reading.Tracks start source) (events : Array Log.Event) :
    Tracks start source { reading with events } :=
  ⟨tracks.waits, tracks.comes, tracks.modest, tracks.unread⟩

/-- A read under way may be ended by a call that brought no octets. -/
theorem accounts_finish
    (tracks : reading.Tracks start source)
    {earlier : List Call}
    {last : Call}
    (made : reading.calls.toList = earlier ++ [last])
    {answer : Except ReadFailure (Option Frame)}
    (concludes : conclusion? reading.decoder last = some answer) :
    (reading.finish answer).Accounts start source :=
  ⟨⟨earlier, last, _, made, tracks.comes, concludes⟩, tracks.modest, tracks.unread⟩

theorem accounts_fail
    (tracks : reading.Tracks start source)
    {earlier : List Call}
    {last : Call}
    (made : reading.calls.toList = earlier ++ [last])
    {event : Log.Event}
    {error : Error}
    {midFrame : Bool}
    (concludes : conclusion? reading.decoder last = some (.error { error, midFrame })) :
    (reading.fail event error midFrame).Accounts start source :=
  accounts_finish (tracks.tell (reading.events.push event)) made concludes

/-- Octets that were asked for are decoded whole. -/
theorem accounts_decode
    {earlier : List Call}
    {last : Call}
    (made : reading.calls.toList = earlier ++ [last])
    (comes : start.verdict (broughtBy earlier) =
      ⟨reading.decoder, [], .ok (.needMore reading.decoder.wanted)⟩)
    (modest : Modest start reading.calls.toList)
    (unread : broughtBy reading.calls.toList ++ reading.inbound.unread = source.unread)
    (some_octets : last.brought ≠ [])
    (within : last.brought.length ≤ reading.decoder.wanted) :
    (reading.decode last.brought).Accounts start source := by
  have taken := Decoder.rest_of_length_le_wanted within
  have both : start.verdict (broughtBy reading.calls.toList) =
      reading.decoder.verdict last.brought := by
    rw [made, broughtBy_append, broughtBy_singleton, Decoder.verdict_append, comes]
    rfl
  rcases verdict : reading.decoder.verdict last.brought with
    ⟨next, rest, refusal | count | frame⟩
  · rw [verdict] at both taken
    obtain rfl : rest = [] := taken
    obtain ⟨rfl, -, answer⟩ := Decoder.Verdict.mk.inj verdict
    rw [decode, answer]
    exact ⟨⟨earlier, last, _, made, both, some_octets, rfl⟩, modest, unread⟩
  · have asked := Decoder.verdict_of_needMore (congrArg Decoder.Verdict.answer verdict)
    rw [verdict] at both taken asked
    obtain rfl : rest = [] := taken
    obtain ⟨rfl, -, answer⟩ := Decoder.Verdict.mk.inj verdict
    obtain ⟨-, wanted, positive⟩ := asked
    dsimp only at wanted
    subst wanted
    rw [decode, answer]
    exact ⟨positive, both, modest, unread⟩
  · rw [verdict] at both taken
    obtain rfl : rest = [] := taken
    obtain ⟨rfl, -, answer⟩ := Decoder.Verdict.mk.inj verdict
    rw [decode, answer]
    exact ⟨⟨earlier, last, _, made, both, some_octets, rfl⟩, modest, unread⟩

/-- Reading from the channel leaves everything to come, or ends the read as it should. -/
theorem accounts_receive
    (tracks : reading.Tracks start source)
    (config : Config) :
    (reading.receive config).Accounts start source := by
  have positive : 0 < min reading.decoder.wanted config.chunkSize :=
    Nat.lt_min.mpr ⟨tracks.waits, chunkSize_pos config⟩
  have within : min reading.decoder.wanted config.chunkSize ≤ reading.decoder.wanted :=
    Nat.min_le_left _ _
  have unread := reading.inbound.unread_read (min reading.decoder.wanted config.chunkSize)
  have short := reading.inbound.length_brought_read_le
    (min reading.decoder.wanted config.chunkSize)
  unfold receive
  generalize min reading.decoder.wanted config.chunkSize = size at *
  -- A call that brings nothing only adds to the calls, whether the read goes on or not.
  have quiet : ∀ answer inbound,
      (Call.read size answer).brought = [] →
      Inbound.unread inbound = reading.inbound.unread →
      Tracks start source
        { reading with
          inbound
          ready := false
          calls := reading.calls.push (.read size answer) } := by
    intro answer inbound none unread
    refine tracks_of_quiet tracks none ?_ rfl rfl unread
    rintro size' answer' same
    cases same
    exact ⟨positive, within⟩
  dsimp only
  rcases brought : reading.inbound.read size with ⟨error | octets, inbound⟩
  · rw [brought] at unread
    have tracksNext := quiet (.error error) inbound rfl unread
    dsimp only
    split
    · exact tracksNext
    · rename_i final
      exact accounts_fail tracksNext Array.toList_push (if_neg final)
  · rw [brought] at unread short
    cases octets with
    | nil =>
        have tracksNext := quiet (.ok []) inbound rfl unread
        dsimp only
        split
        · rename_i inProgress
          refine accounts_fail tracksNext Array.toList_push ?_
          exact congrArg (fun failure => some (Except.error failure)) (if_pos inProgress)
        · rename_i idle
          refine accounts_fail tracksNext Array.toList_push ?_
          exact congrArg (fun failure => some (Except.error failure)) (if_neg idle)
    | cons octet octets =>
        have made : (reading.calls.push (.read size (.ok (octet :: octets)))).toList =
            reading.calls.toList ++ [.read size (.ok (octet :: octets))] :=
          Array.toList_push
        have wanted : (octet :: octets).length ≤ reading.decoder.wanted :=
          Nat.le_trans short within
        have accounts :
            Step.Accounts start source
              (decode
                { reading with
                  inbound
                  ready := false
                  calls := reading.calls.push (.read size (.ok (octet :: octets))) }
                (Call.read size (.ok (octet :: octets))).brought) := by
          refine accounts_decode made tracks.comes ?_ ?_ (List.cons_ne_nil octet octets) wanted
          · rw [made]
            refine modest_append tracks.modest ?_
            rintro size' answer same
            cases same
            exact ⟨reading.decoder, tracks.comes, positive, within, short⟩
          · rw [made, broughtBy_append, broughtBy_singleton, List.append_assoc]
            exact (congrArg (_ ++ ·) unread).trans tracks.unread
        exact accounts

/-- A pass leaves everything to come, or ends the read as it should. -/
theorem accounts_pass
    (tracks : reading.Tracks start source)
    (config : Config)
    (limit : Option Duration) :
    (reading.pass config limit).Accounts start source := by
  unfold pass
  split
  · exact accounts_receive tracks config
  · have tracksNext : ∀ wait,
        Tracks start source
          { reading with
            inbound := reading.inbound.poll.2
            calls := reading.calls.push (.poll wait reading.inbound.poll.1) } :=
      fun wait => tracks_of_quiet tracks rfl
        (fun size answer same => Call.noConfusion same) rfl rfl reading.inbound.unread_poll
    dsimp only
    rcases answered : reading.inbound.poll with ⟨error | _ | _, inbound⟩
    · rw [answered] at tracksNext
      exact accounts_fail (tracksNext _) Array.toList_push rfl
    · rw [answered] at tracksNext
      dsimp only
      split
      · rename_i inProgress
        exact accounts_fail (tracksNext _) Array.toList_push (if_pos inProgress)
      · rename_i idle
        exact accounts_finish ((tracksNext limit).tell _) Array.toList_push (if_neg idle)
    · rw [answered] at tracksNext
      exact accounts_receive (tracksNext _) config

/-- A read accounts for its calls. -/
theorem accounts_run
    (tracks : reading.Tracks start source)
    (config : Config)
    (limit : Option Duration) :
    (reading.run config limit).Accounts start source := by
  fun_induction run reading config limit with
  | case1 reading ended step =>
      have accounts := accounts_pass tracks config limit
      rw [step] at accounts
      exact accounts
  | case2 reading next step shorter inductionHypothesis =>
      have accounts := accounts_pass tracks config limit
      rw [step] at accounts
      exact inductionHypothesis accounts

end Reading
end WebSocket
