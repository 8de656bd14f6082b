import Mathlib.Data.List.Chain
import WebSocket.Proofs.Decoder.Passes
import WebSocket.Proofs.Endpoint.Waiting

/-!
# The passes of a read

A read makes another pass only for octets that it has taken from the channel, or for an
interruption that the channel has reported. So what the channel has still to bring bounds the
passes, and each of them reads from the channel once at most.
-/

namespace WebSocket

/-- Whether what arrives is an interruption. -/
def Arrival.isInterruption : Arrival → Bool
  | .fault error => error.isInterruption
  | _ => false

/-- Whether a call reads from the channel. -/
def Call.isRead : Call → Bool
  | .read _ _ => true
  | _ => false

namespace Inbound

/-! ## What a read brings -/

/-- The number of interruptions that have not been reported. -/
def interruptions (inbound : Inbound) : Nat :=
  inbound.arrivals.countP Arrival.isInterruption

/-- Whether a channel has brought octets, or a single interruption, and nothing else. -/
inductive Brings (inbound next : Inbound) : Prop
  | octets
      {octets : List UInt8}
      (some_octets : octets ≠ [])
      (unread : octets ++ next.unread = inbound.unread)
      (interruptions : next.interruptions = inbound.interruptions)
  | interruption
      (unread : next.unread = inbound.unread)
      (interruptions : next.interruptions + 1 = inbound.interruptions)

/-- What has been brought is no longer to come. -/
theorem Brings.lowers
    {inbound next : Inbound}
    (brings : inbound.Brings next) :
    next.unread.length + next.interruptions + 1 ≤
      inbound.unread.length + inbound.interruptions := by
  cases brings with
  | octets some_octets unread interruptions =>
      rw [← unread, interruptions, List.length_append]
      have taken := List.length_pos_iff.mpr some_octets
      omega
  | interruption unread interruptions =>
      rw [unread, ← interruptions, Nat.add_assoc]

theorem interruptions_poll (inbound : Inbound) :
    inbound.poll.2.interruptions = inbound.interruptions := by
  unfold poll
  split <;> rfl

/-- A read takes the interruption off the queue that it reports, and no other one. -/
theorem interruptions_read (inbound : Inbound) (size : Nat) :
    (inbound.read size).2.interruptions +
        (match (inbound.read size).1 with
          | .error error => if error.isInterruption then 1 else 0
          | .ok _ => 0) =
      inbound.interruptions := by
  obtain ⟨arrivals, readiness, joinsArrivals⟩ := inbound
  rcases arrivals with _ | ⟨chunk | error | _ | _, later⟩
  · rfl
  · change (if (chunk.drop size).isEmpty then later
      else .octets (chunk.drop size) :: later).countP Arrival.isInterruption =
        (Arrival.octets chunk :: later).countP Arrival.isInterruption
    split <;> simp [Arrival.isInterruption]
  · simp only [interruptions, read, List.countP_cons]
    rfl
  · simp [interruptions, read, Arrival.isInterruption]
  · rfl

end Inbound

namespace Reading

/-! ## What a pass takes -/

/-- Whether the channel has brought something if another pass follows. -/
def Step.Takes (source : Inbound) : Step → Prop
  | .finished _ => True
  | .again next => source.Brings next.inbound

variable
    {reading : Reading}
    {source : Inbound}
    {config : Config}
    {limit : Option Duration}

theorem takes_decode
    (brings : source.Brings reading.inbound)
    (octets : List UInt8) :
    (reading.decode octets).Takes source := by
  unfold decode
  dsimp only
  split
  · trivial
  · exact brings
  · trivial

/-- Behind a read from the channel another pass follows only if that brought something. -/
theorem takes_receive
    (unread : reading.inbound.unread = source.unread)
    (interruptions : reading.inbound.interruptions = source.interruptions)
    (config : Config) :
    (reading.receive config).Takes source := by
  have bytes := reading.inbound.unread_read (min reading.decoder.wanted config.chunkSize)
  have faults :=
    reading.inbound.interruptions_read (min reading.decoder.wanted config.chunkSize)
  rw [unread] at bytes
  rw [interruptions] at faults
  unfold receive
  generalize min reading.decoder.wanted config.chunkSize = size at *
  dsimp only
  rcases brought : reading.inbound.read size with ⟨error | octets, inbound⟩
  · rw [brought] at bytes faults
    dsimp only at faults ⊢
    split
    · rename_i interrupts
      rw [if_pos interrupts] at faults
      exact .interruption bytes faults
    · trivial
  · rw [brought] at bytes faults
    cases octets with
    | nil =>
        dsimp only
        split <;> trivial
    | cons octet octets =>
        have brings : source.Brings inbound :=
          .octets (List.cons_ne_nil octet octets) bytes faults
        exact takes_decode brings _

/-- Every pass that another one follows has taken something from the channel. -/
theorem takes_pass
    (reading : Reading)
    (config : Config)
    (limit : Option Duration) :
    (reading.pass config limit).Takes reading.inbound := by
  unfold pass
  split
  · exact takes_receive rfl rfl config
  · dsimp only
    split
    · refine takes_receive ?_ ?_ config
      · exact reading.inbound.unread_poll
      · exact reading.inbound.interruptions_poll
    · split <;> trivial
    · trivial

/-! ## The passes of a read -/

/-- Whether a read makes the given passes, from the first one to the one that ends it. -/
abbrev GoesThrough
    (config : Config)
    (limit : Option Duration)
    (first : Reading)
    (passes : List Reading)
    (ended : Ended) : Prop :=
  Visits (fun reading next => reading.pass config limit = .again next)
    (fun reading => reading.pass config limit = .finished ended) first passes

/-- Every read makes passes until one of them ends it. -/
theorem exists_goesThrough
    (reading : Reading)
    (config : Config)
    (limit : Option Duration) :
    ∃ passes, GoesThrough config limit reading passes (reading.run config limit) := by
  fun_induction run reading config limit with
  | case1 reading ended step => exact ⟨_, .last step⟩
  | case2 reading next step shorter inductionHypothesis =>
      obtain ⟨passes, visits⟩ := inductionHypothesis
      exact ⟨_, .again step visits⟩

variable
    {passes : List Reading}
    {ended : Ended}

/-- Between two passes of a read the channel brings something. -/
theorem GoesThrough.isChain (visits : GoesThrough config limit reading passes ended) :
    passes.IsChain fun pass next => pass.inbound.Brings next.inbound := by
  refine Visits.isChain (fun _ => True) ?_ trivial visits
  intro pass next _ step
  have takes := pass.takes_pass config limit
  rw [step] at takes
  exact ⟨trivial, takes⟩

/-- What the channel has still to bring bounds the passes of a read. -/
theorem GoesThrough.length_le (visits : GoesThrough config limit reading passes ended) :
    passes.length ≤ reading.inbound.unread.length + reading.inbound.interruptions + 1 := by
  have bound : 1 * passes.length ≤
      reading.inbound.unread.length + reading.inbound.interruptions + 1 := by
    refine Visits.length_le (fun _ => True)
      (fun pass => pass.inbound.unread.length + pass.inbound.interruptions) ?_ trivial visits
    intro pass next _ step
    have takes := pass.takes_pass config limit
    rw [step] at takes
    exact ⟨trivial, takes.lowers⟩
  rwa [Nat.one_mul] at bound

theorem Makes.countP_isRead_le
    {made : List Call}
    (makes : reading.Makes config limit made) :
    made.countP Call.isRead ≤ 1 := by
  cases makes <;> exact Nat.le_of_ble_eq_true rfl

/-- Each pass reads from the channel once at most. -/
theorem GoesThrough.countP_isRead_le
    (visits : GoesThrough config limit reading passes ended) :
    ended.calls.toList.countP Call.isRead ≤
      reading.calls.toList.countP Call.isRead + passes.length := by
  induction visits with
  | @last reading step =>
      obtain ⟨made, makes, hasMade⟩ := reading.makes_pass config limit
      rw [step] at hasMade
      rw [show ended.calls.toList = _ from hasMade, List.countP_append, List.length_singleton]
      exact Nat.add_le_add_left makes.countP_isRead_le _
  | @again reading next passes step visits inductionHypothesis =>
      obtain ⟨made, makes, hasMade, -⟩ := by
        have makes := reading.makes_pass config limit
        rwa [step] at makes
      have one := makes.countP_isRead_le
      rw [hasMade, List.countP_append] at inductionHypothesis
      rw [List.length_cons]
      omega

end Reading

/-- No call goes on for ever. Feeding a decoder, whatever its state, takes no more passes than
half the octets and two, and each of them but the first takes a header of two octets at least
if another one follows. A read, in whatever state the endpoint is, takes octets or one
interruption off the channel with each pass that another one follows. So it makes no more
passes, and no more reads from the channel, than there are octets and interruptions to come,
and one. -/
theorem exists_goesThrough_le :
    (∀ (decoder : Decoder) (input : List UInt8), ∃ passes,
      Decoder.Feeding.GoesThrough { decoder, input } passes (decoder.feed input) ∧
        passes.tail.IsChain Decoder.Feeding.TakesHeader ∧
        passes.length ≤ input.length / 2 + 2) ∧
      ∀ (endpoint : Endpoint) (limit : Option Duration) (ready : Bool),
        let (report, next) := endpoint.read limit ready
        let inbound := endpoint.channel.inbound
        let bound := inbound.unread.length + inbound.interruptions + 1
        report.calls.toList.countP Call.isRead ≤ bound ∧
          ((endpoint.hasFailed = true ∧
              report.answer = .error .alreadyClosed ∧ report.calls = #[] ∧ next = endpoint) ∨
            ∃ passes ended,
              Reading.GoesThrough endpoint.config limit (endpoint.beginRead ready) passes
                ended ∧
              (passes.IsChain fun pass next => pass.inbound.Brings next.inbound) ∧
              passes.length ≤ bound ∧
              report.answer = ended.answer.mapError ReadFailure.error ∧
              report.calls = ended.calls ∧
              next = endpoint.afterRead ended) := by
  refine ⟨Decoder.exists_goesThrough_feed, ?_⟩
  intro endpoint limit ready
  cases hasFailed : endpoint.hasFailed with
  | true =>
      rw [Endpoint.read, if_pos hasFailed]
      exact ⟨Nat.zero_le _, .inl ⟨rfl, rfl, rfl, rfl⟩⟩
  | false =>
      rw [Endpoint.read_of_not_hasFailed hasFailed]
      obtain ⟨passes, visits⟩ :=
        (endpoint.beginRead ready).exists_goesThrough endpoint.config limit
      have few := visits.length_le
      have reads := visits.countP_isRead_le
      refine ⟨?_, .inr ⟨passes, _, visits, visits.isChain, few, rfl, rfl, rfl⟩⟩
      refine Nat.le_trans reads ?_
      rw [show (endpoint.beginRead ready).calls.toList.countP Call.isRead = 0 from rfl,
        Nat.zero_add]
      exact few

end WebSocket
