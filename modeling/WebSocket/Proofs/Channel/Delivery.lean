import Mathlib.Control.Monad.Basic
import Mathlib.Logic.Function.Iterate
import WebSocket.Channel.Outbound

/-!
# Deliveries

A delivery offers octets to a channel until all of them are accepted. The channel may answer
as it likes, call by call and without end: it may accept any front of an offer, nothing at
all, or fail. What it has accepted and what is left are the octets at all times, and the
delivery comes to an end unless it is interrupted for ever.
-/

namespace WebSocket

/-! ## Answers and offers -/

namespace Acceptance

/-- Whether an answer only interrupts. -/
def isInterruption : Acceptance → Bool
  | .upTo _ => false
  | .fault error => error.isInterruption

/-- How an answer ends the offering of octets, if it does. An interruption does not, and an
answer that takes nothing counts as a failure. -/
def failure? : Acceptance → Option IoError
  | .upTo 0 => some .frameCutShort
  | .upTo (_ + 1) => none
  | .fault error => if error.isInterruption then none else some error

/-- What an offer of octets is answered with. No more is accepted than is offered. -/
def reply : Acceptance → List UInt8 → Except IoError Nat
  | .upTo count, offered => .ok (min count offered.length)
  | .fault error, _ => .error error

theorem failure?_of_isInterruption
    {answer : Acceptance}
    (interrupts : answer.isInterruption = true) :
    answer.failure? = none := by
  cases answer with
  | upTo count => cases interrupts
  | fault error => exact if_pos interrupts

/-- No failure is an interruption. -/
theorem isInterruption_of_failure
    {answer : Acceptance}
    {error : IoError}
    (fails : answer.failure? = some error) :
    error.isInterruption = false := by
  cases answer with
  | upTo count =>
      cases count <;> cases fails
      rfl
  | fault error' =>
      rw [failure?] at fails
      split at fails <;> cases fails
      exact Bool.eq_false_iff.mpr ‹_›

end Acceptance

/-- An offer of octets, with its answer. -/
abbrev Offer := List UInt8 × Except IoError Nat

namespace Offer

/-- The octets that an offer had accepted. -/
def accepted : Offer → List UInt8
  | (offered, .ok count) => offered.take count
  | (_, .error _) => []

/-- What an offer was answered with. -/
def acceptance : Offer → Acceptance
  | (_, .ok count) => .upTo count
  | (_, .error error) => .fault error

/-- How an offer ends a delivery, if it does. -/
def failure? (offer : Offer) : Option IoError := offer.acceptance.failure?

/-- Whether an offer was only interrupted. -/
def isInterrupted (offer : Offer) : Bool := offer.acceptance.isInterruption

theorem accepted_append_drop (offer : Offer) :
    offer.accepted ++ offer.1.drop offer.accepted.length = offer.1 := by
  obtain ⟨offered, count | error⟩ := offer
  · rfl
  · exact (List.prefix_iff_eq_append.mp (List.take_prefix _ offered))

theorem accepted_of_failure
    {offer : Offer}
    {error : IoError}
    (fails : offer.failure? = some error) :
    offer.accepted = [] := by
  obtain ⟨offered, error' | _ | count⟩ := offer
  · rfl
  · rfl
  · cases fails

theorem accepted_of_isInterrupted
    {offer : Offer}
    (interrupted : offer.isInterrupted = true) :
    offer.accepted = [] := by
  obtain ⟨offered, error | count⟩ := offer
  · rfl
  · cases interrupted

/-- An offer of something fails as the answer does that it is met with. -/
theorem failure?_reply
    {octets : List UInt8}
    (some_octets : octets ≠ [])
    (answer : Acceptance) :
    failure? (octets, answer.reply octets) = answer.failure? := by
  obtain ⟨first, later, rfl⟩ := List.exists_cons_of_ne_nil some_octets
  cases answer with
  | fault error => rfl
  | upTo count =>
      cases count with
      | zero =>
          rw [Acceptance.reply, Nat.zero_min]
          rfl
      | succ count =>
          rw [Acceptance.reply, List.length_cons, Nat.add_min_add_right]
          rfl

theorem isInterrupted_reply (octets : List UInt8) (answer : Acceptance) :
    isInterrupted (octets, answer.reply octets) = answer.isInterruption := by
  cases answer <;> rfl

end Offer

/-- The octets that offers had accepted, in order. -/
def acceptedBy (offers : List Offer) : List UInt8 := offers.flatMap Offer.accepted

@[simp] theorem acceptedBy_append (earlier later : List Offer) :
    acceptedBy (earlier ++ later) = acceptedBy earlier ++ acceptedBy later :=
  List.flatMap_append

@[simp] theorem acceptedBy_singleton (offer : Offer) :
    acceptedBy [offer] = offer.accepted := List.flatMap_singleton _ offer

/-! ## The last answer -/

/-- An item of a list that has grown by one is the last one or was there before. -/
theorem eq_last_or_before
    {α : Type}
    {items before after : List α}
    {item last : α}
    (whole : items ++ [last] = before ++ item :: after) :
    (before = items ∧ item = last ∧ after = []) ∨
      ∃ between, items = before ++ item :: between := by
  rcases List.eq_nil_or_concat after with rfl | ⟨between, final, rfl⟩
  · obtain ⟨rfl, same⟩ := List.append_inj' whole rfl
    exact .inl ⟨rfl, (List.singleton_inj.mp same).symm, rfl⟩
  · rw [List.concat_eq_append, ← List.cons_append, ← List.append_assoc] at whole
    exact .inr ⟨between, (List.append_inj' whole rfl).1⟩

namespace Outbound

/-- Whether offering octets may end as it does with the answers that it was given: none of them
fails if it succeeds, and the last one alone fails if it does not, with the same error. -/
def Ends (used : List Acceptance) : Except IoError Unit → Prop
  | .ok () => ∀ answer ∈ used, answer.failure? = none
  | .error error =>
      ∃ earlier last, used = earlier ++ [last] ∧
        (∀ answer ∈ earlier, answer.failure? = none) ∧ last.failure? = some error

/-- Answers that do not fail may come before any others. -/
theorem Ends.append
    {used others : List Acceptance}
    (first : Ends used (.ok ()))
    {answer : Except IoError Unit}
    (second : Ends others answer) :
    Ends (used ++ others) answer := by
  cases answer with
  | ok done => exact List.forall_mem_append.mpr ⟨first, second⟩
  | error error =>
      obtain ⟨earlier, last, rfl, passed, fails⟩ := second
      exact ⟨used ++ earlier, last, (List.append_assoc _ _ _).symm,
        List.forall_mem_append.mpr ⟨first, passed⟩, fails⟩

/-- An answer that fails is the last one, and the end is as it has it. -/
theorem Ends.of_failure
    {used earlier later : List Acceptance}
    {answer : Except IoError Unit}
    (ends : Ends used answer)
    {last : Acceptance}
    (given : used = earlier ++ last :: later)
    {error : IoError}
    (fails : last.failure? = some error) :
    later = [] ∧ answer = .error error := by
  cases answer with
  | ok done => cases (ends last (by simp [given])).symm.trans fails
  | error error' =>
      obtain ⟨front, final, whole, passed, failsFinal⟩ := ends
      rcases eq_last_or_before (whole.symm.trans given) with ⟨rfl, rfl, rfl⟩ | ⟨between, rfl⟩
      · cases failsFinal.symm.trans fails
        exact ⟨rfl, rfl⟩
      · cases (passed last (by simp)).symm.trans fails

end Outbound

/-! ## Deliveries -/

/-- Octets on their way to a channel. -/
structure Delivery where
  /-- The octets that have not been accepted. -/
  left : List UInt8
  /-- The offers that were made, in order. -/
  offers : List Offer := []
  /-- What the delivery has come to, once it has come to an end. -/
  answer? : Option (Except IoError Unit) := none
  deriving DecidableEq

namespace Delivery

/-- The offer that is made next over a channel that gives the answers of a script, one to
each call. -/
def due (script : Nat → Acceptance) (delivery : Delivery) : Offer :=
  (delivery.left, (script delivery.offers.length).reply delivery.left)

/-- Offer what is left, unless there is nothing left or the delivery has come to an end. -/
def turn (script : Nat → Acceptance) (delivery : Delivery) : Delivery :=
  match delivery.answer? with
  | some _ => delivery
  | none =>
      if delivery.left.isEmpty then { delivery with answer? := some (.ok ()) }
      else
        let offer := delivery.due script
        let offers := delivery.offers ++ [offer]
        match offer.failure? with
        | none => { delivery with offers, left := delivery.left.drop offer.accepted.length }
        | some error => { delivery with offers, answer? := some (.error error) }

/-- The delivery of octets after a number of turns. -/
def after (script : Nat → Acceptance) (turns : Nat) (octets : List UInt8) : Delivery :=
  (turn script)^[turns] { left := octets }

/-- What a turn leads to. -/
inductive Moves (script : Nat → Acceptance) (delivery : Delivery) : Delivery → Prop
  | ended
      {answer : Except IoError Unit}
      (answered : delivery.answer? = some answer) :
      Moves script delivery delivery
  | finished
      (unanswered : delivery.answer? = none)
      (none_left : delivery.left = []) :
      Moves script delivery { delivery with answer? := some (.ok ()) }
  | passed
      (unanswered : delivery.answer? = none)
      (some_left : delivery.left ≠ [])
      (passes : (delivery.due script).failure? = none) :
      Moves script delivery
        { delivery with
          left := delivery.left.drop (delivery.due script).accepted.length
          offers := delivery.offers ++ [delivery.due script] }
  | failed
      {error : IoError}
      (unanswered : delivery.answer? = none)
      (some_left : delivery.left ≠ [])
      (fails : (delivery.due script).failure? = some error) :
      Moves script delivery
        { delivery with
          offers := delivery.offers ++ [delivery.due script]
          answer? := some (.error error) }

variable
    {script : Nat → Acceptance}
    {delivery : Delivery}
    {octets : List UInt8}

theorem Moves.turn_eq
    {next : Delivery}
    (moves : Moves script delivery next) :
    delivery.turn script = next := by
  cases moves with
  | ended answered => rw [turn, answered]
  | finished unanswered none_left => simp [turn, unanswered, none_left]
  | passed unanswered some_left passes => simp [turn, unanswered, some_left, passes]
  | failed unanswered some_left fails => simp [turn, unanswered, some_left, fails]

theorem moves_turn (script : Nat → Acceptance) (delivery : Delivery) :
    Moves script delivery (delivery.turn script) := by
  suffices moves : ∃ next, Moves script delivery next by
    obtain ⟨next, moves⟩ := moves
    rwa [moves.turn_eq]
  cases unanswered : delivery.answer? with
  | some answer => exact ⟨_, .ended unanswered⟩
  | none =>
      by_cases some_left : delivery.left = []
      · exact ⟨_, .finished unanswered some_left⟩
      · cases failure : (delivery.due script).failure? with
        | none => exact ⟨_, .passed unanswered some_left failure⟩
        | some error => exact ⟨_, .failed unanswered some_left failure⟩

theorem length_offers_le_turn (script : Nat → Acceptance) (delivery : Delivery) :
    delivery.offers.length ≤ (delivery.turn script).offers.length := by
  have moves := moves_turn script delivery
  generalize delivery.turn script = next at moves ⊢
  cases moves <;> simp

theorem isInterrupted_due (script : Nat → Acceptance) (delivery : Delivery) :
    (delivery.due script).isInterrupted = (script delivery.offers.length).isInterruption :=
  Offer.isInterrupted_reply _ _

/-! ## What holds at all times -/

/-- Whether a delivery has ended as its offers did, and with nothing left exactly if it has
succeeded. All of them passed if it has not come to an end. -/
def Ends (delivery : Delivery) : Prop :=
  match delivery.answer? with
  | none => ∀ offer ∈ delivery.offers, offer.failure? = none
  | some answer =>
      (answer = .ok () ↔ delivery.left = []) ∧
        Outbound.Ends (delivery.offers.map Offer.acceptance) answer

theorem Ends.passed
    (ends : delivery.Ends)
    (unanswered : delivery.answer? = none) :
    ∀ offer ∈ delivery.offers, offer.failure? = none := by
  rwa [Ends, unanswered] at ends

theorem Ends.ended
    (ends : delivery.Ends)
    {answer : Except IoError Unit}
    (answered : delivery.answer? = some answer) :
    (answer = .ok () ↔ delivery.left = []) ∧
      Outbound.Ends (delivery.offers.map Offer.acceptance) answer := by
  rwa [Ends, answered] at ends

/-- Whether octets are delivered once and in order over a channel that follows a script. -/
structure Delivers
    (script : Nat → Acceptance)
    (octets : List UInt8)
    (delivery : Delivery) : Prop where
  /-- What was accepted is the front of the octets, and the rest of them is left. -/
  conserved : acceptedBy delivery.offers ++ delivery.left = octets
  /-- Each offer is of what those before it have left, which is something, and is met with the
  next answer of the script. -/
  offered : ∀ earlier offer later, delivery.offers = earlier ++ offer :: later →
    acceptedBy earlier ++ offer.1 = octets ∧ offer.1 ≠ [] ∧
      offer.2 = (script earlier.length).reply offer.1
  ends : delivery.Ends

theorem delivers_start (script : Nat → Acceptance) (octets : List UInt8) :
    Delivers script octets { left := octets } where
  conserved := rfl
  offered := by
    intro earlier offer later whole
    cases earlier <;> cases whole
  ends := List.forall_mem_nil _

/-- An offer of what is left is an offer of what those before it have left. -/
theorem Delivers.offered_append
    (delivers : Delivers script octets delivery)
    (some_left : delivery.left ≠ []) :
    ∀ earlier offer later,
      delivery.offers ++ [delivery.due script] = earlier ++ offer :: later →
      acceptedBy earlier ++ offer.1 = octets ∧ offer.1 ≠ [] ∧
        offer.2 = (script earlier.length).reply offer.1 := by
  intro earlier offer later whole
  rcases eq_last_or_before whole with ⟨rfl, rfl, -⟩ | ⟨between, made⟩
  · exact ⟨delivers.conserved, some_left, rfl⟩
  · exact delivers.offered earlier offer between made

theorem Delivers.turn
    (delivers : Delivers script octets delivery) :
    Delivers script octets (delivery.turn script) := by
  have moves := moves_turn script delivery
  generalize delivery.turn script = next at moves ⊢
  cases moves with
  | ended answered => exact delivers
  | finished unanswered none_left =>
      have passed := delivers.ends.passed unanswered
      exact ⟨delivers.conserved, delivers.offered, iff_of_true rfl none_left,
        List.forall_mem_map.mpr passed⟩
  | passed unanswered some_left passes =>
      have kept := (delivery.due script).accepted_append_drop
      have passed := delivers.ends.passed unanswered
      refine ⟨?_, delivers.offered_append some_left, ?_⟩
      · rw [acceptedBy_append, acceptedBy_singleton, List.append_assoc]
        exact (congrArg _ kept).trans delivers.conserved
      · rw [Ends, unanswered]
        exact List.forall_mem_append.mpr ⟨passed, List.forall_mem_singleton.mpr passes⟩
  | failed unanswered some_left fails =>
      have passed := delivers.ends.passed unanswered
      refine ⟨?_, delivers.offered_append some_left, iff_of_false nofun some_left, _, _,
        List.map_append, List.forall_mem_map.mpr passed, fails⟩
      rw [acceptedBy_append, acceptedBy_singleton, Offer.accepted_of_failure fails,
        List.append_nil]
      exact delivers.conserved

/-- Octets are delivered once and in order, however many turns are made. -/
theorem delivers_after
    (script : Nat → Acceptance)
    (turns : Nat)
    (octets : List UInt8) :
    Delivers script octets (after script turns octets) := by
  induction turns with
  | zero => exact delivers_start script octets
  | succ turns inductionHypothesis =>
      rw [after, Function.iterate_succ_apply']
      exact inductionHypothesis.turn

namespace Delivers

variable (delivers : Delivers script octets delivery)

include delivers

/-- A delivery of nothing makes no offer. -/
theorem offers_eq_nil (nothing : octets = []) : delivery.offers = [] := by
  cases made : delivery.offers with
  | nil => rfl
  | cons offer later =>
      obtain ⟨whole, some_octets, -⟩ := delivers.offered [] offer later made
      rw [nothing] at whole
      exact absurd (List.append_eq_nil_iff.mp whole).2 some_octets

/-- A delivery succeeds exactly if all octets were accepted. -/
theorem answer_eq_ok_iff
    {answer : Except IoError Unit}
    (answered : delivery.answer? = some answer) :
    answer = .ok () ↔ acceptedBy delivery.offers = octets := by
  have whole : acceptedBy delivery.offers = octets ↔ delivery.left = [] := by
    rw [← delivers.conserved, List.self_eq_append_right]
  exact (delivers.ends.ended answered).1.trans whole.symm

/-- An offer fails exactly as its answer does. -/
theorem failure?_eq
    {earlier later : List Offer}
    {offer : Offer}
    (made : delivery.offers = earlier ++ offer :: later) :
    offer.failure? = (script earlier.length).failure? := by
  obtain ⟨offered, reply⟩ := offer
  obtain ⟨-, some_octets, replied⟩ := delivers.offered earlier _ later made
  dsimp only at some_octets replied
  rw [replied, Offer.failure?_reply some_octets]

/-- An offer that fails is the last one. The delivery fails as it does, with a part of the
octets. -/
theorem of_failure
    {earlier later : List Offer}
    {offer : Offer}
    (made : delivery.offers = earlier ++ offer :: later)
    {error : IoError}
    (fails : offer.failure? = some error) :
    later = [] ∧ delivery.answer? = some (.error error) ∧
      acceptedBy delivery.offers ≠ octets := by
  cases answered : delivery.answer? with
  | none =>
      have passed := delivers.ends.passed answered offer (by simp [made])
      cases passed.symm.trans fails
  | some answer =>
      have given : delivery.offers.map Offer.acceptance =
          earlier.map Offer.acceptance ++ offer.acceptance :: later.map Offer.acceptance := by
        rw [made, List.map_append, List.map_cons]
      obtain ⟨none_later, rfl⟩ := (delivers.ends.ended answered).2.of_failure given fails
      exact ⟨List.map_eq_nil_iff.mp none_later, rfl,
        mt (delivers.answer_eq_ok_iff answered).mpr nofun⟩

/-- Behind an offer that was interrupted the same octets are offered again. -/
theorem exists_again
    {answer : Except IoError Unit}
    (answered : delivery.answer? = some answer)
    {earlier later : List Offer}
    {offer : Offer}
    (made : delivery.offers = earlier ++ offer :: later)
    (interrupted : offer.isInterrupted = true) :
    ∃ reply rest, later = (offer.1, reply) :: rest := by
  obtain ⟨whole, some_octets, -⟩ := delivers.offered earlier offer later made
  have nothing := Offer.accepted_of_isInterrupted interrupted
  cases later with
  | cons second rest =>
      have made' : delivery.offers = (earlier ++ [offer]) ++ second :: rest := by
        rw [made, List.append_assoc]
        rfl
      obtain ⟨again, -⟩ := delivers.offered _ second rest made'
      rw [acceptedBy_append, acceptedBy_singleton, nothing, List.append_nil, ← whole] at again
      exact ⟨second.2, rest, by rw [← List.append_cancel_left again]⟩
  | nil =>
      -- All of what was offered is left, so the delivery fails, but not with this offer.
      have conserved := delivers.conserved
      rw [made, acceptedBy_append, acceptedBy_singleton, nothing, List.append_nil,
        ← whole] at conserved
      have left := List.append_cancel_left conserved
      obtain ⟨succeeds, ends⟩ := delivers.ends.ended answered
      cases answer with
      | ok done => exact absurd (left.symm.trans (succeeds.mp rfl)) some_octets
      | error error =>
          obtain ⟨front, last, given, -, fails⟩ := ends
          rw [made, List.map_append] at given
          cases (List.append_inj' given rfl).2
          cases (Acceptance.failure?_of_isInterruption interrupted).symm.trans fails

/-- No delivery fails by an interruption. -/
theorem isInterruption_eq_false
    {error : IoError}
    (answered : delivery.answer? = some (.error error)) :
    error.isInterruption = false := by
  obtain ⟨-, earlier, last, -, -, fails⟩ := delivers.ends.ended answered
  exact Acceptance.isInterruption_of_failure fails

end Delivers

/-! ## The end of a delivery -/

/-- Whether a script is not interrupted for ever. -/
def Relents (script : Nat → Acceptance) : Prop :=
  ∀ first, ∃ later, first ≤ later ∧ (script later).isInterruption = false

/-- An offer that passes had something accepted or was interrupted. -/
theorem length_drop_accepted_lt
    (some_left : delivery.left ≠ [])
    (passes : (delivery.due script).failure? = none)
    (taken : (script delivery.offers.length).isInterruption = false) :
    (delivery.left.drop (delivery.due script).accepted.length).length <
      delivery.left.length := by
  have some_octets := List.length_pos_iff.mpr some_left
  unfold due at passes ⊢
  rw [Offer.failure?_reply some_left] at passes
  generalize script delivery.offers.length = acceptance at *
  cases acceptance with
  | fault error => cases passes.symm.trans (if_neg (Bool.eq_false_iff.mp taken))
  | upTo most =>
      cases most with
      | zero => cases passes
      | succ most =>
          rw [Acceptance.reply, Offer.accepted, List.length_drop, List.length_take]
          omega

/-- A turn is the last one, leaves less, or is interrupted. -/
theorem turn_cases (script : Nat → Acceptance) (delivery : Delivery) :
    (delivery.turn script).answer?.isSome ∨
      (delivery.turn script).left.length < delivery.left.length ∨
      (script delivery.offers.length).isInterruption = true ∧
        (delivery.turn script).left = delivery.left ∧
        (delivery.turn script).offers.length = delivery.offers.length + 1 := by
  have moves := moves_turn script delivery
  generalize delivery.turn script = next at moves ⊢
  cases moves with
  | ended answered => exact .inl (Option.isSome_iff_exists.mpr ⟨_, answered⟩)
  | finished unanswered none_left => exact .inl rfl
  | failed unanswered some_left fails => exact .inl rfl
  | passed unanswered some_left passes =>
      cases taken : (script delivery.offers.length).isInterruption with
      | false => exact .inr (.inl (length_drop_accepted_lt some_left passes taken))
      | true =>
          have interrupted := (isInterrupted_due script delivery).trans taken
          refine .inr (.inr ⟨rfl, ?_, List.length_append⟩)
          rw [Offer.accepted_of_isInterrupted interrupted]
          rfl

/-- What is left gets shorter until the end, unless the delivery is interrupted for ever. -/
theorem exists_shorter
    (relents : Relents script)
    (delivery : Delivery) :
    ∃ turns, ((turn script)^[turns] delivery).answer?.isSome ∨
      ((turn script)^[turns] delivery).left.length < delivery.left.length := by
  obtain ⟨later, reached, taken⟩ := relents delivery.offers.length
  obtain ⟨distance, rfl⟩ := Nat.exists_eq_add_of_le reached
  clear reached
  -- The induction is on the distance to an answer that does more than interrupt.
  induction distance generalizing delivery with
  | zero =>
      refine ⟨1, ?_⟩
      rcases turn_cases script delivery with ended | less | ⟨interrupted, -, -⟩
      · exact .inl ended
      · exact .inr less
      · cases taken.symm.trans interrupted
  | succ distance nearer =>
      rcases turn_cases script delivery with ended | less | ⟨-, same, one_more⟩
      · exact ⟨1, .inl ended⟩
      · exact ⟨1, .inr less⟩
      · rw [Nat.add_comm distance, ← Nat.add_assoc, ← one_more] at taken
        obtain ⟨turns, found⟩ := nearer _ taken
        rw [same, ← Function.iterate_succ_apply] at found
        exact ⟨turns + 1, found⟩

/-- A delivery comes to an end, unless it is interrupted for ever. -/
theorem exists_end_of_relents
    (relents : Relents script)
    (delivery : Delivery) :
    ∃ turns, ((turn script)^[turns] delivery).answer?.isSome := by
  induction size : delivery.left.length using Nat.strongRecOn generalizing delivery with
  | _ size shorter =>
      subst size
      obtain ⟨turns, ended | less⟩ := exists_shorter relents delivery
      · exact ⟨turns, ended⟩
      · obtain ⟨more, ended⟩ := shorter _ less _ rfl
        refine ⟨more + turns, ?_⟩
        rwa [Function.iterate_add_apply]

theorem exists_answer_after (relents : Relents script) (octets : List UInt8) :
    ∃ turns answer, (after script turns octets).answer? = some answer := by
  obtain ⟨turns, ended⟩ := exists_end_of_relents relents { left := octets }
  exact ⟨turns, Option.isSome_iff_exists.mp ended⟩

end Delivery
end WebSocket
