import Mathlib.Data.Nat.Nth
import WebSocket.Proofs.Channel.Scripts

/-!
# Deliveries without their interruptions

Interruptions change nothing of a delivery but the number of its offers: without them it is the
delivery over the other answers of the script. With this, all is said of what a delivery comes
to: octets are delivered once and in order over any channel.
-/

namespace WebSocket
namespace Delivery

variable
    {script : Nat → Acceptance}
    {delivery : Delivery}

/-! ## Interruptions -/

/-- A delivery without its interruptions. -/
def calm (delivery : Delivery) : Delivery :=
  { delivery with offers := delivery.offers.filter (!·.isInterrupted) }

/-- The answers of a script that do more than interrupt, in order. -/
noncomputable def calmed (script : Nat → Acceptance) (call : Nat) : Acceptance :=
  script (Nat.nth (fun call => (script call).isInterruption = false) call)

/-- Whether the offers of a delivery are interrupted where its script interrupts. -/
def Counts (script : Nat → Acceptance) (delivery : Delivery) : Prop :=
  delivery.calm.offers.length =
    Nat.count (fun call => (script call).isInterruption = false) delivery.offers.length

theorem Counts.due_calmed
    (counts : Counts script delivery)
    (taken : (script delivery.offers.length).isInterruption = false) :
    delivery.calm.due (calmed script) = delivery.due script := by
  rw [due, calmed, counts, Nat.nth_count taken]
  rfl

/-- The next offer is counted unless it is interrupted. -/
theorem Counts.offered
    (counts : Counts script delivery)
    {next : Delivery}
    (made : next.offers = delivery.offers ++ [delivery.due script]) :
    Counts script next := by
  have interrupts := isInterrupted_due script delivery
  rw [Counts, calm] at counts ⊢
  rw [made, List.filter_append, List.length_append, counts, List.length_append,
    List.length_singleton, Nat.count_succ]
  cases taken : (script delivery.offers.length).isInterruption with
  | false => simp [interrupts.trans taken]
  | true => simp [interrupts.trans taken]

theorem Counts.turn (counts : Counts script delivery) :
    Counts script (delivery.turn script) ∧
      ((delivery.turn script).calm = delivery.calm ∨
        (delivery.turn script).calm = delivery.calm.turn (calmed script)) := by
  have moves := moves_turn script delivery
  generalize delivery.turn script = next at moves ⊢
  cases moves with
  | ended answered => exact ⟨counts, .inl rfl⟩
  | finished unanswered none_left =>
      have calm : Moves (calmed script) delivery.calm _ := .finished unanswered none_left
      exact ⟨counts, .inr calm.turn_eq.symm⟩
  | passed unanswered some_left passes =>
      refine ⟨counts.offered rfl, ?_⟩
      cases taken : (script delivery.offers.length).isInterruption with
      | true =>
          have interrupted := (isInterrupted_due script delivery).trans taken
          refine .inl ?_
          rw [Offer.accepted_of_isInterrupted interrupted]
          simp [calm, interrupted]
      | false =>
          rw [← counts.due_calmed taken] at passes
          have calm : Moves (calmed script) delivery.calm _ := .passed unanswered some_left passes
          refine .inr (.trans ?_ calm.turn_eq.symm)
          rw [counts.due_calmed taken]
          simp [Delivery.calm, (isInterrupted_due script delivery).trans taken]
  | failed unanswered some_left fails =>
      refine ⟨counts.offered rfl, .inr ?_⟩
      have taken : (delivery.due script).isInterrupted = false := by
        by_contra interrupted
        rw [Bool.not_eq_false] at interrupted
        cases (Acceptance.failure?_of_isInterruption interrupted).symm.trans fails
      have due := counts.due_calmed ((isInterrupted_due script delivery).symm.trans taken)
      rw [← due] at fails
      have calm : Moves (calmed script) delivery.calm _ := .failed unanswered some_left fails
      refine .trans ?_ calm.turn_eq.symm
      rw [due]
      simp [Delivery.calm, taken]

/-- Interruptions change nothing but the number of offers. -/
theorem exists_calm_after
    (script : Nat → Acceptance)
    (turns : Nat)
    (octets : List UInt8) :
    ∃ fewer, (after script turns octets).calm = after (calmed script) fewer octets := by
  suffices counts : Counts script (after script turns octets) ∧ _ from counts.2
  induction turns with
  | zero => exact ⟨rfl, 0, rfl⟩
  | succ turns inductionHypothesis =>
      obtain ⟨counts, fewer, calm⟩ := inductionHypothesis
      rw [after, Function.iterate_succ_apply']
      obtain ⟨countsThen, same | turned⟩ := counts.turn
      · exact ⟨countsThen, fewer, same.trans calm⟩
      · refine ⟨countsThen, fewer + 1, turned.trans ?_⟩
        rw [calm]
        exact (Function.iterate_succ_apply' ..).symm

/-! ## Octets are delivered once and in order -/

/-- What the delivery of octets over a channel that follows a script is at any time. -/
structure Faithful
    (script : Nat → Acceptance)
    (octets : List UInt8)
    (delivery : Delivery) : Prop extends Delivers script octets delivery where
  /-- No offer is made of nothing. -/
  nothing : octets = [] → delivery.offers = []
  /-- The delivery succeeds exactly if all octets were accepted. -/
  whole : ∀ answer, delivery.answer? = some answer →
    (answer = .ok () ↔ acceptedBy delivery.offers = octets)
  /-- An offer that fails is the last one. The delivery fails as it does, with a part of the
  octets. -/
  last : ∀ earlier offer later error, delivery.offers = earlier ++ offer :: later →
    offer.failure? = some error →
    later = [] ∧ delivery.answer? = some (.error error) ∧ acceptedBy delivery.offers ≠ octets
  /-- Interruptions change nothing but the number of offers. -/
  calm : ∃ fewer, delivery.calm = after (calmed script) fewer octets
  /-- Over a channel whose answers to these offers are those of the script, the octets are
  offered as they are here. -/
  accounts : ∀ outbound : Outbound,
    (∀ call < delivery.offers.length, outbound.endless octets.length call = script call) →
    outbound.Accounts octets delivery

/-- Octets are delivered once and in order, whatever a channel answers and however long it is
watched. The delivery comes to an end unless the channel interrupts it for ever. Offering octets
until all of them are accepted is such a delivery over the answers to come, up to its end. -/
theorem delivered_once_in_order (octets : List UInt8) :
    (∀ script turns, Faithful script octets (after script turns octets)) ∧
      (∀ script, Relents script →
        ∃ turns answer, (after script turns octets).answer? = some answer) ∧
      ∀ outbound : Outbound, ∃ turns answer,
        let delivery := after (outbound.endless octets.length) turns octets
        delivery.answer? = some answer ∧
          outbound.writeAll octets =
            { outbound := outbound.behind delivery.offers
              answer
              offers := delivery.offers.toArray } := by
  refine ⟨fun script turns => ?_, fun script relents => ?_, fun outbound => ?_⟩
  · have delivers := delivers_after script turns octets
    exact
      { toDelivers := delivers
        nothing := delivers.offers_eq_nil
        whole := fun _ => delivers.answer_eq_ok_iff
        last := fun _ _ _ _ made fails => delivers.of_failure made fails
        calm := exists_calm_after script turns octets
        accounts := fun _ => Outbound.accounts_after }
  · exact exists_answer_after relents octets
  · exact outbound.exists_writeAll_eq octets

/-- A channel that takes two octets at a time, and is interrupted before each of them. -/
theorem delivered_once_in_order_two_at_a_time :
    let script : Nat → Acceptance := fun call =>
      if call % 2 = 0 then .fault ⟨.interrupted, "signal"⟩ else .upTo 2
    let octets : List UInt8 := [1, 2, 3]
    let outbound : Outbound := { answers := (List.range 4).map script ++ [.upTo 0] }
    Relents script ∧
      (∃ turns answer, (after script turns octets).answer? = some answer) ∧
      outbound.writeAll octets =
        { outbound := { answers := [.upTo 0], wire := #[1, 2, 3] }
          answer := .ok ()
          offers :=
            #[([1, 2, 3], .error ⟨.interrupted, "signal"⟩), ([1, 2, 3], .ok 2),
              ([3], .error ⟨.interrupted, "signal"⟩), ([3], .ok 1)] } := by
  intro script octets outbound
  obtain ⟨faithful, ends, -⟩ := delivered_once_in_order octets
  have relents : Relents script := by
    intro first
    refine ⟨2 * first + 1, by omega, ?_⟩
    have odd : ¬ (2 * first + 1) % 2 = 0 := by omega
    dsimp only [script]
    rw [if_neg odd]
    rfl
  have answers : ∀ call < (after script 5 octets).offers.length,
      outbound.endless octets.length call = script call := by
    decide +kernel
  have done : after script 5 octets =
      { left := []
        offers :=
          [([1, 2, 3], .error ⟨.interrupted, "signal"⟩), ([1, 2, 3], .ok 2),
            ([3], .error ⟨.interrupted, "signal"⟩), ([3], .ok 1)]
        answer? := some (.ok ()) } := by
    decide +kernel
  have accounts := (faithful script 5).accounts outbound answers
  rw [done, Outbound.Accounts] at accounts
  exact ⟨relents, ends script relents, accounts.trans rfl⟩

end Delivery
end WebSocket
