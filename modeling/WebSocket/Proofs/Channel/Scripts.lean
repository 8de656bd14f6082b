import WebSocket.Proofs.Channel.Delivery

/-!
# Channels that give the answers of a script

Offering octets until all of them are accepted is a delivery over the answers that the channel
gives, up to its end. So whatever comes of offering octets is what comes of their delivery.
-/

namespace WebSocket
namespace Outbound

/-- The answers to come, call by call. When they are used up, as much as there may be is
accepted. -/
def endless (outbound : Outbound) (most : Nat) (call : Nat) : Acceptance :=
  outbound.answers.getD call (.upTo most)

/-- The writing side of a channel behind some offers. -/
def behind (outbound : Outbound) (offers : List Offer) : Outbound :=
  { outbound with
    answers := outbound.answers.drop offers.length
    wire := outbound.wire ++ acceptedBy offers }

theorem endless_of_lt
    {outbound : Outbound}
    {call : Nat}
    (given : call < outbound.answers.length)
    (most : Nat) :
    outbound.endless most call = outbound.answers[call] := by
  rw [endless, List.getD_eq_getElem?_getD, List.getElem?_eq_getElem given]
  rfl

theorem endless_of_le
    {outbound : Outbound}
    {call : Nat}
    (used_up : outbound.answers.length ≤ call)
    (most : Nat) :
    outbound.endless most call = .upTo most := by
  rw [endless, List.getD_eq_getElem?_getD, List.getElem?_eq_none used_up]
  rfl

theorem relents_endless (outbound : Outbound) (most : Nat) :
    Delivery.Relents (outbound.endless most) := by
  intro first
  refine ⟨first + outbound.answers.length, Nat.le_add_right _ _, ?_⟩
  rw [endless_of_le (Nat.le_add_left _ _)]
  rfl

theorem endless_behind (outbound : Outbound) (offers : List Offer) (most call : Nat) :
    (outbound.behind offers).endless most call =
      outbound.endless most (offers.length + call) := by
  simp [endless, behind, List.getD_eq_getElem?_getD]

theorem behind_append (outbound : Outbound) (earlier later : List Offer) :
    outbound.behind (earlier ++ later) = (outbound.behind earlier).behind later := by
  have wire : outbound.wire ++ (acceptedBy earlier ++ acceptedBy later) =
      outbound.wire ++ acceptedBy earlier ++ acceptedBy later :=
    Array.toList_inj.mp (by simp)
  simp [behind, wire]

/-- An offer is answered as the next call is. -/
theorem write_eq_reply
    (outbound : Outbound)
    {octets : List UInt8}
    {most : Nat}
    (within : octets.length ≤ most) :
    let reply := (outbound.endless most 0).reply octets
    outbound.write octets = (reply, outbound.behind [(octets, reply)]) := by
  obtain ⟨_ | ⟨count | error, answers⟩, wire, isScripted⟩ := outbound
  · have whole : min most octets.length = octets.length := Nat.min_eq_right within
    simp [write, endless, Acceptance.reply, behind, Offer.accepted, whole]
  · simp [write, endless, Acceptance.reply, behind, Offer.accepted, ← List.take_eq_take_min]
  · simp [write, endless, Acceptance.reply, behind, Offer.accepted]

theorem writeAllFrom_nil (outbound : Outbound) (offers : Array Offer) :
    outbound.writeAllFrom [] offers = { outbound, answer := .ok (), offers } := by
  rw [writeAllFrom]
  rfl

section Write

variable
    {outbound next : Outbound}
    {octets : List UInt8}
    {reply : Except IoError Nat}

theorem writeAllFrom_of_passes
    (some_octets : octets ≠ [])
    (written : outbound.write octets = (reply, next))
    (passes : Offer.failure? (octets, reply) = none)
    (offers : Array Offer) :
    outbound.writeAllFrom octets offers =
      next.writeAllFrom (octets.drop (Offer.accepted (octets, reply)).length)
        (offers.push (octets, reply)) := by
  rw [writeAllFrom, if_neg (mt List.isEmpty_iff.mp some_octets)]
  split
  · rename_i cut
    cases written.symm.trans cut
    cases passes
  · rename_i count _ taken
    cases written.symm.trans taken
    have size : (octets.take (count + 1)).length = count + 1 :=
      List.length_take_of_le (write_le taken)
    rw [Offer.accepted, size]
  · rename_i error _ failed
    cases written.symm.trans failed
    by_cases interrupts : error.isInterruption = true
    · rw [if_pos interrupts]
      rfl
    · cases passes.symm.trans (if_neg interrupts)

theorem writeAllFrom_of_fails
    (some_octets : octets ≠ [])
    (written : outbound.write octets = (reply, next))
    {error : IoError}
    (fails : Offer.failure? (octets, reply) = some error)
    (offers : Array Offer) :
    outbound.writeAllFrom octets offers =
      { outbound := next, answer := .error error, offers := offers.push (octets, reply) } := by
  rw [writeAllFrom, if_neg (mt List.isEmpty_iff.mp some_octets)]
  split
  · rename_i cut
    cases written.symm.trans cut
    cases fails
    rfl
  · rename_i count _ taken
    cases written.symm.trans taken
    cases fails
  · rename_i error' _ failed
    cases written.symm.trans failed
    by_cases interrupts : error'.isInterruption = true
    · cases fails.symm.trans (if_pos interrupts)
    · cases fails.symm.trans (if_neg interrupts)
      exact if_neg interrupts

end Write

open Delivery

/-- Whether a delivery accounts for offering octets until all of them are accepted: that has come
to what the delivery has come to, or else goes on where the delivery is. -/
def Accounts (outbound : Outbound) (octets : List UInt8) (delivery : Delivery) : Prop :=
  outbound.writeAll octets =
    match delivery.answer? with
    | none =>
        (outbound.behind delivery.offers).writeAllFrom delivery.left delivery.offers.toArray
    | some answer =>
        { outbound := outbound.behind delivery.offers
          answer
          offers := delivery.offers.toArray }

variable
    {outbound : Outbound}
    {script : Nat → Acceptance}
    {octets : List UInt8}
    {delivery : Delivery}

/-- An offer over the writing side of a channel is the one that is due. -/
theorem write_behind
    (delivers : Delivers script octets delivery)
    (answer : outbound.endless octets.length delivery.offers.length =
      script delivery.offers.length) :
    (outbound.behind delivery.offers).write delivery.left =
      ((delivery.due script).2, outbound.behind (delivery.offers ++ [delivery.due script])) := by
  have within : delivery.left.length ≤ octets.length := by
    rw [← delivers.conserved, List.length_append]
    exact Nat.le_add_left _ _
  have written := (outbound.behind delivery.offers).write_eq_reply within
  rw [endless_behind, Nat.add_zero, answer] at written
  rw [behind_append]
  exact written

theorem Accounts.turn
    (accounts : outbound.Accounts octets delivery)
    (delivers : Delivers script octets delivery)
    (answers : ∀ call < (delivery.turn script).offers.length,
      outbound.endless octets.length call = script call) :
    outbound.Accounts octets (delivery.turn script) := by
  have moves := moves_turn script delivery
  generalize delivery.turn script = next at moves answers ⊢
  cases moves with
  | ended answered => exact accounts
  | finished unanswered none_left =>
      rw [Accounts, unanswered, none_left] at accounts
      exact accounts.trans (writeAllFrom_nil _ _)
  | passed unanswered some_left passes =>
      have written := write_behind delivers (answers _ (by simp))
      rw [Accounts, unanswered] at accounts
      rw [Accounts, unanswered, accounts, writeAllFrom_of_passes some_left written passes,
        List.push_toArray]
      rfl
  | failed unanswered some_left fails =>
      have written := write_behind delivers (answers _ (by simp))
      rw [Accounts, unanswered] at accounts
      rw [Accounts, accounts, writeAllFrom_of_fails some_left written fails, List.push_toArray]
      rfl

/-- Offering octets until all of them are accepted makes the offers of a delivery, as long as the
answers are those of its script. -/
theorem accounts_after
    {turns : Nat}
    (answers : ∀ call < (after script turns octets).offers.length,
      outbound.endless octets.length call = script call) :
    outbound.Accounts octets (after script turns octets) := by
  induction turns with
  | zero =>
      have same : outbound.behind [] = outbound := by simp [behind, acceptedBy]
      change outbound.writeAll octets = (outbound.behind []).writeAllFrom octets #[]
      rw [same]
      rfl
  | succ turns inductionHypothesis =>
      rw [after, Function.iterate_succ_apply'] at answers ⊢
      have earlier := inductionHypothesis fun call made =>
        answers call (Nat.lt_of_lt_of_le made (length_offers_le_turn script _))
      exact earlier.turn (delivers_after script turns octets) answers

/-- Offering octets until all of them are accepted is their delivery over the answers to come, up
to its end. -/
theorem exists_writeAll_eq (outbound : Outbound) (octets : List UInt8) :
    ∃ turns answer,
      let delivery := after (outbound.endless octets.length) turns octets
      delivery.answer? = some answer ∧
        outbound.writeAll octets =
          { outbound := outbound.behind delivery.offers
            answer
            offers := delivery.offers.toArray } := by
  obtain ⟨turns, answer, answered⟩ :=
    exists_answer_after (outbound.relents_endless octets.length) octets
  have accounts : outbound.Accounts octets
      (after (outbound.endless octets.length) turns octets) :=
    accounts_after fun _ _ => rfl
  rw [Accounts, answered] at accounts
  exact ⟨turns, answer, answered, accounts⟩

/-- Whether a delivery has come to what offering octets has come to. -/
structure Delivered
    (outbound : Outbound)
    (octets : List UInt8)
    (delivery : Delivery)
    (written : Written) : Prop where
  delivers : Delivers (outbound.endless octets.length) octets delivery
  outbound : written.outbound = outbound.behind delivery.offers
  answer : delivery.answer? = some written.answer
  offers : written.offers.toList = delivery.offers

/-- Octets that are offered until all of them are accepted are delivered once and in order. -/
theorem exists_delivered_writeAll (outbound : Outbound) (octets : List UInt8) :
    ∃ delivery, outbound.Delivered octets delivery (outbound.writeAll octets) := by
  obtain ⟨turns, answer, answered, written⟩ := outbound.exists_writeAll_eq octets
  rw [written]
  exact ⟨_, delivers_after _ turns octets, rfl, answered, rfl⟩

end Outbound
end WebSocket
