import WebSocket.Proofs.Channel.Scripts

/-!
# What offering octets puts on the wire

Offering octets until all of them are accepted puts the front of them on the wire, and all
of them exactly if nothing fails. It ends with the first answer of the channel that fails. A
channel that goes on taking octets, in whatever portions and with whatever interruptions,
takes all of them.
-/

namespace WebSocket

/-- Whether an answer takes octets, or only interrupts. -/
def Acceptance.advances : Acceptance → Bool
  | .upTo count => 0 < count
  | .fault error => error.isInterruption

theorem Acceptance.failure?_of_advances
    {answer : Acceptance}
    (advances : answer.advances = true) :
    answer.failure? = none := by
  cases answer with
  | fault error => exact if_pos advances
  | upTo count =>
      cases count with
      | zero => cases advances
      | succ count => rfl

namespace Outbound

/-- Whether every answer to come takes octets, or only interrupts. -/
def Advances (outbound : Outbound) : Prop :=
  ∀ answer ∈ outbound.answers, answer.advances = true

/-- Whether a part of the octets that were offered has gone on the wire: the front of them,
and all of them exactly if nothing failed. -/
structure Puts
    (outbound : Outbound)
    (octets part : List UInt8)
    (written : Written) : Prop where
  wire : written.outbound.wire.toList = outbound.wire.toList ++ part
  front : part <+: octets
  whole : written.answer = .ok () ↔ part = octets

/-- Offering octets puts the front of them on the wire. -/
theorem exists_puts_writeAll (outbound : Outbound) (octets : List UInt8) :
    ∃ part, outbound.Puts octets part (outbound.writeAll octets) := by
  obtain ⟨delivery, delivered⟩ := outbound.exists_delivered_writeAll octets
  refine ⟨acceptedBy delivery.offers, ?_, ⟨delivery.left, delivered.delivers.conserved⟩, ?_⟩
  · rw [delivered.outbound]
    exact Array.toList_appendList
  · exact delivered.delivers.answer_eq_ok_iff delivered.answer

/-! ## Answers that are used up -/

section Delivered

variable
    {outbound : Outbound}
    {octets : List UInt8}
    {delivery : Delivery}
    {written : Written}

/-- An answer that was used up fails exactly as the offer does that was met with it. -/
theorem Delivered.failure?_getElem
    (delivered : outbound.Delivered octets delivery written)
    {call : Nat}
    (made : call < delivery.offers.length)
    (given : call < outbound.answers.length) :
    outbound.answers[call].failure? = delivery.offers[call].failure? := by
  have whole := (List.take_append_drop call delivery.offers).symm
  rw [List.drop_eq_getElem_cons made] at whole
  rw [delivered.delivers.failure?_eq whole, List.length_take_of_le (Nat.le_of_lt made),
    endless_of_lt given]

/-- No answer fails that was used up by offers that passed. -/
theorem Delivered.passes_take
    (delivered : outbound.Delivered octets delivery written)
    {count : Nat}
    (within : count ≤ delivery.offers.length)
    (passed : ∀ offer ∈ delivery.offers.take count, offer.failure? = none) :
    ∀ answer ∈ outbound.answers.take count, answer.failure? = none := by
  intro answer member
  obtain ⟨call, size, rfl⟩ := List.mem_take_iff_getElem.mp member
  obtain ⟨earlier, given⟩ := Nat.lt_min.mp size
  have made := Nat.lt_of_lt_of_le earlier within
  rw [delivered.failure?_getElem made given]
  exact passed _ (List.mem_take_iff_getElem.mpr ⟨call, Nat.lt_min.mpr ⟨earlier, made⟩, rfl⟩)

/-- An offer that fails is met with one of the answers to come. -/
theorem Delivered.given_of_failure
    (delivered : outbound.Delivered octets delivery written)
    {earlier later : List Offer}
    {offer : Offer}
    (made : delivery.offers = earlier ++ offer :: later)
    {error : IoError}
    (fails : offer.failure? = some error) :
    earlier.length < outbound.answers.length := by
  apply Nat.lt_of_not_le
  intro used_up
  obtain ⟨whole, some_octets, -⟩ := delivered.delivers.offered earlier offer later made
  rw [delivered.delivers.failure?_eq made, endless_of_le used_up] at fails
  cases size : octets.length with
  | zero =>
      rw [List.length_eq_zero_iff.mp size] at whole
      exact some_octets (List.append_eq_nil_iff.mp whole).2
  | succ most =>
      rw [size] at fails
      cases fails

/-- The answers that were used up end the offering as it did. -/
theorem Delivered.ends_take
    (delivered : outbound.Delivered octets delivery written) :
    Ends (outbound.answers.take delivery.offers.length) written.answer := by
  obtain ⟨-, ends⟩ := delivered.delivers.ends.ended delivered.answer
  cases answered : written.answer with
  | ok done =>
      rw [answered] at ends
      apply delivered.passes_take (Nat.le_refl _)
      rw [List.take_length]
      exact List.forall_mem_map.mp ends
  | error error =>
      rw [answered] at ends
      obtain ⟨front, last, whole, passed, fails⟩ := ends
      obtain ⟨earlier, final, made, rfl, single⟩ := List.map_eq_append_iff.mp whole
      obtain ⟨offer, rfl, rfl⟩ := List.map_eq_singleton_iff.mp single
      have given := delivered.given_of_failure made fails
      have size : delivery.offers.length = earlier.length + 1 := by
        rw [made, List.length_append]
        rfl
      have within : earlier.length ≤ delivery.offers.length := size ▸ Nat.le_succ _
      rw [size, ← List.take_append_getElem given]
      refine ⟨_, _, rfl, delivered.passes_take within ?_, ?_⟩
      · rw [made, List.take_left]
        exact List.forall_mem_map.mp passed
      · rw [← endless_of_lt given octets.length, ← delivered.delivers.failure?_eq made]
        exact fails

end Delivered

/-- Offering octets uses up answers to the first one that fails, or none that fails. -/
theorem exists_ends_writeAll (outbound : Outbound) (octets : List UInt8) :
    ∃ used,
      outbound.answers = used ++ (outbound.writeAll octets).outbound.answers ∧
        Ends used (outbound.writeAll octets).answer := by
  obtain ⟨delivery, delivered⟩ := outbound.exists_delivered_writeAll octets
  refine ⟨_, ?_, delivered.ends_take⟩
  rw [delivered.outbound]
  exact (List.take_append_drop _ _).symm

/-- A channel that goes on taking octets takes all that it is offered. -/
theorem Advances.writeAll
    {outbound : Outbound}
    (advances : outbound.Advances)
    (octets : List UInt8) :
    (outbound.writeAll octets).answer = .ok () ∧
      (outbound.writeAll octets).outbound.Advances := by
  obtain ⟨used, answers, ends⟩ := outbound.exists_ends_writeAll octets
  rw [Advances, answers] at advances
  obtain ⟨passed, later⟩ := List.forall_mem_append.mp advances
  refine ⟨?_, later⟩
  cases answered : (outbound.writeAll octets).answer with
  | ok done => rfl
  | error error =>
      rw [answered] at ends
      obtain ⟨earlier, last, rfl, -, fails⟩ := ends
      have advancesLast := passed last (List.mem_append_right _ List.mem_cons_self)
      cases (Acceptance.failure?_of_advances advancesLast).symm.trans fails

end Outbound
end WebSocket
