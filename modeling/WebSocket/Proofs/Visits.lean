import Mathlib.Data.List.Chain

/-!
# The states that a loop visits

A loop goes from state to state until it stops. What each of its turns takes from a supply
bounds the number of its turns.
-/

namespace WebSocket

/-- Whether a loop visits the given states, one after the other, and stops in the last one. -/
inductive Visits {State : Type} (again : State → State → Prop) (stops : State → Prop) :
    State → List State → Prop
  | last {state : State} (stop : stops state) : Visits again stops state [state]
  | again
      {state next : State}
      {states : List State}
      (turn : again state next)
      (visits : Visits again stops next states) :
      Visits again stops state (state :: states)

namespace Visits

variable
    {State : Type}
    {again : State → State → Prop}
    {stops : State → Prop}
    {start : State}
    {states : List State}
    (keeps : State → Prop)

/-- If something that turns preserve makes them do something, then each turn does it. -/
theorem isChain
    {does : State → State → Prop}
    (turns : ∀ {state next}, keeps state → again state next → keeps next ∧ does state next)
    (kept : keeps start)
    (visits : Visits again stops start states) :
    states.IsChain does := by
  induction visits with
  | last stop => exact .singleton _
  | again turn visits inductionHypothesis =>
      obtain ⟨keptNext, done⟩ := turns kept turn
      have later := inductionHypothesis keptNext
      cases visits with
      | last stop => exact .cons_cons done later
      | again turn visits => exact .cons_cons done later

/-- If each turn takes `width` from a supply, then there are no more turns than it holds. -/
theorem length_le
    (supply : State → Nat)
    {width : Nat}
    (turns : ∀ {state next}, keeps state → again state next →
      keeps next ∧ supply next + width ≤ supply state)
    (kept : keeps start)
    (visits : Visits again stops start states) :
    width * states.length ≤ supply start + width := by
  induction visits with
  | last stop =>
      rw [List.length_singleton, Nat.mul_one]
      exact Nat.le_add_left _ _
  | again turn visits inductionHypothesis =>
      obtain ⟨keptNext, taken⟩ := turns kept turn
      have later := inductionHypothesis keptNext
      rw [List.length_cons, Nat.mul_add_one]
      omega

end Visits
end WebSocket
