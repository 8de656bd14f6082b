import Mathlib.Algebra.Group.Nat.Defs

/-!
# Checked operations

A machine computes with words of 64 bits and with buffers of fewer than `2 ^ 63` octets. An
operation that is checked has no result if it needs more, if it would be negative or if it
goes beyond the end of something. Within these ranges it has the result that numbers and
lists without any bounds have. A loop that is checked has no result either if one of its turns
makes no progress.
-/

namespace WebSocket
namespace Checked

/-- The sum of two words. -/
def add (left right : Nat) : Option Nat :=
  if left + right < 2 ^ 64 then some (left + right) else none

/-- The difference of two words. -/
def sub (left right : Nat) : Option Nat :=
  if right ≤ left then some (left - right) else none

/-- A number in the given number of bits. -/
def narrow (bits value : Nat) : Option Nat :=
  if value < 2 ^ bits then some value else none

/-- A position in something of the given size, its end included. -/
def position (size index : Nat) : Option Nat :=
  if index ≤ size then some index else none

/-- The octets between two positions. -/
def slice (octets : List UInt8) (start stop : Nat) : Option (List UInt8) :=
  if start ≤ stop ∧ stop ≤ octets.length then some ((octets.take stop).drop start)
  else none

/-- A buffer with further octets. -/
def extend (buffer octets : List UInt8) : Option (List UInt8) :=
  if buffer.length + octets.length < 2 ^ 63 then some (buffer ++ octets) else none

variable {octets : List UInt8}

theorem add_eq_some {left right : Nat} (small : left + right < 2 ^ 64) :
    add left right = some (left + right) := if_pos small

theorem sub_eq_some {left right : Nat} (ordered : right ≤ left) :
    sub left right = some (left - right) := if_pos ordered

theorem narrow_eq_some {bits value : Nat} (small : value < 2 ^ bits) :
    narrow bits value = some value := if_pos small

theorem position_eq_some {size index : Nat} (within : index ≤ size) :
    position size index = some index := if_pos within

theorem extend_eq_some
    {buffer : List UInt8}
    (small : buffer.length + octets.length < 2 ^ 63) :
    extend buffer octets = some (buffer ++ octets) := if_pos small

/-- Behind a position there are as many octets as are taken there. -/
theorem slice_eq_some
    {start count : Nat}
    (within : start + count ≤ octets.length) :
    slice octets start (start + count) = some ((octets.drop start).take count) := by
  rw [slice, if_pos ⟨Nat.le_add_right start count, within⟩, List.drop_take,
    Nat.add_sub_cancel_left]

theorem slice_front_eq_some {count : Nat} (within : count ≤ octets.length) :
    slice octets 0 count = some (octets.take count) :=
  if_pos ⟨Nat.zero_le count, within⟩

theorem slice_back_eq_some {start : Nat} (within : start ≤ octets.length) :
    slice octets start octets.length = some (octets.drop start) := by
  rw [slice, if_pos ⟨within, Nat.le_refl _⟩, List.take_length]

/-! ## Loops -/

section Loops

variable {State Result : Type}

/-- Make turns until one of them gives a result, as long as each one lowers a measure. -/
def loop
    (measure : State → Nat)
    (turn : State → Option (Result ⊕ State))
    (state : State) : Option Result :=
  match turn state with
  | none => none
  | some (.inl result) => some result
  | some (.inr next) =>
      if measure next < measure state then loop measure turn next else none
termination_by measure state

/-- A loop comes to a result if each of its turns, from states that it keeps to, gives that
result or makes progress towards it. -/
theorem loop_eq_some
    {measure : State → Nat}
    {turn : State → Option (Result ⊕ State)}
    (run : State → Result)
    (keeps : State → Prop)
    (turns : ∀ state, keeps state →
      turn state = some (.inl (run state)) ∨
        ∃ next, turn state = some (.inr next) ∧ measure next < measure state ∧
          keeps next ∧ run next = run state)
    {state : State}
    (kept : keeps state) :
    loop measure turn state = some (run state) := by
  induction size : measure state using Nat.strongRecOn generalizing state with
  | _ size inductionHypothesis =>
      subst size
      rw [loop]
      rcases turns state kept with ends | ⟨next, goesOn, lower, keptNext, same⟩
      · rw [ends]
      · simp only [goesOn]
        rw [if_pos lower, inductionHypothesis _ lower keptNext rfl, same]

end Loops

end Checked
end WebSocket
