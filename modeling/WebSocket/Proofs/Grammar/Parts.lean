import Mathlib.Algebra.GroupWithZero.Nat
import WebSocket.Proofs.Grammar.Basic

/-!
# The parts of a frame

The first octets of a frame tell how many octets each of its parts takes: the fields of its
header and its payload. So they tell how many octets a stream that ends within a frame still
lacks of the part in which it ends, whatever rules its frames break.
-/

namespace WebSocket
namespace Grammar

/-! ## Widths -/

/-- The number of octets that are lacking to the part in which a sequence of parts of the
given widths ends. -/
def shortfall : List Nat → Nat → Nat
  | [], _ => 0
  | width :: widths, arrived =>
      if arrived < width then width - arrived else shortfall widths (arrived - width)

/-- Something is lacking exactly as long as not all parts have arrived. -/
theorem shortfall_pos_iff (widths : List Nat) (arrived : Nat) :
    0 < shortfall widths arrived ↔ arrived < widths.sum := by
  induction widths generalizing arrived with
  | nil => exact iff_of_false (Nat.lt_irrefl 0) (Nat.not_lt_zero arrived)
  | cons width widths inductionHypothesis =>
      rw [shortfall, List.sum_cons]
      split
      · omega
      · rw [inductionHypothesis]
        omega

/-- What follows the part in which a sequence ends has no influence on what is lacking. -/
theorem shortfall_append_of_lt
    {widths : List Nat}
    {arrived : Nat}
    (short : arrived < widths.sum)
    (more : List Nat) :
    shortfall (widths ++ more) arrived = shortfall widths arrived := by
  induction widths generalizing arrived with
  | nil => cases short
  | cons width widths inductionHypothesis =>
      rw [List.sum_cons] at short
      rw [List.cons_append, shortfall, shortfall]
      split
      · rfl
      · exact inductionHypothesis (by omega)

theorem shortfall_append_of_le
    {widths : List Nat}
    {arrived : Nat}
    (full : widths.sum ≤ arrived)
    (more : List Nat) :
    shortfall (widths ++ more) arrived = shortfall more (arrived - widths.sum) := by
  induction widths generalizing arrived with
  | nil => rfl
  | cons width widths inductionHypothesis =>
      rw [List.sum_cons] at full ⊢
      rw [List.cons_append, shortfall, if_neg (by omega), inductionHypothesis (by omega),
        Nat.sub_sub]

/-- The number that the second octet of a frame announces its length by. -/
def announcedBy (octets : List UInt8) : Nat := (octets.getD 1 0).toNat % 128

/-- The number of octets in which a length follows that is announced by the given number. -/
def extendedWidth (announced : Nat) : Nat :=
  if announced = 126 then 2 else if announced = 127 then 8 else 0

/-- The number of octets in the key of a frame that an endpoint of the given role receives. -/
def keyWidth : Role → Nat
  | .server => 4
  | .client => 0

/-- The widths of the fields of a header that begins with the given octets. -/
def headerWidths (role : Role) (octets : List UInt8) : List Nat :=
  [1, 1, extendedWidth (announcedBy octets), keyWidth role]

/-- The number of octets in the payload of a frame that begins with the given octets. -/
def payloadWidth (octets : List UInt8) : Nat :=
  let announced := announcedBy octets
  if extendedWidth announced = 0 then announced
  else BigEndian.decode ((octets.drop 2).take (extendedWidth announced))

/-- The widths of the fields of the header, and of the payload, of a frame that begins with
the given octets. -/
def widths (role : Role) (octets : List UInt8) : List Nat :=
  headerWidths role octets ++ [payloadWidth octets]

theorem sum_headerWidths (role : Role) (octets : List UInt8) :
    (headerWidths role octets).sum =
      2 + extendedWidth (announcedBy octets) + keyWidth role := by
  simp [headerWidths]
  omega

theorem sum_widths (role : Role) (octets : List UInt8) :
    (widths role octets).sum = (headerWidths role octets).sum + payloadWidth octets := by
  simp [widths]

/-! ## Frames in a stream -/

/-- The octets of the physical frame within which a stream ends. There are none if the
stream ends with a whole frame. -/
def unfinished (role : Role) (stream : List UInt8) : List UInt8 :=
  if (widths role stream).sum ≤ stream.length then
    unfinished role (stream.drop (widths role stream).sum)
  else stream
termination_by stream.length
decreasing_by
  have positive : 2 ≤ (widths role stream).sum := by
    rw [sum_widths, sum_headerWidths]
    omega
  rw [List.length_drop]
  omega

theorem unfinished_of_lt
    {role : Role}
    {stream : List UInt8}
    (short : stream.length < (widths role stream).sum) :
    unfinished role stream = stream := by
  rw [unfinished, if_neg (Nat.not_le.mpr short)]

theorem unfinished_of_le
    {role : Role}
    {stream : List UInt8}
    (full : (widths role stream).sum ≤ stream.length) :
    unfinished role stream = unfinished role (stream.drop (widths role stream).sum) := by
  conv => lhs; rw [unfinished, if_pos full]

/-- The number of octets that a stream lacks of the header field or payload within which it
ends. A stream that ends with a whole frame lacks the first octet of the next one. -/
def missing (role : Role) (stream : List UInt8) : Nat :=
  shortfall (widths role (unfinished role stream)) (unfinished role stream).length

/-! ## Parts that are read -/

section Scanners

open Scanner

variable {role : Role} {stream rest : List UInt8}

theorem stream_of_opening
    {item : Bool × Opcode}
    (found : opening stream = .found item rest) :
    ∃ first, stream = first :: rest := by
  obtain ⟨first, between, foundFirst, foundItem⟩ := found_of_bind found
  cases stream with
  | nil => cases foundFirst
  | cons octet stream =>
      cases foundFirst
      refine ⟨first, ?_⟩
      by_cases reserved : first.toNat / 16 % 8 ≠ 0
      · simp only [if_pos reserved] at foundItem
        cases foundItem
      · simp only [if_neg reserved] at foundItem
        cases meaning : opcode? (first.toNat % 16) with
        | none =>
            simp only [meaning] at foundItem
            cases foundItem
        | some opcode =>
            simp only [meaning] at foundItem
            cases foundItem
            rfl

theorem stream_of_announcement
    {announced : Nat}
    (found : announcement role stream = .found announced rest) :
    ∃ second, stream = second :: rest ∧ announced = second.toNat % 128 := by
  obtain ⟨second, between, foundSecond, foundItem⟩ := found_of_bind found
  cases stream with
  | nil => cases foundSecond
  | cons octet stream =>
      cases foundSecond
      refine ⟨second, ?_⟩
      cases role <;> cases masked : decide (128 ≤ second.toNat) <;>
        simp only [masked] at foundItem <;> cases foundItem <;> exact ⟨rfl, rfl⟩

theorem rest_of_octets
    {count : Nat}
    {item : List UInt8}
    (found : octets count stream = .found item rest) :
    count ≤ stream.length ∧ item = stream.take count ∧ rest = stream.drop count := by
  by_cases short : stream.length < count
  · cases (octets_of_lt short).symm.trans found
  · have full : count ≤ stream.length := Nat.le_of_not_lt short
    cases (octets_of_le full).symm.trans found
    exact ⟨full, rfl, rfl⟩

theorem rest_of_length
    {announced item : Nat}
    (found : length announced stream = .found item rest) :
    extendedWidth announced ≤ stream.length ∧
      rest = stream.drop (extendedWidth announced) ∧
      item =
        if extendedWidth announced = 0 then announced
        else BigEndian.decode (stream.take (extendedWidth announced)) := by
  unfold length at found
  unfold extendedWidth
  split at found
  · rename_i extended
    obtain ⟨octets, between, foundOctets, foundItem⟩ := found_of_bind found
    obtain ⟨full, rfl, rfl⟩ := rest_of_octets foundOctets
    cases foundItem
    rw [if_pos extended]
    exact ⟨full, rfl, rfl⟩
  · rename_i notExtended
    rw [if_neg notExtended]
    split at found
    · rename_i extended
      obtain ⟨octets, between, foundOctets, foundItem⟩ := found_of_bind found
      obtain ⟨full, rfl, rfl⟩ := rest_of_octets foundOctets
      dsimp only at foundItem
      rw [if_pos extended]
      split at foundItem
      · cases foundItem
      · cases foundItem
        exact ⟨full, rfl, rfl⟩
    · rename_i inline
      cases found
      rw [if_neg inline]
      exact ⟨Nat.zero_le _, rfl, rfl⟩

theorem rest_of_key
    {mask : Option MaskingKey}
    (found : key role stream = .found mask rest) :
    keyWidth role ≤ stream.length ∧ rest = stream.drop (keyWidth role) := by
  cases role with
  | server =>
      obtain ⟨octets, between, foundOctets, foundItem⟩ := found_of_bind found
      obtain ⟨full, -, rfl⟩ := rest_of_octets foundOctets
      cases foundItem
      exact ⟨full, rfl⟩
  | client =>
      cases found
      exact ⟨Nat.zero_le _, rfl⟩

/-- A header that is read takes its fields, and announces the payload behind them. -/
theorem rest_of_header
    {opened : FrameHeader}
    {announced : Nat}
    (found : header role stream = .found (opened, announced) rest) :
    (headerWidths role stream).sum ≤ stream.length ∧
      rest = stream.drop (headerWidths role stream).sum ∧
      announced = payloadWidth stream := by
  obtain ⟨opening, behindOpening, foundOpening, found⟩ := found_of_bind found
  obtain ⟨number, behindNumber, foundNumber, found⟩ := found_of_bind found
  obtain ⟨length, behindLength, foundLength, found⟩ := found_of_bind found
  obtain ⟨mask, behindMask, foundMask, found⟩ := found_of_bind found
  cases found
  obtain ⟨first, rfl⟩ := stream_of_opening foundOpening
  obtain ⟨second, rfl, rfl⟩ := stream_of_announcement foundNumber
  obtain ⟨wide, rfl, length⟩ := rest_of_length foundLength
  obtain ⟨wideKey, rfl⟩ := rest_of_key foundMask
  have number : announcedBy (first :: second :: behindNumber) = second.toNat % 128 := rfl
  rw [List.length_drop] at wideKey
  rw [sum_headerWidths, payloadWidth, number, List.length_cons, List.length_cons]
  refine ⟨by omega, ?_, length⟩
  rw [List.drop_drop, Nat.add_assoc, Nat.add_comm 2]
  rfl

variable
    {limit : Nat}
    {memory : Memory}
    {pending : Option Frame}

/-- A frame that is read takes all its parts. -/
theorem rest_of_frame
    {item : Option Frame × Option Frame}
    (found : frame role limit memory pending stream = .found item rest) :
    (widths role stream).sum ≤ stream.length ∧
      rest = stream.drop (widths role stream).sum := by
  obtain ⟨⟨opened, announced⟩, between, foundHeader, foundBody⟩ := found_of_bind found
  obtain ⟨fullHeader, rfl, rfl⟩ := rest_of_header foundHeader
  dsimp only at foundBody
  cases broken : broken? limit memory pending opened (payloadWidth stream) with
  | some refusal =>
      rw [body, broken] at foundBody
      cases foundBody
  | none =>
      rw [body, broken] at foundBody
      obtain ⟨payload, between, foundPayload, foundItem⟩ := found_of_bind foundBody
      obtain ⟨full, -, rfl⟩ := rest_of_octets foundPayload
      cases foundItem
      rw [List.length_drop] at full
      rw [sum_widths, ← List.drop_drop]
      exact ⟨by omega, rfl⟩

/-- A frame that is read lacks nothing, and what follows it is left. -/
theorem unfinished_of_frame
    {item : Option Frame × Option Frame}
    (found : frame role limit memory pending stream = .found item rest) :
    unfinished role stream = unfinished role rest := by
  obtain ⟨full, rfl⟩ := rest_of_frame found
  exact unfinished_of_le full

end Scanners

/-! ## Whole frames -/

/-- Octets that are whole frames of which none breaks a rule, from one pending message to
another. -/
inductive Passes
    (role : Role)
    (limit : Nat)
    (memory : Memory) : Option Frame → List UInt8 → Option Frame → Prop
  | nil (pending : Option Frame) : Passes role limit memory pending [] pending
  | cons
      {pending delivered next last : Option Frame}
      {octets later : List UInt8}
      (found : ∀ rest, frame role limit memory pending (octets ++ rest) =
        .found (delivered, next) rest)
      (passes : Passes role limit memory next later last) :
      Passes role limit memory pending (octets ++ later) last

end Grammar
end WebSocket
