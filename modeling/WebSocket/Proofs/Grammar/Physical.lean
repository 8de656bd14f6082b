import WebSocket.Proofs.Grammar.Encoding
import WebSocket.Proofs.Grammar.Prefixes

/-!
# Physical frames

A physical frame travels as a header and a masked payload, and completes a message, stands
for itself or does neither. A stream of physical frames that is cut anywhere is read up to
the last of them that is whole, and ends between messages only at some of their ends.
-/

namespace WebSocket
namespace Grammar

/-- A frame as it travels to an endpoint of the given role. Its length may be written in
any way that can hold it. -/
structure Physical (role : Role) where
  opcode : Opcode
  isFinal : Bool
  mask : Option MaskingKey
  /-- The payload without its mask. -/
  payload : List UInt8
  format : LengthFormat
  assigned : opcode.isAssigned = true
  masks : Masks role.peer mask
  holds : format.Holds payload.length

namespace Physical

variable {role : Role}

/-- The header of a physical frame. -/
def header (physical : Physical role) : FrameHeader :=
  { opcode := physical.opcode, isFinal := physical.isFinal, mask := physical.mask }

/-- The octets that a physical frame opens with, ahead of its payload. -/
def opening (physical : Physical role) : List UInt8 :=
  physical.header.encodeAs physical.format physical.payload.length

/-- The octets of a physical frame. -/
def octets (physical : Physical role) : List UInt8 :=
  physical.opening ++ unmask physical.mask physical.payload

/-- Whether a message is open behind a physical frame, given whether one is open before
it. -/
def leavesOpen (physical : Physical role) (isOpen : Bool) : Bool :=
  match physical.opcode with
  | .control _ => isOpen
  | .data _ => !physical.isFinal

/-- The length of the message that is open behind a physical frame, given that of the one
that is open before it. Control frames add nothing. -/
def tally (physical : Physical role) (openLength : Option Nat) : Option Nat :=
  match physical.opcode with
  | .control _ => openLength
  | .data _ =>
      if physical.isFinal then none
      else some (openLength.getD 0 + physical.payload.length)

/-- The length of the message that is open behind physical frames, if one is. -/
def openLength (earlier : List (Physical role)) : Option Nat :=
  earlier.foldl (fun openLength physical => physical.tally openLength) none

/-- A frame with a short payload as a client sends it. -/
def ofClient
    (opcode : Opcode)
    (isFinal : Bool)
    (key : MaskingKey)
    (payload : List UInt8)
    (assigned : opcode.isAssigned = true)
    (short : payload.length < 126) : Physical .server where
  opcode
  isFinal
  mask := some key
  payload
  format := .inline (UInt8.ofNat payload.length)
  assigned
  masks := rfl
  holds := by
    refine ⟨?_, short⟩
    rw [UInt8.toNat_ofNat']
    omega

theorem length_octets_pos (physical : Physical role) : 0 < physical.octets.length :=
  Nat.succ_pos _

theorem header_opening (physical : Physical role) (rest : List UInt8) :
    Grammar.header role (physical.opening ++ rest) =
      .found (physical.header, physical.payload.length) rest := by
  have read := header_encodeAs physical.masks physical.assigned physical.isFinal
    physical.holds rest
  rw [Role.peer_peer] at read
  exact read

section Frame

variable
    {limit : Nat}
    {memory : Memory}
    {pending : Option Frame}

/-- A physical frame that breaks a rule is refused, whatever follows its header. -/
theorem frame_opening_of_broken
    {physical : Physical role}
    {refusal : Refusal}
    (broken : broken? limit memory pending physical.header physical.payload.length =
      some refusal)
    (rest : List UInt8) :
    frame role limit memory pending (physical.opening ++ rest) = .refused refusal := by
  refine (Scanner.bind_of_found (physical.header_opening rest)).trans ?_
  dsimp only
  rw [body, broken]
  rfl

/-- A physical frame that breaks no rule is read, whatever follows it. -/
theorem frame_octets
    {physical : Physical role}
    (whole : broken? limit memory pending physical.header physical.payload.length = none)
    (rest : List UInt8) :
    frame role limit memory pending (physical.octets ++ rest) =
      .found (fold pending physical.header physical.payload) rest := by
  have wide : (unmask physical.mask physical.payload).length = physical.payload.length :=
    length_unmask physical.mask physical.payload
  rw [octets, List.append_assoc]
  refine (Scanner.bind_of_found (physical.header_opening _)).trans ?_
  dsimp only
  rw [body, whole]
  refine (Scanner.bind_of_found (Scanner.octets_append wide rest)).trans ?_
  rw [Scanner.pure_apply, show physical.header.mask = physical.mask from rfl,
    unmask_unmask]

/-- Folding a physical frame leaves a message pending if it leaves one open. -/
theorem isSome_fold_snd (physical : Physical role) (pending : Option Frame) :
    (fold pending physical.header physical.payload).2.isSome =
      physical.leavesOpen pending.isSome := by
  unfold fold leavesOpen
  rw [show physical.header.opcode = physical.opcode from rfl,
    show physical.header.isFinal = physical.isFinal from rfl]
  cases physical.opcode with
  | control opcode => rfl
  | data opcode => cases physical.isFinal <;> rfl

/-- Folding a physical frame leaves a message of the length that is tallied. -/
theorem map_length_fold_snd (physical : Physical role) (pending : Option Frame) :
    (fold pending physical.header physical.payload).2.map Frame.length =
      physical.tally (pending.map Frame.length) := by
  unfold fold tally
  rw [show physical.header.opcode = physical.opcode from rfl,
    show physical.header.isFinal = physical.isFinal from rfl]
  cases physical.opcode with
  | control opcode => rfl
  | data opcode =>
      cases physical.isFinal with
      | true => rfl
      | false => cases pending <;> simp [Frame.length]

end Frame
end Physical

/-! ## Streams of physical frames -/

/-- A physical frame, with the frame that is delivered behind its last octet, if there is
one. -/
structure Leg (role : Role) where
  physical : Physical role
  completes : Option Frame

namespace Leg

variable {role : Role}

/-- The octets of physical frames that follow each other. -/
def stream (legs : List (Leg role)) : List UInt8 :=
  legs.flatMap fun leg => leg.physical.octets

@[simp] theorem stream_nil : stream ([] : List (Leg role)) = [] := rfl

@[simp] theorem stream_cons (leg : Leg role) (later : List (Leg role)) :
    stream (leg :: later) = leg.physical.octets ++ stream later := rfl

/-- The frames that are delivered behind physical frames, each with the offset of the octet
behind its last one. -/
def schedule (offset : Nat) : List (Leg role) → List (Nat × Frame)
  | [] => []
  | leg :: later =>
      let offset := offset + leg.physical.octets.length
      (leg.completes.map (offset, ·)).toList ++ schedule offset later

/-- The offsets of the ends of physical frames, behind that of the beginning, each with
whether a message is open there. -/
def boundaries (offset : Nat) (isOpen : Bool) : List (Leg role) → List (Nat × Bool)
  | [] => [(offset, isOpen)]
  | leg :: later =>
      (offset, isOpen) ::
        boundaries (offset + leg.physical.octets.length) (leg.physical.leavesOpen isOpen)
          later

theorem le_of_mem_schedule
    {offset : Nat}
    {legs : List (Leg role)}
    {delivery : Nat × Frame}
    (member : delivery ∈ schedule offset legs) :
    offset ≤ delivery.1 := by
  induction legs generalizing offset with
  | nil => cases member
  | cons leg later inductionHypothesis =>
      rcases List.mem_append.mp member with first | others
      · rw [Option.mem_toList] at first
        obtain ⟨frame, -, rfl⟩ := Option.map_eq_some_iff.mp first
        exact Nat.le_add_right _ _
      · exact Nat.le_trans (Nat.le_add_right _ _) (inductionHypothesis others)

theorem le_of_mem_boundaries
    {offset : Nat}
    {isOpen : Bool}
    {legs : List (Leg role)}
    {boundary : Nat × Bool}
    (member : boundary ∈ boundaries offset isOpen legs) :
    offset ≤ boundary.1 := by
  induction legs generalizing offset isOpen with
  | nil => exact Nat.le_of_eq (congrArg Prod.fst (List.mem_singleton.mp member)).symm
  | cons leg later inductionHypothesis =>
      rcases List.mem_cons.mp member with rfl | others
      · exact Nat.le_refl _
      · exact Nat.le_trans (Nat.le_add_right _ _) (inductionHypothesis others)

/-- Every frame is delivered by the end of the stream. -/
theorem le_of_mem_schedule_of_length
    {offset : Nat}
    {legs : List (Leg role)}
    {delivery : Nat × Frame}
    (member : delivery ∈ schedule offset legs) :
    delivery.1 ≤ offset + (stream legs).length := by
  induction legs generalizing offset with
  | nil => cases member
  | cons leg later inductionHypothesis =>
      rw [stream_cons, List.length_append, ← Nat.add_assoc]
      rcases List.mem_append.mp member with first | others
      · rw [Option.mem_toList] at first
        obtain ⟨frame, -, rfl⟩ := Option.map_eq_some_iff.mp first
        exact Nat.le_add_right _ _
      · exact inductionHypothesis others

section Cuts

variable
    {leg : Leg role}
    {later : List (Leg role)}
    {offset count : Nat}

/-- Nothing is delivered within the first physical frame. -/
theorem filter_schedule_of_lt (short : count < leg.physical.octets.length) :
    (schedule offset (leg :: later)).filter (fun delivery => delivery.1 ≤ offset + count) =
      [] := by
  apply List.filter_eq_nil_iff.mpr
  intro delivery member
  have late : offset + leg.physical.octets.length ≤ delivery.1 := by
    rcases List.mem_append.mp member with first | others
    · rw [Option.mem_toList] at first
      obtain ⟨frame, -, rfl⟩ := Option.map_eq_some_iff.mp first
      exact Nat.le_refl _
    · exact le_of_mem_schedule others
  rw [decide_eq_true_eq]
  omega

theorem filter_schedule_of_le (full : leg.physical.octets.length ≤ count) :
    (schedule offset (leg :: later)).filter (fun delivery => delivery.1 ≤ offset + count) =
      (leg.completes.map (offset + leg.physical.octets.length, ·)).toList ++
        (schedule (offset + leg.physical.octets.length) later).filter
          fun delivery => delivery.1 ≤ offset + count := by
  rw [schedule, List.filter_append]
  congr 1
  cases leg.completes with
  | none => rfl
  | some frame => simp [full]

/-- Only the beginning of the first physical frame is a boundary within it. -/
theorem mem_boundaries_of_lt
    {isOpen : Bool}
    (short : count < leg.physical.octets.length) :
    (offset + count, false) ∈ boundaries offset isOpen (leg :: later) ↔
      count = 0 ∧ isOpen = false := by
  constructor
  · intro member
    rcases List.mem_cons.mp member with first | others
    · obtain ⟨here, closed⟩ := Prod.mk.inj first
      exact ⟨by omega, closed.symm⟩
    · have late := le_of_mem_boundaries others
      dsimp only at late
      omega
  · rintro ⟨rfl, rfl⟩
    exact List.mem_cons_self

theorem mem_boundaries_of_le
    {isOpen : Bool}
    (full : leg.physical.octets.length ≤ count) :
    (offset + count, false) ∈ boundaries offset isOpen (leg :: later) ↔
      (offset + count, false) ∈
        boundaries (offset + leg.physical.octets.length) (leg.physical.leavesOpen isOpen)
          later := by
  have positive := leg.physical.length_octets_pos
  constructor
  · intro member
    rcases List.mem_cons.mp member with first | others
    · have here := congrArg Prod.fst first
      dsimp only at here
      omega
    · exact others
  · exact List.mem_cons_of_mem _

end Cuts
end Leg

/-- Physical frames of which none breaks a rule, each with what is delivered behind it,
from one pending message to another. -/
inductive Chain
    (limit : Nat)
    (memory : Memory)
    {role : Role} : Option Frame → List (Leg role) → Option Frame → Prop
  | nil (pending : Option Frame) : Chain limit memory pending [] pending
  | cons
      {pending next last : Option Frame}
      {leg : Leg role}
      {later : List (Leg role)}
      (whole : broken? limit memory pending leg.physical.header
        leg.physical.payload.length = none)
      (folds : fold pending leg.physical.header leg.physical.payload =
        (leg.completes, next))
      (chain : Chain limit memory next later last) :
      Chain limit memory pending (leg :: later) last

section Chain

variable
    {role : Role}
    {limit : Nat}
    {memory : Memory}
    {pending middle last : Option Frame}
    {legs later : List (Leg role)}

theorem Chain.append
    (first : Chain limit memory pending legs middle)
    (second : Chain limit memory middle later last) :
    Chain limit memory pending (legs ++ later) last := by
  induction first with
  | nil pending => exact second
  | cons whole folds _ inductionHypothesis =>
      exact .cons whole folds (inductionHypothesis second)

/-- A message is open at the end of a chain exactly if one is left pending. -/
theorem Chain.mem_boundaries
    (chain : Chain limit memory pending legs last)
    (offset : Nat) :
    (offset + (Leg.stream legs).length, last.isSome) ∈
      Leg.boundaries offset pending.isSome legs := by
  induction chain generalizing offset with
  | nil pending => exact List.mem_singleton.mpr rfl
  | @cons pending next last leg later whole folds chain inductionHypothesis =>
      have isOpen := leg.physical.isSome_fold_snd pending
      rw [folds] at isOpen
      rw [Leg.stream_cons, List.length_append, ← Nat.add_assoc, Leg.boundaries, ← isOpen]
      exact List.mem_cons_of_mem _ (inductionHypothesis _)

/-- A chain that is cut delivers the frames that are complete by then, and ends between
messages exactly at the end of a physical frame behind which none is open. -/
theorem Chain.transcript_take
    (chain : Chain limit memory pending legs last)
    (offset : Nat)
    {count : Nat}
    (within : count ≤ (Leg.stream legs).length) :
    transcript role limit memory pending offset ((Leg.stream legs).take count) =
      ⟨(Leg.schedule offset legs).filter fun delivery => delivery.1 ≤ offset + count,
        if (offset + count, false) ∈ Leg.boundaries offset pending.isSome legs then .between
        else .within⟩ := by
  induction chain generalizing offset count with
  | nil pending =>
      obtain rfl : count = 0 := Nat.le_zero.mp within
      have ended : frame role limit memory pending [] = .ended := rfl
      rw [Leg.stream_nil, List.take_nil, transcript_of_ended ended]
      cases pending <;> simp [Leg.schedule, Leg.boundaries]
  | @cons pending next last leg later whole folds chain inductionHypothesis =>
      have found : ∀ rest, frame role limit memory pending (leg.physical.octets ++ rest) =
          .found (leg.completes, next) rest := by
        intro rest
        rw [Physical.frame_octets whole, folds]
      have isOpen := leg.physical.isSome_fold_snd pending
      rw [folds] at isOpen
      by_cases short : count < leg.physical.octets.length
      · have alone := found []
        rw [List.append_nil] at alone
        have ended := (settles_frame role limit memory pending).take_of_found alone short
        have early : (Leg.stream (leg :: later)).take count =
            leg.physical.octets.take count :=
          List.take_append_of_le_length (Nat.le_of_lt short)
        rw [early, transcript_of_ended ended, Leg.filter_schedule_of_lt short]
        simp only [Leg.mem_boundaries_of_lt short]
        have nonempty : leg.physical.octets ≠ [] := List.ne_nil_of_length_pos (by omega)
        cases pending <;> simp [nonempty]
      · have full : leg.physical.octets.length ≤ count := Nat.le_of_not_lt short
        have late : (Leg.stream (leg :: later)).take count =
            leg.physical.octets ++
              (Leg.stream later).take (count - leg.physical.octets.length) := by
          rw [Leg.stream_cons, List.take_append, List.take_of_length_le full]
        have withinLater : count - leg.physical.octets.length ≤ (Leg.stream later).length := by
          rw [Leg.stream_cons, List.length_append] at within
          omega
        have total : offset + leg.physical.octets.length +
            (count - leg.physical.octets.length) = offset + count := by
          omega
        have others := inductionHypothesis (offset + leg.physical.octets.length) withinLater
        rw [total, isOpen] at others
        rw [late, transcript_of_found (found _), List.length_append, Nat.add_sub_cancel,
          others, Leg.filter_schedule_of_le full]
        simp only [Leg.mem_boundaries_of_le full]
        rfl

/-- A chain that ends between messages is read to its end. -/
theorem Chain.transcript_stream
    (chain : Chain limit memory none legs none)
    (offset : Nat) :
    transcript role limit memory none offset (Leg.stream legs) =
      ⟨Leg.schedule offset legs, .between⟩ := by
  have whole := chain.transcript_take offset (Nat.le_refl (Leg.stream legs).length)
  have all : (Leg.schedule offset legs).filter
      (fun delivery => delivery.1 ≤ offset + (Leg.stream legs).length) =
        Leg.schedule offset legs := by
    apply List.filter_eq_self.mpr
    intro delivery member
    exact decide_eq_true (Leg.le_of_mem_schedule_of_length member)
  have closed : (offset + (Leg.stream legs).length, false) ∈
      Leg.boundaries offset (none : Option Frame).isSome legs :=
    chain.mem_boundaries offset
  rw [List.take_length, all, if_pos closed] at whole
  exact whole

end Chain

end Grammar
end WebSocket
