import Mathlib.Algebra.Group.Nat.Defs
import WebSocket.Frame
import WebSocket.Header
import WebSocket.Memory
import WebSocket.Proofs.BigEndian
import WebSocket.Refusal
import WebSocket.Role

/-!
# The grammar of a stream

Frames are read off the front of octets that have all arrived: two fixed octets, an
extended length where the second one announces it, a key if a client sent the frame, and
the payload. They are folded over the message that is pending, up to the first frame that
breaks a rule.
-/

namespace WebSocket
namespace Grammar

/-- What reading an item off the front of a stream comes to. -/
inductive Scan (α : Type)
  /-- The stream ends before the item does. -/
  | ended
  | refused (refusal : Refusal)
  | found (item : α) (rest : List UInt8)

/-- A reader of items. -/
def Scanner (α : Type) : Type := List UInt8 → Scan α

instance : Monad Scanner where
  pure item := fun stream => .found item stream
  bind scanner next := fun stream =>
    match scanner stream with
    | .ended => .ended
    | .refused refusal => .refused refusal
    | .found item rest => next item rest

namespace Scanner

variable {α β : Type}

/-- Refuse the stream. -/
def refuse (refusal : Refusal) : Scanner α := fun _ => .refused refusal

/-- Read one octet. -/
def octet : Scanner UInt8
  | [] => .ended
  | octet :: rest => .found octet rest

/-- Read the given number of octets. -/
def octets (count : Nat) : Scanner (List UInt8) := fun stream =>
  if stream.length < count then .ended
  else .found (stream.take count) (stream.drop count)

@[simp] theorem pure_apply (item : α) (stream : List UInt8) :
    (pure item : Scanner α) stream = .found item stream := rfl

@[simp] theorem refuse_apply (refusal : Refusal) (stream : List UInt8) :
    (refuse refusal : Scanner α) stream = .refused refusal := rfl

section Bind

variable
    {scanner : Scanner α}
    {next : α → Scanner β}
    {stream : List UInt8}

theorem bind_of_ended (ended : scanner stream = .ended) :
    (scanner >>= next) stream = .ended := by
  change (match scanner stream with | .ended => _ | .refused _ => _ | .found _ _ => _) = _
  rw [ended]

theorem bind_of_refused
    {refusal : Refusal}
    (refused : scanner stream = .refused refusal) :
    (scanner >>= next) stream = .refused refusal := by
  change (match scanner stream with | .ended => _ | .refused _ => _ | .found _ _ => _) = _
  rw [refused]

theorem bind_of_found
    {item : α}
    {rest : List UInt8}
    (found : scanner stream = .found item rest) :
    (scanner >>= next) stream = next item rest := by
  change (match scanner stream with | .ended => _ | .refused _ => _ | .found _ _ => _) = _
  rw [found]

theorem found_of_bind
    {item : β}
    {rest : List UInt8}
    (found : (scanner >>= next) stream = .found item rest) :
    ∃ first between,
      scanner stream = .found first between ∧ next first between = .found item rest := by
  cases scanned : scanner stream with
  | ended => cases (bind_of_ended scanned).symm.trans found
  | refused refusal => cases (bind_of_refused scanned).symm.trans found
  | found first between =>
      exact ⟨first, between, rfl, (bind_of_found scanned).symm.trans found⟩

end Bind

theorem bind_bind
    {γ : Type}
    (scanner : Scanner α)
    (first : α → Scanner β)
    (second : β → Scanner γ) :
    (scanner >>= first) >>= second = scanner >>= fun item => first item >>= second := by
  funext stream
  cases scanned : scanner stream with
  | ended => rw [bind_of_ended (bind_of_ended scanned), bind_of_ended scanned]
  | refused refusal =>
      rw [bind_of_refused (bind_of_refused scanned), bind_of_refused scanned]
  | found item rest =>
      have behind : (scanner >>= first) stream = first item rest := bind_of_found scanned
      rw [bind_of_found scanned]
      cases scannedNext : first item rest with
      | ended => rw [bind_of_ended (behind.trans scannedNext), bind_of_ended scannedNext]
      | refused refusal =>
          rw [bind_of_refused (behind.trans scannedNext), bind_of_refused scannedNext]
      | found item rest =>
          rw [bind_of_found (behind.trans scannedNext), bind_of_found scannedNext]

theorem octets_of_lt {count : Nat} {stream : List UInt8} (short : stream.length < count) :
    octets count stream = .ended :=
  if_pos short

theorem octets_of_le {count : Nat} {stream : List UInt8} (full : count ≤ stream.length) :
    octets count stream = .found (stream.take count) (stream.drop count) :=
  if_neg (Nat.not_lt.mpr full)

theorem octets_append
    {count : Nat}
    {item : List UInt8}
    (wide : item.length = count)
    (rest : List UInt8) :
    octets count (item ++ rest) = .found item rest := by
  subst wide
  have full : item.length ≤ (item ++ rest).length := by
    rw [List.length_append]
    exact Nat.le_add_right _ _
  rw [octets_of_le full, List.take_left, List.drop_left]

theorem length_of_octets
    {count : Nat}
    {stream item rest : List UInt8}
    (found : octets count stream = .found item rest) :
    item.length = count := by
  by_cases short : stream.length < count
  · cases (octets_of_lt short).symm.trans found
  · have full : count ≤ stream.length := Nat.le_of_not_lt short
    cases (octets_of_le full).symm.trans found
    exact List.length_take_of_le full

/-! ## What is left -/

/-- A scanner that never makes octets. -/
def Shortens (scanner : Scanner α) : Prop :=
  ∀ ⦃stream item rest⦄, scanner stream = .found item rest → rest.length ≤ stream.length

theorem shortens_pure (item : α) : (pure item : Scanner α).Shortens := by
  intro stream item rest found
  cases found
  exact Nat.le_refl _

theorem shortens_refuse (refusal : Refusal) : (refuse refusal : Scanner α).Shortens := by
  intro stream item rest found
  cases found

theorem shortens_octet : octet.Shortens := by
  intro stream item rest found
  cases stream with
  | nil => cases found
  | cons octet stream =>
      cases found
      exact Nat.le_succ _

theorem shortens_octets (count : Nat) : (octets count).Shortens := by
  intro stream item rest found
  by_cases short : stream.length < count
  · cases (octets_of_lt short).symm.trans found
  · cases (octets_of_le (Nat.le_of_not_lt short)).symm.trans found
    rw [List.length_drop]
    exact Nat.sub_le _ _

theorem shortens_bind
    {scanner : Scanner α}
    {next : α → Scanner β}
    (first : scanner.Shortens)
    (second : ∀ item, (next item).Shortens) :
    (scanner >>= next).Shortens := by
  intro stream item rest found
  obtain ⟨item', between, foundFirst, foundSecond⟩ := found_of_bind found
  exact Nat.le_trans (second item' foundSecond) (first foundFirst)

end Scanner

open Scanner

/-! ## Headers -/

/-- The opcode that a number of four bits stands for, if it has a meaning. -/
def opcode? : Nat → Option Opcode
  | 0 => some (.data .continuation)
  | 1 => some (.data .text)
  | 2 => some (.data .binary)
  | 8 => some (.control .close)
  | 9 => some (.control .ping)
  | 10 => some (.control .pong)
  | _ => none

/-- The first octet holds the final bit, three reserved bits and the opcode. -/
def opening : Scanner (Bool × Opcode) := do
  let number := (← octet).toNat
  if number / 16 % 8 ≠ 0 then refuse .reservedBits
  else
    match opcode? (number % 16) with
    | none => refuse (.unassignedOpcode (UInt8.ofNat (number % 16)))
    | some opcode => return (decide (128 ≤ number), opcode)

/-- The second octet holds the mask bit, which is set by clients and by nobody else, and
seven bits that announce the length. -/
def announcement (role : Role) : Scanner Nat := do
  let number := (← octet).toNat
  match role, decide (128 ≤ number) with
  | .server, false => refuse .missingMask
  | .client, true => refuse .unexpectedMask
  | _, _ => return number % 128

/-- The length follows in two octets behind 126 and in eight octets behind 127. -/
def length (announced : Nat) : Scanner Nat :=
  if announced = 126 then do
    return BigEndian.decode (← octets 2)
  else if announced = 127 then do
    let length := BigEndian.decode (← octets 8)
    if 2 ^ 63 ≤ length then refuse (.lengthTooLarge length) else return length
  else return announced

theorem length_of_lt
    {announced : Nat}
    (short : announced < 126)
    (stream : List UInt8) :
    length announced stream = .found announced stream := by
  rw [length, if_neg (Nat.ne_of_lt short), if_neg (by omega)]
  rfl

/-- Two octets behind 126 are read as one number, the first of them the more significant. -/
theorem length_two_octets (high low : UInt8) (rest : List UInt8) :
    length 126 (high :: low :: rest) = .found (high.toNat * 256 + low.toNat) rest := by
  have number : BigEndian.decode [high, low] = high.toNat * 256 + low.toNat := by
    simp [BigEndian.decode_cons]
  have read : octets 2 (high :: low :: rest) = .found [high, low] rest := rfl
  exact (bind_of_found read).trans (congrArg (Scan.found · rest) number)

/-- Eight octets behind 127 are read as one number, the first of them the most significant, and
the top bit of that one has to be clear. -/
theorem length_eight_octets
    (first second third fourth fifth sixth seventh eighth : UInt8)
    (rest : List UInt8) :
    let number :=
      first.toNat * 256 ^ 7 + second.toNat * 256 ^ 6 + third.toNat * 256 ^ 5 +
        fourth.toNat * 256 ^ 4 + fifth.toNat * 256 ^ 3 + sixth.toNat * 256 ^ 2 +
        seventh.toNat * 256 + eighth.toNat
    let stream :=
      [first, second, third, fourth, fifth, sixth, seventh, eighth] ++ rest
    length 127 stream =
      if 2 ^ 63 ≤ number then .refused (.lengthTooLarge number) else .found number rest := by
  intro number stream
  have decoded : BigEndian.decode
      [first, second, third, fourth, fifth, sixth, seventh, eighth] = number := by
    simp [BigEndian.decode_cons, number, Nat.add_assoc]
  have read := octets_append (by rfl :
    [first, second, third, fourth, fifth, sixth, seventh, eighth].length = 8) rest
  refine (bind_of_found read).trans ?_
  rw [decoded]
  split <;> rfl

/-- A server reads a key and a client reads none. -/
def key : Role → Scanner (Option MaskingKey)
  | .server => do return MaskingKey.ofOctets? (← octets 4)
  | .client => return none

/-- Four octets are read as a key in the order they arrive in. -/
theorem key_server (first second third fourth : UInt8) (rest : List UInt8) :
    key .server (first :: second :: third :: fourth :: rest) =
      .found (some ⟨first, second, third, fourth⟩) rest := rfl

theorem key_client (stream : List UInt8) : key .client stream = .found none stream := rfl

/-- A header, and the length of the payload behind it. -/
def header (role : Role) : Scanner (FrameHeader × Nat) := do
  let (isFinal, opcode) ← opening
  let announced ← announcement role
  let length ← length announced
  let mask ← key role
  return ({ opcode, isFinal, mask }, length)

/-! ## Frames -/

/-- The rule that a message of the given size breaks, if there is one. -/
def crowding? (limit : Nat) (memory : Memory) (size : Nat) : Option Refusal :=
  if limit < size then some (.messageTooLong size limit)
  else if memory.hasRoom size then none
  else some (.outOfMemory size)

/-- The first rule that a frame breaks while the given message is pending, if there is
one. The header is all that counts. -/
def broken?
    (limit : Nat)
    (memory : Memory)
    (pending : Option Frame)
    (header : FrameHeader)
    (length : Nat) : Option Refusal :=
  match header.opcode, pending with
  | .control opcode, _ =>
      if header.isFinal = false then some (.fragmentedControl opcode)
      else if 125 < length then some (.oversizedControl opcode length)
      else none
  | .data .continuation, none => some .nothingToContinue
  | .data .continuation, some message => crowding? limit memory (message.length + length)
  | .data opcode, some _ => some (.interruptedMessage opcode)
  | .data _, none => crowding? limit memory length

/-- A payload without its mask. -/
def unmask (mask : Option MaskingKey) (payload : List UInt8) : List UInt8 :=
  match mask with
  | none => payload
  | some key => key.maskFrom 0 payload

theorem length_unmask (mask : Option MaskingKey) (payload : List UInt8) :
    (unmask mask payload).length = payload.length := by
  cases mask with
  | none => rfl
  | some key => exact key.length_maskFrom 0 payload

/-- The frame that is delivered behind a physical frame, if there is one, and the message
that is pending from then on. A control frame leaves the message alone. -/
def fold
    (pending : Option Frame)
    (header : FrameHeader)
    (payload : List UInt8) : Option Frame × Option Frame :=
  match header.opcode with
  | .control _ => (some ⟨header.opcode, payload⟩, pending)
  | .data _ =>
      let message : Frame :=
        match pending with
        | none => ⟨header.opcode, payload⟩
        | some earlier => { earlier with payload := earlier.payload ++ payload }
      if header.isFinal then (some message, none) else (none, some message)

section Stream

variable
    (role : Role)
    (limit : Nat)
    (memory : Memory)

/-- What follows a header, folded over the message that is pending. -/
def body
    (pending : Option Frame)
    (header : FrameHeader)
    (length : Nat) : Scanner (Option Frame × Option Frame) :=
  match broken? limit memory pending header length with
  | some refusal => refuse refusal
  | none => do
      let payload ← octets length
      return fold pending header (unmask header.mask payload)

/-- A physical frame, folded over the message that is pending. -/
def frame (pending : Option Frame) : Scanner (Option Frame × Option Frame) := do
  let (header, length) ← header role
  body limit memory pending header length

end Stream

/-! ## What is left -/

/-- A scanner that starts with an octet takes octets. -/
theorem length_rest_lt_of_octet
    {α : Type}
    {next : UInt8 → Scanner α}
    (shortens : ∀ first, (next first).Shortens)
    {stream rest : List UInt8}
    {item : α}
    (found : (octet >>= next) stream = .found item rest) :
    rest.length < stream.length := by
  obtain ⟨first, between, foundFirst, foundRest⟩ := found_of_bind found
  cases stream with
  | nil => cases foundFirst
  | cons _ stream =>
      cases foundFirst
      exact Nat.lt_succ_of_le (shortens first foundRest)

theorem length_rest_lt_opening
    {stream rest : List UInt8}
    {item : Bool × Opcode}
    (found : opening stream = .found item rest) :
    rest.length < stream.length := by
  refine length_rest_lt_of_octet (fun first => ?_) found
  dsimp only
  split
  · exact shortens_refuse _
  · split
    · exact shortens_refuse _
    · exact shortens_pure _

theorem shortens_announcement (role : Role) : (announcement role).Shortens := by
  refine shortens_bind shortens_octet fun octet => ?_
  dsimp only
  split
  · exact shortens_refuse _
  · exact shortens_refuse _
  · exact shortens_pure _

theorem shortens_length (announced : Nat) : (length announced).Shortens := by
  unfold length
  split
  · exact shortens_bind (shortens_octets 2) fun _ => shortens_pure _
  · split
    · refine shortens_bind (shortens_octets 8) fun octets => ?_
      dsimp only
      split
      · exact shortens_refuse _
      · exact shortens_pure _
    · exact shortens_pure _

theorem shortens_key (role : Role) : (key role).Shortens := by
  cases role with
  | server => exact shortens_bind (shortens_octets 4) fun _ => shortens_pure _
  | client => exact shortens_pure none

theorem length_rest_lt_header
    {role : Role}
    {stream rest : List UInt8}
    {item : FrameHeader × Nat}
    (found : header role stream = .found item rest) :
    rest.length < stream.length := by
  obtain ⟨opened, between, foundOpening, foundRest⟩ := found_of_bind found
  refine Nat.lt_of_le_of_lt ?_ (length_rest_lt_opening foundOpening)
  refine shortens_bind (shortens_announcement role) (fun announced => ?_) foundRest
  refine shortens_bind (shortens_length announced) fun length => ?_
  exact shortens_bind (shortens_key role) fun _ => shortens_pure _

theorem shortens_body
    (limit : Nat)
    (memory : Memory)
    (pending : Option Frame)
    (header : FrameHeader)
    (length : Nat) : (body limit memory pending header length).Shortens := by
  unfold body
  split
  · exact shortens_refuse _
  · exact shortens_bind (shortens_octets length) fun _ => shortens_pure _

/-- Every frame takes octets. -/
theorem length_rest_lt_frame
    {role : Role}
    {limit : Nat}
    {memory : Memory}
    {pending : Option Frame}
    {stream rest : List UInt8}
    {item : Option Frame × Option Frame}
    (found : frame role limit memory pending stream = .found item rest) :
    rest.length < stream.length := by
  obtain ⟨_, between, foundHeader, foundBody⟩ := found_of_bind found
  exact Nat.lt_of_le_of_lt (shortens_body limit memory pending _ _ foundBody)
    (length_rest_lt_header foundHeader)

/-! ## Streams -/

/-- Where a stream ends. -/
inductive Ending
  /-- Behind a whole message. -/
  | between
  /-- Within a frame or a message. -/
  | within
  /-- At a frame that breaks a rule. -/
  | refused (refusal : Refusal)
  deriving DecidableEq

/-- The refusal at the end of a stream, if there is one. -/
def Ending.refusal? : Ending → Option Refusal
  | .refused refusal => some refusal
  | _ => none

theorem Ending.eq_refused_of_refusal?
    {ending : Ending}
    {refusal : Refusal}
    (refused : ending.refusal? = some refusal) :
    ending = .refused refusal := by
  cases ending <;> cases refused
  rfl

/-- Whether something has begun that the stream does not complete. -/
def Ending.isOpen : Ending → Bool
  | .between => false
  | _ => true

/-- What is read from a stream. -/
structure Transcript where
  /-- The frames that are delivered, each with the number of octets read by then. -/
  deliveries : List (Nat × Frame)
  ending : Ending

/-- A transcript behind a frame that is delivered at the given offset, if there is one. -/
def Transcript.after
    (transcript : Transcript)
    (delivered : Option Frame)
    (offset : Nat) : Transcript :=
  { transcript with
    deliveries := (delivered.map (offset, ·)).toList ++ transcript.deliveries }

section Transcript

variable
    (role : Role)
    (limit : Nat)
    (memory : Memory)

/-- Read a stream of which `offset` octets have been read. -/
def transcript
    (pending : Option Frame)
    (offset : Nat)
    (stream : List UInt8) : Transcript :=
  match found : frame role limit memory pending stream with
  | .ended => ⟨[], if stream.isEmpty && pending.isNone then .between else .within⟩
  | .refused refusal => ⟨[], .refused refusal⟩
  | .found (delivered, pending) rest =>
      have := length_rest_lt_frame found
      let offset := offset + (stream.length - rest.length)
      (transcript pending offset rest).after delivered offset
termination_by stream.length

/-- The equation of reading a stream, without what only its termination needs. -/
theorem transcript_eq (pending : Option Frame) (offset : Nat) (stream : List UInt8) :
    transcript role limit memory pending offset stream =
      match frame role limit memory pending stream with
      | .ended => ⟨[], if stream.isEmpty && pending.isNone then .between else .within⟩
      | .refused refusal => ⟨[], .refused refusal⟩
      | .found (delivered, next) rest =>
          let offset := offset + (stream.length - rest.length)
          (transcript role limit memory next offset rest).after delivered offset := by
  rw [transcript]
  dsimp only
  split
  · rename_i ended
    rw [ended]
  · rename_i refusal refused
    rw [refused]
  · rename_i delivered next rest found
    rw [found]

section Equations

variable
    {role : Role}
    {limit : Nat}
    {memory : Memory}
    {pending next : Option Frame}
    {stream rest : List UInt8}

theorem transcript_of_ended
    (ended : frame role limit memory pending stream = .ended)
    (offset : Nat) :
    transcript role limit memory pending offset stream =
      ⟨[], if stream.isEmpty && pending.isNone then .between else .within⟩ := by
  rw [transcript_eq, ended]

theorem transcript_of_found
    {delivered : Option Frame}
    (found : frame role limit memory pending stream = .found (delivered, next) rest)
    (offset : Nat) :
    transcript role limit memory pending offset stream =
      (transcript role limit memory next (offset + (stream.length - rest.length))
        rest).after delivered (offset + (stream.length - rest.length)) := by
  rw [transcript_eq, found]

end Equations
end Transcript

end Grammar
end WebSocket
