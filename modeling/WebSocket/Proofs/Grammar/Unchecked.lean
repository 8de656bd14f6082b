import WebSocket.Proofs.Grammar.Encoding

/-!
# Frames that may break rules

Whatever flags, opcode, payload and length format a frame has, what is read from it does not
depend on the role of its sender nor on the key that it is masked with, as long as it is
masked exactly if its sender is a client.
-/

namespace WebSocket

namespace LengthFormat

/-- Whether a length can be written in the given way, even if it is one that is refused. -/
def Carries : LengthFormat → Nat → Prop
  | .inline announced, length => announced.toNat = length ∧ length < 126
  | .extended16, length => length < 65536
  | .extended64, length => length < 2 ^ 64

variable
    {format : LengthFormat}
    {length : Nat}

theorem holds_of_carries (carries : format.Carries length) (small : length < 2 ^ 63) :
    format.Holds length := by
  cases format with
  | inline announced => exact carries
  | extended16 => exact carries
  | extended64 => exact small

theorem toNat_toByte_lt_of_carries (carries : format.Carries length) :
    format.toByte.toNat < 128 := by
  cases format with
  | inline announced =>
      obtain ⟨announces, short⟩ := carries
      rw [toByte, announces]
      omega
  | extended16 => decide
  | extended64 => decide

/-- Only the widest format carries a length that is refused. -/
theorem eq_extended64_of_carries (carries : format.Carries length) (large : 2 ^ 63 ≤ length) :
    format = .extended64 := by
  cases format with
  | inline announced =>
      have short := carries.2
      omega
  | extended16 =>
      have short : length < 65536 := carries
      omega
  | extended64 => rfl

end LengthFormat

namespace Grammar

/-- What a scanner comes to that reads or refuses all that is ahead of the rest of a stream. -/
def Scan.ofAnswer {α : Type} (answer : Except Refusal α) (rest : List UInt8) : Scan α :=
  match answer with
  | .error refusal => .refused refusal
  | .ok item => .found item rest

/-- A frame as it may travel, but for its mask. Nothing is asked of it except that its length
is written in a way that can carry it. -/
structure Unchecked where
  isFinal : Bool
  rsv1 : Bool
  rsv2 : Bool
  rsv3 : Bool
  /-- The four bits of the opcode. -/
  number : Fin 16
  payload : List UInt8
  format : LengthFormat
  carries : format.Carries payload.length

namespace Unchecked

/-- The header that a frame has with the given mask. -/
def header (frame : Unchecked) (mask : Option MaskingKey) : FrameHeader where
  opcode := .ofByte (UInt8.ofNat frame.number)
  isFinal := frame.isFinal
  rsv1 := frame.rsv1
  rsv2 := frame.rsv2
  rsv3 := frame.rsv3
  mask

/-- The octets of a frame with the given mask. -/
def octets (frame : Unchecked) (mask : Option MaskingKey) : List UInt8 :=
  (frame.header mask).encodeAs frame.format frame.payload.length ++
    unmask mask frame.payload

/-! ## What a frame means -/

/-- What is wrong with the flags and the number that a frame opens with, or else its opcode. -/
def opened (frame : Unchecked) : Except Refusal Opcode :=
  if frame.rsv1 || frame.rsv2 || frame.rsv3 then .error .reservedBits
  else
    match opcode? frame.number with
    | none => .error (.unassignedOpcode (UInt8.ofNat frame.number))
    | some opcode => .ok opcode

/-- The rule that a frame breaks while the given message is pending, or else the frame that
is delivered behind it, if there is one, and the message that is pending from then on. -/
def judge
    (limit : Nat)
    (memory : Memory)
    (pending : Option Frame)
    (frame : Unchecked) : Except Refusal (Option Frame × Option Frame) :=
  match frame.opened with
  | .error refusal => .error refusal
  | .ok opcode =>
      let header : FrameHeader := { opcode, isFinal := frame.isFinal }
      if 2 ^ 63 ≤ frame.payload.length then .error (.lengthTooLarge frame.payload.length)
      else
        match broken? limit memory pending header frame.payload.length with
        | some refusal => .error refusal
        | none => .ok (fold pending header frame.payload)

/-- The frames that are delivered behind frames which follow each other, up to the first one
that breaks a rule, and where the last of them leaves a stream. -/
def judgeEach
    (limit : Nat)
    (memory : Memory)
    (pending : Option Frame) : List Unchecked → List Frame × Ending
  | [] => ([], if pending.isNone then .between else .within)
  | frame :: later =>
      match frame.judge limit memory pending with
      | .error refusal => ([], .refused refusal)
      | .ok (delivered, next) =>
          let (frames, ending) := judgeEach limit memory next later
          (delivered.toList ++ frames, ending)

/-! ## Headers -/

/-- The first octet of a frame tells its flags and its number apart. -/
theorem number_of_flags (isFinal rsv1 rsv2 rsv3 : Bool) (number : Fin 16) :
    let first := (UInt8.ofNat number ||| FrameHeader.flag isFinal 0x80 |||
      FrameHeader.flag rsv1 0x40 ||| FrameHeader.flag rsv2 0x20 |||
      FrameHeader.flag rsv3 0x10).toNat
    decide (first / 16 % 8 ≠ 0) = (rsv1 || rsv2 || rsv3) ∧
      first % 16 = number ∧
      decide (128 ≤ first) = isFinal := by
  revert number
  cases isFinal <;> cases rsv1 <;> cases rsv2 <;> cases rsv3 <;> decide +kernel

variable
    {sender : Role}
    {mask : Option MaskingKey}

/-- The first octet of a frame is read as its flags and number say. -/
theorem opening_header (frame : Unchecked) (mask : Option MaskingKey) (rest : List UInt8) :
    opening ((frame.header mask).firstOctet :: rest) =
      .ofAnswer (frame.opened.map (frame.isFinal, ·)) rest := by
  obtain ⟨reserved, number, final⟩ :=
    number_of_flags frame.isFinal frame.rsv1 frame.rsv2 frame.rsv3 frame.number
  have first : Scanner.octet ((frame.header mask).firstOctet :: rest) =
      .found (UInt8.ofNat frame.number ||| FrameHeader.flag frame.isFinal 0x80 |||
        FrameHeader.flag frame.rsv1 0x40 ||| FrameHeader.flag frame.rsv2 0x20 |||
        FrameHeader.flag frame.rsv3 0x10) rest := by
    rw [FrameHeader.firstOctet, header, Opcode.toByte_ofByte]
    rfl
  rw [opening, Scanner.bind_of_found first, number, final, opened, ← reserved]
  split
  · rename_i set
    rw [if_pos (decide_eq_true set)]
    rfl
  · rename_i clear
    rw [if_neg (by simpa using clear)]
    cases opcode? frame.number with
    | none => rfl
    | some opcode => rfl

/-- A length that is carried is read back, or refused if it is too large. -/
theorem length_carried
    {format : LengthFormat}
    {length : Nat}
    (carries : format.Carries length)
    (rest : List UInt8) :
    Grammar.length format.toByte.toNat (BigEndian.encode format.extraSize length ++ rest) =
      if 2 ^ 63 ≤ length then .refused (.lengthTooLarge length) else .found length rest := by
  split
  · rename_i large
    obtain rfl := LengthFormat.eq_extended64_of_carries carries large
    have fits : length < 256 ^ 8 := carries
    have announced : LengthFormat.extended64.toByte.toNat = 127 := rfl
    have read : Scanner.octets 8 (BigEndian.encode 8 length ++ rest) =
        .found (BigEndian.encode 8 length) rest :=
      Scanner.octets_append (BigEndian.length_encode 8 length) rest
    unfold Grammar.length
    rw [if_neg (by decide), if_pos announced, LengthFormat.extraSize_extended64,
      Scanner.bind_of_found read, BigEndian.decode_encode_of_lt fits, if_pos large]
    rfl
  · rename_i small
    exact length_toByte
      (LengthFormat.holds_of_carries carries (Nat.lt_of_not_le small)) rest

/-- Behind its first octet, the header of a frame is read whatever its mask is. -/
theorem header_octets
    (frame : Unchecked)
    (masks : Masks sender mask)
    (rest : List UInt8) :
    Grammar.header sender.peer
        ((frame.header mask).encodeAs frame.format frame.payload.length ++ rest) =
      match frame.opened with
      | .error refusal => .refused refusal
      | .ok opcode =>
          if 2 ^ 63 ≤ frame.payload.length then
            .refused (.lengthTooLarge frame.payload.length)
          else
            .found ({ opcode, isFinal := frame.isFinal, mask }, frame.payload.length) rest := by
  have opens := frame.opening_header mask
  rw [FrameHeader.encodeAs, List.cons_append, List.cons_append, List.append_assoc]
  cases opened : frame.opened with
  | error refusal =>
      rw [opened] at opens
      exact Scanner.bind_of_refused (opens _)
  | ok opcode =>
      rw [opened] at opens
      refine (Scanner.bind_of_found (opens _)).trans ?_
      refine (Scanner.bind_of_found (announcement_toByte masks
        (LengthFormat.toNat_toByte_lt_of_carries frame.carries) _)).trans ?_
      have length := length_carried frame.carries
        (((frame.header mask).mask.map MaskingKey.octets).getD [] ++ rest)
      dsimp only
      split
      · rename_i large
        rw [if_pos large] at length
        exact Scanner.bind_of_refused length
      · rename_i small
        rw [if_neg small] at length
        refine (Scanner.bind_of_found length).trans ?_
        exact Scanner.bind_of_found (key_octets masks rest)

/-! ## Frames -/

section Frames

variable
    (limit : Nat)
    (memory : Memory)

/-- A frame is read as it is judged, whatever follows it. Neither the role of the sender nor
the mask has a part in that. -/
theorem frame_octets_unchecked
    (pending : Option Frame)
    (frame : Unchecked)
    (masks : Masks sender mask)
    (rest : List UInt8) :
    Grammar.frame sender.peer limit memory pending (frame.octets mask ++ rest) =
      .ofAnswer (frame.judge limit memory pending) rest := by
  have opens := frame.header_octets masks (unmask mask frame.payload ++ rest)
  have wide : (unmask mask frame.payload).length = frame.payload.length :=
    length_unmask mask frame.payload
  rw [octets, List.append_assoc, judge]
  cases opened : frame.opened with
  | error refusal =>
      rw [opened] at opens
      exact Scanner.bind_of_refused opens
  | ok opcode =>
      rw [opened] at opens
      dsimp only at opens ⊢
      split
      · rename_i large
        rw [if_pos large] at opens
        exact Scanner.bind_of_refused opens
      · rename_i small
        rw [if_neg small] at opens
        refine (Scanner.bind_of_found opens).trans ?_
        -- The mask of a header breaks no rule, and is gone from the payload that is folded.
        have broken : broken? limit memory pending
            { opcode, isFinal := frame.isFinal, mask } frame.payload.length =
              broken? limit memory pending { opcode, isFinal := frame.isFinal }
                frame.payload.length := rfl
        dsimp only
        rw [body, broken]
        split
        · rename_i refusal refused
          rw [refused]
          rfl
        · rename_i unbroken
          rw [unbroken]
          refine (Scanner.bind_of_found (Scanner.octets_append wide rest)).trans ?_
          rw [Scanner.pure_apply, unmask_unmask]
          rfl

/-- The octets of frames that follow each other, each with its mask. -/
def octetsEach (sent : List (Option MaskingKey × Unchecked)) : List UInt8 :=
  sent.flatMap fun (mask, frame) => frame.octets mask

/-- Frames that follow each other are read as they are judged. -/
theorem transcript_octetsEach
    {sent : List (Option MaskingKey × Unchecked)}
    (masks : ∀ item ∈ sent, Masks sender item.1)
    (pending : Option Frame)
    (offset : Nat) :
    let meaning := transcript sender.peer limit memory pending offset (octetsEach sent)
    (meaning.deliveries.map Prod.snd, meaning.ending) =
      judgeEach limit memory pending (sent.map Prod.snd) := by
  induction sent generalizing pending offset with
  | nil =>
      have ended : Grammar.frame sender.peer limit memory pending [] = .ended := rfl
      rw [octetsEach, List.flatMap_nil, transcript_of_ended ended]
      rfl
  | cons item later inductionHypothesis =>
      obtain ⟨mask, frame⟩ := item
      obtain ⟨masksFirst, masksThen⟩ := List.forall_mem_cons.mp masks
      have first := frame_octets_unchecked limit memory pending frame masksFirst
        (octetsEach later)
      have stream : octetsEach ((mask, frame) :: later) =
          frame.octets mask ++ octetsEach later := List.flatMap_cons
      rw [stream, List.map_cons, judgeEach]
      cases judged : frame.judge limit memory pending with
      | error refusal =>
          rw [judged] at first
          rw [transcript_eq, first]
          rfl
      | ok item =>
          obtain ⟨delivered, next⟩ := item
          rw [judged] at first
          have others := inductionHypothesis masksThen next
            (offset + ((frame.octets mask ++ octetsEach later).length -
              (octetsEach later).length))
          rw [transcript_of_found first]
          dsimp only at others ⊢
          rw [← others]
          cases delivered <;> rfl

end Frames

/-! ## Frames of either role -/

/-- Frames as a client sends them, each masked with its key. -/
def keyed (sent : List (MaskingKey × Unchecked)) : List (Option MaskingKey × Unchecked) :=
  sent.map fun (key, frame) => (some key, frame)

/-- Frames as a server sends them. -/
def bare (frames : List Unchecked) : List (Option MaskingKey × Unchecked) :=
  frames.map fun frame => (none, frame)

theorem map_snd_keyed (sent : List (MaskingKey × Unchecked)) :
    (keyed sent).map Prod.snd = sent.map Prod.snd :=
  List.map_map

theorem map_snd_bare (frames : List Unchecked) : (bare frames).map Prod.snd = frames :=
  List.map_map.trans (List.map_id frames)

theorem masks_of_mem_keyed
    {sent : List (MaskingKey × Unchecked)}
    {item : Option MaskingKey × Unchecked}
    (member : item ∈ keyed sent) :
    Masks .client item.1 := by
  obtain ⟨_, -, rfl⟩ := List.mem_map.mp member
  rfl

theorem masks_of_mem_bare
    {frames : List Unchecked}
    {item : Option MaskingKey × Unchecked}
    (member : item ∈ bare frames) :
    Masks .server item.1 := by
  obtain ⟨_, -, rfl⟩ := List.mem_map.mp member
  rfl

end Unchecked
end Grammar
end WebSocket
