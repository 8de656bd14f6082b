import WebSocket.Proofs.BigEndian
import WebSocket.Proofs.Grammar.Header
import WebSocket.Proofs.Masking

/-!
# Encoded frames are read back

A header is read back from each of the ways in which its length can be written, so a frame
that an endpoint writes is read back by its peer, whatever follows it. Writer and reader
meet only here.
-/

namespace WebSocket

namespace LengthFormat

/-- Whether a length can be written in the given way. -/
def Holds : LengthFormat → Nat → Prop
  | .inline announced, length => announced.toNat = length ∧ length < 126
  | .extended16, length => length < 65536
  | .extended64, length => length < 2 ^ 63

/-- The shortest way to write a length can hold it. -/
theorem holds_ofLength {length : Nat} (small : length < 2 ^ 63) :
    (ofLength length).Holds length := by
  unfold ofLength
  by_cases short : length < 126
  · rw [if_pos short]
    refine ⟨?_, short⟩
    rw [UInt8.toNat_ofNat']
    omega
  · rw [if_neg short]
    by_cases medium : length < 65536
    · rw [if_pos medium]
      exact medium
    · rw [if_neg medium]
      exact small

theorem toNat_toByte_lt {format : LengthFormat} {length : Nat} (holds : format.Holds length) :
    format.toByte.toNat < 128 := by
  cases format with
  | inline announced =>
      have equal : announced.toNat = length := holds.1
      have short := holds.2
      rw [toByte]
      omega
  | extended16 => decide
  | extended64 => decide

theorem lt_of_holds {format : LengthFormat} {length : Nat} (holds : format.Holds length) :
    length < 2 ^ 63 := by
  cases format with
  | inline announced => exact Nat.lt_trans holds.2 (by decide)
  | extended16 => exact Nat.lt_trans holds (by decide)
  | extended64 => exact holds

end LengthFormat

/-- The octets of a header whose length is written in the given way. -/
def FrameHeader.encodeAs
    (header : FrameHeader)
    (format : LengthFormat)
    (length : Nat) : List UInt8 :=
  header.firstOctet :: (format.toByte ||| flag header.mask.isSome 0x80) ::
    (BigEndian.encode format.extraSize length ++
      (header.mask.map MaskingKey.octets).getD [])

/-- An endpoint writes the length of a frame in the shortest way. -/
theorem FrameHeader.encode_eq_encodeAs (header : FrameHeader) (length : Nat) :
    header.encode length = header.encodeAs (.ofLength length) length := by
  unfold encode segments encodeAs secondOctet
  cases LengthFormat.ofLength length <;> cases header.mask <;> simp

namespace Grammar

open HeaderParser (octet_of_forall_lt)

/-- Whether a mask is what an endpoint of the given role puts on its frames. -/
def Masks : Role → Option MaskingKey → Prop
  | .server, mask => mask = none
  | .client, mask => mask.isSome = true

theorem firstOctet_eq (opcode : Opcode) (isFinal : Bool) (mask : Option MaskingKey) :
    ({ opcode, isFinal, mask } : FrameHeader).firstOctet =
      opcode.toByte ||| FrameHeader.flag isFinal 0x80 := by
  simp [FrameHeader.firstOctet, FrameHeader.flag]

/-- The number that a frame opens with holds its opcode and whether it is final. -/
theorem number_of_isAssigned
    {opcode : Opcode}
    (assigned : opcode.isAssigned = true)
    (isFinal : Bool) :
    let number := (opcode.toByte ||| FrameHeader.flag isFinal 0x80).toNat
    number / 16 % 8 = 0 ∧ opcode? (number % 16) = some opcode ∧
      decide (128 ≤ number) = isFinal := by
  cases opcode with
  | data opcode =>
      cases opcode with
      | reserved value => cases assigned
      | _ => cases isFinal <;> decide
  | control opcode =>
      cases opcode with
      | reserved value => cases assigned
      | _ => cases isFinal <;> decide

theorem opening_firstOctet
    {opcode : Opcode}
    (assigned : opcode.isAssigned = true)
    (isFinal : Bool)
    (mask : Option MaskingKey)
    (rest : List UInt8) :
    opening (({ opcode, isFinal, mask } : FrameHeader).firstOctet :: rest) =
      .found (isFinal, opcode) rest := by
  obtain ⟨clear, meaning, final⟩ := number_of_isAssigned assigned isFinal
  have first :
      Scanner.octet (({ opcode, isFinal, mask } : FrameHeader).firstOctet :: rest) =
        .found (opcode.toByte ||| FrameHeader.flag isFinal 0x80) rest := by
    rw [firstOctet_eq]
    rfl
  rw [opening, Scanner.bind_of_found first, if_neg (not_not_intro clear), meaning, final]
  rfl

theorem toNat_mask_bit (octet : UInt8) (small : octet.toNat < 128) :
    (octet ||| 0x80).toNat = octet.toNat + 128 ∧ (octet ||| 0).toNat = octet.toNat := by
  revert small
  refine octet_of_forall_lt ?_ octet
  decide +kernel

/-- A client is announced a length without the mask bit. -/
theorem announcement_client
    {octet : UInt8}
    (plain : octet.toNat < 128)
    (rest : List UInt8) :
    announcement .client (octet :: rest) = .found octet.toNat rest := by
  have first : Scanner.octet (octet :: rest) = .found octet rest := rfl
  rw [announcement, Scanner.bind_of_found first, decide_eq_false (Nat.not_le.mpr plain),
    Nat.mod_eq_of_lt plain]
  rfl

/-- A server is announced a length with the mask bit. -/
theorem announcement_server
    {octet : UInt8}
    (masked : 128 ≤ octet.toNat)
    (rest : List UInt8) :
    announcement .server (octet :: rest) = .found (octet.toNat % 128) rest := by
  have first : Scanner.octet (octet :: rest) = .found octet rest := rfl
  rw [announcement, Scanner.bind_of_found first, decide_eq_true masked]
  rfl

theorem announcement_toByte
    {role : Role}
    {mask : Option MaskingKey}
    (masks : Masks role mask)
    {octet : UInt8}
    (small : octet.toNat < 128)
    (rest : List UInt8) :
    announcement role.peer ((octet ||| FrameHeader.flag mask.isSome 0x80) :: rest) =
      .found octet.toNat rest := by
  obtain ⟨masked, plain⟩ := toNat_mask_bit octet small
  cases role with
  | server =>
      rw [show mask = none from masks]
      change announcement .client ((_ ||| 0) :: rest) = _
      rw [announcement_client (by rw [plain]; exact small), plain]
  | client =>
      rw [show mask.isSome = true from masks]
      change announcement .server ((_ ||| 0x80) :: rest) = _
      rw [announcement_server (by rw [masked]; exact Nat.le_add_left _ _), masked,
        Nat.add_mod_right, Nat.mod_eq_of_lt small]

/-- A length is read back from every way to write it. -/
theorem length_toByte
    {format : LengthFormat}
    {length : Nat}
    (holds : format.Holds length)
    (rest : List UInt8) :
    Grammar.length format.toByte.toNat (BigEndian.encode format.extraSize length ++ rest) =
      .found length rest := by
  have read : ∀ width, Scanner.octets width (BigEndian.encode width length ++ rest) =
      .found (BigEndian.encode width length) rest :=
    fun width => Scanner.octets_append (BigEndian.length_encode width length) rest
  cases format with
  | inline announced =>
      obtain ⟨rfl, short⟩ := holds
      exact length_of_lt short rest
  | extended16 =>
      have medium : length < 256 ^ 2 := holds
      have announced : LengthFormat.extended16.toByte.toNat = 126 := rfl
      rw [Grammar.length, if_pos announced, LengthFormat.extraSize_extended16,
        Scanner.bind_of_found (read 2), BigEndian.decode_encode_of_lt medium]
      rfl
  | extended64 =>
      have small : length < 2 ^ 63 := holds
      have fits : length < 256 ^ 8 := Nat.lt_trans small (by decide)
      have announced : LengthFormat.extended64.toByte.toNat = 127 := rfl
      rw [Grammar.length, if_neg (by decide), if_pos announced, LengthFormat.extraSize_extended64,
        Scanner.bind_of_found (read 8), BigEndian.decode_encode_of_lt fits,
        if_neg (Nat.not_le.mpr small)]
      rfl

theorem key_octets
    {role : Role}
    {mask : Option MaskingKey}
    (masks : Masks role mask)
    (rest : List UInt8) :
    key role.peer ((mask.map MaskingKey.octets).getD [] ++ rest) = .found mask rest := by
  cases role with
  | server =>
      obtain rfl : mask = none := masks
      exact key_client rest
  | client =>
      obtain ⟨key, rfl⟩ := Option.isSome_iff_exists.mp masks
      exact key_server key.first key.second key.third key.fourth rest

/-! ## Frames -/

section Frames

variable
    {role : Role}
    {mask : Option MaskingKey}
    {opcode : Opcode}
    {memory : Memory}

theorem header_encodeAs
    (masks : Masks role mask)
    (assigned : opcode.isAssigned = true)
    (isFinal : Bool)
    {format : LengthFormat}
    {length : Nat}
    (holds : format.Holds length)
    (rest : List UInt8) :
    header role.peer (({ opcode, isFinal, mask } : FrameHeader).encodeAs format length ++
        rest) =
      .found ({ opcode, isFinal, mask }, length) rest := by
  rw [FrameHeader.encodeAs, List.cons_append, List.cons_append, List.append_assoc]
  refine (Scanner.bind_of_found (opening_firstOctet assigned isFinal mask _)).trans ?_
  refine (Scanner.bind_of_found
    (announcement_toByte masks (LengthFormat.toNat_toByte_lt holds) _)).trans ?_
  refine (Scanner.bind_of_found (length_toByte holds _)).trans ?_
  exact Scanner.bind_of_found (key_octets masks rest)

/-- The octets of an unfragmented frame with the given mask. -/
def written (mask : Option MaskingKey) (frame : Frame) : List UInt8 :=
  ({ opcode := frame.opcode, mask } : FrameHeader).encode frame.length ++
    unmask mask frame.payload

theorem unmask_unmask (mask : Option MaskingKey) (payload : List UInt8) :
    unmask mask (unmask mask payload) = payload := by
  cases mask with
  | none => rfl
  | some key => exact key.maskFrom_maskFrom 0 payload

/-- Whether a peer with the given limit accepts an unfragmented frame. -/
def acceptable (limit : Nat) (frame : Frame) : Bool :=
  match frame.opcode with
  | .data .text => frame.length ≤ limit
  | .data .binary => frame.length ≤ limit
  | .control _ => frame.length ≤ 125
  | _ => false

/-- What a peer with the given limit has against an unfragmented frame that it does not
accept. -/
def objection (limit : Nat) (frame : Frame) : Refusal :=
  match frame.opcode with
  | .data .continuation => .nothingToContinue
  | .data _ => .messageTooLong frame.length limit
  | .control opcode => .oversizedControl opcode frame.length

/-- A frame that can be sent in one piece to a host with room for it. -/
structure Sendable
    (role : Role)
    (memory : Memory)
    (mask : Option MaskingKey)
    (frame : Frame) :
    Prop where
  masks : Masks role mask
  assigned : frame.opcode.isAssigned = true
  room : memory.hasRoom frame.length = true

theorem broken?_unfragmented
    (limit : Nat)
    {frame : Frame}
    (sendable : Sendable role memory mask frame) :
    broken? limit memory none { opcode := frame.opcode, mask } frame.length =
      if acceptable limit frame then none else some (objection limit frame) := by
  obtain ⟨-, assigned, room⟩ := sendable
  have crowding : crowding? limit memory frame.length =
      if frame.length ≤ limit then none
      else some (.messageTooLong frame.length limit) := by
    unfold crowding?
    by_cases long : limit < frame.length
    · rw [if_pos long, if_neg (Nat.not_le.mpr long)]
    · rw [if_neg long, if_pos (Nat.le_of_not_lt long), if_pos room]
  obtain ⟨opcode, payload⟩ := frame
  cases opcode with
  | control opcode =>
      by_cases long : 125 < (Frame.mk (.control opcode) payload).length
      · simp [broken?, acceptable, objection, if_pos long, Nat.not_le.mpr long]
      · simp [broken?, acceptable, if_neg long, Nat.le_of_not_lt long]
  | data opcode =>
      cases opcode with
      | continuation => rfl
      | text => simpa [broken?, acceptable, objection] using crowding
      | binary => simpa [broken?, acceptable, objection] using crowding
      | reserved value => cases assigned

/-- A frame that was written is read back, or refused if it is not acceptable, whatever
follows it. -/
theorem frame_written
    (limit : Nat)
    {sent : Frame}
    (sendable : Sendable role memory mask sent)
    (rest : List UInt8) :
    frame role.peer limit memory none (written mask sent ++ rest) =
      if acceptable limit sent then .found (some sent, none) rest
      else .refused (objection limit sent) := by
  have small : sent.length < 2 ^ 63 := memory.size_lt_of_hasRoom sendable.room
  have wide : (unmask mask sent.payload).length = sent.length :=
    length_unmask mask sent.payload
  have holds := LengthFormat.holds_ofLength small
  rw [written, FrameHeader.encode_eq_encodeAs, List.append_assoc]
  refine (Scanner.bind_of_found
    (header_encodeAs sendable.masks sendable.assigned true holds _)).trans ?_
  change body limit memory none { opcode := sent.opcode, mask } sent.length _ = _
  rw [body, broken?_unfragmented limit sendable]
  cases acceptable limit sent with
  | false => rfl
  | true =>
      refine (Scanner.bind_of_found (Scanner.octets_append wide rest)).trans ?_
      rw [Scanner.pure_apply, unmask_unmask]
      obtain ⟨opcode, payload⟩ := sent
      cases opcode with
      | control opcode => rfl
      | data opcode => rfl

end Frames

end Grammar
end WebSocket
