import WebSocket.Proofs.Grammar.Encoding
import WebSocket.Proofs.Grammar.Parts
import WebSocket.Proofs.Grammar.Stream

/-!
# Headers that are read are encodings

Every header that is read off a stream is one that a peer can write: the octets that were
taken are the encoding of the header, with its length written in the way that the second
octet announces. So writing a header that was read gives its octets back, or fewer of them.
-/

namespace WebSocket

namespace FrameHeader

/-- A header that an endpoint of the given role reads: its reserved bits are clear, its
opcode has a meaning, and it holds a key exactly if the endpoint is a server. -/
structure ReadableBy (header : FrameHeader) (role : Role) : Prop where
  rsv1 : header.rsv1 = false
  rsv2 : header.rsv2 = false
  rsv3 : header.rsv3 = false
  assigned : header.opcode.isAssigned = true
  masked : header.mask.isSome = true ↔ role = .server

theorem ReadableBy.masks
    {header : FrameHeader}
    {role : Role}
    (readable : header.ReadableBy role) :
    Grammar.Masks role.peer header.mask := by
  cases role with
  | server => exact readable.masked.mpr rfl
  | client =>
      apply Option.not_isSome_iff_eq_none.mp
      intro masked
      cases readable.masked.mp masked

end FrameHeader

namespace LengthFormat

/-- A way to write a length than which none that can hold it takes fewer octets. -/
def IsShortest (format : LengthFormat) (length : Nat) : Prop :=
  ∀ other : LengthFormat, other.Holds length → format.extraSize ≤ other.extraSize

/-- No way that can hold a length takes fewer octets than the one that is chosen for it. -/
theorem isShortest_ofLength (length : Nat) : (ofLength length).IsShortest length := by
  intro other holds
  unfold ofLength
  by_cases short : length < 126
  · rw [if_pos short]
    exact Nat.zero_le _
  · rw [if_neg short]
    by_cases medium : length < 65536
    · rw [if_pos medium]
      cases other with
      | inline announced => exact absurd holds.2 short
      | extended16 => exact Nat.le_refl 2
      | extended64 => decide
    · rw [if_neg medium]
      cases other with
      | inline announced => exact absurd holds.2 short
      | extended16 => exact absurd holds medium
      | extended64 => exact Nat.le_refl 8

/-- Ways that can hold a length and take the same number of octets are the same. -/
theorem eq_of_holds
    {format other : LengthFormat}
    {length : Nat}
    (holds : format.Holds length)
    (holdsOther : other.Holds length)
    (sameSize : format.extraSize = other.extraSize) :
    format = other := by
  cases format with
  | inline announced =>
      cases other with
      | inline announced' =>
          rw [UInt8.toNat_inj.mp (holds.1.trans holdsOther.1.symm)]
      | _ => cases sameSize
  | _ => cases other <;> first | rfl | cases sameSize

end LengthFormat

namespace Grammar

open HeaderParser (octet_of_forall_lt ofByte_eq)
open Scanner

variable
    {role : Role}
    {stream rest : List UInt8}

/-! ## Octets -/

/-- An octet that opens a frame is made of its opcode and of whether it is final. -/
theorem octet_of_opcode?
    {first : UInt8}
    {opcode : Opcode}
    (clear : first.toNat / 16 % 8 = 0)
    (meaning : opcode? (first.toNat % 16) = some opcode) :
    opcode.isAssigned = true ∧
      first = opcode.toByte ||| FrameHeader.flag (decide (128 ≤ first.toNat)) 0x80 := by
  have all : ∀ octet : UInt8, octet.toNat / 16 % 8 = 0 →
      (opcode? (octet.toNat % 16)).all (fun opcode =>
        opcode.isAssigned &&
          octet == opcode.toByte ||| FrameHeader.flag (decide (128 ≤ octet.toNat)) 0x80) =
        true := by
    intro octet
    refine octet_of_forall_lt ?_ octet
    decide +kernel
  have holds := all first clear
  rw [meaning] at holds
  simpa using holds

/-- An octet that announces a length is made of the announcement and of the mask bit. -/
theorem octet_of_ofByte (second : UInt8) :
    second = (LengthFormat.ofByte second).toByte |||
      FrameHeader.flag (decide (128 ≤ second.toNat)) 0x80 := by
  refine octet_of_forall_lt ?_ second
  decide +kernel

/-! ## Fields -/

theorem octet_of_opening
    {first : UInt8}
    {item : Bool × Opcode}
    (found : opening (first :: rest) = .found item rest) :
    item.2.isAssigned = true ∧
      first = item.2.toByte ||| FrameHeader.flag item.1 0x80 := by
  have read : octet (first :: rest) = .found first rest := rfl
  rw [opening, bind_of_found read] at found
  by_cases clear : first.toNat / 16 % 8 = 0
  · simp only [if_neg (not_not_intro clear)] at found
    cases meaning : opcode? (first.toNat % 16) with
    | none =>
        simp only [meaning] at found
        cases found
    | some opcode =>
        simp only [meaning] at found
        cases found
        exact octet_of_opcode? clear meaning
  · simp only [if_pos clear] at found
    cases found

/-- The mask bit is set exactly if the reader is a server. -/
theorem maskBit_of_announcement
    {second : UInt8}
    {announced : Nat}
    (found : announcement role (second :: rest) = .found announced rest) :
    decide (128 ≤ second.toNat) = true ↔ role = .server := by
  have read : octet (second :: rest) = .found second rest := rfl
  rw [announcement, bind_of_found read] at found
  cases role <;> cases masked : decide (128 ≤ second.toNat) <;>
    simp only [masked] at found <;> first | cases found; done | simp

/-- The octets of a length are the length, written in the way that is announced. -/
theorem stream_of_length
    {second : UInt8}
    {item : Nat}
    (found : length (second.toNat % 128) stream = .found item rest) :
    let format := LengthFormat.ofByte second
    format.Holds item ∧ stream = BigEndian.encode format.extraSize item ++ rest := by
  have small := item_lt_of_length (Nat.mod_lt _ (by decide)) found
  obtain ⟨full, taken, number⟩ := rest_of_length found
  have whole := List.take_append_drop (extendedWidth (second.toNat % 128)) stream
  have wide := List.length_take_of_le full
  rw [← taken] at whole
  generalize stream.take (extendedWidth (second.toNat % 128)) = octets at number whole wide
  have narrow := BigEndian.decode_lt octets
  have written := BigEndian.encode_decode octets
  rw [ofByte_eq]
  unfold extendedWidth at number wide
  by_cases medium : second.toNat % 128 = 126
  · rw [if_pos medium] at number wide ⊢
    rw [wide, ← show item = BigEndian.decode octets from number] at narrow written
    exact ⟨narrow, (congrArg (· ++ rest) written).trans whole |>.symm⟩
  · rw [if_neg medium] at number wide ⊢
    by_cases large : second.toNat % 128 = 127
    · rw [if_pos large] at number wide ⊢
      rw [wide, ← show item = BigEndian.decode octets from number] at written
      exact ⟨small, (congrArg (· ++ rest) written).trans whole |>.symm⟩
    · rw [if_neg large] at number wide ⊢
      obtain rfl : item = second.toNat % 128 := number
      obtain rfl : octets = [] := List.eq_nil_of_length_eq_zero wide
      refine ⟨⟨?_, by omega⟩, whole.symm⟩
      rw [UInt8.toNat_ofNat']
      omega

/-- A key is read where a mask was announced, and its octets are those of the key. -/
theorem stream_of_key
    {mask : Option MaskingKey}
    (found : key role stream = .found mask rest) :
    (mask.isSome = true ↔ role = .server) ∧
      stream = (mask.map MaskingKey.octets).getD [] ++ rest := by
  cases role with
  | client =>
      cases found
      exact ⟨by simp, rfl⟩
  | server =>
      obtain ⟨octets, between, foundOctets, foundItem⟩ := found_of_bind found
      obtain ⟨full, rfl, rfl⟩ := rest_of_octets foundOctets
      have wide := List.length_take_of_le full
      have whole := List.take_append_drop 4 stream
      generalize stream.take 4 = octets at wide whole foundItem
      cases foundItem
      match octets, wide with
      | [first, second, third, fourth], _ => exact ⟨by simp [MaskingKey.ofOctets?], whole.symm⟩

/-- A header that is read is an encoding of what is read: its length is written in the way
that the second octet announces. -/
theorem stream_of_header
    {opened : FrameHeader}
    {announced : Nat}
    (found : header role stream = .found (opened, announced) rest) :
    let format := LengthFormat.ofByte (stream.getD 1 0)
    opened.ReadableBy role ∧ format.Holds announced ∧
      stream = opened.encodeAs format announced ++ rest := by
  obtain ⟨⟨isFinal, opcode⟩, behindOpening, foundOpening, found⟩ := found_of_bind found
  obtain ⟨number, behindNumber, foundNumber, found⟩ := found_of_bind found
  obtain ⟨length, behindLength, foundLength, found⟩ := found_of_bind found
  obtain ⟨mask, behindMask, foundMask, found⟩ := found_of_bind found
  cases found
  obtain ⟨first, rfl⟩ := stream_of_opening foundOpening
  obtain ⟨second, rfl, rfl⟩ := stream_of_announcement foundNumber
  obtain ⟨assigned, opens⟩ := octet_of_opening foundOpening
  have maskBit := maskBit_of_announcement foundNumber
  obtain ⟨holds, lengthOctets⟩ := stream_of_length foundLength
  obtain ⟨masked, keyOctets⟩ := stream_of_key foundMask
  have announces := octet_of_ofByte second
  rw [Bool.eq_iff_iff.mpr (maskBit.trans masked.symm)] at announces
  refine ⟨⟨rfl, rfl, rfl, assigned, masked⟩, holds, ?_⟩
  rw [FrameHeader.encodeAs, firstOctet_eq, ← opens, List.cons_append, List.cons_append,
    List.append_assoc, ← keyOctets]
  exact congrArg (first :: ·) (List.cons_eq_cons.mpr ⟨announces, lengthOctets⟩)

end Grammar
end WebSocket
