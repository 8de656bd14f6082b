import Mathlib.Algebra.Group.Nat.Defs
import WebSocket.BigEndian

/-!
# Laws of network byte order

Octets are read as a number below a power of 256. A number that fits its width is read back
as it was written, and octets that are read are written back.
-/

namespace WebSocket
namespace BigEndian

/-- Octets that are read behind a number shift it. -/
theorem foldl_octets (start : Nat) (octets : List UInt8) :
    octets.foldl (fun value octet => 256 * value + octet.toNat) start =
      start * 256 ^ octets.length + decode octets := by
  induction octets generalizing start with
  | nil =>
      rw [List.foldl_nil, List.length_nil, Nat.pow_zero, Nat.mul_one, decode_nil]
      rfl
  | cons octet octets inductionHypothesis =>
      have shifted : 256 * start * 256 ^ octets.length =
          start * (256 ^ octets.length * 256) := by
        rw [Nat.mul_comm 256, Nat.mul_assoc, Nat.mul_comm 256]
      rw [decode, List.foldl_cons, List.foldl_cons, inductionHypothesis,
        inductionHypothesis (256 * 0 + octet.toNat), Nat.add_mul, shifted,
        List.length_cons, Nat.pow_succ, Nat.mul_zero, Nat.zero_add, Nat.add_assoc]

/-- The first octet of a number is its most significant one. -/
theorem decode_cons (first : UInt8) (octets : List UInt8) :
    decode (first :: octets) = first.toNat * 256 ^ octets.length + decode octets := by
  rw [decode, List.foldl_cons, foldl_octets, Nat.mul_zero, Nat.zero_add]

/-- Octets hold numbers below a power of 256. -/
theorem decode_lt (octets : List UInt8) : decode octets < 256 ^ octets.length := by
  induction octets with
  | nil => exact Nat.one_pos
  | cons first octets inductionHypothesis =>
      have small : first.toNat + 1 ≤ 256 := first.toNat_lt
      rw [decode_cons, List.length_cons]
      calc first.toNat * 256 ^ octets.length + decode octets
        _ < first.toNat * 256 ^ octets.length + 256 ^ octets.length :=
          Nat.add_lt_add_left inductionHypothesis _
        _ = (first.toNat + 1) * 256 ^ octets.length := (Nat.succ_mul _ _).symm
        _ ≤ 256 * 256 ^ octets.length := Nat.mul_le_mul_right _ small
        _ = 256 ^ (octets.length + 1) := (Nat.pow_succ').symm

/-- Only the low-order octets of a number are written. -/
theorem decode_encode (width value : Nat) :
    decode (encode width value) = value % 256 ^ width := by
  induction width with
  | zero => rw [encode_zero, decode_nil, Nat.pow_zero, Nat.mod_one]
  | succ width inductionHypothesis =>
      have weight : 2 ^ (8 * width) = 256 ^ width := Nat.pow_mul 2 8 width
      have octet :
          (UInt8.ofNat (value >>> (8 * width))).toNat = value / 256 ^ width % 256 := by
        rw [UInt8.toNat_ofNat', Nat.shiftRight_eq_div_pow, weight]
      rw [encode_succ, decode_cons, length_encode, inductionHypothesis, octet,
        Nat.pow_succ, Nat.mod_mul, Nat.mul_comm, Nat.add_comm]

/-- Octets of one width that are read as the same number are the same. -/
theorem eq_of_decode_eq
    {left right : List UInt8}
    (width : left.length = right.length)
    (number : decode left = decode right) :
    left = right := by
  induction left generalizing right with
  | nil => exact (List.length_eq_zero_iff.mp width.symm).symm
  | cons first left inductionHypothesis =>
      obtain ⟨first', right, rfl⟩ := List.exists_cons_of_length_eq_add_one width.symm
      have width : left.length = right.length := Nat.succ.inj width
      have weight : 0 < 256 ^ right.length := Nat.pow_pos (by decide)
      have small : decode left < 256 ^ right.length := width ▸ decode_lt left
      have small' := decode_lt right
      rw [decode_cons, decode_cons, width, Nat.mul_comm, Nat.mul_comm first'.toNat] at number
      have digit : first.toNat = first'.toNat := by
        have quotient := congrArg (· / 256 ^ right.length) number
        simpa [Nat.mul_add_div weight, Nat.div_eq_of_lt small, Nat.div_eq_of_lt small']
          using quotient
      rw [digit] at number
      rw [UInt8.toNat_inj.mp digit, inductionHypothesis width (Nat.add_left_cancel number)]

/-- Octets that are read as a number are written back. -/
theorem encode_decode (octets : List UInt8) :
    encode octets.length (decode octets) = octets := by
  apply eq_of_decode_eq (length_encode _ _)
  rw [decode_encode, Nat.mod_eq_of_lt (decode_lt octets)]

/-- A number that fits its width is read back. -/
theorem decode_encode_of_lt {width value : Nat} (fits : value < 256 ^ width) :
    decode (encode width value) = value := by
  rw [decode_encode, Nat.mod_eq_of_lt fits]

end BigEndian
end WebSocket
