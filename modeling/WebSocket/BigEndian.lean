/-!
# Numbers in network byte order

Lengths and status codes travel as fixed-width numbers, most significant octet
first. Writing keeps the low-order octets of a number and reading folds octets
back together, so a number that fits its width is read back unchanged.
-/

namespace WebSocket
namespace BigEndian

/-- The low-order `width` octets of a number, most significant first. -/
def encode : (width value : Nat) → List UInt8
  | 0, _ => []
  | width + 1, value =>
      UInt8.ofNat (value >>> (8 * width)) :: encode width value

@[simp] theorem encode_zero (value : Nat) : encode 0 value = [] := rfl

@[simp] theorem encode_succ (width value : Nat) :
    encode (width + 1) value =
      UInt8.ofNat (value >>> (8 * width)) :: encode width value := rfl

@[simp] theorem length_encode (width value : Nat) :
    (encode width value).length = width := by
  induction width with
  | zero => rfl
  | succ width inductionHypothesis => simp [inductionHypothesis]

/-- The number whose octets these are, most significant first. -/
def decode (octets : List UInt8) : Nat :=
  octets.foldl (fun value octet => 256 * value + octet.toNat) 0

@[simp] theorem decode_nil : decode [] = 0 := rfl

/-- The last octet of a number is its least significant one. -/
@[simp] theorem decode_concat (octets : List UInt8) (last : UInt8) :
    decode (octets ++ [last]) = 256 * decode octets + last.toNat := by
  simp [decode]

end BigEndian
end WebSocket
