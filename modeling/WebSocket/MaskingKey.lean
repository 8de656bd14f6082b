/-!
# Masking

A client combines every payload octet with an octet of a four-octet key, chosen
by the position of the octet in its payload. The definition that runs works on
whole words and on pieces of a payload; `MaskingKey.maskFrom` is the plain rule
that says what each octet becomes.
-/

namespace WebSocket

/-- A masking key of four octets. -/
structure MaskingKey where
  first : UInt8
  second : UInt8
  third : UInt8
  fourth : UInt8
  deriving DecidableEq, Repr, Inhabited

/-- The order in which octets are packed into a word, least significant first or
most significant first. -/
inductive WordOrder
  | little
  | big
  deriving DecidableEq, Repr

namespace WordOrder

/-- Pack four octets into a word. -/
def pack
    (order : WordOrder)
    (first second third fourth : UInt8) : UInt32 :=
  match order with
  | .little =>
      first.toUInt32 ||| second.toUInt32 <<< 8 |||
        third.toUInt32 <<< 16 ||| fourth.toUInt32 <<< 24
  | .big =>
      fourth.toUInt32 ||| third.toUInt32 <<< 8 |||
        second.toUInt32 <<< 16 ||| first.toUInt32 <<< 24

/-- The octet of a word at position 0 to 3, counted in memory order. -/
def octet (order : WordOrder) (word : UInt32) (position : Nat) : UInt8 :=
  match order with
  | .little => (word >>> UInt32.ofNat (8 * position)).toUInt8
  | .big => (word >>> UInt32.ofNat (8 * (3 - position))).toUInt8

end WordOrder

namespace MaskingKey

/-- The octets of a key in the order they are written. -/
def octets (key : MaskingKey) : List UInt8 :=
  [key.first, key.second, key.third, key.fourth]

@[simp] theorem length_octets (key : MaskingKey) : key.octets.length = 4 := rfl

/-- The key whose octets these are, read in the order they are written. -/
def ofOctets? : List UInt8 → Option MaskingKey
  | [first, second, third, fourth] => some ⟨first, second, third, fourth⟩
  | _ => none

@[simp] theorem ofOctets?_octets (key : MaskingKey) :
    ofOctets? key.octets = some key := rfl

/-- The octet of a key that masks the payload octet at a position. -/
def octetAt (key : MaskingKey) (position : Nat) : UInt8 :=
  match position % 4 with
  | 0 => key.first
  | 1 => key.second
  | 2 => key.third
  | _ => key.fourth

/-- Mask octets that start at the given position of a payload: each is combined
with the key octet of its own position. -/
def maskFrom
    (key : MaskingKey)
    (position : Nat)
    (payload : List UInt8) : List UInt8 :=
  payload.mapIdx fun index octet => octet ^^^ key.octetAt (position + index)

@[simp] theorem length_maskFrom
    (key : MaskingKey)
    (position : Nat)
    (payload : List UInt8) :
    (key.maskFrom position payload).length = payload.length := by
  simp [maskFrom]

/-- Masking acts on each octet by itself. -/
theorem getElem?_maskFrom
    (key : MaskingKey)
    (position : Nat)
    (payload : List UInt8)
    (index : Nat) :
    (key.maskFrom position payload)[index]? =
      payload[index]?.map (· ^^^ key.octetAt (position + index)) := by
  simp [maskFrom]

/-- Mask whole words of four octets and then the octets left over, adding what
is masked to `done`. -/
def maskWordsOnto
    (order : WordOrder)
    (key : MaskingKey)
    (done : Array UInt8) : List UInt8 → Array UInt8
  | first :: second :: third :: fourth :: rest =>
      let word :=
        order.pack first second third fourth ^^^
          order.pack key.first key.second key.third key.fourth
      maskWordsOnto order key
        ((((done.push (order.octet word 0)).push (order.octet word 1)).push
          (order.octet word 2)).push (order.octet word 3))
        rest
  | rest => done ++ key.maskFrom 0 rest

/-- Mask a payload a word at a time. -/
def maskWords
    (order : WordOrder)
    (key : MaskingKey)
    (payload : List UInt8) : List UInt8 :=
  (maskWordsOnto order key #[] payload).toList

/-- Mask a whole payload. The order of octets in a word does not matter for the
result, so either may be used. -/
def mask (key : MaskingKey) (payload : List UInt8) : List UInt8 :=
  key.maskWords .little payload

/-- The key that masks what is left after `count` octets. -/
def rotate (key : MaskingKey) (count : Nat) : MaskingKey :=
  ⟨key.octetAt count, key.octetAt (count + 1),
    key.octetAt (count + 2), key.octetAt (count + 3)⟩

/-- Mask a piece of a payload that starts `offset` octets into it. -/
def maskAt
    (key : MaskingKey)
    (offset : Nat)
    (piece : List UInt8) : List UInt8 :=
  (key.rotate offset).mask piece

end MaskingKey

end WebSocket
