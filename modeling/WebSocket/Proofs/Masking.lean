import WebSocket.MaskingKey

/-!
# Masking by words and by pieces

Masking whole words gives what the plain rule gives octet by octet, in either word
order. Pieces of a payload that are masked each at its own offset make up the masked
payload, and masking twice restores it.
-/

namespace WebSocket
namespace WordOrder

/-! ## Words and their octets -/

theorem pack_xor_pack
    (order : WordOrder)
    (first second third fourth first' second' third' fourth' : UInt8) :
    order.pack first second third fourth ^^^
        order.pack first' second' third' fourth' =
      order.pack (first ^^^ first') (second ^^^ second')
        (third ^^^ third') (fourth ^^^ fourth') := by
  apply UInt32.toBitVec_inj.mp
  cases order <;>
  · simp only [pack, UInt32.toBitVec_xor, UInt32.toBitVec_or, UInt32.toBitVec_shiftLeft,
      UInt8.toBitVec_toUInt32, UInt8.toBitVec_xor]
    ext bit
    simp
    grind

theorem octet_pack
    (order : WordOrder)
    (first second third fourth : UInt8) :
    order.octet (order.pack first second third fourth) 0 = first ∧
      order.octet (order.pack first second third fourth) 1 = second ∧
      order.octet (order.pack first second third fourth) 2 = third ∧
      order.octet (order.pack first second third fourth) 3 = fourth := by
  refine ⟨?_, ?_, ?_, ?_⟩ <;>
  · apply UInt8.toBitVec_inj.mp
    cases order <;>
    · simp only [pack, octet]
      ext bit
      simp <;> grind

end WordOrder

namespace MaskingKey

/-! ## The plain rule -/

@[simp] theorem maskFrom_nil (key : MaskingKey) (position : Nat) :
    key.maskFrom position [] = [] := rfl

@[simp] theorem maskFrom_cons
    (key : MaskingKey)
    (position : Nat)
    (octet : UInt8)
    (payload : List UInt8) :
    key.maskFrom position (octet :: payload) =
      (octet ^^^ key.octetAt position) :: key.maskFrom (position + 1) payload := by
  simp only [maskFrom, List.mapIdx_cons, Nat.add_zero]
  congr 2
  funext index octet
  rw [Nat.add_assoc, Nat.add_comm 1]

theorem maskFrom_append
    (key : MaskingKey)
    (position : Nat)
    (left right : List UInt8) :
    key.maskFrom position (left ++ right) =
      key.maskFrom position left ++ key.maskFrom (position + left.length) right := by
  induction left generalizing position with
  | nil => rfl
  | cons octet left inductionHypothesis =>
      simp only [List.cons_append, maskFrom_cons, inductionHypothesis,
        List.length_cons]
      rw [Nat.add_assoc position 1, Nat.add_comm 1]

/-- Masking is its own inverse. -/
theorem maskFrom_maskFrom
    (key : MaskingKey)
    (position : Nat)
    (payload : List UInt8) :
    key.maskFrom position (key.maskFrom position payload) = payload := by
  induction payload generalizing position with
  | nil => rfl
  | cons octet payload inductionHypothesis =>
      rw [maskFrom_cons, maskFrom_cons, inductionHypothesis, UInt8.xor_assoc,
        UInt8.xor_self, UInt8.xor_zero]

theorem octetAt_add_four (key : MaskingKey) (position : Nat) :
    key.octetAt (position + 4) = key.octetAt position := by
  simp only [octetAt, Nat.add_mod_right]

/-- The octets of a key are used in the order in which they are written. -/
theorem getD_octets (key : MaskingKey) (position : Nat) :
    key.octets.getD (position % 4) 0 = key.octetAt position := by
  have small : position % 4 < 4 := Nat.mod_lt _ (by decide)
  unfold octetAt
  generalize position % 4 = phase at small ⊢
  match phase, small with
  | 0, _ => rfl
  | 1, _ => rfl
  | 2, _ => rfl
  | 3, _ => rfl

/-- The key repeats after four octets. -/
theorem maskFrom_add_four
    (key : MaskingKey)
    (position : Nat)
    (payload : List UInt8) :
    key.maskFrom (position + 4) payload = key.maskFrom position payload := by
  induction payload generalizing position with
  | nil => rfl
  | cons octet payload inductionHypothesis =>
      rw [maskFrom_cons, maskFrom_cons, octetAt_add_four,
        Nat.add_right_comm, inductionHypothesis]

/-! ## Words -/

theorem toList_maskWordsOnto
    (order : WordOrder)
    (key : MaskingKey)
    (done : Array UInt8)
    (payload : List UInt8) :
    (maskWordsOnto order key done payload).toList =
      done.toList ++ key.maskFrom 0 payload := by
  fun_induction maskWordsOnto order key done payload with
  | case1 done first second third fourth rest word inductionHypothesis =>
      obtain ⟨octet0, octet1, octet2, octet3⟩ := order.octet_pack
        (first ^^^ key.first) (second ^^^ key.second)
        (third ^^^ key.third) (fourth ^^^ key.fourth)
      rw [inductionHypothesis]
      simp only [word, order.pack_xor_pack, octet0, octet1, octet2, octet3,
        maskFrom_cons, Array.toList_push, List.append_assoc, List.cons_append,
        List.nil_append]
      rw [key.maskFrom_add_four 0]
      rfl
  | case2 done rest => simp

/-- Masking by words is masking by octets, whatever the word order. -/
theorem maskWords_eq_maskFrom
    (order : WordOrder)
    (key : MaskingKey)
    (payload : List UInt8) :
    key.maskWords order payload = key.maskFrom 0 payload := by
  simp [maskWords, toList_maskWordsOnto]

@[simp] theorem mask_eq_maskFrom (key : MaskingKey) (payload : List UInt8) :
    key.mask payload = key.maskFrom 0 payload :=
  maskWords_eq_maskFrom .little key payload

/-! ## Pieces -/

theorem octetAt_rotate (key : MaskingKey) (count position : Nat) :
    (key.rotate count).octetAt position = key.octetAt (count + position) := by
  have fromRemainder :
      key.octetAt (count + position) = key.octetAt (count + position % 4) := by
    simp only [octetAt, Nat.add_mod_mod]
  have small : position % 4 < 4 := Nat.mod_lt _ (by decide)
  rw [fromRemainder, octetAt.eq_def (key.rotate count)]
  generalize position % 4 = remainder at small ⊢
  match remainder, small with
  | 0, _ => rfl
  | 1, _ => rfl
  | 2, _ => rfl
  | 3, _ => rfl

theorem maskFrom_rotate
    (key : MaskingKey)
    (count position : Nat)
    (payload : List UInt8) :
    (key.rotate count).maskFrom position payload =
      key.maskFrom (count + position) payload := by
  simp only [maskFrom, octetAt_rotate, Nat.add_assoc]

/-- A piece is masked by the rule for its place in the payload. -/
@[simp] theorem maskAt_eq_maskFrom
    (key : MaskingKey)
    (offset : Nat)
    (piece : List UInt8) :
    key.maskAt offset piece = key.maskFrom offset piece := by
  rw [maskAt, mask_eq_maskFrom, maskFrom_rotate, Nat.add_zero]

/-- Mask a piece of a payload that starts `offset` octets into it, by words in the given
order. -/
def maskAtBy
    (order : WordOrder)
    (key : MaskingKey)
    (offset : Nat)
    (piece : List UInt8) : List UInt8 :=
  (key.rotate offset).maskWords order piece

/-- Mask the pieces of a payload that follow each other from `offset` octets into it on, each
at its own place. -/
def maskPieces
    (order : WordOrder)
    (key : MaskingKey)
    (offset : Nat) : List (List UInt8) → List UInt8
  | [] => []
  | piece :: later =>
      maskAtBy order key offset piece ++ maskPieces order key (offset + piece.length) later

theorem maskAtBy_eq_maskFrom
    (order : WordOrder)
    (key : MaskingKey)
    (offset : Nat)
    (piece : List UInt8) :
    maskAtBy order key offset piece = key.maskFrom offset piece := by
  rw [maskAtBy, maskWords_eq_maskFrom, maskFrom_rotate, Nat.add_zero]

/-- Pieces that are masked make up the masked payload. -/
theorem maskPieces_eq_maskFrom
    (order : WordOrder)
    (key : MaskingKey)
    (offset : Nat)
    (pieces : List (List UInt8)) :
    maskPieces order key offset pieces = key.maskFrom offset pieces.flatten := by
  induction pieces generalizing offset with
  | nil => rfl
  | cons piece later inductionHypothesis =>
      rw [maskPieces, maskAtBy_eq_maskFrom, inductionHypothesis, List.flatten_cons,
        maskFrom_append]

theorem getElem?_maskFrom_octets
    (key : MaskingKey)
    (offset : Nat)
    (payload : List UInt8)
    (index : Nat) :
    (key.maskFrom offset payload)[index]? =
      payload[index]?.map (· ^^^ key.octets.getD ((offset + index) % 4) 0) := by
  rw [getElem?_maskFrom, getD_octets]

/-- Whether masking by words in the given order acts on each octet by itself, in whatever
pieces a payload is masked. -/
structure MasksByOctet (order : WordOrder) (key : MaskingKey) : Prop where
  /-- An octet is combined with the octet of the key that is next in turn. -/
  whole : ∀ (payload : List UInt8) (index : Nat),
    (key.maskWords order payload)[index]? =
      payload[index]?.map (· ^^^ key.octets.getD (index % 4) 0)
  /-- Masking by words is masking by octets. -/
  plain : ∀ payload : List UInt8,
    key.maskWords order payload = key.maskFrom 0 payload ∧
      key.mask payload = key.maskFrom 0 payload
  /-- A piece is masked as a part of the payload. -/
  piece : ∀ (offset : Nat) (piece : List UInt8) (index : Nat),
    (maskAtBy order key offset piece)[index]? =
        piece[index]?.map (· ^^^ key.octets.getD ((offset + index) % 4) 0) ∧
      key.maskAt offset piece = maskAtBy order key offset piece
  /-- Masking pieces is masking the whole. -/
  pieces : ∀ (offset : Nat) (pieces : List (List UInt8)),
    maskPieces order key offset pieces = maskAtBy order key offset pieces.flatten
  /-- Masking again restores the payload, in other pieces and by words in another order. -/
  restores : ∀ (order' : WordOrder) (offset : Nat) (pieces again : List (List UInt8)),
    again.flatten = maskPieces order key offset pieces →
      maskPieces order' key offset again = pieces.flatten

/-- Masking by words combines every octet of a payload with the octet of the key that is its
turn, in either word order and from any offset on. So it does not matter in which pieces a
payload is masked, nor in which other pieces it is masked again to restore it. -/
theorem masksByOctet (order : WordOrder) (key : MaskingKey) : MasksByOctet order key where
  whole payload index := by
    rw [maskWords_eq_maskFrom, getElem?_maskFrom_octets, Nat.zero_add]
  plain payload := ⟨maskWords_eq_maskFrom order key payload, mask_eq_maskFrom key payload⟩
  piece offset piece index := by
    rw [maskAtBy_eq_maskFrom, getElem?_maskFrom_octets]
    exact ⟨rfl, maskAt_eq_maskFrom key offset piece⟩
  pieces offset pieces := by
    rw [maskPieces_eq_maskFrom, maskAtBy_eq_maskFrom]
  restores order' offset pieces again same := by
    rw [maskPieces_eq_maskFrom] at same ⊢
    rw [same, maskFrom_maskFrom]

/-- What has been masked in two pieces, from the middle of a word on, is restored in three, by
words in the other order. -/
theorem masksByOctet_cut_within_words :
    let key : MaskingKey := ⟨0x37, 0xfa, 0x21, 0x3d⟩
    let pieces : List (List UInt8) :=
      [[0x48, 0x65, 0x6c, 0x6c, 0x6f, 0x2c], [0x20, 0x79, 0x6f, 0x75]]
    let again : List (List UInt8) :=
      [[0x69], [0x58, 0x5b, 0x96, 0x4e, 0x11, 0x17], [0x83, 0x4e, 0x48]]
    maskPieces .big key 2 pieces = again.flatten ∧
      maskPieces .little key 2 again = pieces.flatten := by
  intro key pieces again
  have same : again.flatten = maskPieces .big key 2 pieces := by decide +kernel
  exact ⟨same.symm, (masksByOctet .big key).restores .little 2 pieces again same⟩

end MaskingKey
end WebSocket
