import WebSocket.Decoder.Stream
import WebSocket.Proofs.Decoder.Turns

/-!
# Streams in pieces

Decoding a stream that arrives in pieces delivers the same frames at the same offsets,
ends the same way and leaves the same decoder behind, however the stream is cut. It is
what decoding the whole stream at once comes to.
-/

namespace WebSocket
namespace Decoder

/-! ## What a stream shows -/

/-- The frame that a call delivers, with the number of octets taken by then. -/
def FeedRecord.delivery? (record : FeedRecord) : Option (Nat × Frame) :=
  match record.answer with
  | .ok (.ready frame) => some (record.offset, frame)
  | _ => none

/-- The frames that calls deliver, each with the number of octets taken by then. -/
def deliveriesOf (records : Array FeedRecord) : List (Nat × Frame) :=
  records.toList.filterMap FeedRecord.delivery?

theorem deliveriesOf_push_of_delivery
    {records : Array FeedRecord}
    {record : FeedRecord}
    {delivery : Nat × Frame}
    (delivers : record.delivery? = some delivery) :
    deliveriesOf (records.push record) = deliveriesOf records ++ [delivery] := by
  simp [deliveriesOf, delivers]

theorem deliveriesOf_push_of_none
    {records : Array FeedRecord}
    {record : FeedRecord}
    (delivers : record.delivery? = none) :
    deliveriesOf (records.push record) = deliveriesOf records := by
  simp [deliveriesOf, delivers]

/-- The frames that a stream delivers. -/
def Stream.deliveries (stream : Stream) : List (Nat × Frame) :=
  deliveriesOf stream.records

/-- What decoding comes to, whatever is told of it. -/
@[ext] structure Outcome where
  /-- The frames that are delivered, each with the number of octets taken by then. -/
  deliveries : List (Nat × Frame)
  /-- The refusal that ends decoding, if there is one. -/
  refusal : Option Refusal
  decoder : Decoder

/-- What decoding a stream has come to. -/
def Stream.outcome (stream : Stream) : Outcome :=
  ⟨stream.deliveries, stream.refusal, stream.decoder⟩

/-- An outcome behind frames that were delivered earlier. -/
def Outcome.after (outcome : Outcome) (earlier : List (Nat × Frame)) : Outcome :=
  { outcome with deliveries := earlier ++ outcome.deliveries }

@[simp] theorem Outcome.after_nil (outcome : Outcome) : outcome.after [] = outcome := rfl

theorem Outcome.after_after
    (outcome : Outcome)
    (earlier later : List (Nat × Frame)) :
    (outcome.after later).after earlier = outcome.after (earlier ++ later) := by
  simp only [after, List.append_assoc]

/-! ## Decoding at once -/

/-- Decode octets at once, of a stream of which `offset` octets have been taken. -/
def decodeFrom (decoder : Decoder) (offset : Nat) (octets : List UInt8) : Outcome :=
  let fed := decoder.feed octets
  match delivered : fed.answer with
  | .error refusal => ⟨[], some refusal, fed.decoder⟩
  | .ok (.needMore _) => ⟨[], none, fed.decoder⟩
  | .ok (.ready frame) =>
      let offset := offset + (octets.length - fed.rest.length)
      have := Feeding.measure_run_lt delivered
      (fed.decoder.decodeFrom offset fed.rest).after [(offset, frame)]
termination_by Feeding.measure { decoder, input := octets }

/-- The equation of decoding at once, without what only its termination needs. -/
theorem decodeFrom_eq (decoder : Decoder) (offset : Nat) (octets : List UInt8) :
    decoder.decodeFrom offset octets =
      match decoder.verdict octets with
      | ⟨next, _, .error refusal⟩ => ⟨[], some refusal, next⟩
      | ⟨next, _, .ok (.needMore _)⟩ => ⟨[], none, next⟩
      | ⟨next, rest, .ok (.ready frame)⟩ =>
          (next.decodeFrom (offset + (octets.length - rest.length)) rest).after
            [(offset + (octets.length - rest.length), frame)] := by
  rw [decodeFrom.eq_def, verdict, Fed.verdict]
  dsimp only
  split
  · rename_i refusal answer
    rw [answer]
  · rename_i count answer
    rw [answer]
  · rename_i frame answer
    rw [answer]

section Equations

variable {decoder next : Decoder} {octets rest : List UInt8}

theorem decodeFrom_of_refused
    {refusal : Refusal}
    (offset : Nat)
    (fed : decoder.verdict octets = ⟨next, rest, .error refusal⟩) :
    decoder.decodeFrom offset octets = ⟨[], some refusal, next⟩ := by
  rw [decodeFrom_eq, fed]

theorem decodeFrom_of_needMore
    {count : Nat}
    (offset : Nat)
    (fed : decoder.verdict octets = ⟨next, rest, .ok (.needMore count)⟩) :
    decoder.decodeFrom offset octets = ⟨[], none, next⟩ := by
  rw [decodeFrom_eq, fed]

theorem decodeFrom_of_ready
    {frame : Frame}
    (offset : Nat)
    (fed : decoder.verdict octets = ⟨next, rest, .ok (.ready frame)⟩) :
    decoder.decodeFrom offset octets =
      (next.decodeFrom (offset + (octets.length - rest.length)) rest).after
        [(offset + (octets.length - rest.length), frame)] := by
  rw [decodeFrom_eq, fed]

end Equations

/-- Decoding at once is settled by what becomes of the first call, and of the calls after
a frame that it delivers. -/
@[elab_as_elim] theorem decode_induction
    {motive : Decoder → Nat → List UInt8 → Prop}
    (refused : ∀ (decoder : Decoder) offset octets next rest refusal,
      decoder.verdict octets = ⟨next, rest, .error refusal⟩ →
      motive decoder offset octets)
    (needMore : ∀ (decoder : Decoder) offset octets next rest count,
      decoder.verdict octets = ⟨next, rest, .ok (.needMore count)⟩ →
      motive decoder offset octets)
    (ready : ∀ (decoder : Decoder) offset octets next rest frame,
      decoder.verdict octets = ⟨next, rest, .ok (.ready frame)⟩ →
      motive next (offset + (octets.length - rest.length)) rest →
      motive decoder offset octets)
    (decoder : Decoder)
    (offset : Nat)
    (octets : List UInt8) :
    motive decoder offset octets := by
  induction bound : Feeding.measure { decoder, input := octets } using Nat.strongRecOn
    generalizing decoder offset octets with
  | _ _ inductionHypothesis =>
      subst bound
      rcases fed : decoder.verdict octets with ⟨next, rest, refusal | count | frame⟩
      · exact refused decoder offset octets next rest refusal fed
      · exact needMore decoder offset octets next rest count fed
      · refine ready decoder offset octets next rest frame fed ?_
        obtain ⟨rfl, rfl, delivered⟩ := Verdict.mk.inj fed
        exact inductionHypothesis _ (Feeding.measure_run_lt delivered) _ _ _ rfl

/-- Decoding at once depends on what feeding comes to and on where the stream ends. -/
theorem decodeFrom_congr
    {decoder decoder' : Decoder}
    {offset offset' : Nat}
    {octets octets' : List UInt8}
    (fed : decoder.verdict octets = decoder'.verdict octets')
    (total : offset + octets.length = offset' + octets'.length) :
    decoder.decodeFrom offset octets = decoder'.decodeFrom offset' octets' := by
  rcases verdict : decoder'.verdict octets' with ⟨next, rest, refusal | count | frame⟩
  · rw [decodeFrom_of_refused offset (fed.trans verdict),
      decodeFrom_of_refused offset' verdict]
  · rw [decodeFrom_of_needMore offset (fed.trans verdict),
      decodeFrom_of_needMore offset' verdict]
  · have taken : offset + (octets.length - rest.length) =
        offset' + (octets'.length - rest.length) := by
      have shorter := decoder.length_rest_verdict_le octets
      have shorter' := decoder'.length_rest_verdict_le octets'
      rw [fed, verdict] at shorter
      rw [verdict] at shorter'
      dsimp only at shorter shorter'
      omega
    rw [decodeFrom_of_ready offset (fed.trans verdict),
      decodeFrom_of_ready offset' verdict, taken]

/-- Decoding more at once is decoding it in turns, up to a refusal. -/
theorem decodeFrom_append
    (decoder : Decoder)
    (offset : Nat)
    (left right : List UInt8) :
    decoder.decodeFrom offset (left ++ right) =
      let outcome := decoder.decodeFrom offset left
      if outcome.refusal.isSome then outcome
      else (outcome.decoder.decodeFrom (offset + left.length) right).after
        outcome.deliveries := by
  induction decoder, offset, left using decode_induction with
  | refused decoder offset left next rest refusal fed =>
      have fedBoth := decoder.verdict_append left right
      rw [fed] at fedBoth
      rw [decodeFrom_of_refused offset fedBoth, decodeFrom_of_refused offset fed]
      rfl
  | needMore decoder offset left next rest count fed =>
      obtain rfl : rest = [] := by
        have taken := (verdict_of_needMore (congrArg Verdict.answer fed)).1
        rwa [fed] at taken
      have fedBoth : decoder.verdict (left ++ right) = next.verdict right := by
        rw [verdict_append, fed]
        rfl
      rw [decodeFrom_of_needMore offset fed]
      exact decodeFrom_congr fedBoth (by rw [List.length_append, Nat.add_assoc])
  | ready decoder offset left next rest frame fed inductionHypothesis =>
      have fedBoth := decoder.verdict_append left right
      rw [fed] at fedBoth
      have shorter := decoder.length_rest_verdict_le left
      rw [fed] at shorter
      dsimp only at shorter
      have taken : offset + ((left ++ right).length - (rest ++ right).length) =
          offset + (left.length - rest.length) := by
        simp only [List.length_append]
        omega
      have total : offset + (left.length - rest.length) + rest.length =
          offset + left.length := by
        omega
      rw [decodeFrom_of_ready offset fedBoth, decodeFrom_of_ready offset fed, taken,
        inductionHypothesis, total]
      dsimp only
      split
      · rename_i refused
        rw [if_pos (show ((next.decodeFrom _ rest).after _).refusal.isSome = true from
          refused)]
      · rename_i accepted
        rw [if_neg (show ¬((next.decodeFrom _ rest).after _).refusal.isSome = true from
          accepted), Outcome.after_after]
        rfl

/-- A decoder that decodes without a refusal wants more afterwards. -/
theorem wanted_pos_decodeFrom
    {decoder : Decoder}
    {offset : Nat}
    {octets : List UInt8}
    (accepted : (decoder.decodeFrom offset octets).refusal = none) :
    0 < (decoder.decodeFrom offset octets).decoder.wanted := by
  induction decoder, offset, octets using decode_induction with
  | refused decoder offset octets next rest refusal fed =>
      rw [decodeFrom_of_refused offset fed] at accepted
      cases accepted
  | needMore decoder offset octets next rest count fed =>
      have positive := wanted_pos_of_ok (congrArg Verdict.answer fed)
      rw [fed] at positive
      rw [decodeFrom_of_needMore offset fed]
      exact positive
  | ready decoder offset octets next rest frame fed inductionHypothesis =>
      rw [decodeFrom_of_ready offset fed] at accepted ⊢
      exact inductionHypothesis accepted

theorem decodeFrom_nil
    {decoder : Decoder}
    (waits : 0 < decoder.wanted)
    (offset : Nat) :
    decoder.decodeFrom offset [] = ⟨[], none, decoder⟩ :=
  decodeFrom_of_needMore offset (verdict_nil waits)

/-! ## Decoding piece by piece -/

/-- Feeding a piece until nothing of it is left is decoding it at once. -/
theorem outcome_feedPiece
    (decoder : Decoder)
    (piece : List UInt8)
    (offset : Nat)
    (records : Array FeedRecord) :
    (decoder.feedPiece piece offset records).outcome =
      (decoder.decodeFrom offset piece).after (deliveriesOf records) := by
  fun_induction feedPiece decoder piece offset records with
  | case1 decoder piece offset records fed refusal refused =>
      have verdict : decoder.verdict piece = ⟨fed.decoder, fed.rest, .error refusal⟩ :=
        Verdict.ext rfl rfl refused
      rw [decodeFrom_of_refused offset verdict]
      refine Outcome.ext ?_ rfl rfl
      rw [Outcome.after, List.append_nil]
      exact deliveriesOf_push_of_none (by simp only [FeedRecord.delivery?, refused])
  | case2 decoder piece offset records fed taken told count asks =>
      have verdict : decoder.verdict piece =
          ⟨fed.decoder, fed.rest, .ok (.needMore count)⟩ :=
        Verdict.ext rfl rfl asks
      rw [decodeFrom_of_needMore offset verdict]
      refine Outcome.ext ?_ rfl rfl
      rw [Outcome.after, List.append_nil]
      exact deliveriesOf_push_of_none (by simp only [FeedRecord.delivery?, asks])
  | case3 decoder piece offset records fed taken told frame delivered exhausted =>
      have verdict : decoder.verdict piece = ⟨fed.decoder, [], .ok (.ready frame)⟩ :=
        Verdict.ext rfl (List.isEmpty_iff.mp exhausted) delivered
      have takenHere : taken = offset + (piece.length - 0) := by
        have total := decoder.consumed_add_length_rest_feed piece
        rw [List.isEmpty_iff.mp exhausted] at total
        exact congrArg (offset + ·) total
      have waits : 0 < fed.decoder.wanted := wanted_pos_of_ok delivered
      rw [decodeFrom_of_ready offset verdict, decodeFrom_nil waits, Outcome.after_after]
      refine Outcome.ext ?_ rfl rfl
      rw [Outcome.after, List.append_nil, List.length_nil, ← takenHere]
      exact deliveriesOf_push_of_delivery (by simp only [FeedRecord.delivery?, delivered])
  | case4 decoder piece offset records fed taken told frame delivered left _ _
      inductionHypothesis =>
      have verdict : decoder.verdict piece = ⟨fed.decoder, fed.rest, .ok (.ready frame)⟩ :=
        Verdict.ext rfl rfl delivered
      have takenHere : taken = offset + (piece.length - fed.rest.length) := by
        have total := decoder.consumed_add_length_rest_feed piece
        exact congrArg (offset + ·) (Nat.eq_sub_of_add_eq total)
      have toldHere : deliveriesOf told = deliveriesOf records ++ [(taken, frame)] :=
        deliveriesOf_push_of_delivery (by simp only [FeedRecord.delivery?, delivered])
      rw [decodeFrom_of_ready offset verdict, inductionHypothesis, toldHere,
        Outcome.after_after, ← takenHere]

/-- A piece that is not refused is taken entirely. -/
theorem offset_feedPiece
    {decoder : Decoder}
    {piece : List UInt8}
    {offset : Nat}
    {records : Array FeedRecord}
    (accepted : (decoder.feedPiece piece offset records).refusal = none) :
    (decoder.feedPiece piece offset records).offset = offset + piece.length := by
  fun_induction feedPiece decoder piece offset records with
  | case1 decoder piece offset records fed refusal refused => cases accepted
  | case2 decoder piece offset records fed taken told count asks =>
      have total := decoder.consumed_add_length_rest_feed piece
      have exhausted := (verdict_of_needMore asks).1
      rw [show (decoder.feed piece).rest = [] from exhausted] at total
      exact congrArg (offset + ·) total
  | case3 decoder piece offset records fed taken told frame delivered exhausted =>
      have total := decoder.consumed_add_length_rest_feed piece
      rw [List.isEmpty_iff.mp exhausted] at total
      exact congrArg (offset + ·) total
  | case4 decoder piece offset records fed taken told frame delivered left _ _
      inductionHypothesis =>
      have total := decoder.consumed_add_length_rest_feed piece
      rw [inductionHypothesis accepted, ← total, ← Nat.add_assoc]

section Pieces

variable
    {decoder : Decoder}
    {piece : List UInt8}
    {offset : Nat}
    {records : Array FeedRecord}

/-- A refusal ends decoding at its piece. -/
theorem feedPieces_of_refused
    {refusal : Refusal}
    (pieces : List (List UInt8))
    (refused : (decoder.feedPiece piece offset records).refusal = some refusal) :
    decoder.feedPieces offset records (piece :: pieces) =
      decoder.feedPiece piece offset records := by
  rw [feedPieces]
  exact if_pos (Option.isSome_of_eq_some refused)

theorem feedPieces_of_accepted
    (pieces : List (List UInt8))
    (accepted : (decoder.feedPiece piece offset records).refusal = none) :
    decoder.feedPieces offset records (piece :: pieces) =
      (decoder.feedPiece piece offset records).decoder.feedPieces
        (decoder.feedPiece piece offset records).offset
        (decoder.feedPiece piece offset records).records pieces := by
  rw [feedPieces]
  exact if_neg (by rw [accepted]; exact Bool.false_ne_true)

end Pieces

/-- Feeding pieces in turn is decoding all their octets at once. -/
theorem outcome_feedPieces
    (decoder : Decoder)
    (waits : 0 < decoder.wanted)
    (offset : Nat)
    (records : Array FeedRecord)
    (pieces : List (List UInt8)) :
    (decoder.feedPieces offset records pieces).outcome =
      (decoder.decodeFrom offset pieces.flatten).after (deliveriesOf records) := by
  induction pieces generalizing decoder offset records with
  | nil =>
      rw [List.flatten_nil, decodeFrom_nil waits]
      refine Outcome.ext ?_ rfl rfl
      exact (List.append_nil _).symm
  | cons piece pieces inductionHypothesis =>
      have first := decoder.outcome_feedPiece piece offset records
      rw [List.flatten_cons, decodeFrom_append]
      dsimp only
      cases refusal : (decoder.feedPiece piece offset records).refusal with
      | some cause =>
          have refused : (decoder.decodeFrom offset piece).refusal = some cause :=
            (congrArg Outcome.refusal first).symm.trans refusal
          rw [feedPieces_of_refused pieces refusal,
            if_pos (Option.isSome_of_eq_some refused)]
          exact first
      | none =>
          have accepted : (decoder.decodeFrom offset piece).refusal = none :=
            (congrArg Outcome.refusal first).symm.trans refusal
          have reached : (decoder.feedPiece piece offset records).decoder =
              (decoder.decodeFrom offset piece).decoder :=
            congrArg Outcome.decoder first
          have told : deliveriesOf (decoder.feedPiece piece offset records).records =
              deliveriesOf records ++ (decoder.decodeFrom offset piece).deliveries :=
            congrArg Outcome.deliveries first
          have stillWaits := wanted_pos_decodeFrom accepted
          rw [feedPieces_of_accepted pieces refusal, if_neg (by simp [accepted]), reached,
            inductionHypothesis _ stillWaits, offset_feedPiece refusal, told,
            Outcome.after_after]

/-- Pieces that are not refused are taken entirely. -/
theorem offset_feedPieces
    {decoder : Decoder}
    {offset : Nat}
    {records : Array FeedRecord}
    {pieces : List (List UInt8)}
    (accepted : (decoder.feedPieces offset records pieces).refusal = none) :
    (decoder.feedPieces offset records pieces).offset = offset + pieces.flatten.length := by
  induction pieces generalizing decoder offset records with
  | nil => rfl
  | cons piece pieces inductionHypothesis =>
      cases refusal : (decoder.feedPiece piece offset records).refusal with
      | some cause =>
          rw [feedPieces_of_refused pieces refusal, refusal] at accepted
          cases accepted
      | none =>
          rw [feedPieces_of_accepted pieces refusal] at accepted ⊢
          rw [inductionHypothesis accepted, offset_feedPiece refusal, List.flatten_cons,
            List.length_append, Nat.add_assoc]

/-! ## Independence of the pieces -/

/-- A new decoder comes to the same however its stream is cut. -/
theorem outcome_decodePieces
    (role : Role)
    (limit : Nat)
    (memory : Memory)
    (pieces : List (List UInt8)) :
    ((new role limit memory).decodePieces pieces).outcome =
      (new role limit memory).decodeFrom 0 pieces.flatten :=
  outcome_feedPieces (new role limit memory) Nat.one_pos 0 #[] pieces

/-- Two ways of cutting one stream deliver the same frames at the same offsets, end with
the same refusal or none, and leave decoders behind that nothing tells apart. -/
theorem decodePieces_of_flatten_eq
    (role : Role)
    (limit : Nat)
    (memory : Memory)
    {left right : List (List UInt8)}
    (same : left.flatten = right.flatten) :
    let first := (new role limit memory).decodePieces left
    let second := (new role limit memory).decodePieces right
    first.deliveries = second.deliveries ∧
      first.refusal = second.refusal ∧
      first.decoder = second.decoder := by
  have outcomes :
      ((new role limit memory).decodePieces left).outcome =
        ((new role limit memory).decodePieces right).outcome := by
    rw [outcome_decodePieces, outcome_decodePieces, same]
  exact ⟨congrArg Outcome.deliveries outcomes, congrArg Outcome.refusal outcomes,
    congrArg Outcome.decoder outcomes⟩

theorem decodePieces_of_single_octets :
    let octets : List UInt8 := [0x81, 0x82, 1, 2, 3, 4, 0x60, 0x60, 0x89]
    let first := (new .server 2).decodePieces ([] :: octets.map ([·]))
    let second := (new .server 2).decodePieces [octets]
    first.deliveries = second.deliveries ∧
      first.refusal = second.refusal ∧
      first.decoder = second.decoder :=
  decodePieces_of_flatten_eq .server 2 .standard rfl

end Decoder
end WebSocket
