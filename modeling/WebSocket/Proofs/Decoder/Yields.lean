import WebSocket.Proofs.Decoder.Chunking

/-!
# Decoding without refusals

As long as a decoder refuses nothing, what it has decoded shows in the decoder it has become
and in the frames that it has delivered, wherever the stream began.
-/

namespace WebSocket
namespace Decoder

/-- What decoding comes to if the decoder answers the given way to all octets up to an
offset. -/
def Outcome.ofAnswer (offset : Nat) (next : Decoder) :
    Except Refusal (Parse Frame) → Outcome
  | .ok (.ready frame) => ⟨[(offset, frame)], none, next⟩
  | .ok (.needMore _) => ⟨[], none, next⟩
  | .error refusal => ⟨[], some refusal, next⟩

@[simp] theorem Outcome.decoder_ofAnswer
    (offset : Nat)
    (next : Decoder)
    (answer : Except Refusal (Parse Frame)) :
    (ofAnswer offset next answer).decoder = next := by
  rcases answer with refusal | count | frame <;> rfl

theorem decodeFrom_of_whole
    {decoder next : Decoder}
    {octets : List UInt8}
    {answer : Except Refusal (Parse Frame)}
    (fed : decoder.verdict octets = ⟨next, [], answer⟩)
    (offset : Nat) :
    decoder.decodeFrom offset octets =
      Outcome.ofAnswer (offset + octets.length) next answer := by
  rcases answer with refusal | count | frame
  · exact decodeFrom_of_refused offset fed
  · exact decodeFrom_of_needMore offset fed
  · have waits := wanted_pos_of_ok (congrArg Verdict.answer fed)
    rw [fed] at waits
    rw [decodeFrom_of_ready offset fed, decodeFrom_nil waits]
    rfl

/-- Whether decoding octets refuses none of them, delivers the given frames and leads to the
given decoder. -/
def Yields
    (decoder : Decoder)
    (octets : List UInt8)
    (frames : List Frame)
    (next : Decoder) : Prop :=
  ∀ offset,
    (decoder.decodeFrom offset octets).deliveries.map Prod.snd = frames ∧
      (decoder.decodeFrom offset octets).refusal = none ∧
      (decoder.decodeFrom offset octets).decoder = next

section Yields

variable
    {decoder next last : Decoder}
    {octets later : List UInt8}
    {frames others : List Frame}

theorem yields_nil (waits : 0 < decoder.wanted) : decoder.Yields [] [] decoder := by
  intro offset
  rw [decodeFrom_nil waits]
  exact ⟨rfl, rfl, rfl⟩

/-- Octets lead to the same frames and to the same decoder whenever they are decoded. -/
theorem Yields.unique
    (first : decoder.Yields octets frames next)
    (second : decoder.Yields octets others last) :
    frames = others ∧ next = last := by
  obtain ⟨rfl, -, rfl⟩ := first 0
  obtain ⟨rfl, -, rfl⟩ := second 0
  exact ⟨rfl, rfl⟩

theorem yields_of_needMore
    {count : Nat}
    (fed : decoder.verdict octets = ⟨next, [], .ok (.needMore count)⟩) :
    decoder.Yields octets [] next := by
  intro offset
  rw [decodeFrom_of_whole fed]
  exact ⟨rfl, rfl, rfl⟩

/-- Behind octets that are accepted, what follows is decoded as on its own. -/
theorem Yields.decodeFrom_append
    (first : decoder.Yields octets frames next)
    (offset : Nat)
    (later : List UInt8) :
    ∃ deliveries, deliveries.map Prod.snd = frames ∧
      decoder.decodeFrom offset (octets ++ later) =
        (next.decodeFrom (offset + octets.length) later).after deliveries := by
  obtain ⟨delivered, accepted, reached⟩ := first offset
  have both := decoder.decodeFrom_append offset octets later
  dsimp only at both
  rw [accepted, reached, if_neg (by simp)] at both
  exact ⟨_, delivered, both⟩

theorem Yields.append
    (first : decoder.Yields octets frames next)
    (second : next.Yields later others last) :
    decoder.Yields (octets ++ later) (frames ++ others) last := by
  intro offset
  obtain ⟨deliveries, rfl, both⟩ := first.decodeFrom_append offset later
  obtain ⟨rfl, accepted, reached⟩ := second (offset + octets.length)
  rw [both]
  exact ⟨List.map_append, accepted, reached⟩

theorem Yields.wanted_pos (yields : decoder.Yields octets frames next) : 0 < next.wanted := by
  obtain ⟨-, accepted, rfl⟩ := yields 0
  exact wanted_pos_decodeFrom accepted

end Yields
end Decoder
end WebSocket
