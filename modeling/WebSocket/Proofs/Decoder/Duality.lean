import Mathlib.Control.Monad.Basic
import WebSocket.Proofs.Grammar.Stream
import WebSocket.Proofs.Grammar.Unchecked

/-!
# The two roles of a decoder

A server decodes what a client has masked as a client decodes the same frames without masks,
legal or not. So the keys that a client chooses do not show.
-/

namespace WebSocket
namespace Decoder

open Grammar

/-- Whether decoding two streams comes to the same, wherever their frames end: the same frames
in the same order, the same refusal or none, and something in progress in both or neither. -/
structure Stream.ShowsAlike (left right : Stream) : Prop where
  frames : left.deliveries.map Prod.snd = right.deliveries.map Prod.snd
  refusal : left.refusal = right.refusal
  inProgress : left.decoder.inProgress = right.decoder.inProgress

section Unchecked

variable
    (limit : Nat)
    (memory : Memory)

/-- Decoding frames comes to what they are judged to be, in pieces of any size. -/
theorem decodePieces_octetsEach
    {sender : Role}
    {sent : List (Option MaskingKey × Unchecked)}
    (masks : ∀ item ∈ sent, Masks sender item.1)
    {pieces : List (List UInt8)}
    (whole : pieces.flatten = Unchecked.octetsEach sent) :
    let stream := (new sender.peer limit memory).decodePieces pieces
    let (frames, ending) := Unchecked.judgeEach limit memory none (sent.map Prod.snd)
    stream.deliveries.map Prod.snd = frames ∧
      stream.refusal = ending.refusal? ∧
      stream.decoder.inProgress = ending.isOpen := by
  have meaning := Unchecked.transcript_octetsEach limit memory masks none 0
  obtain ⟨deliveries, refusal, inProgress⟩ :=
    decodePieces_reads sender.peer limit memory pieces
  rw [whole] at deliveries refusal inProgress
  rw [← meaning]
  exact ⟨congrArg (List.map Prod.snd) deliveries, refusal, inProgress⟩

/-- The same frames from senders of either role, each with masks of its own, are decoded
alike by their peers. -/
theorem showsAlike_of_octetsEach
    {sender sender' : Role}
    {sent sent' : List (Option MaskingKey × Unchecked)}
    (same : sent.map Prod.snd = sent'.map Prod.snd)
    (masks : ∀ item ∈ sent, Masks sender item.1)
    (masks' : ∀ item ∈ sent', Masks sender' item.1)
    {pieces pieces' : List (List UInt8)}
    (whole : pieces.flatten = Unchecked.octetsEach sent)
    (whole' : pieces'.flatten = Unchecked.octetsEach sent') :
    ((new sender.peer limit memory).decodePieces pieces).ShowsAlike
      ((new sender'.peer limit memory).decodePieces pieces') := by
  obtain ⟨frames, refusal, inProgress⟩ := decodePieces_octetsEach limit memory masks whole
  obtain ⟨frames', refusal', inProgress'⟩ := decodePieces_octetsEach limit memory masks' whole'
  rw [same] at frames refusal inProgress
  exact ⟨frames.trans frames'.symm, refusal.trans refusal'.symm,
    inProgress.trans inProgress'.symm⟩

end Unchecked

/-- Whatever frames travel, legal or not, a server that gets them masked and a client that gets
them without masks deliver the same frames, end with the same refusal or none, and have
something in progress in the same cases. The keys do not matter, and neither do the pieces in
which the octets arrive. -/
theorem showsAlike_masked_and_plain
    (limit : Nat)
    (memory : Memory)
    {sent others : List (MaskingKey × Unchecked)}
    (same : others.map Prod.snd = sent.map Prod.snd)
    {masked remasked plain : List (List UInt8)}
    (masks : masked.flatten = Unchecked.octetsEach (Unchecked.keyed sent))
    (remasks : remasked.flatten = Unchecked.octetsEach (Unchecked.keyed others))
    (leaves : plain.flatten = Unchecked.octetsEach (Unchecked.bare (sent.map Prod.snd))) :
    let server := (new .server limit memory).decodePieces masked
    server.ShowsAlike ((new .client limit memory).decodePieces plain) ∧
      server.ShowsAlike ((new .server limit memory).decodePieces remasked) := by
  have byClient : ∀ items, ∀ item ∈ Unchecked.keyed items, Masks .client item.1 :=
    fun items item => Unchecked.masks_of_mem_keyed
  refine ⟨?_, ?_⟩
  · refine showsAlike_of_octetsEach limit memory ?_ (byClient sent)
      (fun item => Unchecked.masks_of_mem_bare) masks leaves
    rw [Unchecked.map_snd_keyed, Unchecked.map_snd_bare]
  · refine showsAlike_of_octetsEach limit memory ?_ (byClient sent) (byClient others)
      masks remasks
    rw [Unchecked.map_snd_keyed, Unchecked.map_snd_keyed, same]

/-- A fragment of a length that is written in more octets than it takes, a ping, and a frame
with a reserved bit, cut apart in three ways. -/
theorem showsAlike_masked_and_plain_reserved_bit :
    let fragment : Unchecked :=
      { isFinal := false, rsv1 := false, rsv2 := false, rsv3 := false, number := 1
        payload := [0x48, 0x69], format := .extended16, carries := (by decide : 2 < 65536) }
    let ping : Unchecked :=
      { isFinal := true, rsv1 := false, rsv2 := false, rsv3 := false, number := 9
        payload := [0x21], format := .inline 1, carries := (by decide : 1 = 1 ∧ 1 < 126) }
    let compressed : Unchecked :=
      { isFinal := true, rsv1 := true, rsv2 := false, rsv3 := false, number := 0
        payload := [], format := .inline 0, carries := (by decide : 0 = 0 ∧ 0 < 126) }
    let sent : List (MaskingKey × Unchecked) :=
      [(⟨1, 2, 3, 4⟩, fragment), (⟨5, 6, 7, 8⟩, ping), (⟨9, 10, 11, 12⟩, compressed)]
    let others : List (MaskingKey × Unchecked) :=
      [(⟨0, 0, 0, 0⟩, fragment), (⟨1, 1, 1, 1⟩, ping), (⟨2, 2, 2, 2⟩, compressed)]
    let masked := [Unchecked.octetsEach (Unchecked.keyed sent)]
    let remasked := (Unchecked.octetsEach (Unchecked.keyed others)).map fun octet => [octet]
    let plain := (Unchecked.octetsEach (Unchecked.bare (sent.map Prod.snd))).map ([·])
    let server := (new .server 8).decodePieces masked
    server.ShowsAlike ((new .client 8).decodePieces plain) ∧
      server.ShowsAlike ((new .server 8).decodePieces remasked) ∧
      server.deliveries.map Prod.snd = [⟨.control .ping, [0x21]⟩] ∧
      server.refusal = some .reservedBits ∧
      server.decoder.inProgress = true := by
  intro fragment ping compressed sent others masked remasked plain server
  have masks : masked.flatten = Unchecked.octetsEach (Unchecked.keyed sent) := by
    decide +kernel
  have remasks : remasked.flatten = Unchecked.octetsEach (Unchecked.keyed others) := by
    decide +kernel
  have leaves : plain.flatten = Unchecked.octetsEach (Unchecked.bare (sent.map Prod.snd)) := by
    decide +kernel
  have same : others.map Prod.snd = sent.map Prod.snd := rfl
  obtain ⟨toClient, toServer⟩ :=
    showsAlike_masked_and_plain 8 .standard same masks remasks leaves
  exact ⟨toClient, toServer, by decide +kernel, by decide +kernel, by decide +kernel⟩

end Decoder
end WebSocket
