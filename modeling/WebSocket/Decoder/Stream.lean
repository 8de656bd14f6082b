import WebSocket.Decoder.Feed

/-!
# Decoding a stream in pieces

A stream reaches a decoder in consecutive pieces. Each piece is fed again for as
long as frames are delivered from it and octets of it are left; decoding ends at
the first refusal.
-/

namespace WebSocket
namespace Decoder

/-- A call of `feed` as part of a stream. -/
structure FeedRecord where
  /-- The number of octets of the stream taken by the end of the call, where a call
  that is refused counts as taking none. -/
  offset : Nat
  /-- The number of octets taken by the call. -/
  consumed : Nat
  answer : Except Refusal (Parse Frame)
  events : Array Log.Event

/-- What comes of decoding a stream. -/
structure Stream where
  decoder : Decoder
  /-- The number of octets of the stream taken. -/
  offset : Nat := 0
  /-- The calls that were made, in order. -/
  records : Array FeedRecord := #[]
  /-- The refusal that ended decoding, if there was one. -/
  refusal : Option Refusal := none

/-- A call that delivers a frame lowers the measure of what is left. -/
theorem Feeding.measure_run_lt
    {feeding : Feeding}
    {frame : Frame}
    (delivered : feeding.run.answer = .ok (.ready frame)) :
    measure { decoder := feeding.run.decoder, input := feeding.run.rest } <
      feeding.measure := by
  fun_induction run feeding with
  | case1 feeding fed step =>
      have lowers := feeding.lowers_pass
      rw [step] at lowers
      exact lowers frame delivered
  | case2 feeding next step shorter inductionHypothesis =>
      exact Nat.lt_trans (inductionHypothesis delivered) shorter

/-- Feed one piece of a stream of which `offset` octets have been taken. -/
def feedPiece
    (decoder : Decoder)
    (piece : List UInt8)
    (offset : Nat)
    (records : Array FeedRecord) : Stream :=
  let fed := decoder.feed piece
  match delivered : fed.answer with
  | .error refusal =>
      { decoder := fed.decoder
        offset
        records := records.push
          { offset, consumed := fed.consumed, answer := fed.answer,
            events := fed.events }
        refusal := some refusal }
  | .ok parsed =>
      let offset := offset + fed.consumed
      let records := records.push
        { offset, consumed := fed.consumed, answer := fed.answer,
          events := fed.events }
      match parsed with
      | .needMore _ => { decoder := fed.decoder, offset, records }
      | .ready frame =>
          if fed.rest.isEmpty then { decoder := fed.decoder, offset, records }
          else
            have := Feeding.measure_run_lt delivered
            feedPiece fed.decoder fed.rest offset records
termination_by Feeding.measure { decoder, input := piece }

/-- Feed consecutive pieces of a stream of which `offset` octets have been taken. -/
def feedPieces
    (decoder : Decoder)
    (offset : Nat)
    (records : Array FeedRecord) : List (List UInt8) → Stream
  | [] => { decoder, offset, records }
  | piece :: pieces =>
      let stream := decoder.feedPiece piece offset records
      if stream.refusal.isSome then stream
      else feedPieces stream.decoder stream.offset stream.records pieces

/-- Decode a stream that arrives in the given pieces. -/
def decodePieces (decoder : Decoder) (pieces : List (List UInt8)) : Stream :=
  decoder.feedPieces 0 #[] pieces

/-- Cut octets into pieces of `size` octets and a shorter last one, behind the pieces
that are cut already. -/
def cutOnto
    (size : Nat)
    (done : Array (List UInt8))
    (octets : List UInt8) : Array (List UInt8) :=
  match octets with
  | [] => done
  | octet :: octets =>
      cutOnto size
        (done.push (octet :: octets.take (size - 1)))
        (octets.drop (size - 1))
termination_by octets.length
decreasing_by simp only [List.length_drop, List.length_cons]; omega

/-- Cut octets into pieces of `size` octets and a shorter last one. -/
def cut (size : Nat) (octets : List UInt8) : List (List UInt8) :=
  (cutOnto size #[] octets).toList

end Decoder
end WebSocket
