import Mathlib.Control.Monad.Basic
import WebSocket.OutputBuffer

/-!
# Headers in memory

A header is written part by part, and nothing is written behind a part that fails. Memory
without a bound takes all of a header. Memory with a bound takes the front of it that fits, and
the writing succeeds exactly if that is all of it.
-/

namespace WebSocket
namespace OutputBuffer

/-! ## What is stored -/

/-- Memory without a bound stores all parts. -/
theorem writeParts_of_unbounded (contents : List UInt8) (parts : List (List UInt8)) :
    ({ contents } : OutputBuffer).writeParts parts =
      (.ok (), { contents := contents ++ parts.flatten }) := by
  induction parts generalizing contents with
  | nil => simp [writeParts]
  | cons part parts inductionHypothesis =>
      rw [writeParts, write]
      dsimp only
      rw [inductionHypothesis, List.flatten_cons, List.append_assoc]

/-- How writing octets ends in memory with a bound, by the octets that are to be stored in all. -/
def verdict (room : Nat) (octets : List UInt8) : Except IoError Unit :=
  if octets.length ≤ room then .ok () else .error .bufferFull

/-- Memory with a bound stores the front of all parts. -/
theorem writeParts_of_bounded
    {room : Nat}
    {contents : List UInt8}
    (within : contents.length ≤ room)
    (parts : List (List UInt8)) :
    ({ room := some room, contents } : OutputBuffer).writeParts parts =
      (verdict room (contents ++ parts.flatten),
        { room := some room, contents := (contents ++ parts.flatten).take room }) := by
  induction parts generalizing contents with
  | nil =>
      rw [List.flatten_nil, List.append_nil, List.take_of_length_le within, verdict,
        if_pos within]
      rfl
  | cons part parts inductionHypothesis =>
      rw [writeParts, write, List.flatten_cons, ← List.append_assoc]
      dsimp only
      by_cases fits : (contents ++ part).length ≤ room
      · rw [if_pos fits]
        exact inductionHypothesis fits
      · -- The rest of the parts begins behind the end of the memory.
        have full : room ≤ (contents ++ part).length := Nat.le_of_not_le fits
        have overfull : ¬(contents ++ part ++ parts.flatten).length ≤ room := by
          rw [List.length_append]
          omega
        rw [if_neg fits, verdict, if_neg overfull, List.take_append_of_le_length full]

/-! ## What is attempted -/

/-- Write parts one after the other to whatever takes them, up to the first that fails. -/
def writeEach
    {σ : Type}
    (write : σ → List UInt8 → Except IoError Unit × σ)
    (state : σ) : List (List UInt8) → Except IoError Unit × σ
  | [] => (.ok (), state)
  | part :: parts =>
      match write state part with
      | (.ok (), next) => writeEach write next parts
      | (.error error, next) => (.error error, next)

theorem writeParts_eq_writeEach (buffer : OutputBuffer) (parts : List (List UInt8)) :
    buffer.writeParts parts = writeEach write buffer parts := by
  induction parts generalizing buffer with
  | nil => rfl
  | cons part parts inductionHypothesis =>
      rw [writeParts, writeEach]
      rcases buffer.write part with ⟨error | done, next⟩
      · rfl
      · exact inductionHypothesis next

/-- A part that was to be written, with the answer to that. -/
abbrev Attempt := List UInt8 × Except IoError Unit

/-- Write a part, and note the attempt behind the earlier ones. -/
def noting
    {σ : Type}
    (write : σ → List UInt8 → Except IoError Unit × σ)
    (state : σ × List Attempt)
    (part : List UInt8) : Except IoError Unit × σ × List Attempt :=
  let (answer, next) := write state.1 part
  (answer, next, state.2 ++ [(part, answer)])

/-- Whether parts were attempted in order, all of them if they were written, and otherwise no
part behind the one that failed. -/
def StopsAtFailure
    (parts : List (List UInt8))
    (answer : Except IoError Unit)
    (attempts : List Attempt) : Prop :=
  match answer with
  | .ok () => attempts = parts.map fun part => (part, .ok ())
  | .error error =>
      ∃ earlier last later, parts = earlier ++ last :: later ∧
        attempts = (earlier.map fun part => (part, .ok ())) ++ [(last, .error error)]

theorem StopsAtFailure.cons
    {parts : List (List UInt8)}
    {answer : Except IoError Unit}
    {attempts : List Attempt}
    (stops : StopsAtFailure parts answer attempts)
    (part : List UInt8) :
    StopsAtFailure (part :: parts) answer ((part, .ok ()) :: attempts) := by
  cases answer with
  | ok done =>
      rw [StopsAtFailure] at stops ⊢
      rw [stops]
      rfl
  | error error =>
      obtain ⟨earlier, last, later, rfl, rfl⟩ := stops
      exact ⟨part :: earlier, last, later, rfl, rfl⟩

/-- Nothing is attempted behind a failure, whatever takes the parts. -/
theorem exists_attempts_writeEach
    {σ : Type}
    (write : σ → List UInt8 → Except IoError Unit × σ)
    (state : σ)
    (noted : List Attempt)
    (parts : List (List UInt8)) :
    ∃ attempts,
      writeEach (noting write) (state, noted) parts =
          ((writeEach write state parts).1, (writeEach write state parts).2, noted ++ attempts) ∧
        StopsAtFailure parts (writeEach write state parts).1 attempts := by
  induction parts generalizing state noted with
  | nil => exact ⟨[], by rw [List.append_nil]; rfl, rfl⟩
  | cons part parts inductionHypothesis =>
      rw [writeEach, writeEach, noting]
      dsimp only
      rcases write state part with ⟨error | done, next⟩
      · exact ⟨[(part, .error error)], rfl, [], part, parts, rfl, rfl⟩
      · obtain ⟨attempts, same, stops⟩ :=
          inductionHypothesis next (noted ++ [(part, .ok ())])
        refine ⟨(part, .ok ()) :: attempts, same.trans ?_, stops.cons part⟩
        rw [List.append_assoc, List.singleton_append]

/-! ## Headers -/

/-- A header is written whole into memory without a bound. In memory with a bound, the front of
it is stored that fits, and the writing succeeds exactly if the header takes no more than the
room there is. No part of the header is attempted behind one that fails. -/
theorem writeHeader_stores_front (header : FrameHeader) (length room : Nat) :
    let unbounded := ({} : OutputBuffer).writeHeader header length
    let bounded := ({ room := some room } : OutputBuffer).writeHeader header length
    unbounded = (.ok (), { contents := header.encode length }) ∧
      bounded.1 = (if header.size length ≤ room then .ok () else .error .bufferFull) ∧
      bounded.2.contents = unbounded.2.contents.take (min room (header.size length)) ∧
      ∃ attempts,
        writeEach (noting write) ({ room := some room }, []) (header.segments length) =
            (bounded.1, bounded.2, attempts) ∧
          StopsAtFailure (header.segments length) bounded.1 attempts := by
  have whole := writeParts_of_unbounded [] (header.segments length)
  have empty : ([] : List UInt8).length ≤ room := Nat.zero_le room
  have front := writeParts_of_bounded empty (header.segments length)
  have sequence := writeParts_eq_writeEach { room := some room } (header.segments length)
  obtain ⟨attempts, same, stops⟩ :=
    exists_attempts_writeEach write { room := some room } [] (header.segments length)
  rw [← sequence] at same stops
  refine ⟨whole, ?_, ?_, attempts, same, stops⟩
  · rw [writeHeader, front, ← header.length_encode length]
    rfl
  · rw [writeHeader, writeHeader, front, whole, ← header.length_encode length]
    exact List.take_eq_take_min

/-- The length of this header is cut after its first octet, and the key is not attempted. -/
example :
    let header : FrameHeader := { opcode := .data .text, mask := some ⟨1, 2, 3, 4⟩ }
    writeEach (noting write) ({ room := some 3 }, []) (header.segments 300) =
      (.error .bufferFull, { room := some 3, contents := [0x81, 0xFE, 0x01] },
        [([0x81, 0xFE], .ok ()), ([0x01, 0x2C], .error .bufferFull)]) := by
  decide +kernel

end OutputBuffer
end WebSocket
