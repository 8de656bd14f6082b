import Mathlib.Control.Monad.Basic
import WebSocket.Proofs.Grammar.Decoding
import WebSocket.Proofs.Header.Feeds
import WebSocket.Proofs.OutputBuffer

/-!
# Headers are written and parsed back

A header that is written is parsed back from the very octets of it, and a header that was
parsed is written in the octets it was parsed from, unless its length took more of them than
it had to. The widths of a length meet here from both sides.
-/

namespace WebSocket

namespace FrameHeader

theorem length_encodeAs (header : FrameHeader) (format : LengthFormat) (length : Nat) :
    (header.encodeAs format length).length =
      2 + format.extraSize + if header.mask.isSome then 4 else 0 := by
  unfold encodeAs
  cases header.mask <;> simp <;> omega

/-- The second octet of a header is the one that announces the length. -/
theorem getD_encodeAs
    (header : FrameHeader)
    (format : LengthFormat)
    (length : Nat)
    (rest : List UInt8) :
    (header.encodeAs format length ++ rest).getD 1 0 =
      (header.encodeAs format length).getD 1 0 := rfl

/-- No header is longer than the longest one. -/
theorem size_le_maxSize (header : FrameHeader) (length : Nat) :
    header.size length ≤ maxSize := by
  unfold size maxSize
  cases LengthFormat.ofLength length <;> cases header.mask <;> simp

end FrameHeader

namespace HeaderParser

open Grammar

/-- Whether a new parser reads the octets as the given header with the length of a payload,
in pieces of any size and whatever follows. It asks for more until it has taken them all,
and from then on hands over what it has read and takes nothing. -/
def Parses (role : Role) (octets : List UInt8) (item : FrameHeader × Nat) : Prop :=
  ∀ (trailing : List UInt8) (pieces : List (List UInt8)),
    pieces.flatten = octets ++ trailing →
      (∃ (counts : List Nat) (repeats : Nat),
        ((new role).feedEach pieces).1 =
          counts.map (fun count => .ok (.needMore count)) ++
            List.replicate (repeats + 1) (.ok (.ready item))) ∧
      (new role).takenEach pieces = octets ∧
      (new role).consumedEach pieces = octets.length

/-- A header that is read off the front of a stream is parsed in pieces. -/
theorem parses_of_header
    {role : Role}
    {octets : List UInt8}
    {item : FrameHeader × Nat}
    (found : ∀ rest, header role (octets ++ rest) = .found item rest) :
    Parses role octets item := by
  intro trailing pieces split
  have whole : header role pieces.flatten = .found item trailing := by
    rw [split]
    exact found trailing
  obtain ⟨parser, parsed⟩ := exists_ready_of_header whole
  obtain ⟨⟨counts, repeats, answers, stays⟩, -, taken⟩ :=
    feedEach_flatten (wanted_new_pos role) pieces
  rw [parsed] at answers stays taken
  have handsOver : repeats ≠ 0 := by
    intro never
    obtain ⟨count, asks⟩ := stays never
    cases asks
  obtain ⟨repeats, rfl⟩ := Nat.exists_eq_succ_of_ne_zero handsOver
  rw [split] at taken
  have same := List.append_cancel_right taken
  exact ⟨⟨counts, repeats, answers⟩, same, by rw [← length_takenEach, same]⟩

/-- What a parser hands over was read off the front of its stream. -/
theorem header_of_ready
    {role : Role}
    {pieces : List (List UInt8)}
    {item : FrameHeader × Nat}
    (ready : .ok (.ready item) ∈ ((new role).feedEach pieces).1) :
    ∃ rest, header role pieces.flatten = .found item rest ∧
      (new role).takenEach pieces ++ rest = pieces.flatten := by
  obtain ⟨⟨counts, repeats, answers, -⟩, -, taken⟩ :=
    feedEach_flatten (wanted_new_pos role) pieces
  have answered : ((new role).verdict pieces.flatten).answer = .ok (.ready item) := by
    rw [answers] at ready
    rcases List.mem_append.mp ready with asks | repeated
    · obtain ⟨count, -, asks⟩ := List.mem_map.mp asks
      cases asks
    · exact (List.eq_of_mem_replicate repeated).symm
  rcases parsed : (new role).verdict pieces.flatten with ⟨parser, rest, answer⟩
  rw [parsed] at answered taken
  obtain rfl : answer = .ok (.ready item) := answered
  exact ⟨rest, header_of_verdict parsed, taken⟩

/-- A header that an endpoint reads is parsed from every way to write it. -/
theorem parses_encodeAs
    {role : Role}
    {opened : FrameHeader}
    (readable : opened.ReadableBy role)
    {format : LengthFormat}
    {length : Nat}
    (holds : format.Holds length) :
    Parses role (opened.encodeAs format length) (opened, length) := by
  apply parses_of_header
  intro rest
  have found := header_encodeAs readable.masks readable.assigned opened.isFinal holds rest
  obtain ⟨opcode, isFinal, _, _, _, mask⟩ := opened
  obtain ⟨rfl, rfl, rfl, -, -⟩ := readable
  rw [Role.peer_peer] at found
  exact found

/-- What a parser takes for a header is an encoding of it, in the way that the second octet
announces. -/
theorem takenEach_of_ready
    {role : Role}
    {pieces : List (List UInt8)}
    {opened : FrameHeader}
    {length : Nat}
    (ready : .ok (.ready (opened, length)) ∈ ((new role).feedEach pieces).1) :
    let octets := (new role).takenEach pieces
    let format := LengthFormat.ofByte (octets.getD 1 0)
    opened.ReadableBy role ∧ format.Holds length ∧
      octets = opened.encodeAs format length := by
  obtain ⟨rest, found, taken⟩ := header_of_ready ready
  obtain ⟨readable, holds, whole⟩ := stream_of_header found
  have octets := List.append_cancel_right (taken.trans whole)
  have second : pieces.flatten.getD 1 0 = ((new role).takenEach pieces).getD 1 0 := by
    rw [whole, FrameHeader.getD_encodeAs, octets]
  dsimp only
  rw [← second]
  exact ⟨readable, holds, octets⟩

/-- Headers are parsed back as they were written and written back as they were parsed. A
new parser reads every header that a peer may send from exactly the octets that are written
for it, however they are cut and whatever follows. The octets that are written are as many
as the size of the header says. And a header that was parsed is written in the octets it
was parsed from if they hold the length in the shortest way; otherwise in fewer, which are
parsed as the same header. -/
theorem parses_written_and_written_parsed (role : Role) :
    (∀ (opened : FrameHeader) (length : Nat), opened.ReadableBy role → length < 2 ^ 63 →
      Parses role (opened.encode length) (opened, length) ∧ opened.size length ≤ 14) ∧
    (∀ (opened : FrameHeader) (length : Nat),
      ({} : OutputBuffer).writeHeader opened length =
          (.ok (), { contents := opened.encode length }) ∧
        (opened.encode length).length = opened.size length) ∧
    ∀ (pieces : List (List UInt8)) (opened : FrameHeader) (length : Nat),
      .ok (.ready (opened, length)) ∈ ((new role).feedEach pieces).1 →
        let octets := (new role).takenEach pieces
        let format := LengthFormat.ofByte (octets.getD 1 0)
        (format.IsShortest length → opened.encode length = octets) ∧
          (¬format.IsShortest length →
            (opened.encode length).length < octets.length ∧
              Parses role (opened.encode length) (opened, length)) := by
  refine ⟨?_, ?_, ?_⟩
  · intro opened length readable small
    rw [FrameHeader.encode_eq_encodeAs]
    exact ⟨parses_encodeAs readable (LengthFormat.holds_ofLength small),
      opened.size_le_maxSize length⟩
  · intro opened length
    exact ⟨OutputBuffer.writeParts_of_unbounded [] _, opened.length_encode length⟩
  · intro pieces opened length ready
    obtain ⟨readable, holds, written⟩ := takenEach_of_ready ready
    have holdsShortest := LengthFormat.holds_ofLength (LengthFormat.lt_of_holds holds)
    have shortest := LengthFormat.isShortest_ofLength length
    dsimp only
    generalize LengthFormat.ofByte (((new role).takenEach pieces).getD 1 0) = format
      at holds written ⊢
    rw [written, FrameHeader.encode_eq_encodeAs]
    constructor
    · intro short
      have same := LengthFormat.eq_of_holds holds holdsShortest
        (Nat.le_antisymm (short _ holdsShortest) (shortest format holds))
      rw [same]
    · intro long
      have wider : (LengthFormat.ofLength length).extraSize < format.extraSize := by
        apply Nat.lt_of_not_le
        intro narrow
        exact long fun other holdsOther =>
          Nat.le_trans narrow (shortest other holdsOther)
      refine ⟨?_, parses_encodeAs readable holdsShortest⟩
      rw [FrameHeader.length_encodeAs, FrameHeader.length_encodeAs]
      omega

/-- A client announces five octets of text in two octets more than it has to. -/
theorem parses_written_and_written_parsed_wide_length :
    let opened : FrameHeader := { opcode := .data .text, mask := some ⟨0x01, 0x02, 0x03, 0x04⟩ }
    let pieces : List (List UInt8) :=
      [[0x81, 0xFE, 0x00], [0x05, 0x01], [0x02, 0x03, 0x04, 0xAA]]
    ((new .server).feedEach pieces).1 =
        [.ok (.needMore 1), .ok (.needMore 3), .ok (.ready (opened, 5))] ∧
      (new .server).takenEach pieces =
        [0x81, 0xFE, 0x00, 0x05, 0x01, 0x02, 0x03, 0x04] ∧
      opened.encode 5 = [0x81, 0x85, 0x01, 0x02, 0x03, 0x04] ∧
      Parses .server (opened.encode 5) (opened, 5) := by
  intro opened pieces
  have answers : ((new .server).feedEach pieces).1 =
      [.ok (.needMore 1), .ok (.needMore 3), .ok (.ready (opened, 5))] := by
    decide +kernel
  have taken : (new .server).takenEach pieces =
      [0x81, 0xFE, 0x00, 0x05, 0x01, 0x02, 0x03, 0x04] := by
    decide +kernel
  have ready : .ok (.ready (opened, 5)) ∈ ((new .server).feedEach pieces).1 := by
    rw [answers]
    simp
  have long : ¬(LengthFormat.ofByte (((new .server).takenEach pieces).getD 1 0)).IsShortest 5 := by
    rw [taken]
    intro shortest
    exact absurd (shortest (.inline 5) ⟨rfl, by decide⟩) (by decide)
  obtain ⟨-, -, writes⟩ := parses_written_and_written_parsed .server
  exact ⟨answers, taken, by decide, ((writes pieces opened 5 ready).2 long).2⟩

end HeaderParser
end WebSocket
