import WebSocket.Proofs.Grammar.Header
import WebSocket.Proofs.Grammar.Parts

/-!
# Header parsers stop at the ends of fields

A header parser asks for what the current field lacks and for no more, and refuses a field
as soon as it is complete. So where a refusal leaves nothing over, the octets that were
taken end with the field that shows why.
-/

namespace WebSocket

/-- The number of octets of a frame that show why it is refused, for the errors that fields
of its header call for on their own. The others take the whole header. -/
def Error.shownAfter? : Error → Option Nat
  | .protocol .nonZeroReservedBits => some 1
  | .protocol (.invalidOpcode _) => some 1
  | .protocol .unmaskedFrameFromClient => some 2
  | .protocol .maskedFrameFromServer => some 2
  | .protocol (.invalidPayloadLength _) => some 10
  | _ => none

namespace HeaderParser

open Grammar

/-- Whether feeding a parser fields of the given widths, `skipped` octets behind the first
octet of the frame, comes to what they say: it asks for what the current field lacks, and a
refusal that leaves nothing over takes the octets that show it. -/
def Verdict.Stops
    (verdict : Verdict)
    (skipped : Nat)
    (widths : List Nat)
    (stream : List UInt8) : Prop :=
  match verdict.answer with
  | .ok (.ready _) => True
  | .ok (.needMore count) => count = shortfall widths stream.length
  | .error refusal =>
      verdict.rest = [] → refusal.error.shownAfter? = some (skipped + stream.length)

/-- Whether what a field leads to is refused where it is shown, or leads to fields of the
given widths. -/
def StopsBehind
    (role : Role)
    (skipped : Nat)
    (widths : List Nat)
    (rest : List UInt8) : Except Refusal HeaderStage → Prop
  | .error refusal => refusal.error.shownAfter? = some skipped
  | .ok next => ((begin role next).verdict rest).Stops skipped widths rest

/-- A parser stops in a field and behind it, if it stops in what follows every field. -/
theorem stops_field
    {role : Role}
    {skipped : Nat}
    (stage : HeaderStage)
    (later : List UInt8 → List UInt8 → List Nat)
    (waiting : stage.complete? = none)
    (behind : ∀ field rest, field.length = stage.width →
      StopsBehind role (skipped + stage.width) (later field rest) rest
        (stage.advance role field))
    (stream : List UInt8) :
    ((begin role stage).verdict stream).Stops skipped
      (stage.width :: later (stream.take stage.width) (stream.drop stage.width)) stream := by
  have awaits : (begin role stage).stage.complete? = none := waiting
  by_cases short : stream.length < stage.width
  · rw [verdict_of_short awaits short]
    exact (if_pos short).symm
  · have full : stage.width ≤ stream.length := Nat.le_of_not_lt short
    have stopsBehind := behind (stream.take stage.width) (stream.drop stage.width)
      (List.length_take_of_le full)
    cases advanced : stage.advance role (stream.take stage.width) with
    | error refusal =>
        rw [advanced] at stopsBehind
        rw [verdict_of_refused awaits full advanced]
        intro nothing
        have whole : stage.width = stream.length :=
          Nat.le_antisymm full (List.drop_eq_nil_iff.mp nothing)
        rw [← whole]
        exact stopsBehind
    | ok next =>
        rw [advanced] at stopsBehind
        rw [verdict_of_advanced awaits full advanced]
        have total : stage.width + (stream.drop stage.width).length = stream.length := by
          rw [List.length_drop]
          omega
        change ((begin role next).verdict (stream.drop stage.width)).Stops _ _ _
        rcases parsed : (begin role next).verdict (stream.drop stage.width) with
          ⟨parser, rest, refusal | count | header⟩
        · intro nothing
          rw [StopsBehind, parsed] at stopsBehind
          rw [← total, ← Nat.add_assoc]
          exact stopsBehind nothing
        · rw [StopsBehind, parsed] at stopsBehind
          change count = shortfall (_ :: _) stream.length
          rw [shortfall, if_neg short, ← List.length_drop]
          exact stopsBehind
        · trivial

theorem stops_payload
    (role : Role)
    (skipped : Nat)
    (widths : List Nat)
    (header : FrameHeader)
    (announced : Nat)
    (stream : List UInt8) :
    ((begin role (.payload header announced)).verdict stream).Stops skipped widths
      stream := by
  have complete :
      (begin role (.payload header announced)).stage.complete? = some (header, announced) :=
    rfl
  rw [verdict_of_complete complete]
  trivial

theorem stops_afterLength
    (role : Role)
    (skipped : Nat)
    (isFinal : Bool)
    (opcode : Opcode)
    (announced : Nat)
    (stream : List UInt8) :
    ((begin role (.afterLength role isFinal opcode announced)).verdict stream).Stops skipped
      [keyWidth role] stream := by
  cases role with
  | client => exact stops_payload .client skipped _ { opcode, isFinal } announced stream
  | server =>
      refine stops_field (.mask isFinal opcode announced) (fun _ _ => []) rfl ?_ stream
      intro field rest wide
      exact stops_payload .server _ [] _ announced rest

theorem stops_afterFormat
    (role : Role)
    (isFinal : Bool)
    (opcode : Opcode)
    (octet : UInt8)
    (stream : List UInt8) :
    ((begin role (.afterFormat role isFinal opcode (.ofByte octet))).verdict stream).Stops 2
      [extendedWidth (octet.toNat % 128), keyWidth role] stream := by
  rw [ofByte_eq, extendedWidth]
  split
  · refine stops_field (.extendedLength16 isFinal opcode) (fun _ _ => [keyWidth role]) rfl ?_
      stream
    intro field rest wide
    exact stops_afterLength role _ isFinal opcode _ rest
  · split
    · refine stops_field (.extendedLength64 isFinal opcode) (fun _ _ => [keyWidth role]) rfl ?_
        stream
      intro field rest wide
      rw [HeaderStage.advance, readLength64_eq]
      split
      · rfl
      · exact stops_afterLength role _ isFinal opcode _ rest
    · exact stops_afterLength role 2 isFinal opcode _ stream

theorem stops_length
    (role : Role)
    (isFinal : Bool)
    (opcode : Opcode)
    (stream : List UInt8) :
    ((begin role (.length isFinal opcode)).verdict stream).Stops 1
      [1, extendedWidth ((stream.headD 0).toNat % 128), keyWidth role] stream := by
  have first : (stream.take 1).headD 0 = stream.headD 0 := by
    cases stream <;> rfl
  rw [← first]
  refine stops_field (.length isFinal opcode)
    (fun field _ => [extendedWidth ((field.headD 0).toNat % 128), keyWidth role]) rfl ?_
    stream
  intro field rest wide
  have stops := stops_afterFormat role isFinal opcode (field.headD 0) rest
  rw [HeaderStage.advance, readLength_eq]
  cases role with
  | server =>
      cases decide (128 ≤ (field.headD 0).toNat) with
      | false => rfl
      | true => exact stops
  | client =>
      cases decide (128 ≤ (field.headD 0).toNat) with
      | false => exact stops
      | true => rfl

/-- A new parser stops in the field within which its stream ends, or behind the field that
it refuses. -/
theorem stops_new (role : Role) (stream : List UInt8) :
    ((new role).verdict stream).Stops 0 (headerWidths role stream) stream := by
  have second : (stream.drop 1).headD 0 = stream.getD 1 0 := by
    rcases stream with _ | ⟨first, _ | ⟨second, rest⟩⟩ <;> rfl
  rw [headerWidths, announcedBy, ← second]
  refine stops_field .initial
    (fun _ rest => [1, extendedWidth ((rest.headD 0).toNat % 128), keyWidth role]) rfl ?_
    stream
  intro field rest wide
  rw [HeaderStage.advance, readInitial_eq]
  split
  · rfl
  · cases opcode? ((field.headD 0).toNat % 16) with
    | none => rfl
    | some opcode => exact stops_length role _ opcode rest

end HeaderParser
end WebSocket
