import WebSocket.Proofs.Grammar.Basic
import WebSocket.Proofs.Header.Feeding

/-!
# Header parsers read headers

A header parser that is fed a stream from its beginning answers what the grammar of
headers says of the stream: it asks for more where the stream ends within the header,
refuses what the grammar refuses, and otherwise hands over the header and leaves the rest.
-/

namespace WebSocket
namespace HeaderParser

open Grammar

/-! ## Octets as numbers -/

/-- What holds of all numbers below 256 holds of all octets. -/
@[elab_as_elim] theorem octet_of_forall_lt
    {motive : UInt8 → Prop}
    (below : ∀ number < 256, motive (UInt8.ofNat number))
    (octet : UInt8) : motive octet := by
  have holds := below octet.toNat octet.toNat_lt
  rwa [UInt8.ofNat_toNat] at holds

theorem reservedBits_iff (octet : UInt8) :
    octet &&& 0x70 ≠ 0 ↔ octet.toNat / 16 % 8 ≠ 0 := by
  refine octet_of_forall_lt ?_ octet
  decide +kernel

theorem lowBits_eq (octet : UInt8) : octet &&& 0x0F = UInt8.ofNat (octet.toNat % 16) := by
  refine octet_of_forall_lt ?_ octet
  decide +kernel

theorem opcode?_eq {number : Nat} (small : number < 16) :
    opcode? number =
      if (Opcode.ofByte (UInt8.ofNat number)).isAssigned then
        some (Opcode.ofByte (UInt8.ofNat number))
      else none := by
  revert number
  decide

theorem maskBit_eq (octet : UInt8) :
    decide (octet &&& 0x80 ≠ 0) = decide (128 ≤ octet.toNat) := by
  refine octet_of_forall_lt ?_ octet
  decide +kernel

/-- Reading the first octet by its bits is reading it as a number. -/
theorem readInitial_eq (octet : UInt8) :
    HeaderStage.readInitial octet =
      if octet.toNat / 16 % 8 ≠ 0 then .error .reservedBits
      else
        match opcode? (octet.toNat % 16) with
        | none => .error (.unassignedOpcode (UInt8.ofNat (octet.toNat % 16)))
        | some opcode => .ok (.length (decide (128 ≤ octet.toNat)) opcode) := by
  unfold HeaderStage.readInitial
  dsimp only
  rw [maskBit_eq, lowBits_eq, opcode?_eq (Nat.mod_lt _ (by decide))]
  simp only [reservedBits_iff]
  split
  · rfl
  · split <;> rfl

theorem readLength_eq
    (role : Role)
    (isFinal : Bool)
    (opcode : Opcode)
    (octet : UInt8) :
    HeaderStage.readLength role isFinal opcode octet =
      match role, decide (128 ≤ octet.toNat) with
      | .server, false => .error .missingMask
      | .client, true => .error .unexpectedMask
      | _, _ => .ok (.afterFormat role isFinal opcode (.ofByte octet)) := by
  have maskBit := maskBit_eq octet
  unfold HeaderStage.readLength
  cases role with
  | server =>
      cases masked : decide (128 ≤ octet.toNat) with
      | false => simp only [maskBit.trans masked]
      | true => simp only [maskBit.trans masked]
  | client =>
      cases masked : decide (128 ≤ octet.toNat) with
      | false => simp only [maskBit.trans masked]
      | true => simp only [maskBit.trans masked]

theorem readLength64_eq
    (role : Role)
    (isFinal : Bool)
    (opcode : Opcode)
    (octets : List UInt8) :
    HeaderStage.readLength64 role isFinal opcode octets =
      if 2 ^ 63 ≤ BigEndian.decode octets then
        .error (.lengthTooLarge (BigEndian.decode octets))
      else .ok (.afterLength role isFinal opcode (BigEndian.decode octets)) := by
  have topBit : (1 <<< 63 : Nat) = 2 ^ 63 := rfl
  rw [HeaderStage.readLength64, topBit]

/-- The way in which a length is written, by the number that announces it. -/
theorem ofByte_eq (octet : UInt8) :
    LengthFormat.ofByte octet =
      if octet.toNat % 128 = 126 then .extended16
      else if octet.toNat % 128 = 127 then .extended64
      else .inline (UInt8.ofNat (octet.toNat % 128)) := by
  refine octet_of_forall_lt ?_ octet
  decide +kernel

/-! ## Fields -/

/-- Whether feeding a parser comes to what reading a header comes to. -/
def Verdict.Reads (verdict : Verdict) : Scan (FrameHeader × Nat) → Prop
  | .ended => ∃ count, verdict.answer = .ok (.needMore count)
  | .refused refusal => verdict.answer = .error refusal
  | .found header rest => verdict.answer = .ok (.ready header) ∧ verdict.rest = rest

/-- A parser before the first octet of a stage. -/
def begin (role : Role) (stage : HeaderStage) : HeaderParser := { role, stage }

/-- What is read behind a field, given what the field leads to. -/
def ReadsBehind
    (role : Role)
    (rest : List UInt8)
    (scan : Scan (FrameHeader × Nat)) : Except Refusal HeaderStage → Prop
  | .error refusal => scan = .refused refusal
  | .ok next => ((begin role next).verdict rest).Reads scan

/-- A parser reads a field and what follows it, if it reads what follows every field. -/
theorem reads_field
    {role : Role}
    (stage : HeaderStage)
    {next : List UInt8 → Scanner (FrameHeader × Nat)}
    (waiting : stage.complete? = none)
    (behind : ∀ field rest, field.length = stage.width →
      ReadsBehind role rest (next field rest) (stage.advance role field))
    (stream : List UInt8) :
    ((begin role stage).verdict stream).Reads
      ((Scanner.octets stage.width >>= next) stream) := by
  have awaits : (begin role stage).stage.complete? = none := waiting
  by_cases short : stream.length < stage.width
  · rw [Scanner.bind_of_ended (Scanner.octets_of_lt short), verdict_of_short awaits short]
    exact ⟨_, rfl⟩
  · have full : stage.width ≤ stream.length := Nat.le_of_not_lt short
    have readsBehind := behind (stream.take stage.width) (stream.drop stage.width)
      (List.length_take_of_le full)
    rw [Scanner.bind_of_found (Scanner.octets_of_le full)]
    cases advanced : stage.advance role (stream.take stage.width) with
    | error refusal =>
        rw [advanced] at readsBehind
        rw [verdict_of_refused awaits full advanced, readsBehind]
        rfl
    | ok later =>
        rw [advanced] at readsBehind
        rw [verdict_of_advanced awaits full advanced]
        exact readsBehind

theorem reads_payload
    (role : Role)
    (header : FrameHeader)
    (announced : Nat)
    (stream : List UInt8) :
    ((begin role (.payload header announced)).verdict stream).Reads
      (.found (header, announced) stream) := by
  have complete :
      (begin role (.payload header announced)).stage.complete? = some (header, announced) :=
    rfl
  rw [verdict_of_complete complete]
  exact ⟨rfl, rfl⟩

theorem reads_afterLength
    (role : Role)
    (isFinal : Bool)
    (opcode : Opcode)
    (announced : Nat)
    (stream : List UInt8) :
    ((begin role (.afterLength role isFinal opcode announced)).verdict stream).Reads
      ((do
        let mask ← key role
        return ({ opcode, isFinal, mask }, announced) : Scanner _) stream) := by
  cases role with
  | client => exact reads_payload .client { opcode, isFinal } announced stream
  | server =>
      rw [key, Scanner.bind_bind]
      refine reads_field (.mask isFinal opcode announced) rfl ?_ stream
      intro field rest wide
      exact reads_payload .server _ announced rest

theorem reads_afterFormat
    (role : Role)
    (isFinal : Bool)
    (opcode : Opcode)
    (octet : UInt8)
    (stream : List UInt8) :
    ((begin role (.afterFormat role isFinal opcode (.ofByte octet))).verdict stream).Reads
      ((do
        let length ← length (octet.toNat % 128)
        let mask ← key role
        return ({ opcode, isFinal, mask }, length) : Scanner _) stream) := by
  rw [ofByte_eq, Grammar.length]
  split
  · rw [Scanner.bind_bind]
    refine reads_field (.extendedLength16 isFinal opcode) rfl ?_ stream
    intro field rest wide
    exact reads_afterLength role isFinal opcode _ rest
  · split
    · rw [Scanner.bind_bind]
      refine reads_field (.extendedLength64 isFinal opcode) rfl ?_ stream
      intro field rest wide
      rw [HeaderStage.advance, readLength64_eq]
      dsimp only
      split
      · rfl
      · exact reads_afterLength role isFinal opcode _ rest
    · have small : (UInt8.ofNat (octet.toNat % 128)).toNat = octet.toNat % 128 := by
        rw [UInt8.toNat_ofNat']
        omega
      have reads :=
        reads_afterLength role isFinal opcode (UInt8.ofNat (octet.toNat % 128)).toNat stream
      rw [small] at reads
      rw [HeaderStage.afterFormat, small]
      exact reads

/-- Reading an octet is reading a field of one octet. -/
theorem octet_bind {α : Type} (next : UInt8 → Scanner α) :
    Scanner.octet >>= next = Scanner.octets 1 >>= fun field => next (field.headD 0) := by
  funext stream
  cases stream with
  | nil => rfl
  | cons octet rest => rfl

theorem reads_length
    (role : Role)
    (isFinal : Bool)
    (opcode : Opcode)
    (stream : List UInt8) :
    ((begin role (.length isFinal opcode)).verdict stream).Reads
      ((do
        let announced ← announcement role
        let length ← length announced
        let mask ← key role
        return ({ opcode, isFinal, mask }, length) : Scanner _) stream) := by
  rw [announcement, Scanner.bind_bind, octet_bind]
  refine reads_field (.length isFinal opcode) rfl ?_ stream
  intro field rest wide
  have reads := reads_afterFormat role isFinal opcode (field.headD 0) rest
  rw [HeaderStage.advance, readLength_eq]
  dsimp only
  cases role with
  | server =>
      cases decide (128 ≤ (field.headD 0).toNat) with
      | false => rfl
      | true => exact reads
  | client =>
      cases decide (128 ≤ (field.headD 0).toNat) with
      | false => exact reads
      | true => rfl

/-- A new parser reads headers. -/
theorem reads_new (role : Role) (stream : List UInt8) :
    ((new role).verdict stream).Reads (header role stream) := by
  rw [header, opening, Scanner.bind_bind, octet_bind]
  refine reads_field .initial rfl ?_ stream
  intro field rest wide
  rw [HeaderStage.advance, readInitial_eq]
  dsimp only
  split
  · rfl
  · cases opcode? ((field.headD 0).toNat % 16) with
    | none => rfl
    | some opcode => exact reads_length role _ opcode rest

section Outcomes

variable
    {role : Role}
    {stream : List UInt8}

theorem exists_needMore_of_header (ended : header role stream = .ended) :
    ∃ parser count, (new role).verdict stream = ⟨parser, [], .ok (.needMore count)⟩ := by
  have reads := reads_new role stream
  rw [ended] at reads
  obtain ⟨count, asks⟩ := reads
  exact ⟨_, count, Verdict.ext rfl (verdict_of_needMore asks).1 asks⟩

theorem exists_refused_of_header
    {refusal : Refusal}
    (refused : header role stream = .refused refusal) :
    ∃ parser rest, (new role).verdict stream = ⟨parser, rest, .error refusal⟩ := by
  have reads := reads_new role stream
  rw [refused] at reads
  exact ⟨_, _, Verdict.ext rfl rfl reads⟩

theorem exists_ready_of_header
    {item : FrameHeader × Nat}
    {rest : List UInt8}
    (found : header role stream = .found item rest) :
    ∃ parser, (new role).verdict stream = ⟨parser, rest, .ok (.ready item)⟩ := by
  have reads := reads_new role stream
  rw [found] at reads
  obtain ⟨answered, left⟩ := reads
  exact ⟨_, Verdict.ext rfl left answered⟩

/-- What a parser hands over is what it reads. -/
theorem header_of_verdict
    {parser : HeaderParser}
    {item : FrameHeader × Nat}
    {rest : List UInt8}
    (parsed : (new role).verdict stream = ⟨parser, rest, .ok (.ready item)⟩) :
    header role stream = .found item rest := by
  cases scanned : header role stream with
  | ended =>
      obtain ⟨parser', count, asks⟩ := exists_needMore_of_header scanned
      cases parsed.symm.trans asks
  | refused refusal =>
      obtain ⟨parser', rest', refused⟩ := exists_refused_of_header scanned
      cases parsed.symm.trans refused
  | found item' rest' =>
      obtain ⟨parser', ready⟩ := exists_ready_of_header scanned
      cases parsed.symm.trans ready
      rfl

end Outcomes

end HeaderParser
end WebSocket
