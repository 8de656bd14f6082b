import Mathlib.Data.List.DropRight
import WebSocket.Proofs.Grammar.Decoding
import WebSocket.Proofs.Grammar.Physical

/-!
# Fragments of open messages

Whole frames that are read off a stream are physical frames one after the other. The message
that is open behind them is made of the data frames behind the last final one, in order, and
of what has arrived of the frame that follows.
-/

namespace WebSocket
namespace Grammar

variable
    {role : Role}
    {limit : Nat}
    {memory : Memory}

/-! ## Frames that are read -/

namespace Physical

/-- The physical frame of a header that is read, with the octets that travel behind it. -/
def ofHeader
    {opened : FrameHeader}
    (readable : opened.ReadableBy role)
    (format : LengthFormat)
    (octets : List UInt8)
    (holds : format.Holds octets.length) : Physical role where
  opcode := opened.opcode
  isFinal := opened.isFinal
  mask := opened.mask
  payload := unmask opened.mask octets
  format
  assigned := readable.assigned
  masks := readable.masks
  holds := by
    rw [length_unmask]
    exact holds

section OfHeader

variable
    {opened : FrameHeader}
    (readable : opened.ReadableBy role)
    (format : LengthFormat)
    (octets : List UInt8)
    (holds : format.Holds octets.length)

theorem header_ofHeader : (ofHeader readable format octets holds).header = opened := by
  obtain ⟨opcode, isFinal, _, _, _, mask⟩ := opened
  obtain ⟨rfl, rfl, rfl, -, -⟩ := id readable
  rfl

theorem length_payload_ofHeader :
    (ofHeader readable format octets holds).payload.length = octets.length :=
  length_unmask opened.mask octets

theorem octets_ofHeader :
    (ofHeader readable format octets holds).octets =
      opened.encodeAs format octets.length ++ octets := by
  rw [Physical.octets, opening, header_ofHeader, length_payload_ofHeader]
  exact congrArg _ (unmask_unmask opened.mask octets)

end OfHeader
end Physical

/-- A frame that is read is a physical frame that breaks no rule. -/
theorem exists_physical_of_frame
    {pending : Option Frame}
    {item : Option Frame × Option Frame}
    {stream rest : List UInt8}
    (found : frame role limit memory pending stream = .found item rest) :
    ∃ physical : Physical role, stream = physical.octets ++ rest ∧
      broken? limit memory pending physical.header physical.payload.length = none ∧
      fold pending physical.header physical.payload = item := by
  obtain ⟨⟨opened, announced⟩, between, foundHeader, foundBody⟩ := Scanner.found_of_bind found
  obtain ⟨readable, holds, whole⟩ := stream_of_header foundHeader
  dsimp only at foundBody
  cases broken : broken? limit memory pending opened announced with
  | some refusal =>
      rw [body, broken] at foundBody
      cases foundBody
  | none =>
      rw [body, broken] at foundBody
      obtain ⟨payload, behind, foundPayload, foundItem⟩ := Scanner.found_of_bind foundBody
      obtain ⟨full, rfl, rfl⟩ := rest_of_octets foundPayload
      obtain ⟨rfl, rfl⟩ := Scan.found.inj foundItem
      have wide := List.length_take_of_le full
      have parts := List.take_append_drop announced between
      generalize between.take announced = payload at wide parts ⊢
      subst wide
      refine ⟨.ofHeader readable _ payload holds, ?_, ?_, ?_⟩
      · rw [Physical.octets_ofHeader, List.append_assoc, parts]
        exact whole
      · rw [Physical.header_ofHeader, Physical.length_payload_ofHeader]
        exact broken
      · rw [Physical.header_ofHeader]
        rfl

theorem Passes.append
    {pending middle last : Option Frame}
    {whole later : List UInt8}
    (first : Passes role limit memory pending whole middle)
    (second : Passes role limit memory middle later last) :
    Passes role limit memory pending (whole ++ later) last := by
  induction first with
  | nil pending => exact second
  | cons found _ inductionHypothesis =>
      rw [List.append_assoc]
      exact .cons found (inductionHypothesis second)

/-! ## Messages -/

/-- The message that is open behind physical frames, folded over one that is open ahead of
them. -/
def foldAll (pending : Option Frame) (earlier : List (Physical role)) : Option Frame :=
  earlier.foldl
    (fun pending physical => (fold pending physical.header physical.payload).2) pending

/-- Whether a message has the opcode of a text or of binary data. -/
def Proper (pending : Option Frame) : Prop :=
  ∀ message, pending = some message →
    message.opcode = .data .text ∨ message.opcode = .data .binary

theorem proper_none : Proper none := nofun

/-- A frame that breaks no rule begins no messages but texts and binary ones, whether it is
taken for a final one or not. -/
theorem proper_fold
    {pending : Option Frame}
    (proper : Proper pending)
    {header : FrameHeader}
    {announced : Nat}
    (assigned : header.opcode.isAssigned = true)
    (unbroken : broken? limit memory pending header announced = none)
    (isFinal : Bool)
    (payload : List UInt8) :
    Proper (fold pending { header with isFinal } payload).2 := by
  unfold broken? at unbroken
  unfold fold
  dsimp only
  cases opcode : header.opcode with
  | control opcode' => exact proper
  | data opcode' =>
      rw [opcode] at unbroken assigned
      cases isFinal with
      | true => exact nofun
      | false =>
          intro message kept
          cases kept
          cases pending with
          | some earlier => exact proper earlier rfl
          | none =>
              cases opcode' with
              | continuation => cases unbroken
              | text => exact .inl rfl
              | binary => exact .inr rfl
              | reserved value => cases assigned

/-- Whole frames of which none breaks a rule are physical frames one after the other. -/
theorem Passes.exists_physicals
    {pending last : Option Frame}
    {whole : List UInt8}
    (passes : Passes role limit memory pending whole last)
    (proper : Proper pending) :
    ∃ earlier : List (Physical role),
      whole = earlier.flatMap Physical.octets ∧ last = foldAll pending earlier ∧
        Proper last := by
  induction passes with
  | nil pending => exact ⟨[], rfl, rfl, proper⟩
  | @cons pending delivered next last octets later found _ inductionHypothesis =>
      have alone := found []
      rw [List.append_nil] at alone
      obtain ⟨physical, same, unbroken, folds⟩ := exists_physical_of_frame alone
      rw [List.append_nil] at same
      have properNext := proper_fold proper physical.assigned unbroken physical.isFinal
        physical.payload
      rw [show { physical.header with isFinal := physical.isFinal } = physical.header from rfl,
        folds] at properNext
      obtain ⟨earlier, rfl, rfl, properLast⟩ := inductionHypothesis properNext
      have next' : (fold pending physical.header physical.payload).2 = next :=
        congrArg Prod.snd folds
      exact ⟨physical :: earlier, by rw [same, List.flatMap_cons],
        congrArg (foldAll · earlier) next'.symm, properLast⟩

/-- The opcodes and payloads of the data frames behind the last final one. -/
def openFragments (earlier : List (Physical role)) : List (Opcode × List UInt8) :=
  ((earlier.filter fun physical => !physical.opcode.isControl).rtakeWhile
    fun physical => !physical.isFinal).map fun physical => (physical.opcode, physical.payload)

/-- The message that fragments make up. Its opcode is that of the first one. -/
def assembled : List (Opcode × List UInt8) → Option Frame
  | [] => none
  | (opcode, payload) :: later => some ⟨opcode, payload ++ later.flatMap Prod.snd⟩

/-- A further fragment begins a message or goes on with the one that is open. -/
theorem assembled_concat (fragments : List (Opcode × List UInt8)) (last : Opcode × List UInt8) :
    assembled (fragments ++ [last]) =
      match assembled fragments with
      | none => some ⟨last.1, last.2⟩
      | some message => some { message with payload := message.payload ++ last.2 } := by
  cases fragments with
  | nil => simp [assembled]
  | cons first later => simp [assembled]

section Fragments

variable {earlier : List (Physical role)} {last : Physical role}

theorem openFragments_of_isControl (control : last.opcode.isControl = true) :
    openFragments (earlier ++ [last]) = openFragments earlier := by
  simp [openFragments, control]

theorem openFragments_of_isFinal
    (data : last.opcode.isControl = false)
    (final : last.isFinal = true) :
    openFragments (earlier ++ [last]) = [] := by
  simp [openFragments, data, final]

theorem openFragments_of_not_isFinal
    (data : last.opcode.isControl = false)
    (open' : last.isFinal = false) :
    openFragments (earlier ++ [last]) =
      openFragments earlier ++ [(last.opcode, last.payload)] := by
  simp [openFragments, data, open']

end Fragments

/-- Folding physical frames leaves the message that their open fragments make up. -/
theorem foldAll_eq_assembled (earlier : List (Physical role)) :
    foldAll none earlier = assembled (openFragments earlier) := by
  induction earlier using List.reverseRecOn with
  | nil => rfl
  | append_singleton earlier last inductionHypothesis =>
      rw [foldAll, List.foldl_append, List.foldl_cons, List.foldl_nil, ← foldAll,
        inductionHypothesis]
      unfold fold
      rw [show last.header.opcode = last.opcode from rfl,
        show last.header.isFinal = last.isFinal from rfl]
      cases opcode : last.opcode with
      | control opcode' =>
          rw [openFragments_of_isControl (congrArg Opcode.isControl opcode)]
      | data opcode' =>
          have data : last.opcode.isControl = false := congrArg Opcode.isControl opcode
          cases final : last.isFinal with
          | true => rw [openFragments_of_isFinal data final]; rfl
          | false =>
              rw [openFragments_of_not_isFinal data final, assembled_concat, opcode]
              cases assembled (openFragments earlier) <;> rfl

/-! ## Frames that arrive -/

/-- What has arrived of the payload of a data frame within which a stream ends, without its
mask, and the opcode of the frame. -/
def arriving (role : Role) (part : List UInt8) : Option (Opcode × List UInt8) :=
  match header role part with
  | .found (opened, _) payload =>
      if opened.opcode.isControl then none
      else some (opened.opcode, unmask opened.mask payload)
  | _ => none

theorem arriving_of_ended {part : List UInt8} (ended : header role part = .ended) :
    arriving role part = none := by
  rw [arriving, ended]

/-- What arrives of a frame goes to the message that is open, as if it were a fragment. -/
theorem assembled_arriving
    {opened : FrameHeader}
    {announced : Nat}
    {part payload : List UInt8}
    (found : header role part = .found (opened, announced) payload)
    (fragments : List (Opcode × List UInt8)) :
    assembled (fragments ++ (arriving role part).toList) =
      (fold (assembled fragments) { opened with isFinal := false }
        (unmask opened.mask payload)).2 := by
  rw [arriving, found]
  unfold fold
  dsimp only
  cases opcode : opened.opcode with
  | control opcode' => exact congrArg assembled (List.append_nil fragments)
  | data opcode' =>
      refine (assembled_concat fragments _).trans ?_
      cases assembled fragments <;> rfl

end Grammar
end WebSocket
