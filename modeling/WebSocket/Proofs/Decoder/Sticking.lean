import WebSocket.Proofs.Decoder.Feeds
import WebSocket.Proofs.Header.Staging

/-!
# Behind a refusal

A refusal leaves a decoder as it was when it found out, with the octets that it refused still
held, so it finds the same again whatever it is fed. Only a header parser can be reset, and
that makes it as good as new, even if it has memory that keeps what was there.
-/

namespace WebSocket
namespace Decoder

/-- Whether a decoder refuses whatever it is fed, in the same way, and takes no octet of it. -/
structure Stuck (decoder : Decoder) (refusal : Refusal) : Prop where
  between : decoder.inFlight = none
  refuses : ∀ input, decoder.verdict input = ⟨decoder, input, .error refusal⟩

/-- A decoder that has refused something is stuck. -/
theorem stuck_of_refused
    {decoder : Decoder}
    {input : List UInt8}
    {refusal : Refusal}
    (refused : (decoder.verdict input).answer = .error refusal) :
    (decoder.verdict input).decoder.Stuck refusal := by
  induction decoder, input using feed_induction with
  | headerRefused decoder input parser rest refusal' between parsed =>
      have settled :=
        HeaderParser.settled_of_refused (congrArg HeaderParser.Verdict.answer parsed)
      rw [parsed] at settled
      rw [verdict_of_header_refused between parsed] at refused ⊢
      cases refused
      exact ⟨between, fun more => verdict_of_header_refused between (settled more)⟩
  | headerShort decoder input parser rest count between parsed =>
      rw [verdict_of_header_short between parsed] at refused
      cases refused
  | rejected decoder input parser rest header announced refusal' between parsed rejection =>
      have settled :=
        HeaderParser.settled_of_ready (congrArg HeaderParser.Verdict.answer parsed)
      rw [parsed] at settled
      rw [verdict_of_rejected between parsed rejection] at refused ⊢
      cases refused
      -- The header is complete, and is rejected again by the same message and memory.
      exact ⟨between, fun more => verdict_of_rejected between (settled more) rejection⟩
  | accepted decoder input parser rest header announced next between parsed acceptance
      inductionHypothesis =>
      rw [verdict_of_accepted between parsed acceptance] at refused ⊢
      exact inductionHypothesis refused
  | payloadShort decoder input frame inFlight short =>
      rw [verdict_of_payload_short inFlight short] at refused
      cases refused
  | delivered decoder input frame delivered next inFlight full finished =>
      rw [verdict_of_delivered inFlight full finished] at refused
      cases refused
  | continued decoder input frame next inFlight full finished inductionHypothesis =>
      rw [verdict_of_continued inFlight full finished] at refused ⊢
      exact inductionHypothesis refused

section Stuck

variable
    {decoder : Decoder}
    {refusal : Refusal}

theorem Stuck.wanted (stuck : decoder.Stuck refusal) : decoder.wanted = 0 := by
  apply Nat.eq_zero_of_not_pos
  intro waits
  cases (stuck.refuses []).symm.trans (verdict_nil waits)

/-- What a stuck decoder refuses is in progress: the header of it has begun. -/
theorem Stuck.inProgress (stuck : decoder.Stuck refusal) : decoder.inProgress = true := by
  have full : decoder.parser.wanted = 0 := by
    have wanted := stuck.wanted
    rwa [Decoder.wanted, stuck.between] at wanted
  rw [Decoder.inProgress, HeaderParser.isIdle_eq_false_of_wanted full]
  rfl

theorem Stuck.feedEach (stuck : decoder.Stuck refusal) (inputs : List (List UInt8)) :
    decoder.feedEach inputs = (List.replicate inputs.length (.error refusal), decoder) := by
  induction inputs with
  | nil => rfl
  | cons input later inductionHypothesis =>
      have same : (decoder.feed input).decoder = decoder :=
        congrArg Verdict.decoder (stuck.refuses input)
      have answered : (decoder.feed input).answer = .error refusal :=
        congrArg Verdict.answer (stuck.refuses input)
      rw [Decoder.feedEach, same, answered, inductionHypothesis]
      rfl

end Stuck

/-- Refusals stick, and a reset leaves nothing of what came before it. Whatever has been done
to a header parser, once it refuses what it is fed it wants nothing, and refuses all further
feeds in the same way, takes no octet of them and stays at the field that it has refused.
A reset at any point is followed by what follows a new parser in the same role. All of this
shows just so in a parser with staging memory, which a reset leaves as it is. And whatever
state a decoder is in, once it refuses what it is fed it wants nothing, has something in
progress, and refuses all further feeds in the same way. -/
theorem refusals_stick
    (role : Role)
    (operations : List HeaderParser.Operation)
    (decoder : Decoder) :
    let parser := ((HeaderParser.new role).operateEach operations).2
    let staged := ((StagedParser.new role).operateEach operations).2
    (∀ (input : List UInt8) (refusal : Refusal) (later : List (List UInt8)),
      (parser.feed input).answer = .error refusal →
        let refused := (parser.feed input).parser
        let observation : HeaderParser.Observation :=
          { fed? := some (.error refusal, 0)
            field := refused.stage.field
            isIdle := false
            wanted := 0 }
        refused.wanted = 0 ∧
          refused.operateEach (later.map .feed) =
            (List.replicate later.length observation, refused)) ∧
      (∀ later : List HeaderParser.Operation,
        let fresh := (HeaderParser.new role).operateEach later
        let observation : HeaderParser.Observation :=
          { fed? := none
            field := .initial
            isIdle := true
            wanted := 1 }
        parser.operateEach (.reset :: later) = (observation :: fresh.1, fresh.2)) ∧
      (∀ later : List HeaderParser.Operation,
        let fresh := (StagedParser.new role).operateEach later
        let observation : HeaderParser.Observation :=
          { fed? := none
            field := .initial
            isIdle := true
            wanted := 1 }
        (staged.operateEach later).1 = (parser.operateEach later).1 ∧
          (staged.operateEach (.reset :: later)).1 = observation :: fresh.1) ∧
      ∀ (input : List UInt8) (refusal : Refusal) (later : List (List UInt8)),
        (decoder.feed input).answer = .error refusal →
          let refused := (decoder.feed input).decoder
          refused.inProgress = true ∧
            refused.wanted = 0 ∧
            refused.feedEach later =
              (List.replicate later.length (.error refusal), refused) := by
  intro parser staged
  have represents : staged.Represents parser :=
    ((StagedParser.represents_new role).operateEach operations).2
  have same : parser.role = role := (HeaderParser.new role).role_operateEach operations
  refine ⟨?_, ?_, ?_, ?_⟩
  · intro input refusal later answer refused observation
    have settled : refused.Settled (.error refusal) :=
      HeaderParser.settled_of_refused answer
    have full : refused.wanted = 0 := settled.wanted nofun
    have shows : refused.observe (some (.error refusal, 0)) = observation := by
      rw [HeaderParser.observe, full, HeaderParser.isIdle_eq_false_of_wanted full]
    refine ⟨full, ?_⟩
    rw [settled.operateEach, shows]
  · intro later fresh observation
    rw [parser.operateEach_reset, same]
    rfl
  · intro later fresh observation
    have again := represents.reset.operateEach later
    rw [HeaderParser.reset, same,
      ← ((StagedParser.represents_new role).operateEach later).1] at again
    refine ⟨(represents.operateEach later).1, ?_⟩
    rw [StagedParser.operateEach_cons]
    exact congrArg (observation :: ·) again.1
  · intro input refusal later answer refused
    have stuck : refused.Stuck refusal := stuck_of_refused answer
    exact ⟨stuck.inProgress, stuck.wanted, stuck.feedEach later⟩

/-- A server that has been reset in the middle of a key, of which an octet is still in its
memory, refuses the next header because it is not masked, and a client refuses a text in the
middle of another one. -/
theorem refusals_stick_unmasked_and_interrupted :
    let operations : List HeaderParser.Operation :=
      [.feed [0x82, 0xfe, 0x01, 0x00, 0x0a, 0x0b], .reset, .feed [0x81]]
    let parser := ((HeaderParser.new .server).operateEach operations).2
    let staged := ((StagedParser.new .server).operateEach operations).2
    let decoder := ((new .client 8).feedEach [[0x01, 0x01, 0x61]]).2
    (parser.feed [0x05, 0x61]).answer = .error .missingMask ∧
      (parser.feed [0x05, 0x61]).parser.operateEach [.feed [], .feed [0x85]] =
        (List.replicate 2 ⟨some (.error .missingMask, 0), .length, false, 0⟩,
          (parser.feed [0x05, 0x61]).parser) ∧
      staged.staging = #v[0x81, 0x0b, 0, 0, 0, 0, 0, 0] ∧
      (staged.operateEach [.reset, .feed [0x82]]).1 =
        [⟨none, .initial, true, 1⟩, ⟨some (.ok (.needMore 1), 1), .length, false, 1⟩] ∧
      (decoder.feed [0x81, 0x00]).answer = .error (.interruptedMessage .text) ∧
      ((decoder.feed [0x81, 0x00]).decoder.feedEach [[], [0x80, 0x00]]).1 =
        List.replicate 2 (.error (.interruptedMessage .text)) := by
  intro operations parser staged decoder
  obtain ⟨refuses, -, shows, sticks⟩ := refusals_stick .server operations decoder
  have unmasked : (parser.feed [0x05, 0x61]).answer = .error .missingMask := by
    decide +kernel
  have interrupted : (decoder.feed [0x81, 0x00]).answer = .error (.interruptedMessage .text) := by
    decide +kernel
  have parsed := (refuses [0x05, 0x61] .missingMask [[], [0x85]] unmasked).2
  have decoded := (sticks [0x81, 0x00] _ [[], [0x80, 0x00]] interrupted).2.2
  have field : (parser.feed [0x05, 0x61]).parser.stage.field = .length := by decide +kernel
  rw [field] at parsed
  have kept : staged.staging = #v[0x81, 0x0b, 0, 0, 0, 0, 0, 0] := by decide +kernel
  have fresh : ((StagedParser.new .server).operateEach [.feed [0x82]]).1 =
      [⟨some (.ok (.needMore 1), 1), .length, false, 1⟩] := by decide +kernel
  have reset := (shows [.feed [0x82]]).2
  rw [fresh] at reset
  exact ⟨unmasked, parsed, kept, reset, interrupted, congrArg Prod.fst decoded⟩

end Decoder
end WebSocket
