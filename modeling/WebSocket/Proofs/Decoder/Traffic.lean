import WebSocket.Proofs.Grammar.Stream
import WebSocket.Proofs.Grammar.Traffic

/-!
# Decoding messages in fragments

However messages are cut into fragments, masked and mixed with control frames, a decoder
delivers each message whole behind its last fragment, and the control frames where they
stand.
-/

namespace WebSocket
namespace Decoder

open Grammar

variable
    {role : Role}
    {limit : Nat}
    {memory : Memory}

/-- Traffic whose messages fit is decoded as it is scheduled, and nothing is left open. -/
theorem decodeFrom_traffic
    (room : ∀ size < 2 ^ 47, memory.hasRoom size = true)
    {traffic : Traffic role}
    (fits : ∀ message ∈ traffic.messages, message.Fits limit) :
    let outcome := (new role limit memory).decodeFrom 0 traffic.octets
    outcome.deliveries = traffic.deliveries ∧
      outcome.refusal = none ∧
      outcome.decoder.inProgress = false := by
  have chain : Chain limit memory none traffic.legs none := Traffic.chain_legs fits room
  have reads : ((new role limit memory).decodeFrom 0 traffic.octets).Reads
      (transcript role limit memory none 0 (Leg.stream traffic.legs)) :=
    reads_decodeFrom role limit memory fits_none 0 traffic.octets
  rw [chain.transcript_stream] at reads
  exact ⟨reads.deliveries, reads.refusal, reads.inProgress⟩

/-- Traffic that is cut is decoded as it is scheduled up to there, and nothing is left open
exactly if the cut is clean. -/
theorem decodeFrom_cut
    (room : ∀ size < 2 ^ 47, memory.hasRoom size = true)
    {traffic : Traffic role}
    (fits : ∀ message ∈ traffic.messages, message.Fits limit)
    {taken : List UInt8}
    (cut : taken <+: traffic.octets) :
    let outcome := (new role limit memory).decodeFrom 0 taken
    outcome.deliveries = traffic.deliveries.filter (·.1 ≤ taken.length) ∧
      outcome.refusal = none ∧
      outcome.decoder.inProgress = !decide (traffic.IsClean taken.length) := by
  have chain : Chain limit memory none traffic.legs none := Traffic.chain_legs fits room
  have reads : ((new role limit memory).decodeFrom 0 taken).Reads
      (transcript role limit memory none 0 taken) :=
    reads_decodeFrom role limit memory fits_none 0 taken
  have part : transcript role limit memory none 0 (traffic.octets.take taken.length) =
      ⟨traffic.deliveries.filter fun delivery => delivery.1 ≤ 0 + taken.length,
        if traffic.IsClean (0 + taken.length) then .between else .within⟩ :=
    chain.transcript_take 0 cut.length_le
  rw [← List.prefix_iff_eq_take.mp cut, Nat.zero_add] at part
  rw [part] at reads
  refine ⟨reads.deliveries, reads.refusal.trans ?_, reads.inProgress.trans ?_⟩
  · by_cases clean : traffic.IsClean taken.length <;> simp [clean, Ending.refusal?]
  · by_cases clean : traffic.IsClean taken.length <;> simp [clean, Ending.isOpen]

/-- Traffic whose messages fit is decoded as it is scheduled, in pieces of any size. Each
message is delivered whole behind its last fragment, and each control frame where it stands.
So the data frames that are delivered depend on the messages alone, and not on their
fragments, masks and control frames: any other traffic with these messages delivers the
same, such as the one that has each message in one frame and no control frames. In the same
way the control frames that are delivered depend on nothing else. -/
theorem decodePieces_traffic
    (room : ∀ size < 2 ^ 47, memory.hasRoom size = true)
    {traffic : Traffic role}
    (fits : ∀ message ∈ traffic.messages, message.Fits limit)
    {pieces : List (List UInt8)}
    (whole : pieces.flatten = traffic.octets) :
    let decoded := (new role limit memory).decodePieces pieces
    let frames := decoded.deliveries.map Prod.snd
    decoded.deliveries = traffic.deliveries ∧
      frames = traffic.frames ∧
      decoded.refusal = none ∧
      decoded.decoder.inProgress = false ∧
      frames.filter (!·.opcode.isControl) = traffic.messages.map Message.frame ∧
      frames.filter (·.opcode.isControl) = traffic.controls ∧
      ∀ (other : Traffic role) (pieces' : List (List UInt8)),
        (∀ message ∈ other.messages, message.Fits limit) →
        pieces'.flatten = other.octets →
        let decoded' := (new role limit memory).decodePieces pieces'
        let frames' := decoded'.deliveries.map Prod.snd
        (other.messages.map Message.frame = traffic.messages.map Message.frame →
          frames'.filter (!·.opcode.isControl) = frames.filter (!·.opcode.isControl)) ∧
        (other.controls = traffic.controls →
          frames'.filter (·.opcode.isControl) = frames.filter (·.opcode.isControl)) := by
  have decodes : ∀ (traffic : Traffic role) (pieces : List (List UInt8)),
      (∀ message ∈ traffic.messages, message.Fits limit) →
      pieces.flatten = traffic.octets →
      let decoded := (new role limit memory).decodePieces pieces
      decoded.deliveries = traffic.deliveries ∧
        decoded.deliveries.map Prod.snd = traffic.frames ∧
        decoded.refusal = none ∧
        decoded.decoder.inProgress = false := by
    intro traffic pieces fits whole
    have outcome := outcome_decodePieces role limit memory pieces
    rw [whole] at outcome
    obtain ⟨deliveries, refusal, idle⟩ := decodeFrom_traffic room fits
    rw [← outcome] at deliveries refusal idle
    have frames := congrArg (List.map Prod.snd) deliveries
    exact ⟨deliveries, frames.trans traffic.map_snd_deliveries, refusal, idle⟩
  obtain ⟨deliveries, frames, refusal, idle⟩ := decodes traffic pieces fits whole
  dsimp only
  rw [frames, traffic.filter_isControl_frames, traffic.filter_not_isControl_frames]
  refine ⟨deliveries, rfl, refusal, idle, rfl, rfl, ?_⟩
  intro other pieces' fits' whole'
  obtain ⟨-, frames', -, -⟩ := decodes other pieces' fits' whole'
  rw [frames', other.filter_isControl_frames, other.filter_not_isControl_frames]
  exact ⟨id, id⟩

/-- A message in three fragments, of which one is empty, with control frames before, between
and behind them, is decoded like the same message in one frame. -/
theorem decodePieces_fragments_among_controls :
    let frame (opcode : Opcode) (isFinal : Bool) (octet : UInt8) payload :=
      Physical.ofClient opcode isFinal ⟨octet, 2, 3, octet⟩ payload
    let ping : ControlFrame .server :=
      ⟨frame (.control .ping) true 1 [0x70] rfl (by decide), .ping, rfl, rfl, by decide⟩
    let close : ControlFrame .server :=
      ⟨frame (.control .close) true 5 [] rfl (by decide), .close, rfl, rfl, by decide⟩
    let fragments : Fragments .server .text :=
      .more [ping] ⟨frame (.data .text) false 6 [0x61, 0x62] rfl (by decide), rfl, rfl⟩
        (.more [] ⟨frame (.data .continuation) false 7 [] rfl (by decide), rfl, rfl⟩
          (.last [ping, ping]
            ⟨frame (.data .continuation) true 8 [0x63] rfl (by decide), rfl, rfl⟩))
    let single : Fragments .server .text :=
      .last [] ⟨frame (.data .text) true 9 [0x61, 0x62, 0x63] rfl (by decide), rfl, rfl⟩
    let traffic : Traffic .server := ⟨[⟨.text, .inl rfl, fragments⟩], [close]⟩
    let plain : Traffic .server := ⟨[⟨.text, .inl rfl, single⟩], []⟩
    let pieces := [traffic.octets.take 9, [], traffic.octets.drop 9]
    let delivered := ((new .server 3).decodePieces pieces).deliveries.map Prod.snd
    let plainly := ((new .server 3).decodePieces [plain.octets]).deliveries.map Prod.snd
    delivered =
        [ping.frame, ping.frame, ping.frame, ⟨.data .text, [0x61, 0x62, 0x63]⟩,
          close.frame] ∧
      plainly.filter (!·.opcode.isControl) = delivered.filter (!·.opcode.isControl) := by
  intro frame ping close fragments single traffic plain pieces delivered plainly
  have room : ∀ size < 2 ^ 47, Memory.standard.hasRoom size = true :=
    fun size small => decide_eq_true small
  have fits : ∀ message ∈ traffic.messages, message.Fits 3 := by
    intro message member
    rw [List.mem_singleton.mp member]
    exact ⟨by decide, by decide⟩
  have fitsPlain : ∀ message ∈ plain.messages, message.Fits 3 := by
    intro message member
    rw [List.mem_singleton.mp member]
    exact ⟨by decide, by decide⟩
  have whole : pieces.flatten = traffic.octets := by
    simp [pieces]
  have wholePlain : [plain.octets].flatten = plain.octets := List.append_nil _
  obtain ⟨-, frames, -, -, -, -, same⟩ := decodePieces_traffic room fits whole
  exact ⟨frames, (same plain [plain.octets] fitsPlain wholePlain).1 rfl⟩

end Decoder
end WebSocket
