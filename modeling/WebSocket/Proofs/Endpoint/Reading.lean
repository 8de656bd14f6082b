import WebSocket.Endpoint.Reading
import WebSocket.Proofs.Channel.Supply
import WebSocket.Proofs.Decoder.Turns

/-!
# Reads from a channel that supplies a stream

A read never takes more from the channel than the decoder wants, so nothing is lost
between two reads: a read comes to what feeding the decoder with the rest of the stream
at once comes to, whatever runs the stream arrives in.
-/

namespace WebSocket
namespace Reading

/-! ## Passes -/

section Run

variable
    {reading : Reading}
    {config : Config}
    {limit : Option Duration}

/-- The equation of a read whose first pass ends it. -/
theorem run_of_finished
    {ended : Ended}
    (step : reading.pass config limit = .finished ended) :
    reading.run config limit = ended := by
  rw [run.eq_def]
  split
  · rename_i ended' step'
    cases step.symm.trans step'
    rfl
  · rename_i next step'
    cases step.symm.trans step'

/-- The equation of a read whose first pass another one follows. -/
theorem run_of_again
    {next : Reading}
    (step : reading.pass config limit = .again next) :
    reading.run config limit = next.run config limit := by
  rw [run.eq_def]
  split
  · rename_i ended step'
    cases step.symm.trans step'
  · rename_i next' step'
    cases step.symm.trans step'
    rfl

end Run

/-! ## The verdict on a stream -/

/-- The failure of a read that meets the end of the stream. -/
def endOfStream (decoder : Decoder) : ReadFailure :=
  if decoder.inProgress then
    { error := .protocol .incompleteFrame, midFrame := true }
  else { error := .connectionClosed, midFrame := false }

/-- Whether a read comes to what feeding the rest of the stream at once comes to. -/
def Ended.Concludes (ended : Ended) (verdict : Decoder.Verdict) : Prop :=
  match verdict.answer with
  | .ok (.ready frame) =>
      ended.answer = .ok (some frame) ∧
        ended.decoder = verdict.decoder ∧
        ended.inbound.Supplies verdict.rest
  | .ok (.needMore _) => ended.answer = .error (endOfStream verdict.decoder)
  | .error refusal => ended.answer = .error { error := refusal.error, midFrame := true }

/-- Whether a read has a verdict on the rest of the stream still to come. -/
structure Faces (reading : Reading) (verdict : Decoder.Verdict) : Prop where
  waits : 0 < reading.decoder.wanted
  comes : ∃ stream, reading.inbound.Supplies stream ∧
    reading.decoder.verdict stream = verdict

/-- Whether a pass ends the read as it should, or leaves the same verdict to come. -/
def Step.Concludes (verdict : Decoder.Verdict) : Step → Prop
  | .finished ended => ended.Concludes verdict
  | .again next => next.Faces verdict

variable {reading : Reading} {stream : List UInt8}

/-- Decoding what was read leaves the verdict on the rest of the stream to come, if the
decoder wanted no less. -/
theorem concludes_decode
    {octets : List UInt8}
    (within : octets.length ≤ reading.decoder.wanted)
    (supplies : reading.inbound.Supplies stream) :
    (reading.decode octets).Concludes (reading.decoder.verdict (octets ++ stream)) := by
  have taken := Decoder.rest_of_length_le_wanted within
  have both := reading.decoder.verdict_append octets stream
  rcases verdict : reading.decoder.verdict octets with ⟨next, rest, refusal | count | frame⟩
  · rw [verdict] at both
    obtain ⟨rfl, -, answer⟩ := Decoder.Verdict.mk.inj verdict
    rw [both, decode, answer]
    rfl
  · rw [verdict] at both taken
    obtain rfl : rest = [] := taken
    have waits := Decoder.wanted_pos_of_ok (congrArg Decoder.Verdict.answer verdict)
    obtain ⟨rfl, -, answer⟩ := Decoder.Verdict.mk.inj verdict
    rw [both, decode, answer]
    exact ⟨waits, stream, supplies, rfl⟩
  · rw [verdict] at both taken
    obtain rfl : rest = [] := taken
    obtain ⟨rfl, -, answer⟩ := Decoder.Verdict.mk.inj verdict
    rw [both, decode, answer]
    exact ⟨rfl, rfl, supplies⟩

theorem chunkSize_pos (config : Config) : 0 < config.chunkSize :=
  Nat.lt_of_lt_of_le (by decide) (Nat.le_max_right config.readChunkSize FrameHeader.maxSize)

/-- Reading from the channel leaves the verdict on the rest of the stream to come, or ends
the read as it should. -/
theorem concludes_receive
    (waits : 0 < reading.decoder.wanted)
    (supplies : reading.inbound.Supplies stream)
    (config : Config) :
    (reading.receive config).Concludes (reading.decoder.verdict stream) := by
  have positive : 0 < min reading.decoder.wanted config.chunkSize :=
    Nat.lt_min.mpr ⟨waits, chunkSize_pos config⟩
  have takes := supplies.read positive
  unfold receive
  rcases brought : reading.inbound.read (min reading.decoder.wanted config.chunkSize) with
    ⟨error | octets, inbound⟩
  · rw [brought] at takes
    obtain ⟨interrupts, supplies⟩ := takes
    dsimp only
    rw [brought]
    dsimp only
    rw [if_pos interrupts]
    exact ⟨waits, stream, supplies, rfl⟩
  · rw [brought] at takes
    dsimp only
    rw [brought]
    obtain ⟨within, ⟨rfl, rfl⟩ | ⟨nonempty, rest, rfl, suppliesRest⟩⟩ := takes
    · rw [Decoder.verdict_nil waits]
      dsimp only
      split
      · rename_i inProgress
        exact congrArg Except.error (if_pos inProgress).symm
      · rename_i idle
        exact congrArg Except.error (if_neg idle).symm
    · have wanted : octets.length ≤ reading.decoder.wanted :=
        Nat.le_trans within (Nat.min_le_left _ _)
      cases octets with
      | nil => exact absurd rfl nonempty
      | cons octet octets => exact concludes_decode wanted suppliesRest

/-- A pass leaves the verdict on the rest of the stream to come, or ends the read as it
should. -/
theorem concludes_pass
    (config : Config)
    (limit : Option Duration)
    {verdict : Decoder.Verdict}
    (faces : reading.Faces verdict) :
    (reading.pass config limit).Concludes verdict := by
  obtain ⟨waits, stream, supplies, rfl⟩ := faces
  unfold pass
  split
  · exact concludes_receive waits supplies config
  · obtain ⟨sure, stillSupplies⟩ := supplies.poll
    dsimp only
    rw [sure]
    refine concludes_receive ?_ stillSupplies config
    exact waits

/-- A read comes to what feeding the rest of the stream at once comes to. -/
theorem concludes_run
    (config : Config)
    (limit : Option Duration)
    {verdict : Decoder.Verdict}
    (faces : reading.Faces verdict) :
    (reading.run config limit).Concludes verdict := by
  fun_induction run reading config limit with
  | case1 reading ended step =>
      have concludes := concludes_pass config limit faces
      rw [step] at concludes
      exact concludes
  | case2 reading next step shorter inductionHypothesis =>
      have concludes := concludes_pass config limit faces
      rw [step] at concludes
      exact inductionHypothesis concludes

end Reading
end WebSocket
