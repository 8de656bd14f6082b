import WebSocket.Endpoint.Read
import WebSocket.Proofs.Decoder.Chunking
import WebSocket.Proofs.Decoder.Refusals
import WebSocket.Proofs.Endpoint.Reading

/-!
# Reading one frame after another

Reads over a channel that supplies a stream hand over the frames that a decoder delivers
from the stream at once, then fail once as the stream ends, and never touch the channel
again. So neither the runs in which the stream arrives nor the size of a chunk shows.
-/

namespace WebSocket

/-- The error that reading a stream ends with. -/
def Decoder.Outcome.error (outcome : Decoder.Outcome) : Error :=
  match outcome.refusal with
  | some refusal => refusal.error
  | none =>
      if outcome.decoder.inProgress then .protocol .incompleteFrame else .connectionClosed

namespace Endpoint

/-- The answers to reads that are made one after the other, each with its own time limit
and readiness, and the endpoint behind them. -/
def readEach (endpoint : Endpoint) :
    List (Option Duration × Bool) → List (Except Error (Option Frame)) × Endpoint
  | [] => ([], endpoint)
  | (limit, ready) :: later =>
      let (report, next) := endpoint.read limit ready
      let (answers, last) := next.readEach later
      (report.answer :: answers, last)

/-- The answers to the given number of reads: the frames in order, the error, and from
then on that reading is over. -/
def answers (error : Error) : List Frame → Nat → List (Except Error (Option Frame))
  | _, 0 => []
  | frame :: frames, count + 1 => .ok (some frame) :: answers error frames count
  | [], count + 1 => .error error :: List.replicate count (.error .alreadyClosed)

/-! ## Failures -/

/-- A read behind a failure answers that reading is over and leaves everything alone. -/
theorem readEach_of_hasFailed
    {endpoint : Endpoint}
    (failed : endpoint.hasFailed = true)
    (arguments : List (Option Duration × Bool)) :
    endpoint.readEach arguments =
      (List.replicate arguments.length (.error .alreadyClosed), endpoint) := by
  induction arguments with
  | nil => rfl
  | cons argument arguments inductionHypothesis =>
      rw [readEach, read, if_pos failed]
      dsimp only
      rw [inductionHypothesis]
      rfl

@[simp] theorem decoder_afterRead (endpoint : Endpoint) (ended : Reading.Ended) :
    (endpoint.afterRead ended).decoder = ended.decoder := by
  unfold afterRead
  split <;> rfl

theorem afterRead_of_ok
    (endpoint : Endpoint)
    {ended : Reading.Ended}
    {frame? : Option Frame}
    (answered : ended.answer = .ok frame?) :
    endpoint.afterRead ended =
      { endpoint with
        decoder := ended.decoder
        channel := { endpoint.channel with inbound := ended.inbound } } := by
  rw [afterRead, answered]

theorem afterRead_of_error
    (endpoint : Endpoint)
    {ended : Reading.Ended}
    {failure : ReadFailure}
    (answered : ended.answer = .error failure) :
    endpoint.afterRead ended =
      { endpoint with
        decoder := ended.decoder
        channel := { endpoint.channel with inbound := ended.inbound }
        hasFailed := true
        closeCode? := failure.closeCode?.or endpoint.closeCode? } := by
  rw [afterRead, answered]

/-- The read that an endpoint begins. -/
def beginRead (endpoint : Endpoint) (ready : Bool) : Reading :=
  { decoder := endpoint.decoder, inbound := endpoint.channel.inbound, ready }

section Reads

variable
    {endpoint : Endpoint}
    {limit : Option Duration}
    {ready : Bool}

theorem read_of_not_hasFailed (reads : endpoint.hasFailed = false) :
    endpoint.read limit ready =
      let ended := (endpoint.beginRead ready).run endpoint.config limit
      ({ answer := ended.answer.mapError ReadFailure.error
         events := ended.events
         calls := ended.calls },
        endpoint.afterRead ended) := by
  rw [read, reads]
  rfl

/-- A read that fails answers its error and is the last one. -/
theorem readEach_of_failure
    {failure : ReadFailure}
    (reads : endpoint.hasFailed = false)
    (fails : ((endpoint.beginRead ready).run endpoint.config limit).answer = .error failure)
    (later : List (Option Duration × Bool)) :
    (endpoint.readEach ((limit, ready) :: later)).1 =
        answers failure.error [] (later.length + 1) ∧
      (endpoint.readEach ((limit, ready) :: later)).2.closeCode? =
        failure.closeCode?.or endpoint.closeCode? := by
  rw [readEach, read_of_not_hasFailed reads]
  dsimp only
  rw [afterRead_of_error endpoint fails, readEach_of_hasFailed rfl, fails]
  exact ⟨rfl, rfl⟩

/-- A read that delivers a frame is followed by the others. -/
theorem readEach_of_frame
    {frame : Frame}
    (reads : endpoint.hasFailed = false)
    (delivers : ((endpoint.beginRead ready).run endpoint.config limit).answer =
      .ok (some frame))
    (later : List (Option Duration × Bool)) :
    let ended := (endpoint.beginRead ready).run endpoint.config limit
    let next : Endpoint :=
      { endpoint with
        decoder := ended.decoder
        channel := { endpoint.channel with inbound := ended.inbound } }
    endpoint.readEach ((limit, ready) :: later) =
      (.ok (some frame) :: (next.readEach later).1, (next.readEach later).2) := by
  rw [readEach, read_of_not_hasFailed reads]
  dsimp only
  rw [afterRead_of_ok endpoint delivers, delivers]
  rfl

end Reads

/-! ## Reading a stream -/

/-- Whether an endpoint reads on, with the given stream still to come. -/
structure Faces (endpoint : Endpoint) (stream : List UInt8) : Prop where
  reads : endpoint.hasFailed = false
  unrecorded : endpoint.closeCode? = none
  waits : 0 < endpoint.decoder.wanted
  supplies : endpoint.channel.inbound.Supplies stream

/-- What reads come to: their answers, and the close code that they leave behind. -/
def ReadsComeTo
    (endpoint : Endpoint)
    (arguments : List (Option Duration × Bool))
    (frames : List Frame)
    (error : Error) : Prop :=
  (endpoint.readEach arguments).1 = answers error frames arguments.length ∧
    (endpoint.readEach arguments).2.closeCode? =
      if frames.length < arguments.length then error.closeCode? else none

theorem readsComeTo_of_failure
    {endpoint : Endpoint}
    {limit : Option Duration}
    {ready : Bool}
    {failure : ReadFailure}
    (reads : endpoint.hasFailed = false)
    (unrecorded : endpoint.closeCode? = none)
    (fails : ((endpoint.beginRead ready).run endpoint.config limit).answer = .error failure)
    (recorded : failure.closeCode? = failure.error.closeCode?)
    (later : List (Option Duration × Bool)) :
    endpoint.ReadsComeTo ((limit, ready) :: later) [] failure.error := by
  obtain ⟨answered, closed⟩ := readEach_of_failure reads fails later
  refine ⟨answered, ?_⟩
  rw [closed, unrecorded, Option.or_none, recorded]
  exact (if_pos (Nat.succ_pos later.length)).symm

theorem readsComeTo_of_frame
    {endpoint : Endpoint}
    {limit : Option Duration}
    {ready : Bool}
    {frame : Frame}
    {later : List (Option Duration × Bool)}
    {frames : List Frame}
    {error : Error}
    (reads : endpoint.hasFailed = false)
    (delivers : ((endpoint.beginRead ready).run endpoint.config limit).answer =
      .ok (some frame))
    (others :
      let ended := (endpoint.beginRead ready).run endpoint.config limit
      let next : Endpoint :=
        { endpoint with
          decoder := ended.decoder
          channel := { endpoint.channel with inbound := ended.inbound } }
      next.ReadsComeTo later frames error) :
    endpoint.ReadsComeTo ((limit, ready) :: later) (frame :: frames) error := by
  obtain ⟨answered, closed⟩ := others
  rw [ReadsComeTo, readEach_of_frame reads delivers later]
  refine ⟨congrArg (_ :: ·) answered, ?_⟩
  rw [List.length_cons, List.length_cons]
  simp only [Nat.succ_lt_succ_iff]
  exact closed

theorem closeCode?_of_callsForClose
    {refusal : Refusal}
    (calls : refusal.CallsForClose) :
    ReadFailure.closeCode? { error := refusal.error, midFrame := true } =
      refusal.error.closeCode? := by
  obtain ⟨code, closes⟩ := Option.isSome_iff_exists.mp calls
  rw [ReadFailure.closeCode?, closes]

theorem closeCode?_endOfStream (decoder : Decoder) :
    (Reading.endOfStream decoder).closeCode? =
      (Reading.endOfStream decoder).error.closeCode? := by
  unfold Reading.endOfStream
  split
  · rfl
  · rfl

theorem error_endOfStream (decoder : Decoder) (deliveries : List (Nat × Frame)) :
    (Reading.endOfStream decoder).error =
      Decoder.Outcome.error ⟨deliveries, none, decoder⟩ := by
  unfold Reading.endOfStream Decoder.Outcome.error
  dsimp only
  split
  · rfl
  · rfl

/-- Reads over a stream come to what decoding it at once comes to. -/
theorem readsComeTo_decodeFrom
    {endpoint : Endpoint}
    {stream : List UInt8}
    (faces : endpoint.Faces stream)
    (offset : Nat)
    (arguments : List (Option Duration × Bool)) :
    endpoint.ReadsComeTo arguments
      ((endpoint.decoder.decodeFrom offset stream).deliveries.map Prod.snd)
      (endpoint.decoder.decodeFrom offset stream).error := by
  induction arguments generalizing endpoint stream offset with
  | nil =>
      refine ⟨?_, faces.unrecorded.trans (if_neg (Nat.not_lt_zero _)).symm⟩
      rw [List.length_nil, answers]
      rfl
  | cons argument later inductionHypothesis =>
      obtain ⟨limit, ready⟩ := argument
      obtain ⟨reads, unrecorded, waits, supplies⟩ := faces
      have concludes :
          ((endpoint.beginRead ready).run endpoint.config limit).Concludes
            (endpoint.decoder.verdict stream) :=
        Reading.concludes_run endpoint.config limit ⟨waits, stream, supplies, rfl⟩
      rcases verdict : endpoint.decoder.verdict stream with
        ⟨next, rest, refusal | count | frame⟩
      · rw [verdict] at concludes
        rw [Decoder.decodeFrom_of_refused offset verdict]
        have calls :=
          Decoder.callsForClose_of_refused (congrArg Decoder.Verdict.answer verdict)
        exact readsComeTo_of_failure reads unrecorded concludes
          (closeCode?_of_callsForClose calls) later
      · rw [verdict] at concludes
        rw [Decoder.decodeFrom_of_needMore offset verdict, ← error_endOfStream]
        exact readsComeTo_of_failure reads unrecorded concludes
          (closeCode?_endOfStream next) later
      · rw [verdict] at concludes
        obtain ⟨delivers, reached, suppliesRest⟩ := concludes
        have waitsStill :=
          Decoder.wanted_pos_of_ok (congrArg Decoder.Verdict.answer verdict)
        rw [verdict] at waitsStill
        obtain rfl :
            ((endpoint.beginRead ready).run endpoint.config limit).decoder = next :=
          reached
        rw [Decoder.decodeFrom_of_ready offset verdict]
        refine readsComeTo_of_frame reads delivers (inductionHypothesis ?_ _)
        exact ⟨reads, unrecorded, waitsStill, suppliesRest⟩

/-! ## Independence of the channel -/

/-- Only a stream that ends between frames ends without a close code. -/
theorem closeCode?_error_decodeFrom
    (decoder : Decoder)
    (offset : Nat)
    (stream : List UInt8) :
    (decoder.decodeFrom offset stream).error.closeCode? = none ↔
      (decoder.decodeFrom offset stream).error = .connectionClosed := by
  induction decoder, offset, stream using Decoder.decode_induction with
  | refused decoder offset stream next rest refusal fed =>
      rw [Decoder.decodeFrom_of_refused offset fed]
      have calls : refusal.CallsForClose :=
        Decoder.callsForClose_of_refused (congrArg Decoder.Verdict.answer fed)
      obtain ⟨code, closes⟩ := Option.isSome_iff_exists.mp calls
      change refusal.error.closeCode? = none ↔ refusal.error = .connectionClosed
      rw [closes]
      constructor
      · intro none
        cases none
      · intro closed
        rw [closed] at closes
        cases closes
  | needMore decoder offset stream next rest count fed =>
      rw [Decoder.decodeFrom_of_needMore offset fed]
      unfold Decoder.Outcome.error
      dsimp only
      split
      · exact ⟨nofun, nofun⟩
      · exact ⟨fun _ => rfl, fun _ => rfl⟩
  | ready decoder offset stream next rest frame fed inductionHypothesis =>
      rw [Decoder.decodeFrom_of_ready offset fed]
      exact inductionHypothesis

theorem readsComeTo_new
    (role : Role)
    (config : Config)
    (channel : Channel)
    (keys : KeySupply)
    (memory : Memory)
    {stream : List UInt8}
    (supplies : channel.inbound.Supplies stream)
    (arguments : List (Option Duration × Bool)) :
    (new role config channel keys memory).ReadsComeTo arguments
      (((Decoder.new role config.maxPayloadLength memory).decodeFrom 0
        stream).deliveries.map Prod.snd)
      ((Decoder.new role config.maxPayloadLength memory).decodeFrom 0 stream).error := by
  have faces : (new role config channel keys memory).Faces stream :=
    ⟨rfl, rfl, Nat.one_pos, supplies⟩
  exact readsComeTo_decodeFrom faces 0 arguments

/-- Reads over any channel that supplies a stream hand over the frames that a new decoder
delivers from the stream at once, and then the error that the stream ends with. The close
code of that error is left behind, which is none exactly if the stream ends between frames.
No other channel that supplies the stream, and no other size of a chunk, gives other
answers. -/
theorem readEach_of_supplies
    (role : Role)
    (config : Config)
    (channel : Channel)
    (keys : KeySupply)
    (memory : Memory)
    {stream : List UInt8}
    (supplies : channel.inbound.Supplies stream)
    (arguments : List (Option Duration × Bool)) :
    let decoded := (Decoder.new role config.maxPayloadLength memory).decodePieces [stream]
    let frames := decoded.deliveries.map Prod.snd
    let error := decoded.outcome.error
    let (results, endpoint) := (new role config channel keys memory).readEach arguments
    results = answers error frames arguments.length ∧
      endpoint.closeCode? =
        (if frames.length < arguments.length then error.closeCode? else none) ∧
      (error.closeCode? = none ↔ error = .connectionClosed) ∧
      ∀ config' channel' keys' arguments',
        config'.maxPayloadLength = config.maxPayloadLength →
        channel'.inbound.Supplies stream →
        arguments'.length = arguments.length →
        ((new role config' channel' keys' memory).readEach arguments').1 = results := by
  have atOnce := Decoder.outcome_decodePieces role config.maxPayloadLength memory [stream]
  rw [List.flatten_cons, List.flatten_nil, List.append_nil] at atOnce
  have comes := readsComeTo_new role config channel keys memory supplies arguments
  have closes := closeCode?_error_decodeFrom
    (Decoder.new role config.maxPayloadLength memory) 0 stream
  have told : ((Decoder.new role config.maxPayloadLength memory).decodePieces
      [stream]).deliveries = _ := congrArg Decoder.Outcome.deliveries atOnce
  dsimp only
  rw [atOnce, told]
  refine ⟨comes.1, comes.2, closes, ?_⟩
  intro config' channel' keys' arguments' sameLimit supplies' sameCount
  have comes' := readsComeTo_new role config' channel' keys' memory supplies' arguments'
  rw [sameLimit] at comes'
  rw [comes'.1, comes.1, sameCount]

/-- A message in two fragments around a ping, which arrives in three runs around an
interruption and is read in chunks of the least size. -/
theorem readEach_fragments_around_ping :
    let inbound : Inbound :=
      { arrivals := [.octets [0x01, 0x01, 0x61, 0x89], .fault ⟨.interrupted, "again"⟩,
          .octets [0x00, 0x80, 0x01], .octets [0x62], .hangUp]
        readiness := .queued }
    let stream : List UInt8 := [0x01, 0x01, 0x61, 0x89, 0x00, 0x80, 0x01, 0x62]
    let decoded := (Decoder.new .client 2).decodePieces [stream]
    let frames := decoded.deliveries.map Prod.snd
    let error := decoded.outcome.error
    let reads := (new .client { maxPayloadLength := 2, readChunkSize := 0 } { inbound }
      (.ofArray #[] default)).readEach
        [(none, false), (some (.ofSeconds 1), true), (none, true)]
    inbound.Supplies stream ∧
      reads.1 = answers error frames 3 ∧
      reads.2.closeCode? = if frames.length < 3 then error.closeCode? else none := by
  intro inbound stream decoded frames error reads
  have supplies : inbound.Supplies stream :=
    { bring :=
        .octets nofun (.interruption rfl (.octets nofun (.octets nofun (.hangUp []))))
      holds := .inr (by decide) }
  have comes := readEach_of_supplies .client { maxPayloadLength := 2, readChunkSize := 0 }
    { inbound } (.ofArray #[] default) .standard supplies
    [(none, false), (some (.ofSeconds 1), true), (none, true)]
  exact ⟨supplies, comes.1, comes.2.1⟩

end Endpoint
end WebSocket
