import WebSocket.Proofs.Decoder.Ranges
import WebSocket.Proofs.Endpoint.Sides

/-!
# The ranges of an endpoint

Whatever the user of an endpoint asks for and whatever its channel does, the decoder of the
endpoint stays in range. So a read takes no more than the chunk that it reads into holds, and
no operation computes anything that goes out of range, whether reading has failed or not.
-/

namespace WebSocket

/-! ## Reading with checks -/

namespace Reading

/-- Feed the decoder with octets that were read, with every operation checked. -/
def checkedDecode (reading : Reading) (octets : List UInt8) : Option Step := do
  let fed ← reading.decoder.checkedFeed octets
  let reading :=
    { reading with
      decoder := fed.decoder
      events := reading.events ++ fed.events }
  match fed.answer with
  | .ok (.ready frame) => some (reading.finish (.ok (some frame)))
  | .ok (.needMore _) => some (.again reading)
  | .error refusal =>
      some (reading.finish (.error { error := refusal.error, midFrame := true }))

/-- Read as much as is wanted, with every operation checked. What is asked for has to fit the
chunk, and what is brought has to fit what is asked for. -/
def checkedReceive (reading : Reading) (config : Config) : Option Step := do
  let inProgress := reading.decoder.inProgress
  let wanted ← reading.decoder.checkedWanted
  let size ← Checked.position config.chunkSize (min wanted config.chunkSize)
  let (answer, inbound) := reading.inbound.read size
  let reading :=
    { reading with
      inbound
      ready := false
      calls := reading.calls.push (.read size answer) }
  match answer with
  | .ok [] =>
      if inProgress then
        some (reading.fail (.refused .truncated) Refusal.truncated.error true)
      else some (reading.fail .closedByPeer .connectionClosed false)
  | .ok octets =>
      let _ ← Checked.position size octets.length
      reading.checkedDecode octets
  | .error error =>
      if error.isInterruption then some (.again reading)
      else some (reading.fail (.readFailed error) (.io error) inProgress)

/-- One pass, with every operation checked. -/
def checkedPass
    (reading : Reading)
    (config : Config)
    (limit : Option Duration) : Option Step :=
  if reading.ready then reading.checkedReceive config
  else
    let inProgress := reading.decoder.inProgress
    let wait := if inProgress then some config.frameTimeout else limit
    let (answer, inbound) := reading.inbound.poll
    let reading :=
      { reading with
        inbound
        calls := reading.calls.push (.poll wait answer) }
    match answer with
    | .ok true => reading.checkedReceive config
    | .ok false =>
        if inProgress then
          some (reading.fail (.refused .stalled) Refusal.stalled.error true)
        else
          some (finish
            { reading with events := reading.events.push (.nothingReceived limit) }
            (.ok none))
    | .error error => some (reading.fail (.pollFailed error) (.io error) inProgress)

/-- What a pass leads to: the end of the read, or the next pass. -/
def Step.next : Step → Ended ⊕ Reading
  | .finished ended => .inl ended
  | .again reading => .inr reading

/-- Make passes until one of them ends the read, with every operation checked. -/
def checkedRun
    (reading : Reading)
    (config : Config)
    (limit : Option Duration) : Option Ended :=
  Checked.loop (fun reading : Reading => reading.inbound.backlog)
    (fun reading => (reading.checkedPass config limit).map Step.next) reading

/-- Whether the decoder that a pass leads to is in range. -/
def Step.InRange : Step → Prop
  | .finished ended => ended.decoder.InRange
  | .again reading => reading.decoder.InRange

variable {reading : Reading}

theorem inRange_decode (inRange : reading.decoder.InRange) (octets : List UInt8) :
    (reading.decode octets).InRange := by
  have fed := inRange.feed octets
  unfold decode
  dsimp only
  split
  · exact fed
  · exact fed
  · exact fed

theorem inRange_receive (inRange : reading.decoder.InRange) (config : Config) :
    (reading.receive config).InRange := by
  unfold receive
  dsimp only
  split
  · split
    · exact inRange
    · exact inRange
  · apply inRange_decode
    exact inRange
  · split
    · exact inRange
    · exact inRange

theorem inRange_pass
    (inRange : reading.decoder.InRange)
    (config : Config)
    (limit : Option Duration) :
    (reading.pass config limit).InRange := by
  unfold pass
  split
  · exact inRange_receive inRange config
  · dsimp only
    split
    · apply inRange_receive
      exact inRange
    · split
      · exact inRange
      · exact inRange
    · exact inRange

/-- A read leaves the decoder in range. -/
theorem inRange_run
    (inRange : reading.decoder.InRange)
    (config : Config)
    (limit : Option Duration) :
    (reading.run config limit).decoder.InRange := by
  fun_induction run reading config limit with
  | case1 reading ended step =>
      have reached := inRange_pass inRange config limit
      rwa [step] at reached
  | case2 reading next step shorter inductionHypothesis =>
      have reached := inRange_pass inRange config limit
      rw [step] at reached
      exact inductionHypothesis reached

theorem checkedDecode_eq_some
    (inRange : reading.decoder.InRange)
    {octets : List UInt8}
    (small : octets.length < 2 ^ 63) :
    reading.checkedDecode octets = some (reading.decode octets) := by
  simp only [checkedDecode, inRange.checkedFeed small, Option.bind_eq_bind, Option.bind_some]
  rw [decode]
  rcases (reading.decoder.feed octets).answer with refusal | count | frame
  · rfl
  · rfl
  · rfl

/-- What is asked for fits the chunk, and what is brought fits what is asked for. -/
theorem checkedReceive_eq_some (inRange : reading.decoder.InRange) (config : Config) :
    reading.checkedReceive config = some (reading.receive config) := by
  have within : min reading.decoder.wanted config.chunkSize ≤ config.chunkSize :=
    Nat.min_le_right _ _
  have few : min reading.decoder.wanted config.chunkSize < 2 ^ 63 :=
    Nat.lt_of_le_of_lt (Nat.min_le_left _ _) inRange.wanted_lt
  have brings := reading.inbound.length_brought_read_le
    (min reading.decoder.wanted config.chunkSize)
  simp only [checkedReceive, inRange.checkedWanted, Option.bind_eq_bind, Option.bind_some,
    Checked.position_eq_some within]
  rw [receive]
  generalize min reading.decoder.wanted config.chunkSize = size at *
  dsimp only
  rcases brought : reading.inbound.read size with ⟨error | octets, inbound⟩
  · dsimp only
    split <;> rfl
  · rw [brought] at brings
    cases octets with
    | nil =>
        dsimp only
        split <;> rfl
    | cons octet octets =>
        have fits : (octet :: octets).length ≤ size := brings
        dsimp only
        rw [Checked.position_eq_some fits, Option.bind_some]
        apply checkedDecode_eq_some
        · exact inRange
        · exact Nat.lt_of_le_of_lt fits few

theorem checkedPass_eq_some
    (inRange : reading.decoder.InRange)
    (config : Config)
    (limit : Option Duration) :
    reading.checkedPass config limit = some (reading.pass config limit) := by
  unfold checkedPass pass
  split
  · exact checkedReceive_eq_some inRange config
  · rcases reading.inbound.poll with ⟨error | _ | _, inbound⟩
    · rfl
    · dsimp only
      split <;> rfl
    · apply checkedReceive_eq_some
      exact inRange

/-- A read from a decoder in range stays in range. -/
theorem checkedRun_eq_some
    (inRange : reading.decoder.InRange)
    (config : Config)
    (limit : Option Duration) :
    reading.checkedRun config limit = some (reading.run config limit) := by
  refine Checked.loop_eq_some (fun reading : Reading => reading.run config limit)
    (fun reading : Reading => reading.decoder.InRange) ?_ inRange
  intro reading inRange
  have reached := inRange_pass inRange config limit
  have lowers := reading.lowers_pass config limit
  rw [checkedPass_eq_some inRange]
  cases step : reading.pass config limit with
  | finished ended =>
      rw [run_of_finished step]
      exact .inl rfl
  | again next =>
      rw [step] at reached lowers
      rw [run_of_again step]
      exact .inr ⟨next, rfl, lowers, reached, rfl⟩

end Reading

/-! ## Writing with checks -/

namespace Outbound

/-- Octets that are being offered until all of them are accepted. -/
structure Offering where
  outbound : Outbound
  /-- The octets that have not been accepted yet. -/
  left : List UInt8
  /-- The offers that were made, each with its answer. -/
  offers : Array (List UInt8 × Except IoError Nat)

/-- Offer what is left, with every operation checked. -/
def checkedOffer (offering : Offering) : Option (Written ⊕ Offering) :=
  let { outbound, left, offers } := offering
  if left.isEmpty then some (.inl { outbound, answer := .ok (), offers })
  else
    match outbound.write left with
    | (.ok 0, next) =>
        some (.inl
          { outbound := next
            answer := .error .frameCutShort
            offers := offers.push (left, .ok 0) })
    | (.ok (count + 1), next) => do
        let rest ← Checked.slice left (count + 1) left.length
        some (.inr
          { outbound := next
            left := rest
            offers := offers.push (left, .ok (count + 1)) })
    | (.error error, next) =>
        if error.isInterruption then
          some (.inr { outbound := next, left, offers := offers.push (left, .error error) })
        else
          some (.inl
            { outbound := next
              answer := .error error
              offers := offers.push (left, .error error) })

/-- Offer octets until all of them are accepted, with every operation checked. -/
def checkedWriteAll (outbound : Outbound) (octets : List UInt8) : Option Written :=
  Checked.loop
    (fun offering : Offering => offering.outbound.answers.length + offering.left.length)
    checkedOffer { outbound, left := octets, offers := #[] }

/-- No more is accepted than is offered, so what is left lies within it. -/
theorem checkedWriteAll_eq_some (outbound : Outbound) (octets : List UInt8) :
    outbound.checkedWriteAll octets = some (outbound.writeAll octets) := by
  refine Checked.loop_eq_some
    (fun offering : Offering => offering.outbound.writeAllFrom offering.left offering.offers)
    (fun _ => True) ?_ trivial
  rintro ⟨outbound, octets, offers⟩ -
  dsimp only
  fun_cases writeAllFrom outbound octets offers with
  | case1 none_left =>
      left
      rw [checkedOffer]
      exact if_pos none_left
  | case2 some_left next written =>
      left
      simp only [checkedOffer, if_neg some_left, written]
  | case3 some_left count next written within fewer =>
      right
      simp only [checkedOffer, if_neg some_left, written, Checked.slice_back_eq_some within,
        Option.bind_eq_bind, Option.bind_some]
      refine ⟨_, rfl, ?_, trivial, rfl⟩
      dsimp only
      rw [List.length_drop]
      omega
  | case4 some_left error next written interrupts fewer =>
      right
      simp only [checkedOffer, if_neg some_left, written, if_pos interrupts]
      exact ⟨_, rfl, Nat.add_lt_add_right fewer _, trivial, rfl⟩
  | case5 some_left error next written fails =>
      left
      simp only [checkedOffer, if_neg some_left, written]
      exact if_neg fails

end Outbound

/-- Offer octets until all of them are accepted, with every operation checked. -/
def Channel.checkedWriteAll (channel : Channel) (octets : List UInt8) : Option (Done Unit) := do
  let written ← channel.outbound.checkedWriteAll octets
  some
    { channel := { channel with outbound := written.outbound }
      answer := written.answer
      calls := written.offers.map fun (offered, answer) => .write offered answer }

theorem Channel.checkedWriteAll_eq_some (channel : Channel) (octets : List UInt8) :
    channel.checkedWriteAll octets = some (channel.writeAll octets) := by
  rw [checkedWriteAll, Outbound.checkedWriteAll_eq_some]
  rfl

namespace Endpoint

/-- Write octets to the channel, with every operation checked. -/
def checkedTransmit
    (endpoint : Endpoint)
    (octets : List UInt8) : Option (Report Unit × Endpoint) := do
  let done ← endpoint.channel.checkedWriteAll octets
  some
    ({ answer := done.answer.mapError .io, calls := done.calls },
      { endpoint with channel := done.channel })

/-- Write the frame of a server, with every operation checked. -/
def checkedTransmitPlain
    (endpoint : Endpoint)
    (opcode : Opcode)
    (payload : List UInt8) : Option (Report Unit × Endpoint) := do
  let header : FrameHeader := { opcode }
  let octets ← header.checkedEncode payload.length
  let (head, endpoint) ← endpoint.checkedTransmit octets
  match head.answer with
  | .error _ => some (head, endpoint)
  | .ok () =>
      let (body, endpoint) ← endpoint.checkedTransmit payload
      some ({ body with calls := head.calls ++ body.calls }, endpoint)

/-- Write the frame of a client, with every operation checked. The payload is masked where it
stands behind the header. -/
def checkedTransmitMasked
    (endpoint : Endpoint)
    (opcode : Opcode)
    (payload : List UInt8) : Option (Report Unit × Endpoint) := do
  let (key, keys) := endpoint.keys.draw
  let header : FrameHeader := { opcode, mask := some key }
  let size ← header.checkedSize payload.length
  let _ ← Checked.add size payload.length
  let head ← header.checkedEncode payload.length
  let whole := head ++ payload
  let before ← Checked.slice whole 0 head.length
  let behind ← Checked.slice whole head.length whole.length
  { endpoint with keys }.checkedTransmit (before ++ key.mask behind)

/-- Write a message, or a control frame, with every operation checked. -/
def checkedWrite
    (endpoint : Endpoint)
    (opcode : Opcode)
    (payload : List UInt8) : Option (Report Unit × Endpoint) :=
  if opcode.isAssigned then do
    let header : FrameHeader := { opcode }
    let length ← Checked.narrow 64 payload.length
    let size ← header.checkedSize length
    let (report, endpoint) ←
      match endpoint.role with
      | .server => endpoint.checkedTransmitPlain opcode payload
      | .client => endpoint.checkedTransmitMasked opcode payload
    some ({ report with events := #[.sending opcode length size] }, endpoint)
  else
    let refusal := Refusal.unsendableOpcode opcode.toByte
    some ({ answer := .error refusal.error, events := #[.refused refusal] }, endpoint)

/-- Write a close frame, with every operation checked. -/
def checkedClose (endpoint : Endpoint) (code : CloseCode) : Option (Report Unit × Endpoint) :=
  let value := code.toUInt16
  if code.isSendable then
    endpoint.checkedWrite (.control .close) (BigEndian.encode 2 value.toNat)
  else
    let refusal := Refusal.unsendableCloseCode value
    some ({ answer := .error refusal.error, events := #[.refused refusal] }, endpoint)

/-- Read the next message or control frame, with every operation checked. -/
def checkedRead
    (endpoint : Endpoint)
    (limit : Option Duration)
    (ready : Bool) : Option (Report (Option Frame) × Endpoint) :=
  if endpoint.hasFailed then
    some ({ answer := .error .alreadyClosed, events := #[.readAfterFailure] }, endpoint)
  else do
    let reading : Reading :=
      { decoder := endpoint.decoder, inbound := endpoint.channel.inbound, ready }
    let ended ← reading.checkedRun endpoint.config limit
    some
      ({ answer := ended.answer.mapError ReadFailure.error
         events := ended.events
         calls := ended.calls },
        endpoint.afterRead ended)

/-- Do what is requested, with every operation checked. -/
def checkedServe (endpoint : Endpoint) : Request → Option (Reply × Endpoint)
  | .read limit ready => do
      let (report, next) ← endpoint.checkedRead limit ready
      some (.read report, next)
  | .submit (.write opcode payload) => do
      let (report, next) ← endpoint.checkedWrite opcode payload
      some (.submit report, next)
  | .submit (.close code) => do
      let (report, next) ← endpoint.checkedClose code
      some (.submit report, next)

/-- Whether a request has a payload of fewer than `2 ^ 63` octets, if it has one. -/
def Request.IsCounted : Request → Prop
  | .submit (.write _ payload) => payload.length < 2 ^ 63
  | _ => True

section Writes

variable
    (endpoint : Endpoint)
    (opcode : Opcode)
    {payload : List UInt8}

theorem checkedTransmit_eq_some (octets : List UInt8) :
    endpoint.checkedTransmit octets = some (endpoint.transmit octets) := by
  rw [checkedTransmit, Channel.checkedWriteAll_eq_some]
  rfl

theorem checkedTransmitPlain_eq_some (small : payload.length < 2 ^ 63) :
    endpoint.checkedTransmitPlain opcode payload =
      some (endpoint.transmitPlain opcode payload) := by
  have word : payload.length < 2 ^ 64 := Nat.lt_trans small (by decide)
  simp only [checkedTransmitPlain, FrameHeader.checkedEncode_eq_some _ word,
    checkedTransmit_eq_some, Option.bind_eq_bind, Option.bind_some]
  rw [transmitPlain]
  dsimp only
  cases (endpoint.transmit (({ opcode } : FrameHeader).encode payload.length)).1.answer with
  | error error => rfl
  | ok done => rfl

theorem checkedTransmitMasked_eq_some (small : payload.length < 2 ^ 63) :
    endpoint.checkedTransmitMasked opcode payload =
      some (endpoint.transmitMasked opcode payload) := by
  rw [checkedTransmitMasked, transmitMasked]
  rcases endpoint.keys.draw with ⟨key, keys⟩
  dsimp only
  generalize ({ opcode, mask := some key } : FrameHeader) = header
  have word : payload.length < 2 ^ 64 := Nat.lt_trans small (by decide)
  have most : header.size payload.length ≤ 14 := header.size_le_maxSize payload.length
  have sum : header.size payload.length + payload.length < 2 ^ 64 := by omega
  have within : (header.encode payload.length).length ≤
      (header.encode payload.length ++ payload).length := by
    rw [List.length_append]
    exact Nat.le_add_right _ _
  simp only [FrameHeader.checkedSize_eq_some, FrameHeader.checkedEncode_eq_some _ word,
    Checked.add_eq_some sum, Checked.slice_front_eq_some within,
    Checked.slice_back_eq_some within, List.take_left, List.drop_left,
    checkedTransmit_eq_some, Option.bind_eq_bind, Option.bind_some]

theorem checkedWrite_eq_some (small : payload.length < 2 ^ 63) :
    endpoint.checkedWrite opcode payload = some (endpoint.write opcode payload) := by
  have word : payload.length < 2 ^ 64 := Nat.lt_trans small (by decide)
  unfold checkedWrite write
  split
  · simp only [Checked.narrow_eq_some word, FrameHeader.checkedSize_eq_some,
      Option.bind_eq_bind, Option.bind_some]
    cases endpoint.role with
    | server =>
        dsimp only
        rw [checkedTransmitPlain_eq_some endpoint opcode small]
        rfl
    | client =>
        dsimp only
        rw [checkedTransmitMasked_eq_some endpoint opcode small]
        rfl
  · rfl

theorem checkedClose_eq_some (code : CloseCode) :
    endpoint.checkedClose code = some (endpoint.close code) := by
  unfold checkedClose close
  dsimp only
  split
  · apply checkedWrite_eq_some
    rw [BigEndian.length_encode]
    decide
  · rfl

end Writes

/-! ## States that are reached -/

theorem checkedRead_eq_some
    {endpoint : Endpoint}
    (inRange : endpoint.decoder.InRange)
    (limit : Option Duration)
    (ready : Bool) :
    endpoint.checkedRead limit ready = some (endpoint.read limit ready) := by
  unfold checkedRead read
  split
  · rfl
  · dsimp only
    rw [Reading.checkedRun_eq_some]
    · rfl
    · exact inRange

/-- An endpoint whose decoder is in range stays in range. -/
theorem checkedServe_eq_some
    {endpoint : Endpoint}
    (inRange : endpoint.decoder.InRange)
    {request : Request}
    (counted : request.IsCounted) :
    endpoint.checkedServe request = some (endpoint.serve request) := by
  cases request with
  | read limit ready =>
      rw [checkedServe, checkedRead_eq_some inRange]
      rfl
  | submit submission =>
      cases submission with
      | write opcode payload =>
          rw [checkedServe, checkedWrite_eq_some endpoint opcode counted]
          rfl
      | close code =>
          rw [checkedServe, checkedClose_eq_some]
          rfl

theorem inRange_read
    {endpoint : Endpoint}
    (inRange : endpoint.decoder.InRange)
    (limit : Option Duration)
    (ready : Bool) :
    (endpoint.read limit ready).2.decoder.InRange := by
  unfold read
  split
  · exact inRange
  · dsimp only
    rw [decoder_afterRead]
    apply Reading.inRange_run
    exact inRange

theorem inRange_readAllFrom
    {endpoint : Endpoint}
    (inRange : endpoint.decoder.InRange)
    (limit : Option Duration)
    (ready : Bool)
    (reports : Array (Report (Option Frame))) :
    (endpoint.readAllFrom limit ready reports).2.decoder.InRange := by
  induction endpoint, reports using readAllFrom.induct limit ready with
  | case1 endpoint reports report next result frame delivered _ inductionHypothesis =>
      have reached := inRange_read inRange limit ready
      rw [result] at reached
      rw [readAllFrom_of_frame result delivered]
      exact inductionHypothesis reached
  | case2 endpoint reports report next result nothing =>
      have reached := inRange_read inRange limit ready
      rw [result] at reached
      rw [readAllFrom_of_end result nothing]
      exact reached

theorem inRange_carryOut
    {endpoint : Endpoint}
    (inRange : endpoint.decoder.InRange)
    (command : Command) :
    (Session.carryOut endpoint command).2.2.2.decoder.InRange := by
  cases command with
  | read limit ready => exact inRange_read inRange limit ready
  | readAll limit ready => exact inRange_readAllFrom inRange limit ready #[]
  | write opcode payload =>
      have keeps := (endpoint.keepsReading_write opcode payload).decoder
      exact keeps ▸ inRange
  | close code =>
      have keeps := (endpoint.keepsReading_close code).decoder
      exact keeps ▸ inRange
  | deliver arrivals readiness acceptances => exact inRange
  | setThreshold threshold => exact inRange

/-- No command leads a decoder out of its range. -/
theorem inRange_runEach
    {endpoint : Endpoint}
    (inRange : endpoint.decoder.InRange)
    (commands : List Command) :
    (endpoint.runEach commands).endpoint.decoder.InRange := by
  induction commands generalizing endpoint with
  | nil => exact inRange
  | cons command later inductionHypothesis =>
      exact inductionHypothesis (inRange_carryOut inRange command)

/-- Nothing that is computed goes out of range. Whatever has been done to a header parser, a
decoder or an endpoint before, errors included, every call of it has the result that it has
with each operation checked: sums are counted with 64 bits, differences are not negative,
positions and slices lie within what they are taken of, and no narrower number loses a bit.
A parser never holds more than the eight octets that it has room for, and the size that stands
for those that cannot be counted is never reported. -/
theorem checked_eq_some_of_reached :
    (∀ role operations,
      let parser := ((HeaderParser.new role).operateEach operations).2
      parser.FitsStaging ∧ parser.checkedWanted = some parser.wanted ∧
        ∀ input : List UInt8, input.length < 2 ^ 63 →
          parser.checkedFeed input = some (parser.feed input)) ∧
      (∀ role limit memory inputs,
        let decoder := ((Decoder.new role limit memory).feedEach inputs).2
        decoder.parser.FitsStaging ∧ decoder.checkedWanted = some decoder.wanted ∧
          ∀ input : List UInt8, input.length < 2 ^ 63 →
            decoder.checkedFeed input = some (decoder.feed input) ∧
              ∀ refusal size, (decoder.feed input).answer = .error refusal →
                refusal.size? = some size → size < PendingMessage.largestSize) ∧
      (∀ (header : FrameHeader) length, length < 2 ^ 64 →
        header.checkedEncode length = some (header.encode length)) ∧
      ∀ role config channel keys memory commands,
        let endpoint := ((new role config channel keys memory).runEach commands).endpoint
        endpoint.decoder.parser.FitsStaging ∧
          ∀ request : Request, request.IsCounted →
            endpoint.checkedServe request = some (endpoint.serve request) := by
  refine ⟨?_, ?_, ?_, ?_⟩
  · intro role operations parser
    have inRange : parser.InRange := (HeaderParser.inRange_new role).operateEach operations
    refine ⟨inRange.fitsStaging, inRange.checkedWanted, ?_⟩
    intro input small
    exact inRange.checkedFeed small
  · intro role limit memory inputs decoder
    have inRange : decoder.InRange := (Decoder.inRange_new role limit memory).feedEach inputs
    refine ⟨inRange.parser.fitsStaging, inRange.checkedWanted, ?_⟩
    intro input small
    refine ⟨inRange.checkedFeed small, ?_⟩
    intro refusal size refused reports
    exact inRange.size_lt_of_refused refused reports
  · intro header length small
    exact header.checkedEncode_eq_some small
  · intro role config channel keys memory commands endpoint
    have inRange : endpoint.decoder.InRange :=
      inRange_runEach (Decoder.inRange_new role config.maxPayloadLength memory) commands
    refine ⟨inRange.parser.fitsStaging, ?_⟩
    intro request counted
    exact checkedServe_eq_some inRange counted

/-- A parser that has refused a frame without a mask, a decoder that has refused a message of
four octets and an endpoint that has read it are all still in range. -/
theorem checked_eq_some_behind_refusals :
    let parser := ((HeaderParser.new .server).operateEach [.feed [0x89, 0x00]]).2
    let decoder := ((Decoder.new .client 3 .standard).feedEach [[0x81, 0x04]]).2
    let header : FrameHeader := { opcode := .data .text }
    let endpoint :=
      ((new .client { maxPayloadLength := 3 } { inbound := { arrivals := [.octets [0x81, 0x04]] } }
        (.ofArray #[] default) .standard).runEach [.read none false]).endpoint
    let request : Request := .submit (.write (.data .text) [0x61])
    parser.checkedFeed [0x80] = some (parser.feed [0x80]) ∧
      decoder.checkedFeed [0x61] = some (decoder.feed [0x61]) ∧
      (decoder.feed [0x61]).answer = .error (.messageTooLong 4 3) ∧
      4 < PendingMessage.largestSize ∧
      header.checkedEncode 65536 = some (header.encode 65536) ∧
      endpoint.checkedServe request = some (endpoint.serve request) := by
  intro parser decoder header endpoint request
  obtain ⟨parsers, decoders, headers, endpoints⟩ := checked_eq_some_of_reached
  obtain ⟨-, -, parses⟩ := parsers .server [.feed [0x89, 0x00]]
  obtain ⟨-, -, decodes⟩ := decoders .client 3 .standard [[0x81, 0x04]]
  obtain ⟨fed, counts⟩ := decodes [0x61] (by decide)
  have refused : (decoder.feed [0x61]).answer = .error (.messageTooLong 4 3) := by
    decide +kernel
  refine ⟨parses [0x80] (by decide), fed, refused, counts _ 4 refused rfl,
    headers header 65536 (by decide), ?_⟩
  have counted : request.IsCounted := by
    change ([0x61] : List UInt8).length < 2 ^ 63
    decide
  exact (endpoints _ _ _ _ _ _).2 request counted

end Endpoint
end WebSocket
