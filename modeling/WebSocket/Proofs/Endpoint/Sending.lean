import Mathlib.Control.Monad.Basic
import WebSocket.Proofs.Endpoint.Sides

/-!
# What a write does

Whatever an endpoint has been asked for before, a write or a close is either refused and
leaves everything alone, or puts the front of one frame on the wire and ends with the first
answer of the channel that fails. A client masks each frame with the next key of its supply,
and a server draws none.
-/

namespace WebSocket

open Grammar

/-! ## The octets of a frame -/

/-- The octets that announce the length of a payload, in seven bits, in two further octets or
in eight, below the bit that tells whether a mask follows. -/
def announcedLength (isMasked : Bool) (length : Nat) : List UInt8 :=
  let bit := if isMasked then 128 else 0
  if length < 126 then [UInt8.ofNat (bit + length)]
  else if length < 65536 then UInt8.ofNat (bit + 126) :: BigEndian.encode 2 length
  else UInt8.ofNat (bit + 127) :: BigEndian.encode 8 length

/-- The octets of a final frame: the opcode and the bit that says that it is final, the
length of the payload, and the payload. A key goes before the payload and is combined with it
octet by octet, over and over. -/
def frameOctets
    (mask : Option MaskingKey)
    (opcode : Opcode)
    (payload : List UInt8) : List UInt8 :=
  UInt8.ofNat (128 + opcode.toByte.toNat) ::
    (announcedLength mask.isSome payload.length ++
      match mask with
      | none => payload
      | some key =>
          key.octets ++
            payload.mapIdx fun index octet => octet ^^^ key.octets.getD (index % 4) 0)

theorem firstOctet_of_isAssigned
    {opcode : Opcode}
    (assigned : opcode.isAssigned = true)
    (mask : Option MaskingKey) :
    ({ opcode, mask } : FrameHeader).firstOctet =
      UInt8.ofNat (128 + opcode.toByte.toNat) := by
  rw [firstOctet_eq]
  cases opcode with
  | data opcode =>
      cases opcode with
      | reserved value => cases assigned
      | _ => rfl
  | control opcode =>
      cases opcode with
      | reserved value => cases assigned
      | _ => rfl

theorem announcedLength_eq (isMasked : Bool) (length : Nat) :
    announcedLength isMasked length =
      ((LengthFormat.ofLength length).toByte ||| FrameHeader.flag isMasked 0x80) ::
        BigEndian.encode (LengthFormat.ofLength length).extraSize length := by
  unfold announcedLength LengthFormat.ofLength
  by_cases short : length < 126
  · rw [if_pos short, if_pos short]
    have plain : (UInt8.ofNat length).toNat = length := by
      rw [UInt8.toNat_ofNat']
      omega
    obtain ⟨masked, unmasked⟩ := toNat_mask_bit (UInt8.ofNat length) (by omega)
    refine congrArg (· :: []) (UInt8.toNat_inj.mp ?_)
    rw [UInt8.toNat_ofNat']
    cases isMasked with
    | false =>
        change (0 + length) % 256 = (UInt8.ofNat length ||| 0).toNat
        omega
    | true =>
        change (128 + length) % 256 = (UInt8.ofNat length ||| 0x80).toNat
        omega
  · rw [if_neg short, if_neg short]
    by_cases medium : length < 65536
    · rw [if_pos medium, if_pos medium]
      cases isMasked <;> rfl
    · rw [if_neg medium, if_neg medium]
      cases isMasked <;> rfl

/-- The octets of a frame are those that its header and its masked payload are encoded to. -/
theorem frameOctets_eq_written
    {opcode : Opcode}
    (assigned : opcode.isAssigned = true)
    (payload : List UInt8)
    (mask : Option MaskingKey) :
    frameOctets mask opcode payload = written mask ⟨opcode, payload⟩ := by
  unfold frameOctets
  rw [written, FrameHeader.encode_eq_encodeAs, FrameHeader.encodeAs,
    firstOctet_of_isAssigned assigned, announcedLength_eq]
  cases mask with
  | none => simp [Frame.length, unmask]
  | some key => simp [Frame.length, unmask, MaskingKey.maskFrom, ← MaskingKey.getD_octets]

namespace Endpoint

/-! ## One submission -/

/-- Whether an operation uses up answers of the channel to the first one that fails, and
fails itself with that error, or only answers that do not fail. -/
structure Spends
    (endpoint : Endpoint)
    (used : List Acceptance)
    (result : Report Unit × Endpoint) : Prop where
  answers :
    endpoint.channel.outbound.answers = used ++ result.2.channel.outbound.answers
  ends : ∃ answer : Except IoError Unit,
    result.1.answer = answer.mapError .io ∧ Outbound.Ends used answer

theorem exists_spends_transmit (endpoint : Endpoint) (octets : List UInt8) :
    ∃ used, endpoint.Spends used (endpoint.transmit octets) := by
  obtain ⟨used, answers, ends⟩ :=
    endpoint.channel.outbound.exists_ends_writeAll octets
  exact ⟨used, answers, _, rfl, ends⟩

/-- The payload of a server's frame goes on with the answers that the header has left. -/
theorem exists_spends_transmitPlain
    (endpoint : Endpoint)
    (opcode : Opcode)
    (payload : List UInt8) :
    ∃ used, endpoint.Spends used (endpoint.transmitPlain opcode payload) := by
  let header := ({ opcode } : FrameHeader).encode payload.length
  obtain ⟨first, answers, head, answered, ends⟩ := endpoint.exists_spends_transmit header
  unfold transmitPlain
  dsimp only
  rw [answered]
  cases head with
  | error error => exact ⟨first, answers, _, answered, ends⟩
  | ok done =>
      obtain ⟨second, later, body, answeredThen, endsThen⟩ :=
        (endpoint.transmit header).2.exists_spends_transmit payload
      refine ⟨first ++ second, ?_, body, answeredThen, ends.append endsThen⟩
      rw [later, ← List.append_assoc] at answers
      exact answers

theorem exists_spends_transmitMasked
    (endpoint : Endpoint)
    (opcode : Opcode)
    (payload : List UInt8) :
    ∃ used, endpoint.Spends used (endpoint.transmitMasked opcode payload) := by
  obtain ⟨used, answers, ends⟩ :=
    ({ endpoint with keys := endpoint.keys.draw.2 } : Endpoint).exists_spends_transmit
      (({ opcode, mask := some endpoint.keys.draw.1 } : FrameHeader).encode
          payload.length ++
        endpoint.keys.draw.1.mask payload)
  exact ⟨used, answers, ends⟩

theorem exists_spends_write
    (endpoint : Endpoint)
    {opcode : Opcode}
    (assigned : opcode.isAssigned = true)
    (payload : List UInt8) :
    ∃ used, endpoint.Spends used (endpoint.write opcode payload) := by
  unfold write
  rw [if_pos assigned]
  dsimp only
  cases endpoint.role with
  | server =>
      obtain ⟨used, answers, ends⟩ := endpoint.exists_spends_transmitPlain opcode payload
      exact ⟨used, answers, ends⟩
  | client =>
      obtain ⟨used, answers, ends⟩ := endpoint.exists_spends_transmitMasked opcode payload
      exact ⟨used, answers, ends⟩

theorem exists_spends_submit
    (endpoint : Endpoint)
    {submission : Submission}
    (allowed : submission.isAllowed = true) :
    ∃ used, endpoint.Spends used (endpoint.submit submission) := by
  rw [endpoint.submit_of_isAllowed allowed]
  exact endpoint.exists_spends_write (submission.isAssigned_frame allowed) _

/-- Whether an operation sends octets: it puts the front of them on the wire, and all of them
exactly if it succeeds, and it fails with the first answer of the channel that does. -/
structure Sends
    (endpoint : Endpoint)
    (octets part : List UInt8)
    (used : List Acceptance)
    (result : Report Unit × Endpoint) : Prop
    extends Transmits endpoint octets part result, Spends endpoint used result

/-- A submission that is not refused is sent in one frame. -/
theorem exists_sends_submit
    (endpoint : Endpoint)
    {submission : Submission}
    (allowed : submission.isAllowed = true) :
    ∃ part used,
      endpoint.Sends
        (frameOctets endpoint.nextMask submission.frame.opcode submission.frame.payload)
        part used (endpoint.submit submission) := by
  obtain ⟨part, transmits⟩ := endpoint.exists_transmits_submit allowed
  obtain ⟨used, spends⟩ := endpoint.exists_spends_submit allowed
  rw [frameOctets_eq_written (submission.isAssigned_frame allowed)]
  exact ⟨part, used, { toTransmits := transmits, toSpends := spends }⟩

end Endpoint

/-! ## Keys -/

/-- The number of keys that an endpoint draws for a number of frames. -/
def Role.keysFor : Role → Nat → Nat
  | .server, _ => 0
  | .client, frames => frames

theorem Role.keysFor_zero (role : Role) : role.keysFor 0 = 0 := by
  cases role <;> rfl

theorem Role.keysFor_add (role : Role) (frames others : Nat) :
    role.keysFor (frames + others) = role.keysFor frames + role.keysFor others := by
  cases role <;> rfl

/-- Whether a command has something sent that is not refused. -/
def Command.sends : Command → Bool
  | .write opcode _ => opcode.isAssigned
  | .close code => code.isSendable
  | _ => false

namespace Endpoint

/-- Whether an operation draws the keys for a number of frames. -/
structure Draws (endpoint : Endpoint) (frames : Nat) (next : Endpoint) : Prop where
  role : next.role = endpoint.role
  keys :
    next.keys =
      { endpoint.keys with
        drawn := endpoint.keys.drawn + endpoint.role.keysFor frames }

theorem draws_refl (endpoint : Endpoint) : endpoint.Draws 0 endpoint where
  role := rfl
  keys := by rw [Role.keysFor_zero, Nat.add_zero]

theorem Draws.trans
    {endpoint next last : Endpoint}
    {frames others : Nat}
    (first : endpoint.Draws frames next)
    (second : next.Draws others last) :
    endpoint.Draws (frames + others) last where
  role := second.role.trans first.role
  keys := by
    rw [second.keys, first.role, first.keys, Role.keysFor_add]
    dsimp only
    rw [Nat.add_assoc]

theorem draws_write
    (endpoint : Endpoint)
    {opcode : Opcode}
    (assigned : opcode.isAssigned = true)
    (payload : List UInt8) :
    endpoint.Draws 1 (endpoint.write opcode payload).2 := by
  obtain ⟨part, transmits⟩ := endpoint.exists_transmits_write assigned payload
  refine ⟨transmits.role, ?_⟩
  unfold write
  rw [if_pos assigned]
  dsimp only
  cases endpoint.role with
  | client => rfl
  | server =>
      unfold transmitPlain
      dsimp only
      split <;> rfl

/-- A submission draws the key for its frame, unless it is refused. -/
theorem draws_submit (endpoint : Endpoint) (submission : Submission) :
    endpoint.Draws (if submission.isAllowed then 1 else 0) (endpoint.submit submission).2 := by
  cases allowed : submission.isAllowed with
  | false =>
      obtain ⟨error, refuses⟩ := endpoint.exists_refuses_submit allowed
      rw [refuses.same]
      exact endpoint.draws_refl
  | true =>
      rw [endpoint.submit_of_isAllowed allowed]
      exact endpoint.draws_write (submission.isAssigned_frame allowed) _

/-- Reads leave the writing side of an endpoint alone. -/
theorem readAllFrom_eq_writingAs
    (endpoint : Endpoint)
    (limit : Option Duration)
    (ready : Bool)
    (reports : Array (Report (Option Frame))) :
    (endpoint.readAllFrom limit ready reports).2 =
      (endpoint.readAllFrom limit ready reports).2.writingAs endpoint := by
  have step : ∀ (endpoint next : Endpoint) report,
      endpoint.read limit ready = (report, next) → next = next.writingAs endpoint := by
    intro endpoint next report result
    have read := endpoint.read_writingAs endpoint limit ready
    rw [writingAs_self, result] at read
    exact congrArg Prod.snd read
  induction endpoint, reports using readAllFrom.induct limit ready with
  | case1 endpoint reports report next result frame delivered _ inductionHypothesis =>
      rw [readAllFrom_of_frame result delivered]
      generalize (next.readAllFrom limit ready (reports.push report)).2 = last at *
      rw [step endpoint next report result] at inductionHypothesis
      exact inductionHypothesis
  | case2 endpoint reports report next result nothing =>
      rw [readAllFrom_of_end result nothing]
      exact step endpoint next report result

/-- What writes as an endpoint does has drawn the same keys. -/
theorem draws_of_eq_writingAs
    {endpoint next : Endpoint}
    (same : next = next.writingAs endpoint) :
    endpoint.Draws 0 next := by
  rw [same]
  exact ⟨rfl, endpoint.draws_refl.keys⟩

theorem draws_carryOut (endpoint : Endpoint) (command : Command) :
    let (_, _, _, next) := Session.carryOut endpoint command
    endpoint.Draws (if command.sends then 1 else 0) next := by
  cases command with
  | read limit ready =>
      have read := endpoint.read_writingAs endpoint limit ready
      exact draws_of_eq_writingAs (congrArg Prod.snd read)
  | readAll limit ready =>
      exact draws_of_eq_writingAs (endpoint.readAllFrom_eq_writingAs limit ready #[])
  | write opcode payload => exact endpoint.draws_submit (.write opcode payload)
  | close code => exact endpoint.draws_submit (.close code)
  | deliver arrivals readiness acceptances => exact ⟨rfl, endpoint.draws_refl.keys⟩
  | setThreshold threshold => exact endpoint.draws_refl

/-- Keys are drawn one for each frame. -/
theorem draws_runEach (endpoint : Endpoint) (commands : List Command) :
    endpoint.Draws (commands.countP Command.sends) (endpoint.runEach commands).endpoint := by
  induction commands generalizing endpoint with
  | nil => exact endpoint.draws_refl
  | cons command later inductionHypothesis =>
      rw [List.countP_cons, Nat.add_comm]
      exact (endpoint.draws_carryOut command).trans (inductionHypothesis _)

/-- The frame behind a number of others is masked with the key behind theirs. -/
theorem Draws.nextMask
    {endpoint next : Endpoint}
    {frames : Nat}
    (draws : endpoint.Draws frames next) :
    next.nextMask =
      match endpoint.role with
      | .server => none
      | .client => some (endpoint.keys.key (endpoint.keys.drawn + frames)) := by
  unfold Endpoint.nextMask
  rw [draws.role, draws.keys]
  cases endpoint.role <;> rfl

/-! ## One write behind a run -/

/-- A submission behind a run draws the next key and is sent with it, if it is not refused. -/
theorem sends_submit_runEach
    (start : Endpoint)
    (commands : List Command)
    {submission : Submission}
    (allowed : submission.isAllowed = true) :
    let endpoint := (start.runEach commands).endpoint
    let sent := commands.countP Command.sends
    let mask :=
      match start.role with
      | .server => none
      | .client => some (start.keys.key (start.keys.drawn + sent))
    (endpoint.submit submission).2.keys =
        { start.keys with drawn := start.keys.drawn + start.role.keysFor (sent + 1) } ∧
      ∃ part used,
        endpoint.Sends (frameOctets mask submission.frame.opcode submission.frame.payload)
          part used (endpoint.submit submission) := by
  have before := start.draws_runEach commands
  have next := (start.runEach commands).endpoint.draws_submit submission
  rw [if_pos allowed] at next
  dsimp only
  rw [← before.nextMask]
  exact ⟨(before.trans next).keys, exists_sends_submit _ allowed⟩

/-- Whatever an endpoint has been asked for and however its channel answers, it refuses to
write an opcode without an assigned meaning, or to close with a number other than 1000 to 1011
and 1015, and does nothing else then. Otherwise it sends one frame, of which it puts the front
on the wire, and the whole exactly if it succeeds. It fails with the first answer of the
channel that fails. A client draws one key for each frame that it does not refuse, so that the
mask of a frame is found by counting those before it. A server draws no key and masks
nothing. -/
theorem sends_runEach_new
    (role : Role)
    (config : Config)
    (channel : Channel)
    (keys : KeySupply)
    (memory : Memory)
    (commands : List Command) :
    let endpoint := ((new role config channel keys memory).runEach commands).endpoint
    let sent := commands.countP Command.sends
    let drawnFor (frames : Nat) : KeySupply :=
      { keys with drawn := keys.drawn + role.keysFor frames }
    let mask : Option MaskingKey :=
      match role with
      | .server => none
      | .client => some (keys.key (keys.drawn + sent))
    endpoint.keys = drawnFor sent ∧
      (∀ opcode payload,
        let result := endpoint.write opcode payload
        (opcode.isAssigned = false →
          endpoint.Refuses (.protocol (.invalidOpcode opcode.toByte)) result) ∧
        (opcode.isAssigned = true →
          result.2.keys = drawnFor (sent + 1) ∧
          ∃ part used,
            endpoint.Sends (frameOctets mask opcode payload) part used result)) ∧
      ∀ code : CloseCode,
        let number := code.toUInt16.toNat
        let valid := (1000 ≤ number ∧ number ≤ 1011) ∨ number = 1015
        let result := endpoint.close code
        (¬valid → endpoint.Refuses (.invalidCloseCode code.toUInt16) result) ∧
        (valid →
          result.2.keys = drawnFor (sent + 1) ∧
          ∃ part used,
            endpoint.Sends
              (frameOctets mask (.control .close) (BigEndian.encode 2 number))
              part used result) := by
  have sends := fun submission =>
    @sends_submit_runEach (new role config channel keys memory) commands submission
  refine ⟨(draws_runEach _ commands).keys, ?_, ?_⟩
  · intro opcode payload
    exact ⟨fun unassigned => refuses_write _ unassigned payload,
      fun assigned => sends (.write opcode payload) assigned⟩
  · intro code
    have sendable : code.isSendable = true ↔
        (1000 ≤ code.toUInt16.toNat ∧ code.toUInt16.toNat ≤ 1011) ∨
          code.toUInt16.toNat = 1015 := by
      simp [CloseCode.isSendable]
    dsimp only
    rw [← sendable]
    exact ⟨fun unsendable => refuses_close _ (Bool.eq_false_iff.mpr unsendable),
      fun sendable => sends (.close code) sendable⟩

/-- A client has sent a message and has had two submissions refused. Its channel stops within
the payload of its next message, which is masked with its second key. -/
theorem sends_runEach_new_cut_in_payload :
    let full : Acceptance := .fault ⟨.wouldBlock, "full"⟩
    let channel : Channel :=
      { outbound := { answers := [.upTo 4, .upTo 9, .fault ⟨.interrupted, "again"⟩, .upTo 7,
          full, .upTo 1] } }
    let commands : List Command :=
      [.write (.data .text) [0x61], .close .serviceRestart, .read none true,
        .write (.data (.reserved 1)) []]
    let start := new .client {} channel (.ofArray #[⟨1, 2, 3, 4⟩] ⟨5, 6, 7, 8⟩)
    let endpoint := (start.runEach commands).endpoint
    let result := endpoint.write (.data .binary) [0x62, 0x63]
    commands.countP Command.sends = 1 ∧
      (∃ part used,
        endpoint.Sends [0x82, 0x82, 5, 6, 7, 8, 0x67, 0x65] part used result) ∧
      result.2.keys.drawn = 2 ∧
      result.1.answer = .error (.io ⟨.wouldBlock, "full"⟩) ∧
      result.2.channel.outbound.answers = [.upTo 1] ∧
      result.2.channel.outbound.wire.toList =
        [0x81, 0x81, 1, 2, 3, 4, 0x60, 0x82, 0x82, 5, 6, 7, 8, 0x67] ∧
      endpoint.Refuses (.invalidCloseCode 1014) (endpoint.close (.unassigned 1014)) ∧
      ∃ part used,
        endpoint.Sends [0x88, 0x82, 5, 6, 7, 8, 0x06, 0xEE] part used
          (endpoint.close (.registered 1000)) := by
  intro full channel commands start endpoint result
  obtain ⟨-, writes, closes⟩ := sends_runEach_new .client {} channel
    (.ofArray #[⟨1, 2, 3, 4⟩] ⟨5, 6, 7, 8⟩) .standard commands
  obtain ⟨drawn, sends⟩ := (writes (.data .binary) [0x62, 0x63]).2 rfl
  obtain ⟨-, closesThen⟩ := (closes (.registered 1000)).2 (by decide)
  have message : frameOctets (some ⟨5, 6, 7, 8⟩) (.data .binary) [0x62, 0x63] =
      [0x82, 0x82, 5, 6, 7, 8, 0x67, 0x65] := by decide +kernel
  have close : frameOctets (some ⟨5, 6, 7, 8⟩) (.control .close) (BigEndian.encode 2 1000) =
      [0x88, 0x82, 5, 6, 7, 8, 0x06, 0xEE] := by decide +kernel
  rw [← message, ← close]
  exact ⟨rfl, sends, congrArg KeySupply.drawn drawn, by decide +kernel, by decide +kernel,
    by decide +kernel, (closes (.unassigned 1014)).1 (by decide), closesThen⟩

end Endpoint

end WebSocket
