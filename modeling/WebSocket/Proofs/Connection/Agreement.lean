import WebSocket.Proofs.Connection.Basic

/-!
# Two endpoints agree

Whatever happens on a connection, each endpoint returns the frames that the other one wrote,
in order. A read fails only where a frame has begun whose rest is still on its way, and it
is not the sender that is at fault then but the pipe, which was too slow.
-/

namespace WebSocket

open Decoder (Begins writtenAll)
open Endpoint (Report Submission)
open Grammar (Sendable acceptable written)

/-! ## Lanes -/

namespace Lane

/-- Whether the way to an endpoint holds frames that it accepts, the endpoint has returned
the first of them, and it has decoded what it took unless it has failed. -/
structure Sound
    (role : Role)
    (limit : Nat)
    (memory : Memory)
    (reader : Endpoint)
    (lane : Lane) : Prop where
  sendable : ∀ item ∈ lane.sent, Sendable role.peer memory item.1 item.2
  accepted : ∀ item ∈ lane.sent, acceptable limit item.2 = true
  octets : lane.taken ++ (lane.readable ++ lane.inFlight) = writtenAll lane.sent
  returned : lane.returned <+: lane.sent.map Prod.snd
  decodes : reader.hasFailed = false →
    (Decoder.new role limit memory).Yields lane.taken lane.returned reader.decoder

/-- What a read comes to that is made on the way to an endpoint. -/
inductive ReadsTo (before after : Lane) : Except Error (Option Frame) → Prop
  /-- It returns the next frame. -/
  | frame
      {frame : Frame}
      (next : before.returned ++ [frame] <+: before.sent.map Prod.snd) :
      ReadsTo before after (.ok (some frame))
  /-- There is nothing to read, and nothing has begun. -/
  | nothing
      {whole later : List (Option MaskingKey × Frame)}
      (sent : before.sent = whole ++ later)
      (returned : before.returned = whole.map Prod.snd)
      (taken : after.taken = writtenAll whole)
      (empty : after.readable = []) :
      ReadsTo before after (.ok none)
  /-- There is nothing to read, and a frame has begun whose rest is still on its way. -/
  | cutShort
      {whole later : List (Option MaskingKey × Frame)}
      {mask : Option MaskingKey}
      {frame : Frame}
      {part rest : List UInt8}
      (sent : before.sent = whole ++ (mask, frame) :: later)
      (returned : before.returned = whole.map Prod.snd)
      (octets : written mask frame = part ++ rest)
      (begun : part ≠ [])
      (unfinished : rest ≠ [])
      (taken : after.taken = writtenAll whole ++ part)
      (empty : after.readable = [])
      (away : after.inFlight = rest ++ writtenAll later) :
      ReadsTo before after (.error (.protocol .incompleteFrame))

section Sound

variable
    {role : Role}
    {limit : Nat}
    {memory : Memory}
    {reader : Endpoint}
    {lane : Lane}

/-- A lane stays sound when the endpoint does something else than reading. -/
theorem Sound.congr
    (sound : lane.Sound role limit memory reader)
    {next : Endpoint}
    (hasFailed : next.hasFailed = reader.hasFailed)
    (decoder : next.decoder = reader.decoder) :
    lane.Sound role limit memory next := by
  refine ⟨sound.sendable, sound.accepted, sound.octets, sound.returned, ?_⟩
  rw [hasFailed, decoder]
  exact sound.decodes

/-- A lane stays sound when a frame is put into it that the endpoint accepts. -/
theorem Sound.put
    (sound : lane.Sound role limit memory reader)
    {mask : Option MaskingKey}
    {frame : Frame}
    (sendable : Sendable role.peer memory mask frame)
    (accepted : acceptable limit frame = true) :
    (lane.put mask frame (written mask frame)).Sound role limit memory reader where
  sendable := List.forall_mem_append.mpr
    ⟨sound.sendable, List.forall_mem_singleton.mpr sendable⟩
  accepted := List.forall_mem_append.mpr
    ⟨sound.accepted, List.forall_mem_singleton.mpr accepted⟩
  octets := by
    rw [Lane.put, Decoder.writtenAll_append, ← sound.octets]
    simp
  returned := by
    rw [Lane.put, List.map_append]
    exact sound.returned.trans (List.prefix_append _ _)
  decodes := sound.decodes

/-- A lane stays sound when octets come to be readable. -/
theorem Sound.move (sound : lane.Sound role limit memory reader) (count : Nat) :
    (lane.move count).Sound role limit memory reader where
  sendable := sound.sendable
  accepted := sound.accepted
  octets := by
    rw [Lane.move, List.append_assoc, List.take_append_drop]
    exact sound.octets
  returned := sound.returned
  decodes := sound.decodes

/-- What an endpoint takes is that of whole frames and of a part of the next one, and its
decoder returns the whole ones. -/
theorem Sound.exists_yields
    (sound : lane.Sound role limit memory reader)
    {taken : List UInt8}
    (front : taken <+: writtenAll lane.sent) :
    ∃ whole later part decoder,
      lane.sent = whole ++ later ∧
        taken = writtenAll whole ++ part ∧
        Begins part later ∧
        (Decoder.new role limit memory).Yields taken (whole.map Prod.snd) decoder ∧
        decoder.inProgress = !part.isEmpty := by
  obtain ⟨whole, later, part, sent, rfl, begins⟩ := Decoder.exists_begins front
  have sendable := sound.sendable
  have accepted := sound.accepted
  rw [sent] at sendable accepted
  obtain ⟨decoder, yields, inProgress⟩ :=
    Decoder.exists_yields_of_begins sendable accepted begins
  rw [Role.peer_peer] at yields
  exact ⟨whole, later, part, decoder, sent, rfl, begins, yields, inProgress⟩

/-- An endpoint that has taken all that was sent has returned it. -/
theorem Sound.returned_of_drained
    (sound : lane.Sound role limit memory reader)
    (reads : reader.hasFailed = false)
    (landed : lane.inFlight = [])
    (drained : lane.readable = []) :
    lane.returned = lane.sent.map Prod.snd := by
  have taken : lane.taken = writtenAll lane.sent := by
    simpa [landed, drained] using sound.octets
  have yields := Decoder.yields_writtenAll sound.sendable sound.accepted
  rw [Role.peer_peer, ← taken] at yields
  exact ((sound.decodes reads).unique yields).1

/-- A lane stays sound when the endpoint has taken more of it, and has returned the whole
frames among all that it took. -/
theorem Sound.of_yields
    (sound : lane.Sound role limit memory reader)
    (after : Lane)
    (sent : after.sent = lane.sent)
    (octets : after.taken ++ (after.readable ++ after.inFlight) = writtenAll lane.sent)
    {whole later : List (Option MaskingKey × Frame)}
    (parts : lane.sent = whole ++ later)
    (returned : after.returned = whole.map Prod.snd)
    {next : Endpoint}
    (yields : (Decoder.new role limit memory).Yields after.taken (whole.map Prod.snd)
      next.decoder) :
    after.Sound role limit memory next where
  sendable := sent ▸ sound.sendable
  accepted := sent ▸ sound.accepted
  octets := sent ▸ octets
  returned := by
    rw [returned, sent, parts, List.map_append]
    exact List.prefix_append _ _
  decodes _ := returned ▸ yields

/-- A lane stays sound when the endpoint reads, and the read comes to what it should. -/
theorem Sound.take
    (sound : lane.Sound role limit memory reader)
    (reads : reader.hasFailed = false)
    {runs : List (List UInt8)}
    (nonempty : [] ∉ runs)
    (whole : runs.flatten = lane.readable)
    (source : reader.channel.inbound = .piped runs)
    {timeout : Option Duration}
    {ready : Bool}
    (holds : ready = true → runs ≠ [])
    {report : Report (Option Frame)}
    {next : Endpoint}
    (result : reader.read timeout ready = (report, next)) :
    let after := lane.take report next.channel.inbound.unread
    after.Sound role limit memory next ∧ lane.ReadsTo after report.answer := by
  have yields := sound.decodes reads
  obtain ⟨total, answer, comes, answers⟩ :=
    Endpoint.answersPiped_read nonempty source reads yields.wanted_pos holds result
  have octets : lane.taken ++ broughtBy report.calls.toList ++
      (next.channel.inbound.unread ++ lane.inFlight) = writtenAll lane.sent := by
    rw [← sound.octets, ← whole, ← total]
    simp
  obtain ⟨frames, later, part, decoder, sent, taken, begins, yieldsThen, inProgress⟩ :=
    sound.exists_yields ⟨_, octets⟩
  -- Decoding all that was taken at once shows what the read has added to it.
  obtain ⟨deliveries, delivered, both⟩ :=
    yields.decodeFrom_append 0 (broughtBy report.calls.toList)
  rw [Decoder.decodeFrom_of_whole comes] at both
  obtain ⟨returned, accepted, reached⟩ := yieldsThen 0
  rw [both] at returned accepted reached
  rw [Decoder.Outcome.after, List.map_append, delivered] at returned
  obtain rfl : next.decoder = decoder :=
    (Decoder.Outcome.decoder_ofAnswer _ _ _).symm.trans reached
  intro after
  have soundThen : after.returned = frames.map Prod.snd →
      after.Sound role limit memory next :=
    fun same => sound.of_yields after rfl octets sent same yieldsThen
  cases answers with
  | refused refusal => cases accepted
  | @frame frame delivers reads =>
      have same : lane.returned ++ [frame] = frames.map Prod.snd := returned
      refine ⟨soundThen ?_, ?_⟩
      · dsimp only [after, Lane.take]
        rw [delivers]
        exact same
      · rw [delivers]
        refine .frame ?_
        rw [same, sent, List.map_append]
        exact List.prefix_append _ _
  | nothing empty idle delivers reads =>
      have same : lane.returned = frames.map Prod.snd :=
        (List.append_nil _).symm.trans returned
      obtain rfl : part = [] := by
        rw [inProgress] at idle
        simpa using idle
      refine ⟨soundThen ?_, ?_⟩
      · dsimp only [after, Lane.take]
        rw [delivers]
        exact (List.append_nil _).trans same
      · rw [delivers]
        exact .nothing sent same (taken.trans (List.append_nil _)) empty
  | cutShort empty begun fails failed =>
      have same : lane.returned = frames.map Prod.snd :=
        (List.append_nil _).symm.trans returned
      have some_octets : part ≠ [] := by
        rw [inProgress] at begun
        simpa using begun
      refine ⟨soundThen ?_, ?_⟩
      · dsimp only [after, Lane.take]
        rw [fails]
        exact (List.append_nil _).trans same
      · rw [fails]
        cases later with
        | nil => exact absurd begins some_octets
        | cons item later =>
            obtain ⟨⟨rest, split⟩, cut⟩ := begins
            refine .cutShort sent same split.symm some_octets ?_ taken empty ?_
            · rintro rfl
              exact cut ((List.append_nil part).symm.trans split)
            · rw [taken, empty, sent, Decoder.writtenAll_append, Decoder.writtenAll_cons,
                ← split] at octets
              simpa [after, Lane.take] using octets

end Sound
end Lane

/-! ## Connections -/

namespace Connection

/-- Whether each endpoint plays its role, and the way to it is sound. -/
structure Sound
    (config : Role → Config)
    (memory : Role → Memory)
    (connection : Connection) : Prop where
  role : ∀ role, (connection.endpoint role).role = role
  lane : ∀ role, (connection.lane role).Sound role (config role).maxPayloadLength
    (memory role) (connection.endpoint role)

section Sound

variable
    {config : Role → Config}
    {memory : Role → Memory}
    {connection : Connection}

theorem sound_start (keys : Role → KeySupply) :
    (start config keys memory).Sound config memory where
  role _ := rfl
  lane _ :=
    { sendable := nofun
      accepted := nofun
      octets := rfl
      returned := List.nil_prefix
      decodes := fun _ => Decoder.yields_nil Nat.one_pos }

theorem Sound.move (sound : connection.Sound config memory) (role : Role) (count : Nat) :
    (connection.move role count).Sound config memory where
  role := sound.role
  lane := by
    refine role.forall_iff.mpr ⟨?_, ?_⟩
    · simpa using (sound.lane role).move count
    · simpa using sound.lane role.peer

/-- A write succeeds. It changes the way to the peer, and nothing that reads look at. -/
theorem Sound.submit
    (sound : connection.Sound config memory)
    (room : ∀ role, ∀ size < 2 ^ 47, (memory role).hasRoom size = true)
    {role : Role}
    {submission : Submission}
    {answers : List Acceptance}
    (may : MayWrite (config role.peer) submission answers) :
    (connection.submit role submission answers).1.answer = .ok () ∧
      (connection.submit role submission answers).2.Sound config memory := by
  have advances : (connection.writer role answers).channel.outbound.Advances := may.advances
  have plays : (connection.writer role answers).role = role := sound.role role
  have keeps := (connection.writer role answers).keepsReading_submit submission
  obtain ⟨done, same, -, wire⟩ := Endpoint.submit_of_advances advances may.valid
  refine ⟨done, ⟨role.forall_iff.mpr ⟨?_, ?_⟩, role.forall_iff.mpr ⟨?_, ?_⟩⟩⟩
  · rw [endpoint_submit]
    exact same.trans plays
  · rw [endpoint_peer_submit]
    exact sound.role role.peer
  · rw [lane_submit, endpoint_submit]
    exact (sound.lane role).congr keeps.hasFailed keeps.decoder
  · have masks := (connection.writer role answers).masks_nextMask
    rw [plays] at masks
    rw [lane_peer_submit, endpoint_peer_submit, wire]
    refine (sound.lane role.peer).put ?_ may.accepted
    rw [Role.peer_peer]
    exact Endpoint.sendable_frame masks may.valid (room role.peer)

/-- A read comes to what it should, and changes nothing that the peer's reads look at. -/
theorem Sound.read
    (sound : connection.Sound config memory)
    {role : Role}
    (reads : (connection.endpoint role).hasFailed = false)
    {runs : List (List UInt8)}
    {ready : Bool}
    (may : MayRead (connection.lane role) runs ready)
    (limit : Option Duration) :
    (connection.read role runs limit ready).2.Sound config memory ∧
      (connection.lane role).ReadsTo ((connection.read role runs limit ready).2.lane role)
        (connection.read role runs limit ready).1.answer := by
  have lane : (connection.lane role).Sound role (config role).maxPayloadLength (memory role)
      (connection.reader role runs) :=
    (sound.lane role).congr rfl rfl
  have holds : ready = true → runs ≠ [] := by
    rintro isReady rfl
    exact may.holds isReady may.whole.symm
  have plays : (connection.reader role runs).role = role := sound.role role
  have result : (connection.reader role runs).read limit ready =
      (((connection.reader role runs).read limit ready).1,
        ((connection.reader role runs).read limit ready).2) := rfl
  obtain ⟨after, comes⟩ := lane.take reads may.nonempty may.whole rfl holds result
  refine ⟨⟨role.forall_iff.mpr ⟨?_, ?_⟩, role.forall_iff.mpr ⟨?_, ?_⟩⟩, ?_⟩
  · rw [endpoint_read, Endpoint.role_read]
    exact plays
  · rw [endpoint_peer_read]
    exact sound.role role.peer
  · rw [lane_read, endpoint_read]
    exact after
  · rw [lane_peer_read, endpoint_peer_read]
    exact sound.lane role.peer
  · rw [lane_read]
    exact comes

/-- A read behind a failure answers that reading is over, and leaves the ways alone. -/
theorem Sound.read_of_hasFailed
    (sound : connection.Sound config memory)
    {role : Role}
    (failed : (connection.endpoint role).hasFailed = true)
    {runs : List (List UInt8)}
    {ready : Bool}
    (may : MayRead (connection.lane role) runs ready)
    (limit : Option Duration) :
    (connection.read role runs limit ready).2.Sound config memory ∧
      (connection.read role runs limit ready).2.lane = connection.lane ∧
      (connection.read role runs limit ready).1.answer = .error .alreadyClosed := by
  have result : (connection.reader role runs).read limit ready =
      ({ answer := .error .alreadyClosed, events := #[.readAfterFailure] },
        connection.reader role runs) :=
    if_pos failed
  have same : (connection.read role runs limit ready).2.lane = connection.lane := by
    refine funext (role.forall_iff.mpr ⟨?_, lane_peer_read ..⟩)
    rw [lane_read, result]
    simp [Lane.take, reader, may.whole, Endpoint.delivered?]
  refine ⟨⟨role.forall_iff.mpr ⟨?_, ?_⟩, role.forall_iff.mpr ⟨?_, ?_⟩⟩, same, ?_⟩
  · rw [endpoint_read, result]
    exact sound.role role
  · rw [endpoint_peer_read]
    exact sound.role role.peer
  · rw [same, endpoint_read, result]
    exact (sound.lane role).congr rfl rfl
  · rw [same, endpoint_peer_read]
    exact sound.lane role.peer
  · rw [Connection.read, result]

/-- Whatever happens leaves a connection sound. -/
theorem Sound.step
    (sound : connection.Sound config memory)
    (room : ∀ role, ∀ size < 2 ^ 47, (memory role).hasRoom size = true)
    {next : Connection}
    (step : connection.Step config next) :
    next.Sound config memory := by
  cases step with
  | submit may => exact (sound.submit room may).2
  | move role count => exact sound.move role count
  | @read role runs limit ready may =>
      cases failed : (connection.endpoint role).hasFailed with
      | false => exact (sound.read failed may limit).1
      | true => exact (sound.read_of_hasFailed failed may limit).1

theorem sound_of_reachable
    {keys : Role → KeySupply}
    (room : ∀ role, ∀ size < 2 ^ 47, (memory role).hasRoom size = true)
    (reached : Relation.ReflTransGen (Step config) (start config keys memory) connection) :
    connection.Sound config memory := by
  induction reached with
  | refl => exact sound_start keys
  | tail _ step sound => exact sound.step room step

end Sound

/-- Whatever a server and a client write and read, and however slowly the pipes between them
go, each has returned the first of the frames that the other one wrote, with the same
opcodes and payloads and in the same order. All writes succeed. A read of an endpoint that
has not failed returns the next frame, or nothing if nothing is readable and nothing has
begun. It fails only because a frame has begun of which nothing more is readable, while the
rest is still on its way. So once everything has come to be readable and was read, and no
read failed, all frames were returned. -/
theorem agrees_of_reachable
    (config : Role → Config)
    (keys : Role → KeySupply)
    {memory : Role → Memory}
    (room : ∀ role, ∀ size < 2 ^ 47, (memory role).hasRoom size = true)
    {connection : Connection}
    (reached : Relation.ReflTransGen (Step config) (start config keys memory) connection)
    (role : Role) :
    let lane := connection.lane role
    let hasFailed := (connection.endpoint role).hasFailed
    lane.returned <+: lane.sent.map Prod.snd ∧
      (hasFailed = false → lane.inFlight = [] → lane.readable = [] →
        lane.returned = lane.sent.map Prod.snd) ∧
      (∀ submission answers, MayWrite (config role.peer) submission answers →
        (connection.submit role submission answers).1.answer = .ok ()) ∧
      ∀ runs limit ready, MayRead lane runs ready →
        let (report, next) := connection.read role runs limit ready
        if hasFailed then report.answer = .error .alreadyClosed ∧ next.lane = connection.lane
        else lane.ReadsTo (next.lane role) report.answer := by
  have sound := sound_of_reachable room reached
  refine ⟨(sound.lane role).returned, (sound.lane role).returned_of_drained,
    fun _ _ may => (sound.submit room may).1, ?_⟩
  intro runs limit ready may
  dsimp only
  split
  · rename_i failed
    obtain ⟨-, same, answered⟩ := sound.read_of_hasFailed failed may limit
    exact ⟨answered, same⟩
  · rename_i reads
    exact (sound.read (Bool.eq_false_iff.mpr reads) may limit).2

/-- A client sends a message and a server sends a ping. All of the ping arrives, but not the
last octet of the message. -/
theorem agrees_of_reachable_message_cut_short :
    let config : Role → Config := fun _ => {}
    let keys : Role → KeySupply := fun _ => .ofArray #[] ⟨1, 2, 3, 4⟩
    let wrote := (start config keys fun _ => .standard).submit .client
      (.write (.data .text) [0x68, 0x69])
      [.upTo 3, .fault ⟨.interrupted, "again"⟩, .upTo 1]
    let answered := wrote.2.submit .server (.write (.control .ping) []) []
    let arrived := (answered.2.move .server 7).move .client 2
    let pinged := arrived.read .client [[0x89], [0x00]] none true
    let read := pinged.2.read .server [[0x81, 0x82, 1], [2, 3, 4, 0x69]] none false
    (pinged.2.lane .client).returned = [⟨.control .ping, []⟩] ∧
      (pinged.2.lane .client).returned <+: (pinged.2.lane .client).sent.map Prod.snd ∧
      (pinged.2.lane .server).ReadsTo (read.2.lane .server) read.1.answer ∧
      read.1.answer.isOk = false ∧
      (read.2.lane .server).inFlight = [0x6b] := by
  intro config keys wrote answered arrived pinged read
  have room : ∀ role : Role, ∀ size < 2 ^ 47, Memory.standard.hasRoom size = true :=
    fun _ size small => decide_eq_true small
  have mayWrite : MayWrite (config .server) (.write (.data .text) [0x68, 0x69])
      [.upTo 3, .fault ⟨.interrupted, "again"⟩, .upTo 1] :=
    ⟨⟨by decide, by decide⟩, by decide, by decide⟩
  have mayAnswer : MayWrite (config .client) (.write (.control .ping) []) [] :=
    ⟨⟨by decide, by decide⟩, by decide, by decide⟩
  have mayPing : MayRead (arrived.lane .client) [[0x89], [0x00]] true :=
    ⟨by decide, by decide +kernel, by decide +kernel⟩
  have reached : Relation.ReflTransGen (Step config) (start config keys fun _ => .standard)
      pinged.2 :=
    ((((Relation.ReflTransGen.refl.tail (.submit mayWrite)).tail (.submit mayAnswer)).tail
      (.move .server 7)).tail (.move .client 2)).tail (.read mayPing)
  have mayRead : MayRead (pinged.2.lane .server) [[0x81, 0x82, 1], [2, 3, 4, 0x69]] false :=
    ⟨by decide, by decide +kernel, by decide⟩
  have reads : (pinged.2.endpoint .server).hasFailed = false := by decide +kernel
  obtain ⟨front, -⟩ := agrees_of_reachable config keys room reached .client
  obtain ⟨-, -, -, comes⟩ := agrees_of_reachable config keys room reached .server
  have comesTo := comes _ none _ mayRead
  dsimp only at comesTo
  rw [if_neg (Bool.eq_false_iff.mp reads)] at comesTo
  exact ⟨by decide +kernel, front, comesTo, by decide +kernel, by decide +kernel⟩

end Connection
end WebSocket
