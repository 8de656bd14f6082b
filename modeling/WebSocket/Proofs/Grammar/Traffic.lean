import WebSocket.Proofs.Grammar.Physical

/-!
# Messages in fragments

A message travels in one or more fragments, each behind any number of control frames. What
is delivered of such traffic are the control frames where they stand, and each message
behind its last fragment, with the payloads of its fragments put together.
-/

namespace WebSocket
namespace Grammar

/-- A final control frame with a short payload, as it travels. -/
structure ControlFrame (role : Role) where
  physical : Physical role
  opcode : ControlOpcode
  carries : physical.opcode = .control opcode
  isFinal : physical.isFinal = true
  short : physical.payload.length ≤ 125

/-- A fragment as it travels: a frame that carries the given opcode and is final exactly if
it is the last fragment. -/
structure Fragment (role : Role) (opcode : DataOpcode) (isLast : Bool) where
  physical : Physical role
  carries : physical.opcode = .data opcode
  isFinal : physical.isFinal = isLast

/-- What travels of a message from a fragment on that carries the given opcode: the last
fragment, or a fragment and what continues it, each behind control frames. -/
inductive Fragments (role : Role) : DataOpcode → Type
  | last
      {opcode : DataOpcode}
      (ahead : List (ControlFrame role))
      (fragment : Fragment role opcode true) : Fragments role opcode
  | more
      {opcode : DataOpcode}
      (ahead : List (ControlFrame role))
      (fragment : Fragment role opcode false)
      (later : Fragments role .continuation) : Fragments role opcode

/-- A message as it travels. Its first fragment carries its own opcode. -/
structure Message (role : Role) where
  opcode : DataOpcode
  begins : opcode = .text ∨ opcode = .binary
  fragments : Fragments role opcode

/-- Messages that follow each other, and control frames behind the last of them. -/
structure Traffic (role : Role) where
  messages : List (Message role)
  behind : List (ControlFrame role)

variable {role : Role}

namespace ControlFrame

/-- The frame that a control frame is delivered as. -/
def frame (control : ControlFrame role) : Frame :=
  ⟨.control control.opcode, control.physical.payload⟩

/-- A control frame completes itself. -/
def leg (control : ControlFrame role) : Leg role :=
  ⟨control.physical, some control.frame⟩

end ControlFrame

namespace Fragments

variable {opcode : DataOpcode}

/-- The payload that fragments carry together. -/
def payload {opcode : DataOpcode} : Fragments role opcode → List UInt8
  | .last _ fragment => fragment.physical.payload
  | .more _ fragment later => fragment.physical.payload ++ later.payload

/-- The control frames ahead of fragments. -/
def controls {opcode : DataOpcode} : Fragments role opcode → List Frame
  | .last ahead _ => ahead.map ControlFrame.frame
  | .more ahead _ later => ahead.map ControlFrame.frame ++ later.controls

/-- The physical frames of fragments, of which the last completes the given message. -/
def legs (whole : Frame) {opcode : DataOpcode} : Fragments role opcode → List (Leg role)
  | .last ahead fragment =>
      ahead.map ControlFrame.leg ++ [⟨fragment.physical, some whole⟩]
  | .more ahead fragment later =>
      ahead.map ControlFrame.leg ++ ⟨fragment.physical, none⟩ :: later.legs whole

end Fragments

namespace Message

/-- The payload of a message, whatever fragments it is cut into. -/
def payload (message : Message role) : List UInt8 := message.fragments.payload

/-- The frame that a message is delivered as. -/
def frame (message : Message role) : Frame := ⟨.data message.opcode, message.payload⟩

/-- The frames that are delivered up to the end of a message: the control frames ahead of
its fragments, and then the message. -/
def frames (message : Message role) : List Frame :=
  message.fragments.controls ++ [message.frame]

/-- The physical frames of a message. -/
def legs (message : Message role) : List (Leg role) :=
  message.fragments.legs message.frame

/-- Whether a message is no longer than a limit, and finds room on every host with room for
payloads of 47 bits. -/
def Fits (limit : Nat) (message : Message role) : Prop :=
  message.payload.length ≤ limit ∧ message.payload.length < 2 ^ 47

end Message

namespace Traffic

/-- The physical frames of traffic. -/
def legs (traffic : Traffic role) : List (Leg role) :=
  traffic.messages.flatMap Message.legs ++ traffic.behind.map ControlFrame.leg

/-- The octets of traffic. -/
def octets (traffic : Traffic role) : List UInt8 := Leg.stream traffic.legs

/-- The frames that are delivered of traffic, in order. -/
def frames (traffic : Traffic role) : List Frame :=
  traffic.messages.flatMap Message.frames ++ traffic.behind.map ControlFrame.frame

/-- The control frames of traffic, in order. -/
def controls (traffic : Traffic role) : List Frame :=
  (traffic.messages.flatMap fun message => message.fragments.controls) ++
    traffic.behind.map ControlFrame.frame

/-- The frames that are delivered of traffic, each with the offset behind its last octet. -/
def deliveries (traffic : Traffic role) : List (Nat × Frame) :=
  Leg.schedule 0 traffic.legs

/-- The frames of traffic whose last octet is one of the given number of octets. -/
def framesWithin (traffic : Traffic role) (count : Nat) : List Frame :=
  (traffic.deliveries.filter (·.1 ≤ count)).map Prod.snd

/-- Whether traffic may be cut at an offset and lose nothing that has begun: at the
beginning or at the end of a physical frame, where no message is open. -/
def IsClean (traffic : Traffic role) (offset : Nat) : Prop :=
  (offset, false) ∈ Leg.boundaries 0 false traffic.legs

instance (traffic : Traffic role) (offset : Nat) : Decidable (traffic.IsClean offset) :=
  inferInstanceAs (Decidable (_ ∈ _))

end Traffic

/-! ## What is delivered -/

theorem Leg.map_snd_schedule (offset : Nat) (legs : List (Leg role)) :
    (Leg.schedule offset legs).map Prod.snd = legs.filterMap Leg.completes := by
  induction legs generalizing offset with
  | nil => rfl
  | cons leg later inductionHypothesis =>
      rw [Leg.schedule, List.map_append, inductionHypothesis]
      cases completes : leg.completes with
      | none => rw [List.filterMap_cons_none completes]; rfl
      | some frame => rw [List.filterMap_cons_some completes]; rfl

theorem ControlFrame.filterMap_legs (controls : List (ControlFrame role)) :
    (controls.map leg).filterMap Leg.completes = controls.map frame := by
  rw [List.filterMap_map, ← List.filterMap_eq_map]
  rfl

theorem Fragments.filterMap_legs
    {opcode : DataOpcode}
    (whole : Frame)
    (fragments : Fragments role opcode) :
    (fragments.legs whole).filterMap Leg.completes = fragments.controls ++ [whole] := by
  induction fragments with
  | last ahead fragment =>
      rw [legs, List.filterMap_append, ControlFrame.filterMap_legs]
      rfl
  | more ahead fragment later inductionHypothesis =>
      rw [legs, List.filterMap_append, ControlFrame.filterMap_legs,
        List.filterMap_cons_none rfl, inductionHypothesis, controls, List.append_assoc]

namespace Traffic

/-- The frames that are scheduled are those that are delivered. -/
theorem map_snd_deliveries (traffic : Traffic role) :
    traffic.deliveries.map Prod.snd = traffic.frames := by
  have messages :
      (traffic.messages.flatMap Message.legs).filterMap Leg.completes =
        traffic.messages.flatMap Message.frames := by
    rw [List.filterMap_flatMap]
    congr 1
    funext message
    exact message.fragments.filterMap_legs message.frame
  rw [deliveries, Leg.map_snd_schedule, legs, List.filterMap_append, messages,
    ControlFrame.filterMap_legs]
  rfl

end Traffic

theorem Fragments.isControl_of_mem_controls
    {opcode : DataOpcode}
    {fragments : Fragments role opcode}
    {frame : Frame}
    (member : frame ∈ fragments.controls) :
    frame.opcode.isControl = true := by
  induction fragments with
  | last ahead fragment =>
      obtain ⟨control, -, rfl⟩ := List.mem_map.mp member
      rfl
  | more ahead fragment later inductionHypothesis =>
      rcases List.mem_append.mp member with here | there
      · obtain ⟨control, -, rfl⟩ := List.mem_map.mp here
        rfl
      · exact inductionHypothesis there

theorem Message.filter_frames (message : Message role) :
    message.frames.filter (·.opcode.isControl) = message.fragments.controls ∧
      message.frames.filter (!·.opcode.isControl) = [message.frame] := by
  have controls : ∀ frame ∈ message.fragments.controls, frame.opcode.isControl = true :=
    fun frame member => Fragments.isControl_of_mem_controls member
  have data : message.frame.opcode.isControl = false := rfl
  constructor
  · rw [frames, List.filter_append, List.filter_eq_self.mpr controls]
    simp [data]
  · have none : message.fragments.controls.filter (!·.opcode.isControl) = [] := by
      apply List.filter_eq_nil_iff.mpr
      intro frame member
      simp [controls frame member]
    rw [frames, List.filter_append, none]
    simp [data]

namespace Traffic

theorem filter_behind (controls : List (ControlFrame role)) :
    (controls.map ControlFrame.frame).filter (·.opcode.isControl) =
        controls.map ControlFrame.frame ∧
      (controls.map ControlFrame.frame).filter (!·.opcode.isControl) = [] := by
  constructor
  · apply List.filter_eq_self.mpr
    intro frame member
    obtain ⟨control, -, rfl⟩ := List.mem_map.mp member
    rfl
  · apply List.filter_eq_nil_iff.mpr
    intro frame member
    obtain ⟨control, -, rfl⟩ := List.mem_map.mp member
    exact Bool.false_ne_true

/-- The control frames that are delivered are those that travel. -/
theorem filter_isControl_frames (traffic : Traffic role) :
    traffic.frames.filter (·.opcode.isControl) = traffic.controls := by
  rw [frames, List.filter_append, List.filter_flatMap, (filter_behind _).1, controls]
  congr 2
  funext message
  exact message.filter_frames.1

/-- The data frames that are delivered are the messages. -/
theorem filter_not_isControl_frames (traffic : Traffic role) :
    traffic.frames.filter (!·.opcode.isControl) = traffic.messages.map Message.frame := by
  rw [frames, List.filter_append, List.filter_flatMap, (filter_behind _).2,
    List.append_nil, List.map_eq_flatMap]
  congr 1
  funext message
  exact message.filter_frames.2

end Traffic

/-! ## No rule is broken -/

/-- Whether a fragment that carries the given opcode goes on with a message behind the
payload that came earlier. -/
def GoesOn (whole : Frame) (earlier : List UInt8) : DataOpcode → Option Frame → Prop
  | .continuation, pending => pending = some ⟨whole.opcode, earlier⟩
  | opcode, pending => pending = none ∧ earlier = [] ∧ whole.opcode = .data opcode

section Chain

variable
    {limit : Nat}
    {memory : Memory}
    {whole : Frame}
    {earlier : List UInt8}
    {pending : Option Frame}

/-- Control frames leave a pending message alone. -/
theorem ControlFrame.chain_legs (controls : List (ControlFrame role)) :
    Chain limit memory pending (controls.map leg) pending := by
  induction controls with
  | nil => exact .nil pending
  | cons control controls inductionHypothesis =>
      obtain ⟨physical, opcode, carries, isFinal, short⟩ := control
      refine .cons ?_ ?_ inductionHypothesis
      · simp [broken?, leg, Physical.header, carries, isFinal, Nat.not_lt.mpr short]
      · simp [fold, leg, frame, Physical.header, carries]

theorem crowding?_eq_none
    {size : Nat}
    (within : size ≤ limit)
    (room : memory.hasRoom size = true) :
    crowding? limit memory size = none := by
  rw [crowding?, if_neg (Nat.not_lt.mpr within), if_pos room]

/-- A fragment of a message that fits breaks no rule, and is put behind those that came
earlier. -/
theorem Fragment.unbroken
    {opcode : DataOpcode}
    {isLast : Bool}
    (fragment : Fragment role opcode isLast)
    (goesOn : GoesOn whole earlier opcode pending)
    (within : earlier.length + fragment.physical.payload.length ≤ limit)
    (room : memory.hasRoom (earlier.length + fragment.physical.payload.length) = true) :
    broken? limit memory pending fragment.physical.header
        fragment.physical.payload.length = none ∧
      fold pending fragment.physical.header fragment.physical.payload =
        let message : Frame := ⟨whole.opcode, earlier ++ fragment.physical.payload⟩
        if isLast then (some message, none) else (none, some message) := by
  obtain ⟨physical, carries, isFinal⟩ := fragment
  have uncrowded := crowding?_eq_none within room
  have assigned := physical.assigned
  rw [carries] at assigned
  cases opcode with
  | continuation =>
      obtain rfl : pending = some ⟨whole.opcode, earlier⟩ := goesOn
      simpa [broken?, fold, Physical.header, carries, isFinal, Frame.length] using uncrowded
  | reserved value => cases assigned
  | _ =>
      obtain ⟨rfl, rfl, carried⟩ := goesOn
      rw [List.length_nil, Nat.zero_add] at uncrowded
      simpa [broken?, fold, Physical.header, carries, isFinal, carried] using uncrowded

/-- Fragments of a message that fits break no rule, and complete it. -/
theorem Fragments.chain_legs
    {opcode : DataOpcode}
    (fragments : Fragments role opcode)
    (goesOn : GoesOn whole earlier opcode pending)
    (payload : earlier ++ fragments.payload = whole.payload)
    (within : whole.length ≤ limit)
    (room : ∀ size ≤ whole.length, memory.hasRoom size = true) :
    Chain limit memory pending (fragments.legs whole) none := by
  induction fragments generalizing earlier pending with
  | last ahead fragment =>
      have size : earlier.length + fragment.physical.payload.length = whole.length := by
        rw [Frame.length, ← payload, List.length_append]
        rfl
      obtain ⟨unbroken, folds⟩ := fragment.unbroken goesOn (size ▸ within)
        (room _ (Nat.le_of_eq size))
      have message : (⟨whole.opcode, earlier ++ fragment.physical.payload⟩ : Frame) =
          whole := by
        rw [show earlier ++ fragment.physical.payload = whole.payload from payload]
      rw [message] at folds
      exact (ControlFrame.chain_legs ahead).append (.cons unbroken folds (.nil none))
  | more ahead fragment later inductionHypothesis =>
      have size :
          earlier.length + fragment.physical.payload.length + later.payload.length =
            whole.length := by
        rw [Frame.length, ← payload, List.length_append, Fragments.payload,
          List.length_append, Nat.add_assoc]
      have fits : earlier.length + fragment.physical.payload.length ≤ whole.length := by
        omega
      obtain ⟨unbroken, folds⟩ :=
        fragment.unbroken goesOn (Nat.le_trans fits within) (room _ fits)
      refine (ControlFrame.chain_legs ahead).append (.cons unbroken folds ?_)
      refine inductionHypothesis rfl ?_
      rw [List.append_assoc]
      exact payload

/-- A message that fits breaks no rule between messages, and leaves none pending. -/
theorem Message.chain_legs
    {message : Message role}
    (fits : message.Fits limit)
    (room : ∀ size < 2 ^ 47, memory.hasRoom size = true) :
    Chain limit memory none message.legs none := by
  have goesOn : GoesOn message.frame [] message.opcode none := by
    obtain ⟨opcode, begins, fragments⟩ := message
    rcases begins with rfl | rfl <;> exact ⟨rfl, rfl, rfl⟩
  refine message.fragments.chain_legs goesOn rfl fits.1 fun size within => ?_
  exact room size (Nat.lt_of_le_of_lt within fits.2)

/-- Traffic whose messages fit breaks no rule. -/
theorem Traffic.chain_legs
    {traffic : Traffic role}
    (fits : ∀ message ∈ traffic.messages, message.Fits limit)
    (room : ∀ size < 2 ^ 47, memory.hasRoom size = true) :
    Chain limit memory none traffic.legs none := by
  obtain ⟨messages, behind⟩ := traffic
  refine Chain.append ?_ (ControlFrame.chain_legs behind)
  dsimp only at fits ⊢
  induction messages with
  | nil => exact .nil none
  | cons message messages inductionHypothesis =>
      have first := fits message List.mem_cons_self
      have others := fun message member => fits message (List.mem_cons_of_mem _ member)
      exact (Message.chain_legs first room).append (inductionHypothesis others)

end Chain

end Grammar
end WebSocket
