import WebSocket.Proofs.Grammar.Basic

/-!
# Streams that are cut short

What is read off the front of a stream stands whatever follows it. So a frame that is cut
anywhere before its last octet has not been read.
-/

namespace WebSocket
namespace Grammar
namespace Scanner

variable {α β : Type}

/-- A scanner whose refusals stand whatever follows, and whose findings depend on nothing
but the octets that they take. -/
structure Settles (scanner : Scanner α) : Prop where
  refused : ∀ ⦃stream refusal⦄, scanner stream = .refused refusal →
    ∀ more, scanner (stream ++ more) = .refused refusal
  takes : ∀ ⦃stream item rest⦄, scanner stream = .found item rest →
    ∃ taken, stream = taken ++ rest ∧
      ∀ more, scanner (taken ++ more) = .found item more

theorem Settles.found
    {scanner : Scanner α}
    (settles : scanner.Settles)
    {stream rest : List UInt8}
    {item : α}
    (found : scanner stream = .found item rest)
    (more : List UInt8) :
    scanner (stream ++ more) = .found item (rest ++ more) := by
  obtain ⟨taken, rfl, finds⟩ := settles.takes found
  rw [List.append_assoc]
  exact finds (rest ++ more)

theorem settles_pure (item : α) : (pure item : Scanner α).Settles where
  refused := nofun
  takes := by
    intro stream item' rest found
    cases found
    exact ⟨[], rfl, fun _ => rfl⟩

theorem settles_refuse (refusal : Refusal) : (refuse refusal : Scanner α).Settles where
  refused := fun _ _ refused _ => refused
  takes := nofun

theorem settles_octet : octet.Settles where
  refused := by
    intro stream refusal refused more
    cases stream <;> cases refused
  takes := by
    intro stream item rest found
    cases stream with
    | nil => cases found
    | cons octet stream =>
        cases found
        exact ⟨[item], rfl, fun _ => rfl⟩

theorem settles_octets (count : Nat) : (octets count).Settles where
  refused := by
    intro stream refusal refused more
    by_cases short : stream.length < count
    · cases (octets_of_lt short).symm.trans refused
    · cases (octets_of_le (Nat.le_of_not_lt short)).symm.trans refused
  takes := by
    intro stream item rest found
    by_cases short : stream.length < count
    · cases (octets_of_lt short).symm.trans found
    · have full : count ≤ stream.length := Nat.le_of_not_lt short
      cases (octets_of_le full).symm.trans found
      refine ⟨stream.take count, (List.take_append_drop count stream).symm, ?_⟩
      exact octets_append (List.length_take_of_le full)

theorem settles_bind
    {scanner : Scanner α}
    {next : α → Scanner β}
    (first : scanner.Settles)
    (second : ∀ item, (next item).Settles) :
    (scanner >>= next).Settles where
  refused := by
    intro stream refusal refused more
    cases scanned : scanner stream with
    | ended => cases (bind_of_ended scanned).symm.trans refused
    | refused refusal' =>
        rw [bind_of_refused scanned] at refused
        rw [bind_of_refused (first.refused scanned more), refused]
    | found item rest =>
        rw [bind_of_found scanned] at refused
        rw [bind_of_found (first.found scanned more)]
        exact (second item).refused refused more
  takes := by
    intro stream item rest found
    obtain ⟨item', between, foundFirst, foundSecond⟩ := found_of_bind found
    obtain ⟨taken, rfl, findsFirst⟩ := first.takes foundFirst
    obtain ⟨later, rfl, findsSecond⟩ := (second item').takes foundSecond
    refine ⟨taken ++ later, (List.append_assoc taken later rest).symm, ?_⟩
    intro more
    rw [List.append_assoc, bind_of_found (findsFirst (later ++ more))]
    exact findsSecond more

section Cuts

variable
    {scanner : Scanner α}
    {stream : List UInt8}

/-- An item that takes a whole stream is not found in less of it. -/
theorem Settles.take_of_found
    (settles : scanner.Settles)
    {item : α}
    (found : scanner stream = .found item [])
    {count : Nat}
    (short : count < stream.length) :
    scanner (stream.take count) = .ended := by
  have whole : stream.take count ++ stream.drop count = stream :=
    List.take_append_drop count stream
  cases scanned : scanner (stream.take count) with
  | ended => rfl
  | refused refusal =>
      have refused := settles.refused scanned (stream.drop count)
      rw [whole, found] at refused
      cases refused
  | found item' rest =>
      have foundThen := settles.found scanned (stream.drop count)
      rw [whole, found] at foundThen
      obtain ⟨-, nothing⟩ := Scan.found.inj foundThen
      have left : (stream.drop count).length = 0 := by
        rw [(List.append_eq_nil_iff.mp nothing.symm).2]
        rfl
      rw [List.length_drop] at left
      omega

end Cuts
end Scanner

open Scanner

/-! ## Headers and frames -/

theorem settles_opening : opening.Settles := by
  refine settles_bind settles_octet fun first => ?_
  dsimp only
  split
  · exact settles_refuse _
  · split
    · exact settles_refuse _
    · exact settles_pure _

theorem settles_announcement (role : Role) : (announcement role).Settles := by
  refine settles_bind settles_octet fun second => ?_
  dsimp only
  split
  · exact settles_refuse _
  · exact settles_refuse _
  · exact settles_pure _

theorem settles_length (announced : Nat) : (length announced).Settles := by
  unfold length
  split
  · exact settles_bind (settles_octets 2) fun _ => settles_pure _
  · split
    · refine settles_bind (settles_octets 8) fun octets => ?_
      dsimp only
      split
      · exact settles_refuse _
      · exact settles_pure _
    · exact settles_pure _

theorem settles_key (role : Role) : (key role).Settles := by
  cases role with
  | server => exact settles_bind (settles_octets 4) fun _ => settles_pure _
  | client => exact settles_pure none

theorem settles_header (role : Role) : (header role).Settles := by
  refine settles_bind settles_opening fun opened => ?_
  refine settles_bind (settles_announcement role) fun announced => ?_
  refine settles_bind (settles_length announced) fun length => ?_
  exact settles_bind (settles_key role) fun _ => settles_pure _

theorem settles_body
    (limit : Nat)
    (memory : Memory)
    (pending : Option Frame)
    (header : FrameHeader)
    (length : Nat) : (body limit memory pending header length).Settles := by
  unfold body
  split
  · exact settles_refuse _
  · exact settles_bind (settles_octets length) fun _ => settles_pure _

theorem settles_frame
    (role : Role)
    (limit : Nat)
    (memory : Memory)
    (pending : Option Frame) : (frame role limit memory pending).Settles :=
  settles_bind (settles_header role) fun _ => settles_body limit memory pending _ _

end Grammar
end WebSocket
