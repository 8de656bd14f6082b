/-!
# Answers of resumable parsers

A resumable parser takes its input in pieces. After each piece it either says how
much it lacks or hands over what it has parsed.
-/

namespace WebSocket

/-- What a resumable parser answers. -/
inductive Parse (α : Type)
  /-- At least this many more octets are needed. -/
  | needMore (count : Nat)
  /-- Parsing is finished. -/
  | ready (value : α)
  deriving DecidableEq, Repr

end WebSocket
