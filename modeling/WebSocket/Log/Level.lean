/-!
# Log levels

Records carry a level, and a threshold decides which levels are let through.
-/

namespace WebSocket
namespace Log

/-- How much a record matters. -/
inductive Level
  | error
  | warn
  | info
  | debug
  | trace
  deriving DecidableEq, Repr

namespace Level

/-- The rank of a level: the more a record matters, the lower it is. -/
def rank : Level → Nat
  | .error => 1
  | .warn => 2
  | .info => 3
  | .debug => 4
  | .trace => 5

/-- The name a level is written by. -/
def name : Level → String
  | .error => "ERROR"
  | .warn => "WARN"
  | .info => "INFO"
  | .debug => "DEBUG"
  | .trace => "TRACE"

end Level

/-- Which records are let through. -/
inductive Threshold
  /-- None at all. -/
  | off
  /-- Those of a level and of the levels that matter more. -/
  | upTo (level : Level)
  deriving DecidableEq, Repr

namespace Threshold

/-- Whether records of a level are let through. -/
def admits : Threshold → Level → Bool
  | .off, _ => false
  | .upTo highest, level => level.rank ≤ highest.rank

@[simp] theorem admits_off (level : Level) : off.admits level = false := rfl

@[simp] theorem admits_upTo (highest level : Level) :
    (upTo highest).admits level = decide (level.rank ≤ highest.rank) := rfl

/-- The name a threshold is written by. -/
def name : Threshold → String
  | .off => "OFF"
  | .upTo level => level.name

end Threshold
end Log
end WebSocket
