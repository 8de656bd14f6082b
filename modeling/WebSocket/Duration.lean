/-!
# Durations

Waits are measured in nanoseconds. A duration is written in the largest unit
that gives it a whole part other than zero, with as many decimals as it needs.
-/

namespace WebSocket

/-- A length of time. -/
structure Duration where
  nanoseconds : Nat
  deriving DecidableEq, Repr

namespace Duration

/-- A whole number of seconds. -/
def ofSeconds (seconds : Nat) : Duration := ⟨1000000000 * seconds⟩

/-- The decimals that follow a whole part: `digits` places, without the zeros at
their end and without a point if nothing is left. -/
def decimals (digits fraction : Nat) : String :=
  let places := (List.range digits).reverse.map fun place =>
    Nat.digitChar (fraction / Nat.pow 10 place % 10)
  match (places.reverse.dropWhile (· == '0')).reverse with
  | [] => ""
  | kept => "." ++ String.ofList kept

/-- A count of nanoseconds in the unit that is `digits` decimal places larger. -/
def inUnit (nanoseconds digits : Nat) (name : String) : String :=
  toString (nanoseconds / Nat.pow 10 digits) ++
    decimals digits (nanoseconds % Nat.pow 10 digits) ++ name

/-- The text of a duration, such as `1.5s`, `5ms`, `250µs` or `0ns`. -/
def text (duration : Duration) : String :=
  if 1000000000 ≤ duration.nanoseconds then inUnit duration.nanoseconds 9 "s"
  else if 1000000 ≤ duration.nanoseconds then inUnit duration.nanoseconds 6 "ms"
  else if 1000 ≤ duration.nanoseconds then inUnit duration.nanoseconds 3 "µs"
  else inUnit duration.nanoseconds 0 "ns"

/-- The text of a time limit, which may be absent. -/
def limitText : Option Duration → String
  | none => "None"
  | some duration => "Some(" ++ duration.text ++ ")"

end Duration
end WebSocket
