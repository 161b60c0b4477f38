/-!
Spans of time as whole nanoseconds.
-/
namespace SnapshotEndpoint.Duration

def nanosPerMilli : Nat := 1000000
def nanosPerSecond : Nat := 1000000000

def ofMillis (ms : Nat) : Nat := ms * nanosPerMilli

/-- Whole milliseconds, a started one counted in full. -/
def ceilMillis (nanos : Nat) : Nat := (nanos + (nanosPerMilli - 1)) / nanosPerMilli

/-- A number with so many digits in front of trailing zeros, which are dropped. -/
def decimals (width part : Nat) : List Char :=
  let digits := Nat.toDigits 10 part
  let padded := List.replicate (width - digits.length) '0' ++ digits
  (padded.reverse.dropWhile (· == '0')).reverse

def inUnits (width : Nat) (unit : String) (nanos : Nat) : String :=
  let whole := nanos / Nat.pow 10 width
  let part := nanos % Nat.pow 10 width
  toString whole ++ (if part = 0 then "" else "." ++ String.ofList (decimals width part)) ++ unit

def text (nanos : Nat) : String :=
  if nanosPerSecond ≤ nanos then inUnits 9 "s" nanos
  else if nanosPerMilli ≤ nanos then inUnits 6 "ms" nanos
  else if 1000 ≤ nanos then inUnits 3 "µs" nanos
  else inUnits 0 "ns" nanos

end SnapshotEndpoint.Duration
