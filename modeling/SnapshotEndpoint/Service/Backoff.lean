import SnapshotEndpoint.Config
import SnapshotEndpoint.Binary64.Decimal
import SnapshotEndpoint.Service.Duration
import SnapshotEndpoint.Word

/-!
Delays that grow after every failure. The delay to wait is the base delay with jitter; the
base never depends on what was drawn. Delays are whole nanoseconds; the products are
computed in doubles and rounded, and cut at the largest 64-bit number of nanoseconds.
-/
namespace SnapshotEndpoint

structure Backoff where
  current : Nat
  min : Nat
  max : Nat
  multiplier : Binary64
  jitter : Binary64
  deriving DecidableEq, Repr

inductive Delay where
  | exact (nanos : Nat)
  /-- A base times a factor drawn at or above `low` and below `high`. -/
  | drawn (base : Nat) (low high : Binary64)
  /-- There is no factor to draw: the range is empty. -/
  | emptyRange
  deriving DecidableEq, Repr

namespace Backoff

/-- The largest number of nanoseconds that a product can give. -/
def scaleLimit : Nat := wordLimit - 1

def scale (nanos : Nat) (factor : Binary64) : Nat :=
  Binary64.toNatWithin scaleLimit (Binary64.mul (Binary64.ofNat nanos) factor)

def jitterLimit : Binary64 := Binary64.ofDecimal false 999 (-3)

/-- A jitter cut to what is allowed; NaN counts as none. -/
def clampJitter (jitter : Binary64) : Binary64 :=
  if jitter.isNan then Binary64.zero
  else if Binary64.lt jitter Binary64.zero then Binary64.zero
  else if Binary64.lt jitterLimit jitter then jitterLimit
  else jitter

/-- A growth factor of at least one; NaN counts as one. -/
def clampMultiplier (multiplier : Binary64) : Binary64 :=
  if multiplier.isNan then Binary64.one else Binary64.max multiplier Binary64.one

/-- A fresh backoff; the upper bound is never below the first delay. -/
def new (min max : Nat) (jitter multiplier : Binary64) : Backoff :=
  ⟨min, min, if min ≤ max then max else min, clampMultiplier multiplier, clampJitter jitter⟩

def ofConfig (config : BackoffSection) : Backoff :=
  new (Duration.ofMillis config.initialDelayMs) (Duration.ofMillis config.maxDelayMs)
    config.jitter config.multiplier

/-- The delay before jitter that the next call is based on. -/
def base (b : Backoff) : Nat := b.current

def advance (b : Backoff) : Backoff :=
  { b with current := Nat.min (scale b.current b.multiplier) b.max }

def reset (b : Backoff) : Backoff := { b with current := b.min }

def nextDelay (b : Backoff) : Delay :=
  if Binary64.le b.jitter Binary64.zero || b.current == 0 then .exact b.current
  else
    let low := Binary64.sub Binary64.one b.jitter
    let high := Binary64.add Binary64.one b.jitter
    if Binary64.lt low high then .drawn b.current low high else .emptyRange

end Backoff

/-- The delay under a drawn factor; an empty range has none. -/
def Delay.under (factor : Binary64) : Delay → Option Nat
  | exact nanos => some nanos
  | drawn base _ _ => some (Backoff.scale base factor)
  | emptyRange => none

end SnapshotEndpoint
