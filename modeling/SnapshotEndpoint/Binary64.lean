import SnapshotEndpoint.Word

/-!
Doubles as exact data. Every finite double is a signed whole number of the smallest
positive one, 2^-1074, so magnitudes are unbounded Nat counts of that unit and all
arithmetic is exact integer arithmetic followed by one rounding. NaN payloads are not
distinguished.
-/
namespace SnapshotEndpoint

inductive Binary64 where
  | nan
  | infinite (negative : Bool)
  | finite (negative : Bool) (units : Nat)
  deriving DecidableEq, Repr, Inhabited

namespace Binary64

def unitsPerOne : Nat := Nat.pow 2 1074

/-- Two to the 1024, counted in units: the first magnitude that rounds to infinity. -/
def unitsLimit : Nat := Nat.pow 2 2098

/-- Two to the 52: a mantissa has this many values. -/
def mantissaLimit : Nat := 4503599627370496

/-- Distance between neighbouring doubles in the binade that holds a count of units. -/
def spacing (count : Nat) : Nat := Nat.pow 2 (count.log2 - 52)

/-- Nearest whole number to a quotient; a half goes to the even neighbour. -/
def nearestEven (numerator denominator : Nat) : Nat :=
  let quotient := numerator / denominator
  let remainder := numerator % denominator
  if 2 * remainder > denominator || (2 * remainder == denominator && quotient % 2 == 1) then
    quotient + 1
  else quotient

/-- Nearest representable count of units to a quotient; a half goes to the even neighbour. -/
def roundUnits (numerator denominator : Nat) : Nat :=
  let step := spacing (numerator / denominator)
  nearestEven numerator (denominator * step) * step

def ofQuotient (negative : Bool) (numerator denominator : Nat) : Binary64 :=
  let units := roundUnits numerator denominator
  if units < unitsLimit then finite negative units else infinite negative

def ofNat (n : Nat) : Binary64 := ofQuotient false (n * unitsPerOne) 1

def ofInt (n : Int) : Binary64 := ofQuotient (decide (n < 0)) (n.natAbs * unitsPerOne) 1

def zero : Binary64 := finite false 0
def one : Binary64 := finite false unitsPerOne

def neg : Binary64 → Binary64
  | nan => nan
  | infinite s => infinite (!s)
  | finite s u => finite (!s) u

def signedUnits (negative : Bool) (units : Nat) : Int :=
  if negative then -(units : Int) else units

def add : Binary64 → Binary64 → Binary64
  | nan, _ => nan
  | _, nan => nan
  | infinite s, infinite t => if s = t then infinite s else nan
  | infinite s, finite _ _ => infinite s
  | finite _ _, infinite t => infinite t
  | finite s u, finite t v =>
      let sum := signedUnits s u + signedUnits t v
      if sum = 0 then finite (s && t) 0 else ofQuotient (decide (sum < 0)) sum.natAbs 1

def sub (x y : Binary64) : Binary64 := add x (neg y)

def mul : Binary64 → Binary64 → Binary64
  | nan, _ => nan
  | _, nan => nan
  | infinite s, infinite t => infinite (xor s t)
  | infinite s, finite t v => if v = 0 then nan else infinite (xor s t)
  | finite s u, infinite t => if u = 0 then nan else infinite (xor s t)
  | finite s u, finite t v => ofQuotient (xor s t) (u * v) unitsPerOne

def div : Binary64 → Binary64 → Binary64
  | nan, _ => nan
  | _, nan => nan
  | infinite _, infinite _ => nan
  | infinite s, finite t _ => infinite (xor s t)
  | finite s _, infinite t => finite (xor s t) 0
  | finite s u, finite t v =>
      if v = 0 then (if u = 0 then nan else infinite (xor s t))
      else ofQuotient (xor s t) (u * unitsPerOne) v

/-- Order of doubles; NaN is below, above and equal to nothing, and the two zeros are equal. -/
def le : Binary64 → Binary64 → Bool
  | nan, _ => false
  | _, nan => false
  | infinite true, _ => true
  | _, infinite false => true
  | _, infinite true => false
  | infinite false, _ => false
  | finite s u, finite t v => decide (signedUnits s u ≤ signedUnits t v)

def lt (x y : Binary64) : Bool := le x y && !le y x

def isNan : Binary64 → Bool
  | nan => true
  | _ => false

def max (x y : Binary64) : Binary64 := if lt x y then y else x

/-- The nearest whole number, a half going away from zero, cut to the range 0 to `limit`;
    NaN counts as zero. -/
def toNatWithin (limit : Nat) : Binary64 → Nat
  | nan => 0
  | infinite negative => if negative then 0 else limit
  | finite negative units =>
      if negative then 0 else min ((2 * units + unitsPerOne) / (2 * unitsPerOne)) limit

/-- The 64-bit pattern of a value; NaN has the quiet pattern. -/
def toBits : Binary64 → Nat
  | nan => 0x7ff8000000000000
  | infinite negative => (if negative then signedLimit else 0) + 0x7ff0000000000000
  | finite negative units =>
      let magnitude :=
        if units < mantissaLimit then units
        else
          let shift := units.log2 - 52
          (shift + 1) * mantissaLimit + (units / Nat.pow 2 shift - mantissaLimit)
      (if negative then signedLimit else 0) + magnitude

end Binary64
end SnapshotEndpoint
