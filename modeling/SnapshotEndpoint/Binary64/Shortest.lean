import SnapshotEndpoint.Binary64.Decimal

/-!
The text of a double: the fewest decimal digits that read back as the same value, laid
out as a `Layout` says.
-/
namespace SnapshotEndpoint.Binary64

structure Numeral where
  digits : Nat
  exponent : Int
  deriving DecidableEq, Repr

/-- The reals that round to a positive double, as quarter units: from `low` to `high`, the
    ends included when the last mantissa bit is zero. -/
structure RoundingInterval where
  low : Nat
  high : Nat
  closed : Bool

def roundingInterval (units : Nat) : RoundingInterval :=
  let step := spacing units
  let below := if units = mantissaLimit * step && step > 1 then step else 2 * step
  ⟨4 * units - below, 4 * units + 2 * step, units / step % 2 == 0⟩

def RoundingInterval.holds (interval : RoundingInterval) (candidate : Nat) (exponent : Int) : Bool :=
  let value := candidate * 4 * unitsPerOne * Nat.pow 10 exponent.toNat
  let scale := Nat.pow 10 (-exponent).toNat
  if interval.closed then
    decide (interval.low * scale ≤ value) && decide (value ≤ interval.high * scale)
  else decide (interval.low * scale < value) && decide (value < interval.high * scale)

/-- The place of the leading decimal digit of a positive count of units. -/
def leadingPlace (units : Nat) : Int :=
  (decimalLength (units * Nat.pow 10 400 / unitsPerOne) : Int) - 401

/-- Of the two neighbours on the grid of multiples of `10^exponent`, the one that reads back;
    if both do, the nearer, and on a tie the even one. -/
def gridNeighbour (units : Nat) (exponent : Int) : Option Nat :=
  let numerator := units * Nat.pow 10 (-exponent).toNat
  let denominator := unitsPerOne * Nat.pow 10 exponent.toNat
  let below := numerator / denominator
  let above := below + 1
  let interval := roundingInterval units
  let twiceRest := 2 * (numerator % denominator)
  match interval.holds below exponent, interval.holds above exponent with
  | true, true =>
      if twiceRest < denominator || (twiceRest == denominator && below % 2 == 0) then some below
      else some above
  | true, false => some below
  | false, true => some above
  | false, false => none

def dropTrailingZeros : Nat → Numeral → Numeral
  | 0, n => n
  | fuel + 1, n =>
      if n.digits ≠ 0 && n.digits % 10 == 0 then
        dropTrailingZeros fuel ⟨n.digits / 10, n.exponent + 1⟩
      else n

/-- The first grid, from one digit to seventeen, that has a value reading back; past those
    the exact decimal expansion. -/
def shortestFrom (units : Nat) (place : Int) : Nat → Nat → Numeral
  | 0, _ => ⟨units * Nat.pow 5 1074, -1074⟩
  | fuel + 1, count =>
      let exponent := place - (count : Int) + 1
      match gridNeighbour units exponent with
      | some digits => dropTrailingZeros 20 ⟨digits, exponent⟩
      | none => shortestFrom units place fuel (count + 1)

def shortest (units : Nat) : Numeral := shortestFrom units (leadingPlace units) 17 1

/-- How a numeral is laid out. The point position is the number of digits before the point
    when the number is written without an exponent. -/
structure Layout where
  /-- Point positions written without an exponent. -/
  positional : Int → Bool
  keepsPoint : Bool
  /-- Sign in front of a nonnegative exponent. -/
  exponentPlus : String

def zeros (n : Nat) : String := String.ofList (List.replicate n '0')

def positionalText (layout : Layout) (digits : List Char) (point : Int) : String :=
  if point ≤ 0 then "0." ++ zeros (-point).toNat ++ String.ofList digits
  else if point ≥ digits.length then
    String.ofList digits ++ zeros (point - digits.length).toNat ++
      (if layout.keepsPoint then ".0" else "")
  else String.ofList (digits.take point.toNat) ++ "." ++ String.ofList (digits.drop point.toNat)

def exponentText (layout : Layout) (digits : List Char) (point : Int) : String :=
  let exponent := point - 1
  let fraction := digits.drop 1
  String.ofList (digits.take 1) ++ (if fraction.isEmpty then "" else "." ++ String.ofList fraction) ++
    "e" ++ (if exponent < 0 then "-" else layout.exponentPlus) ++ toString exponent.natAbs

def magnitudeText (layout : Layout) (units : Nat) : String :=
  if units = 0 then (if layout.keepsPoint then "0.0" else "0")
  else
    let numeral := shortest units
    let digits := Nat.toDigits 10 numeral.digits
    let point := (digits.length : Int) + numeral.exponent
    if layout.positional point then positionalText layout digits point
    else exponentText layout digits point

def render (layout : Layout) : Binary64 → String
  | nan => "NaN"
  | infinite negative => (if negative then "-" else "") ++ "inf"
  | finite negative units => (if negative then "-" else "") ++ magnitudeText layout units

def plainLayout : Layout := ⟨fun _ => true, false, ""⟩

/-- Exponents below 10^-4 and from 10^16 on, whole numbers with `.0`. -/
def tersePointLayout : Layout := ⟨fun point => decide (-3 ≤ point ∧ point ≤ 16), true, ""⟩

/-- Text in messages to a reader: every digit written out. -/
def text (x : Binary64) : String := render plainLayout x

end SnapshotEndpoint.Binary64
