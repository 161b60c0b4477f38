import SnapshotEndpoint.Binary64

/-!
Decimal numerals read into doubles. `ofDecimal` rounds the exact value once;
`ofScaledInteger` rounds a whole number first and then scales it by rounded powers of
ten, which may land on a neighbour of the nearest double.
-/
namespace SnapshotEndpoint.Binary64

def decimalLength (n : Nat) : Nat := (Nat.toDigits 10 n).length

/-- The double nearest to `significand * 10^exponent`. Exponents that can only give zero or
    infinity are settled before any power is formed. -/
def ofDecimal (negative : Bool) (significand : Nat) (exponent : Int) : Binary64 :=
  if significand = 0 then finite negative 0
  else if exponent > 400 then infinite negative
  else if exponent + decimalLength significand < -400 then finite negative 0
  else if exponent ≥ 0 then
    ofQuotient negative (significand * Nat.pow 10 exponent.toNat * unitsPerOne) 1
  else ofQuotient negative (significand * unitsPerOne) (Nat.pow 10 (-exponent).toNat)

def powerOfTen (n : Nat) : Binary64 := ofDecimal false 1 n

/-- Divide by 10^308 until the remaining exponent has a finite power of ten. -/
def scaleDown : Nat → Binary64 → Nat → Binary64
  | 0, x, _ => x
  | fuel + 1, x, exponent =>
      if exponent ≤ 308 then div x (powerOfTen exponent)
      else if x = finite false 0 then x
      else scaleDown fuel (div x (powerOfTen 308)) (exponent - 308)

/-- A whole number, rounded, then scaled by `10^exponent` in double arithmetic; `none` when
    the result would be infinite. Two divisions by 10^308 already leave zero, so four
    rounds settle every negative exponent. -/
def ofScaledInteger (negative : Bool) (significand : Nat) (exponent : Int) : Option Binary64 :=
  let start := ofNat significand
  let scaled : Option Binary64 :=
    if exponent ≥ 0 then
      if exponent ≤ 308 then
        match mul start (powerOfTen exponent.toNat) with
        | infinite _ => none
        | x => some x
      else if start = finite false 0 then some start
      else none
    else some (scaleDown 4 start (-exponent).toNat)
  scaled.map fun x => if negative then neg x else x

end SnapshotEndpoint.Binary64
