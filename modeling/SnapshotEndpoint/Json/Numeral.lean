import SnapshotEndpoint.Binary64.Decimal
import SnapshotEndpoint.Text.Blank
import SnapshotEndpoint.Word

/-!
Number tokens of JSON and their values. A whole number that fits 64 bits keeps every
digit; any other number is a double, computed from the digits that fit an unsigned 64-bit
word and a power of ten.
-/
namespace SnapshotEndpoint.Json

/-- Why reading a text stops: it ends too early, or a character cannot stand where it is. -/
inductive Fault where
  | early
  | malformed
  deriving DecidableEq, Repr

structure NumberToken where
  negative : Bool
  whole : List Char
  fraction : List Char
  exponent : Option (Bool × List Char)

inductive Number where
  | integer (value : Int)
  | float (value : Binary64)
  deriving DecidableEq, Repr

/-- Digits taken into a significand for as long as it fits a word. -/
def absorbDigits : Nat → List Char → Nat × List Char
  | significand, [] => (significand, [])
  | significand, c :: rest =>
      let next := 10 * significand + (c.toNat - '0'.toNat)
      if next < wordLimit then absorbDigits next rest else (significand, c :: rest)

namespace NumberToken

def isWhole (token : NumberToken) : Bool := token.fraction.isEmpty && token.exponent.isNone

def exponentValue (token : NumberToken) : Int :=
  match token.exponent with
  | none => 0
  | some (negative, digits) =>
      let size : Int := Text.decimalValue digits
      if negative then -size else size

/-- The double a token stands for, `none` when it is out of range. Digits of the whole part
    that do not fit count as zeros, digits of the fraction that do not fit are dropped. -/
def double? (token : NumberToken) : Option Binary64 :=
  let (significand, dropped) := absorbDigits 0 token.whole
  let (significand, unused) := absorbDigits significand token.fraction
  let used := token.fraction.length - unused.length
  Binary64.ofScaledInteger token.negative significand
    (dropped.length - used + token.exponentValue)

/-- The value of a token, `none` when it is out of range. Negative zero is a double. -/
def value? (token : NumberToken) : Option Number :=
  let size := Text.decimalValue token.whole
  if token.isWhole && size < wordLimit && !token.negative then some (.integer size)
  else if token.isWhole && 0 < size && size ≤ signedLimit && token.negative then
    some (.integer (-(size : Int)))
  else token.double?.map .float

end NumberToken

def takeDigits (cs : List Char) : List Char × List Char := cs.span Char.isDigit

def readDigits (cs : List Char) : Except Fault (List Char × List Char) :=
  match cs with
  | [] => .error .early
  | c :: _ => if c.isDigit then .ok (takeDigits cs) else .error .malformed

/-- The whole part of a number: a zero alone, or digits that do not start with zero. -/
def readWhole (cs : List Char) : Except Fault (List Char × List Char) := do
  let (digits, rest) ← readDigits cs
  match digits with
  | '0' :: _ :: _ => .error .malformed
  | _ => .ok (digits, rest)

def readFraction : List Char → Except Fault (List Char × List Char)
  | '.' :: rest => readDigits rest
  | cs => .ok ([], cs)

/-- The digits after an exponent mark, with a sign in front or without. -/
def readSignedDigits : List Char → Except Fault ((Bool × List Char) × List Char)
  | '-' :: rest => do let (digits, rest) ← readDigits rest; .ok ((true, digits), rest)
  | '+' :: rest => do let (digits, rest) ← readDigits rest; .ok ((false, digits), rest)
  | cs => do let (digits, rest) ← readDigits cs; .ok ((false, digits), rest)

def readExponent : List Char → Except Fault (Option (Bool × List Char) × List Char)
  | c :: rest =>
      if c = 'e' ∨ c = 'E' then do
        let (exponent, rest) ← readSignedDigits rest
        .ok (some exponent, rest)
      else .ok (none, c :: rest)
  | [] => .ok (none, [])

def readUnsigned (negative : Bool) (cs : List Char) : Except Fault (NumberToken × List Char) := do
  let (whole, rest) ← readWhole cs
  let (fraction, rest) ← readFraction rest
  let (exponent, rest) ← readExponent rest
  .ok (⟨negative, whole, fraction, exponent⟩, rest)

def readNumber : List Char → Except Fault (NumberToken × List Char)
  | '-' :: rest => readUnsigned true rest
  | cs => readUnsigned false cs

end SnapshotEndpoint.Json
