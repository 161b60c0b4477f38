import SnapshotEndpoint.Binary64.Decimal
import SnapshotEndpoint.Text.Blank
import SnapshotEndpoint.Toml.Value
import SnapshotEndpoint.Word

/-!
Numbers, dates and the words of TOML. A reader takes the longest token of its kind from
the front of a text; what may follow a value is settled where values stand.
-/
namespace SnapshotEndpoint.Toml

abbrev Reader (α : Type) := List Char → Option (α × List Char)

def expectWord : List Char → List Char → Option (List Char)
  | [], cs => some cs
  | _ :: _, [] => none
  | w :: word, c :: cs => if w = c then expectWord word cs else none

/-- A sign, if there is one, and whether it is a minus. -/
def readSign : List Char → Bool × List Char
  | '-' :: rest => (true, rest)
  | '+' :: rest => (false, rest)
  | cs => (false, cs)

/-- Digits that may have single underscores between them, after a first digit. -/
def moreDigits (test : Char → Bool) : List Char → List Char × List Char
  | [] => ([], [])
  | [c] => if test c then ([c], []) else ([], [c])
  | c :: d :: rest =>
      if test c then
        let (digits, rest) := moreDigits test (d :: rest)
        (c :: digits, rest)
      else if c = '_' ∧ test d = true then
        let (digits, rest) := moreDigits test rest
        (d :: digits, rest)
      else ([], c :: d :: rest)

def readDigits (test : Char → Bool) : Reader (List Char) := fun cs =>
  match cs with
  | c :: rest =>
      if test c then
        let (digits, rest) := moreDigits test rest
        some (c :: digits, rest)
      else none
  | [] => none

def readWhole : Reader (List Char) := fun cs =>
  match cs with
  | '0' :: rest => some (['0'], rest)
  | _ => readDigits Char.isDigit cs

def isHexDigit (c : Char) : Bool := (Text.hexDigit? c).isSome
def isOctalDigit (c : Char) : Bool := '0' ≤ c && c ≤ '7'
def isBinaryDigit (c : Char) : Bool := c = '0' || c = '1'

def baseValue (base : Nat) (digits : List Char) : Nat :=
  digits.foldl (fun n c => base * n + (Text.hexDigit? c).getD 0) 0

def integerValue (n : Int) : Option Value :=
  if FitsSigned n then some (.integer n) else none

def readBased (base : Nat) (test : Char → Bool) : Reader Value := fun cs => do
  let (digits, rest) ← readDigits test cs
  some (← integerValue (baseValue base digits), rest)

def readDecimalInteger : Reader Value := fun cs => do
  let (negative, cs) := readSign cs
  let (digits, rest) ← readWhole cs
  let size : Int := Text.decimalValue digits
  some (← integerValue (if negative then -size else size), rest)

def readInteger : Reader Value
  | '0' :: 'x' :: rest => readBased 16 isHexDigit rest
  | '0' :: 'o' :: rest => readBased 8 isOctalDigit rest
  | '0' :: 'b' :: rest => readBased 2 isBinaryDigit rest
  | cs => readDecimalInteger cs

def readExponent : Reader Int := fun cs =>
  match cs with
  | c :: rest =>
      if c = 'e' ∨ c = 'E' then do
        let (negative, rest) := readSign rest
        let (digits, rest) ← readDigits Char.isDigit rest
        let size : Int := Text.decimalValue digits
        some (if negative then -size else size, rest)
      else none
  | [] => none

/-- The digits after a point and the exponent, of which at least one is there. -/
def readFraction : Reader (List Char × Int) := fun cs =>
  match cs with
  | '.' :: rest => do
      let (digits, rest) ← readDigits Char.isDigit rest
      match readExponent rest with
      | some (exponent, rest) => some ((digits, exponent), rest)
      | none => some ((digits, 0), rest)
  | _ => (readExponent cs).map fun (exponent, rest) => (([], exponent), rest)

/-- A decimal number with a fraction or an exponent. Numbers too large for a double are
    refused, negative ones become infinite. -/
def readDecimalFloat : Reader Value := fun cs => do
  let (negative, cs) := readSign cs
  let (whole, cs) ← readWhole cs
  let ((fraction, exponent), rest) ← readFraction cs
  let value :=
    Binary64.ofDecimal negative (Text.decimalValue (whole ++ fraction)) (exponent - fraction.length)
  if value = .infinite false then none else some (.float value, rest)

def readSpecialFloat : Reader Value := fun cs =>
  let (negative, body) := readSign cs
  match expectWord "inf".toList body with
  | some rest => some (.float (.infinite negative), rest)
  | none => (expectWord "nan".toList body).map fun rest => (.float .nan, rest)

def readFixed (count low high : Nat) : Reader Nat := fun cs =>
  let digits := cs.take count
  let value := Text.decimalValue digits
  if digits.length = count ∧ digits.all Char.isDigit ∧ low ≤ value ∧ value ≤ high then
    some (value, cs.drop count)
  else none

def isLeapYear (year : Nat) : Bool := year % 4 == 0 && (year % 100 != 0 || year % 400 == 0)

def daysInMonth (year month : Nat) : Nat :=
  if month = 2 then (if isLeapYear year then 29 else 28)
  else if month = 4 ∨ month = 6 ∨ month = 9 ∨ month = 11 then 30
  else 31

def readDate : List Char → Option (List Char) := fun cs => do
  let (year, cs) ← readFixed 4 0 9999 cs
  let (month, cs) ← readFixed 2 1 12 (← expectWord ['-'] cs)
  let (_, cs) ← readFixed 2 1 (daysInMonth year month) (← expectWord ['-'] cs)
  some cs

def skipDecimals : List Char → List Char
  | '.' :: c :: rest => if c.isDigit then rest.dropWhile Char.isDigit else '.' :: c :: rest
  | cs => cs

def readHourMinute : List Char → Option (List Char) := fun cs => do
  let (_, cs) ← readFixed 2 0 23 cs
  let (_, cs) ← readFixed 2 0 59 (← expectWord [':'] cs)
  some cs

/-- A time of the day; a minute may have a leap second. -/
def readTime : List Char → Option (List Char) := fun cs => do
  let cs ← readHourMinute cs
  let (_, cs) ← readFixed 2 0 60 (← expectWord [':'] cs)
  some (skipDecimals cs)

def readOffset : List Char → Option (List Char)
  | c :: rest =>
      if c = 'Z' ∨ c = 'z' then some rest
      else if c = '+' ∨ c = '-' then readHourMinute rest
      else none
  | [] => none

/-- The time behind a date, if there is one, with its offset from universal time. -/
def skipTimeOfDate : List Char → List Char
  | c :: rest =>
      if c = 'T' ∨ c = 't' ∨ c = ' ' then
        match readTime rest with
        | some rest => (readOffset rest).getD rest
        | none => c :: rest
      else c :: rest
  | [] => []

def readDatetime : Reader Value := fun cs =>
  match readDate cs with
  | some rest => some (.datetime, skipTimeOfDate rest)
  | none => (readTime cs).map fun rest => (.datetime, rest)

def readScalar : Reader Value := fun cs =>
  match cs with
  | 't' :: _ => (expectWord "true".toList cs).map fun rest => (.boolean true, rest)
  | 'f' :: _ => (expectWord "false".toList cs).map fun rest => (.boolean false, rest)
  | _ =>
      (readDatetime cs).or ((readDecimalFloat cs).or ((readSpecialFloat cs).or (readInteger cs)))

end SnapshotEndpoint.Toml
