import SnapshotEndpoint.Toml.Scalar

/-!
The four ways to quote a string: basic and literal, on one line or over several.
-/
namespace SnapshotEndpoint.Toml

def isWhite (c : Char) : Bool := c == ' ' || c == '\t'

/-- Characters that stand for themselves: everything but the controls, of which the tab is
    free. -/
def isPlain (c : Char) : Bool := c == '\t' || (0x20 ≤ c.toNat && c.toNat != 0x7F)

def readNewline : List Char → Option (List Char)
  | '\n' :: rest => some rest
  | '\r' :: '\n' :: rest => some rest
  | _ => none

/-- A code point from exactly so many hexadecimal digits; surrogates are none. -/
def readCodePoint (count : Nat) : Reader Char := fun cs =>
  let digits := cs.take count
  let value := baseValue 16 digits
  if digits.length = count ∧ digits.all isHexDigit ∧ value.isValidChar then
    some (Char.ofNat value, cs.drop count)
  else none

def readEscape : Reader Char
  | 'b' :: rest => some (Char.ofNat 8, rest)
  | 'f' :: rest => some (Char.ofNat 12, rest)
  | 'n' :: rest => some ('\n', rest)
  | 'r' :: rest => some ('\r', rest)
  | 't' :: rest => some ('\t', rest)
  | '"' :: rest => some ('"', rest)
  | '\\' :: rest => some ('\\', rest)
  | 'u' :: rest => readCodePoint 4 rest
  | 'U' :: rest => readCodePoint 8 rest
  | _ => none

def readBasic : Nat → Reader (List Char)
  | 0, _ => none
  | fuel + 1, cs =>
      match cs with
      | [] => none
      | '"' :: rest => some ([], rest)
      | '\\' :: rest => do
          let (c, rest) ← readEscape rest
          let (text, rest) ← readBasic fuel rest
          some (c :: text, rest)
      | c :: rest =>
          if isPlain c then do
            let (text, rest) ← readBasic fuel rest
            some (c :: text, rest)
          else none

def readLiteral : Reader (List Char)
  | [] => none
  | c :: rest =>
      if c = '\'' then some ([], rest)
      else if isPlain c then (readLiteral rest).map fun (text, rest) => (c :: text, rest)
      else none

def skipBlankLines : Nat → List Char → List Char
  | 0, cs => cs
  | fuel + 1, cs =>
      match cs with
      | [] => []
      | c :: rest =>
          if isWhite c then skipBlankLines fuel rest
          else match readNewline (c :: rest) with
            | some rest => skipBlankLines fuel rest
            | none => c :: rest

/-- The text behind a line break that a backslash hides, with the blanks around it. -/
def readHiddenBreak (cs : List Char) : Option (List Char) :=
  (readNewline (cs.dropWhile isWhite)).map fun rest => skipBlankLines rest.length rest

/-- What a run of quotes means in a string over several lines: one or two stand for
    themselves, three to five close it, leaving those in front of the last three. -/
inductive QuoteRun where
  | inner
  | closing (kept : Nat)
  | excess

def quoteRun (count : Nat) : QuoteRun :=
  if count < 3 then .inner else if count ≤ 5 then .closing (count - 3) else .excess

/-- A string over several lines. In a basic one a backslash starts an escape or hides a line
    break; a line break of either kind is kept as a line feed. -/
def readMultiline (quote : Char) (escapes : Bool) : Nat → Reader (List Char)
  | 0, _ => none
  | fuel + 1, cs =>
      match cs with
      | [] => none
      | c :: rest =>
          if c = quote then
            let run := cs.takeWhile (· == quote)
            let rest := cs.drop run.length
            match quoteRun run.length with
            | .inner => do
                let (text, rest) ← readMultiline quote escapes fuel rest
                some (run ++ text, rest)
            | .closing kept => some (List.replicate kept quote, rest)
            | .excess => none
          else if c = '\\' ∧ escapes = true then
            match readHiddenBreak rest with
            | some rest => readMultiline quote escapes fuel rest
            | none => do
                let (c, rest) ← readEscape rest
                let (text, rest) ← readMultiline quote escapes fuel rest
                some (c :: text, rest)
          else
            match readNewline (c :: rest) with
            | some rest => do
                let (text, rest) ← readMultiline quote escapes fuel rest
                some ('\n' :: text, rest)
            | none =>
                if isPlain c then do
                  let (text, rest) ← readMultiline quote escapes fuel rest
                  some (c :: text, rest)
                else none

/-- The first line break of a string over several lines does not count. -/
def skipFirstBreak (cs : List Char) : List Char := (readNewline cs).getD cs

def readMultilineBody (quote : Char) (escapes : Bool) : Reader (List Char) := fun cs =>
  let body := skipFirstBreak cs
  readMultiline quote escapes (body.length + 1) body

def readQuotedValue : Reader (List Char)
  | '"' :: '"' :: '"' :: rest => readMultilineBody '"' true rest
  | '"' :: rest => readBasic (rest.length + 1) rest
  | '\'' :: '\'' :: '\'' :: rest => readMultilineBody '\'' false rest
  | '\'' :: rest => readLiteral rest
  | _ => none

def readQuotedKey : Reader (List Char)
  | '"' :: rest => readBasic (rest.length + 1) rest
  | '\'' :: rest => readLiteral rest
  | _ => none

end SnapshotEndpoint.Toml
