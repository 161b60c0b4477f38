import SnapshotEndpoint.Json.Numeral

/-!
The tree of a JSON text, as far as the text is well formed. Reading runs from left to
right and stops at the first fault; the fault is kept where it stands, so that whoever
reads values out of the tree meets misfits and faults in the order of the text.
-/
namespace SnapshotEndpoint.Json

/-- A part of a string: a character, or the code of a `\u` escape as it was written. -/
inductive Piece where
  | char (c : Char)
  | code (unit : Nat)
  deriving DecidableEq, Repr

structure Quoted where
  pieces : List Piece
  fault : Option Fault
  deriving DecidableEq, Repr

inductive ArrayEnd where
  | closed
  | openComma
  | broken (fault : Fault)
  deriving DecidableEq, Repr

inductive ObjectEnd where
  | closed
  | broken (fault : Fault)
  deriving DecidableEq, Repr

inductive Tree where
  | null
  | bool (value : Bool)
  /-- A number token; it has no value when it is out of range. -/
  | number (value : Option Number)
  | string (token : Quoted)
  | array (items : List Tree) (ending : ArrayEnd)
  | object (members : List (Quoted × Tree)) (ending : ObjectEnd)
  | brokenNumber (fault : Fault)
  | broken (fault : Fault)
  deriving Inhabited

def isSpace (c : Char) : Bool := c == ' ' || c == '\n' || c == '\t' || c == '\r'

def skipSpace (cs : List Char) : List Char := cs.dropWhile isSpace

/-- The four digits of a `\u` escape. The text is too short when fewer than four bytes
    follow, whatever they are. -/
def readCode : List Char → Except Fault (Nat × List Char)
  | a :: b :: c :: d :: rest =>
      match Text.hexDigit? a, Text.hexDigit? b, Text.hexDigit? c, Text.hexDigit? d with
      | some p, some q, some r, some s => .ok (((p * 16 + q) * 16 + r) * 16 + s, rest)
      | _, _, _, _ => .error .malformed
  | cs => if (String.ofList cs).utf8ByteSize < 4 then .error .early else .error .malformed

def plainEscape? (c : Char) : Option Char :=
  if c = '"' ∨ c = '\\' ∨ c = '/' then some c
  else if c = 'b' then some (Char.ofNat 8)
  else if c = 'f' then some (Char.ofNat 12)
  else if c = 'n' then some '\n'
  else if c = 'r' then some '\r'
  else if c = 't' then some '\t'
  else none

def readEscape : List Char → Except Fault (Piece × List Char)
  | [] => .error .early
  | c :: rest =>
      if c = 'u' then do
        let (unit, rest) ← readCode rest
        .ok (.code unit, rest)
      else
        match plainEscape? c with
        | some plain => .ok (.char plain, rest)
        | none => .error .malformed

def readPiece : List Char → Except Fault (Piece × List Char)
  | [] => .error .early
  | c :: rest =>
      if c = '\\' then readEscape rest
      else if c.toNat < 0x20 then .error .malformed
      else .ok (.char c, rest)

/-- The pieces after an opening quote up to the closing one, and the text behind it. -/
def readQuoted : Nat → List Char → Quoted × List Char
  | 0, _ => (⟨[], some .early⟩, [])
  | fuel + 1, cs =>
      match cs with
      | '"' :: rest => (⟨[], none⟩, rest)
      | _ =>
          match readPiece cs with
          | .error fault => (⟨[], some fault⟩, [])
          | .ok (piece, rest) =>
              let (token, rest) := readQuoted fuel rest
              (⟨piece :: token.pieces, token.fault⟩, rest)

def readWord : List Char → List Char → Except Fault (List Char)
  | [], cs => .ok cs
  | _ :: _, [] => .error .early
  | w :: word, c :: cs => if w = c then readWord word cs else .error .malformed

/-- The text behind a node, or nothing when reading has stopped inside it. -/
abbrev Remainder := Option (List Char)

def wordTree (word : String) (value : Tree) (cs : List Char) : Tree × Remainder :=
  match readWord word.toList cs with
  | .ok rest => (value, some rest)
  | .error fault => (.broken fault, none)

def numberTree (cs : List Char) : Tree × Remainder :=
  match readNumber cs with
  | .ok (token, rest) => (.number token.value?, some rest)
  | .error fault => (.brokenNumber fault, none)

def stringTree (token : Quoted) (rest : List Char) : Tree × Remainder :=
  (.string token, if token.fault.isNone then some rest else none)

def readColon (cs : List Char) : Except Fault (List Char) :=
  match skipSpace cs with
  | [] => .error .early
  | c :: rest => if c = ':' then .ok rest else .error .malformed

mutual

def readTree : Nat → List Char → Tree × Remainder
  | 0, _ => (.broken .malformed, none)
  | fuel + 1, cs =>
      match skipSpace cs with
      | [] => (.broken .early, none)
      | c :: rest =>
          if c = '"' then
            let (token, rest) := readQuoted (rest.length + 1) rest
            stringTree token rest
          else if c = '[' then
            let (items, ending, rest) := readItems fuel true rest
            (.array items ending, rest)
          else if c = '{' then
            let (members, ending, rest) := readMembers fuel true rest
            (.object members ending, rest)
          else if c = 'n' then wordTree "null" .null (c :: rest)
          else if c = 't' then wordTree "true" (.bool true) (c :: rest)
          else if c = 'f' then wordTree "false" (.bool false) (c :: rest)
          else if c = '-' ∨ c.isDigit then numberTree (c :: rest)
          else (.broken .malformed, none)

def readItem : Nat → List Char → List Tree × ArrayEnd × Remainder
  | 0, _ => ([], .broken .malformed, none)
  | fuel + 1, cs =>
      match readTree fuel cs with
      | (item, none) => ([item], .broken .malformed, none)
      | (item, some rest) =>
          let (items, ending, rest) := readItems fuel false rest
          (item :: items, ending, rest)

/-- The items of an array from the place where an item, a comma or the end may stand. -/
def readItems : Nat → Bool → List Char → List Tree × ArrayEnd × Remainder
  | 0, _, _ => ([], .broken .malformed, none)
  | fuel + 1, first, cs =>
      match skipSpace cs with
      | [] => ([], .broken .early, none)
      | c :: rest =>
          if c = ']' then ([], .closed, some rest)
          else if first then readItem fuel (c :: rest)
          else if c = ',' then
            match skipSpace rest with
            | [] => ([], .openComma, none)
            | d :: rest =>
                if d = ']' then ([], .broken .malformed, none) else readItem fuel (d :: rest)
          else ([], .broken .malformed, none)

/-- One member, from behind the opening quote of its key, and those after it. -/
def readMember : Nat → List Char → List (Quoted × Tree) × ObjectEnd × Remainder
  | 0, _ => ([], .broken .malformed, none)
  | fuel + 1, cs =>
      let (key, rest) := readQuoted (cs.length + 1) cs
      match key.fault with
      | some fault => ([(key, .broken fault)], .broken fault, none)
      | none =>
          match readColon rest with
          | .error fault => ([(key, .broken fault)], .broken fault, none)
          | .ok rest =>
              match readTree fuel rest with
              | (value, none) => ([(key, value)], .broken .malformed, none)
              | (value, some rest) =>
                  let (members, ending, rest) := readMembers fuel false rest
                  ((key, value) :: members, ending, rest)

/-- The members of an object from the place where a member, a comma or the end may stand. -/
def readMembers : Nat → Bool → List Char → List (Quoted × Tree) × ObjectEnd × Remainder
  | 0, _, _ => ([], .broken .malformed, none)
  | fuel + 1, first, cs =>
      match skipSpace cs with
      | [] => ([], .broken .early, none)
      | c :: rest =>
          if c = '}' then ([], .closed, some rest)
          else if first then
            if c = '"' then readMember fuel rest else ([], .broken .malformed, none)
          else if c = ',' then
            match skipSpace rest with
            | [] => ([], .broken .early, none)
            | d :: rest =>
                if d = '"' then readMember fuel rest else ([], .broken .malformed, none)
          else ([], .broken .malformed, none)

end

/-- A whole text: its tree, and what stands behind it. Each step of reading either takes a
    character or follows one that does, which bounds the steps by twice the length. -/
structure Document where
  tree : Tree
  fault : Option Fault

def Document.ofChars (cs : List Char) : Document :=
  match readTree (2 * cs.length + 2) cs with
  | (tree, none) => ⟨tree, some .malformed⟩
  | (tree, some rest) => ⟨tree, if (skipSpace rest).isEmpty then none else some .malformed⟩

def Document.ofText (s : String) : Document := Document.ofChars s.toList

end SnapshotEndpoint.Json
