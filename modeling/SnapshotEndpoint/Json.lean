import SnapshotEndpoint.Binary64.Shortest
import SnapshotEndpoint.SortedMap
import SnapshotEndpoint.Text.Blank

/-!
JSON values and their two written forms: compact, and indented by two blanks. Object
members stand in the order of the list; values read from text hold them sorted by key.
-/
namespace SnapshotEndpoint

inductive Json where
  | null
  | bool (value : Bool)
  | integer (value : Int)
  | float (value : Binary64)
  | string (value : String)
  | array (items : List Json)
  | object (members : List (String × Json))
  deriving Repr, Inhabited

namespace Json

/-- Plain digits from 10^-5 up to below 10^16, whole numbers with `.0`, exponents signed. -/
def numberLayout : Binary64.Layout :=
  ⟨fun point => decide (-4 ≤ point ∧ point ≤ 16), true, "+"⟩

/-- A double in JSON text; what is not a number has no JSON form but null. -/
def floatText : Binary64 → List Char
  | .finite negative units => (Binary64.render numberLayout (.finite negative units)).toList
  | _ => "null".toList

def twoHexDigits (n : Nat) : List Char :=
  [Nat.digitChar (n / 16), Nat.digitChar (n % 16)]

def escapeChar (c : Char) : List Char :=
  if c = '"' then ['\\', '"']
  else if c = '\\' then ['\\', '\\']
  else if c.toNat = 8 then ['\\', 'b']
  else if c.toNat = 12 then ['\\', 'f']
  else if c = '\n' then ['\\', 'n']
  else if c = '\r' then ['\\', 'r']
  else if c = '\t' then ['\\', 't']
  else if c.toNat < 0x20 then ['\\', 'u', '0', '0'] ++ twoHexDigits c.toNat
  else [c]

def stringChars (s : String) : List Char := '"' :: s.toList.flatMap escapeChar ++ ['"']

def intChars (n : Int) : List Char := (toString n).toList

mutual

/-- Compact text: no blanks between tokens. -/
def compactChars : Json → List Char
  | null => "null".toList
  | bool b => (if b then "true" else "false").toList
  | integer n => intChars n
  | float x => floatText x
  | string s => stringChars s
  | array items => '[' :: compactItems items ++ [']']
  | object members => '{' :: compactMembers members ++ ['}']

def compactItems : List Json → List Char
  | [] => []
  | [item] => compactChars item
  | item :: next :: rest => compactChars item ++ ',' :: compactItems (next :: rest)

def compactMembers : List (String × Json) → List Char
  | [] => []
  | [(key, value)] => stringChars key ++ ':' :: compactChars value
  | (key, value) :: next :: rest =>
      stringChars key ++ ':' :: compactChars value ++ ',' :: compactMembers (next :: rest)

end

def text (value : Json) : String := String.ofList (compactChars value)

def lineBreak (depth : Nat) : List Char := '\n' :: List.replicate (2 * depth) ' '

mutual

/-- Indented text: one item or member on a line, empty arrays and objects closed at once. -/
def prettyChars (depth : Nat) : Json → List Char
  | null => "null".toList
  | bool b => (if b then "true" else "false").toList
  | integer n => intChars n
  | float x => floatText x
  | string s => stringChars s
  | array [] => ['[', ']']
  | array (item :: items) =>
      '[' :: prettyItems (depth + 1) (item :: items) ++ lineBreak depth ++ [']']
  | object [] => ['{', '}']
  | object (member :: members) =>
      '{' :: prettyMembers (depth + 1) (member :: members) ++ lineBreak depth ++ ['}']

def prettyItems (depth : Nat) : List Json → List Char
  | [] => []
  | [item] => lineBreak depth ++ prettyChars depth item
  | item :: next :: rest =>
      lineBreak depth ++ prettyChars depth item ++ ',' :: prettyItems depth (next :: rest)

def prettyMembers (depth : Nat) : List (String × Json) → List Char
  | [] => []
  | [(key, value)] => lineBreak depth ++ stringChars key ++ ':' :: ' ' :: prettyChars depth value
  | (key, value) :: next :: rest =>
      lineBreak depth ++ stringChars key ++ ':' :: ' ' :: prettyChars depth value ++
        ',' :: prettyMembers depth (next :: rest)

end

def prettyText (value : Json) : String := String.ofList (prettyChars 0 value)

def member? (value : Json) (key : String) : Option Json :=
  match value with
  | object members => members.lookup key
  | _ => none

end Json
end SnapshotEndpoint
