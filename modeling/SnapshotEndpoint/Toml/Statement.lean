import SnapshotEndpoint.Toml.Quotation

/-!
A TOML text as the list of its statements: headers and assignments, in their order.
-/
namespace SnapshotEndpoint.Toml

structure KeyPath where
  tables : List String
  key : String
  deriving DecidableEq, Repr

structure Assignment where
  path : KeyPath
  value : Value
  deriving Repr

inductive Header where
  | table (path : KeyPath)
  /-- A header in double brackets: one more element of an array of tables. -/
  | element (path : KeyPath)
  deriving DecidableEq, Repr

inductive Statement where
  | header (header : Header)
  | assign (assignment : Assignment)
  deriving Repr

def nestingLimit : Nat := 80

def skipWhite (cs : List Char) : List Char := cs.dropWhile isWhite

def isBareKeyChar (c : Char) : Bool := c.isAlphanum || c == '-' || c == '_'

def readSimpleKey : Reader String := fun cs =>
  match readQuotedKey cs with
  | some (text, rest) => some (String.ofList text, rest)
  | none =>
      let (name, rest) := cs.span isBareKeyChar
      if name.isEmpty then none else some (String.ofList name, rest)

/-- Keys with points between them; blanks may stand around each. -/
def readKeys : Nat → Reader (List String)
  | 0, _ => none
  | fuel + 1, cs => do
      let (key, rest) ← readSimpleKey (skipWhite cs)
      match skipWhite rest with
      | '.' :: rest => do
          let (keys, rest) ← readKeys fuel rest
          some (key :: keys, rest)
      | rest => some ([key], rest)

def KeyPath.ofKeys? (keys : List String) : Option KeyPath :=
  keys.getLast?.map fun key => ⟨keys.dropLast, key⟩

def readKeyPath : Reader KeyPath := fun cs => do
  let (keys, rest) ← readKeys (cs.length + 1) cs
  if keys.length < nestingLimit then some (← KeyPath.ofKeys? keys, rest) else none

/-- A comment up to the end of its line; it holds no control but tabs. -/
def skipComment (cs : List Char) : List Char := cs.dropWhile isPlain

/-- The rest of a line: blanks, perhaps a comment, and the end of the line. -/
def readLineEnd (cs : List Char) : Option (List Char) :=
  let rest := match skipWhite cs with
    | '#' :: rest => skipComment rest
    | rest => rest
  match rest with
  | [] => some []
  | _ => readNewline rest

/-- Blanks, comments and line breaks, as they may stand between the items of an array. -/
def skipFiller : Nat → List Char → List Char
  | 0, cs => cs
  | fuel + 1, cs =>
      match skipWhite cs with
      | '#' :: rest =>
          match readNewline (skipComment rest) with
          | some rest => skipFiller fuel rest
          | none => '#' :: rest
      | rest =>
          match readNewline rest with
          | some rest => skipFiller fuel rest
          | none => rest

def skipAllFiller (cs : List Char) : List Char := skipFiller (cs.length + 1) cs

def addEntry (key : String) (value : Value) (entries : Entries) : Option Entries :=
  if (entries.lookup key).isSome then none else some (entries ++ [(key, value)])

/-- The entries with the value of one key changed in place, or added at the end if the key
    is new. -/
def modifyEntry (key : String) (change : Option Value → Option Value) :
    Entries → Option Entries
  | [] => (change none).map fun value => [(key, value)]
  | entry :: rest =>
      if entry.1 = key then (change (some entry.2)).map fun value => (key, value) :: rest
      else (modifyEntry key change rest).map (entry :: ·)

def modifyLast {α : Type} (change : α → Option α) : List α → Option (List α)
  | [] => none
  | [x] => (change x).map ([·])
  | x :: rest => (modifyLast change rest).map (x :: ·)

/-- An assignment made in a table. A dotted key goes through tables that dotted keys or
    longer headers made, and ends in one that dotted keys made. -/
def assignInto (key : String) (value : Value) : List String → Entries → Option Entries
  | [], entries => addEntry key value entries
  | step :: path, entries =>
      modifyEntry step (fun child =>
        match child with
        | none => (assignInto key value path []).map (Value.table .dotted)
        | some (.table .dotted inner) =>
            (assignInto key value path inner).map (Value.table .dotted)
        | some (.table .implied inner) =>
            if path.isEmpty then none
            else (assignInto key value path inner).map (Value.table .implied)
        | some (.tables elements) =>
            if path.isEmpty then none
            else (modifyLast (assignInto key value path) elements).map Value.tables
        | some _ => none) entries

def assign (entries : Entries) (a : Assignment) : Option Entries :=
  assignInto a.path.key a.value a.path.tables entries

def assignAll (entries : Entries) (assignments : List Assignment) : Option Entries :=
  assignments.foldlM assign entries

mutual

/-- A value; `room` counts the arrays and inline tables that may still be entered. -/
def readValue : Nat → Nat → Reader Value
  | 0, _, _ => none
  | fuel + 1, room, cs =>
      match cs with
      | [] => none
      | c :: rest =>
          if c = '"' ∨ c = '\'' then
            (readQuotedValue cs).map fun (text, rest) => (.string (String.ofList text), rest)
          else if c = '[' then
            if room = 0 then none
            else (readItems fuel (room - 1) rest).map fun (items, rest) => (.array items, rest)
          else if c = '{' then
            if room = 0 then none
            else do
              let (assignments, rest) ← readInline fuel (room - 1) true rest
              let entries ← assignAll [] assignments
              some (.table .literal entries, rest)
          else readScalar cs

/-- The items of an array behind its bracket or a comma; a comma may stand at the end. -/
def readItems : Nat → Nat → Reader (List Value)
  | 0, _, _ => none
  | fuel + 1, room, cs =>
      match skipAllFiller cs with
      | ']' :: rest => some ([], rest)
      | start => do
          let (item, rest) ← readValue fuel room start
          match skipAllFiller rest with
          | ']' :: rest => some ([item], rest)
          | ',' :: rest => do
              let (items, rest) ← readItems fuel room rest
              some (item :: items, rest)
          | _ => none

/-- The assignments of an inline table behind its brace or a comma; no comma may stand at
    the end. -/
def readInline : Nat → Nat → Bool → Reader (List Assignment)
  | 0, _, _, _ => none
  | fuel + 1, room, first, cs =>
      match first, skipWhite cs with
      | true, '}' :: rest => some ([], rest)
      | _, start => do
          let (path, rest) ← readKeyPath start
          let rest ← expectWord ['='] rest
          let (value, rest) ← readValue fuel room (skipWhite rest)
          match skipWhite rest with
          | '}' :: rest => some ([⟨path, value⟩], rest)
          | ',' :: rest => do
              let (assignments, rest) ← readInline fuel room false rest
              some (⟨path, value⟩ :: assignments, rest)
          | _ => none

end

def readHeader : Reader Header
  | '[' :: '[' :: rest => do
      let (path, rest) ← readKeyPath rest
      let rest ← expectWord [']', ']'] rest
      some (.element path, rest)
  | '[' :: rest => do
      let (path, rest) ← readKeyPath rest
      let rest ← expectWord [']'] rest
      some (.table path, rest)
  | _ => none

def readAssignment : Reader Assignment := fun cs => do
  let (path, rest) ← readKeyPath cs
  let rest ← expectWord ['='] rest
  let (value, rest) ← readValue (2 * cs.length + 2) (nestingLimit - 1) (skipWhite rest)
  some (⟨path, value⟩, rest)

/-- The statement of a line, which may be empty or a comment. -/
def readLine (cs : List Char) : Option (Option Statement × List Char) :=
  match readLineEnd cs with
  | some rest => some (none, rest)
  | none =>
      match skipWhite cs with
      | '[' :: rest => do
          let (header, rest) ← readHeader ('[' :: rest)
          some (some (.header header), ← readLineEnd rest)
      | rest => do
          let (assignment, rest) ← readAssignment rest
          some (some (.assign assignment), ← readLineEnd rest)

def readLines : Nat → List Char → Option (List Statement)
  | _, [] => some []
  | 0, _ :: _ => none
  | fuel + 1, c :: cs => do
      let (statement, rest) ← readLine (c :: cs)
      let statements ← readLines fuel rest
      match statement with
      | some s => some (s :: statements)
      | none => some statements

/-- A byte order mark at the start does not count. -/
def dropByteOrderMark : List Char → List Char
  | c :: rest => if c.toNat = 0xFEFF then rest else c :: rest
  | [] => []

/-- The statements of a text; `none` if it is not well formed. -/
def readStatements (s : String) : Option (List Statement) :=
  let cs := dropByteOrderMark s.toList
  readLines (cs.length + 1) cs

end SnapshotEndpoint.Toml
