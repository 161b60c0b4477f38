import SnapshotEndpoint.Service.Event
import SnapshotEndpoint.Config.Overrides

/-!
Which log records are written. A filter is a list of directives; of those that fit a
record the most specific one decides, by the length of its target and then by the number
of fields it asks for.
-/
namespace SnapshotEndpoint

/-- How much a level shows: nothing at 0, everything at 5. -/
abbrev Verbosity := Nat

def Level.verbosity : Level → Verbosity
  | error => 1
  | warn => 2
  | info => 3
  | debug => 4
  | trace => 5

structure Directive where
  /-- The start of the targets it is about; without one it is about all. -/
  target : Option String
  fields : List String
  /-- Whether it is about records inside spans, of which there are none. -/
  spansOnly : Bool
  verbosity : Verbosity
  deriving DecidableEq, Repr

inductive DirectiveError where
  | malformed
  | level
  deriving DecidableEq, Repr

def DirectiveError.message : DirectiveError → String
  | malformed => "invalid filter directive"
  | level =>
      "error parsing level filter: expected one of \"off\", \"error\", \"warn\", " ++
        "\"info\", \"debug\", \"trace\", or a number 0-5"

namespace LogFilter

def maxVerbosity : Verbosity := 5

/-- A number from 0 to 5; a plus sign and leading zeros are free. -/
def readNumber (cs : List Char) : Option Verbosity :=
  let digits := match cs with
    | '+' :: rest => rest
    | _ => cs
  if digits.isEmpty || !digits.all Char.isDigit then none
  else
    let value := Text.decimalValue digits
    if value ≤ maxVerbosity then some value else none

def levelNames : List (String × Verbosity) :=
  [("off", 0), ("error", 1), ("warn", 2), ("info", 3), ("debug", 4), ("trace", 5)]

def readName (s : String) : Option Verbosity :=
  (levelNames.find? fun entry => Text.equalIgnoringCase entry.1 s).map (·.2)

def readLevel (cs : List Char) : Option Verbosity :=
  (readNumber cs).or (readName (String.ofList cs))

/-- A level behind an equals sign; an empty one shows everything. -/
def readAssigned (cs : List Char) : Except DirectiveError Verbosity :=
  if cs.isEmpty then .ok maxVerbosity
  else match readLevel cs with
    | some v => .ok v
    | none => .error .level

def canStart (c : Char) : Bool :=
  c == '-' || c == ':' || c == '_' || c.isAlphanum || 0x80 ≤ c.toNat

/-- What may follow the closing bracket: nothing, or an equals sign and a level. -/
def readTail (target : Option String) (fields : List String) (spansOnly : Bool) :
    List Char → Except DirectiveError Directive
  | [] => .ok ⟨target, fields, spansOnly, maxVerbosity⟩
  | '=' :: level => (readAssigned level).map fun v => ⟨target, fields, spansOnly, v⟩
  | _ => .error .malformed

/-- The name of a field in braces; a value behind it makes it a matter of spans. -/
def fieldName (cs : List Char) : String := String.ofList (cs.takeWhile (· != '='))

def readFields (target : Option String) (named : Bool) (cs : List Char) :
    Except DirectiveError Directive :=
  let inner := cs.takeWhile (· != '\x7d')
  let pieces := Text.splitAtChar ',' inner
  if pieces.any List.isEmpty then .error .malformed
  else
    let spansOnly := named || pieces.any (·.contains '=')
    match cs.drop inner.length with
    | _ :: ']' :: rest => readTail target (pieces.map fieldName) spansOnly rest
    | _ => .error .malformed

def readSpan (target : Option String) (cs : List Char) : Except DirectiveError Directive :=
  let name := cs.takeWhile fun c => c != ']' && c != '\x7b'
  match cs.drop name.length with
  | ']' :: rest => readTail target [] true rest
  | '\x7b' :: rest => readFields target (!name.isEmpty) rest
  | _ => .error .malformed

/-- A directive: a level, a target, a target with a level, or one about spans. -/
def readDirective (cs : List Char) : Except DirectiveError Directive :=
  match cs with
  | [] => .error .malformed
  | '[' :: rest => readSpan none rest
  | c :: _ =>
      if !canStart c then .error .malformed
      else
        let name := cs.takeWhile fun c => c != '=' && c != '['
        match cs.drop name.length with
        | [] =>
            match readLevel cs with
            | some v => .ok ⟨none, [], false, v⟩
            | none => .ok ⟨some (String.ofList cs), [], false, maxVerbosity⟩
        | '=' :: level =>
            (readAssigned level).map fun v => ⟨some (String.ofList name), [], false, v⟩
        | _ :: rest => readSpan (some (String.ofList name)) rest

/-- The directives between commas, each with its text; empty ones do not count. -/
def readAll (s : String) : List (String × Except DirectiveError Directive) :=
  ((Text.splitAtChar ',' s.toList).filter fun piece => !piece.isEmpty).map fun piece =>
    (String.ofList piece, readDirective piece)

def strict (s : String) : Option (List Directive) :=
  (readAll s).mapM fun piece =>
    match piece.2 with
    | .ok d => some d
    | .error _ => none

def lenient (s : String) : List Directive :=
  (readAll s).filterMap fun piece =>
    match piece.2 with
    | .ok d => some d
    | .error _ => none

def complaints (s : String) : List String :=
  (readAll s).filterMap fun piece =>
    match piece.2 with
    | .ok _ => none
    | .error e => some ("ignoring `" ++ piece.1 ++ "`: " ++ e.message)

/-- What is in force without any directive: errors only. -/
def fallback : Directive := ⟨none, [], false, 1⟩

def inForce (directives : List Directive) : List Directive :=
  if directives.isEmpty then [fallback] else directives

def fits (d : Directive) (r : Record) : Bool :=
  !d.spansOnly &&
    (match d.target with
      | some target => target.toList.isPrefixOf r.target.toList
      | none => true) &&
    d.fields.all fun f => f == "message" || r.fields.any fun field => field.1 == f

def specificity (d : Directive) : Nat × Nat :=
  (match d.target with
    | some target => target.utf8ByteSize + 1
    | none => 0, d.fields.length)

def moreSpecific (d e : Directive) : Bool :=
  let (p, q) := (specificity d, specificity e)
  q.1 < p.1 || (q.1 == p.1 && q.2 ≤ p.2)

/-- The directive that decides about a record; of equally specific ones the last. -/
def decisive (directives : List Directive) (r : Record) : Option Directive :=
  (directives.filter fun d => fits d r).foldl
    (fun best d => match best with
      | none => some d
      | some b => if moreSpecific d b then some d else best) none

def shows (directives : List Directive) (r : Record) : Bool :=
  match decisive (inForce directives) r with
  | some d => r.level.verbosity ≤ d.verbosity
  | none => false

def variableName : String := "RUST_LOG"

def configured (level : String) : String := Event.programTarget ++ "=" ++ level ++ "," ++ level

/-- The directives from the environment, if they are set and can be read. -/
def fromEnvironment (env : Environment) : Option (List Directive) := (env variableName).bind strict

def directives (level : String) (env : Environment) : List Directive :=
  (fromEnvironment env).getD (lenient (configured level))

def setupComplaints (level : String) (env : Environment) : List String :=
  if (fromEnvironment env).isSome then [] else complaints (configured level)

end LogFilter
end SnapshotEndpoint
