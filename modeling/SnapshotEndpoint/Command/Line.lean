import SnapshotEndpoint.Command.Similarity
import SnapshotEndpoint.Command.Usage

/-!
Reading a command line. Arguments are read from the left; a value given to the option is
taken up only when something behind it asks for that, or at the end, so a later fault may
be the one that is reported.
-/
namespace SnapshotEndpoint

structure CommandLine where
  value : Option String
  command : Option String
  deriving DecidableEq, Repr

/-- Why a command line cannot be read; most causes come with a usage line. -/
inductive LineError where
  | missingValue (option : String)
  | repeated (option usage : String)
  | unexpectedValue (value option usage : String)
  | unexpectedArgument (argument : String) (similar : Option String) (usage : String)
  /-- A command behind two hyphens, where nothing is a command any more. -/
  | escapedCommand (name usage : String)
  | unknownCommand (name : String) (similar : List String) (usage : String)
  | missingCommand (program : String) (commands : List String) (usage : String)
  deriving DecidableEq, Repr

inductive LineStop where
  | help (text : String)
  | nothing (help : String)
  | failed (error : LineError)
  deriving DecidableEq, Repr

structure Output where
  exit : Nat
  stdout : String
  stderr : String
  deriving DecidableEq, Repr

def quotedName (name : String) : String := "'" ++ name ++ "'"

def tipText (tip : String) : String := "\n\n  tip: " ++ tip

def similarCommandsTip : List String → String
  | [] => ""
  | [name] => tipText ("a similar subcommand exists: " ++ quotedName name)
  | names =>
      tipText ("some similar subcommands exist: " ++ Text.joinWith ", " (names.map quotedName))

def similarArgumentTip : Option String → String
  | none => ""
  | some name => tipText ("a similar argument exists: " ++ quotedName name)

namespace LineError

def cause : LineError → String
  | missingValue option =>
      "a value is required for " ++ quotedName option ++ " but none was supplied"
  | repeated option _ => "the argument " ++ quotedName option ++ " cannot be used multiple times"
  | unexpectedValue value option _ =>
      "unexpected value " ++ quotedName value ++ " for " ++ quotedName option ++
        " found; no more were expected"
  | unexpectedArgument argument similar _ =>
      "unexpected argument " ++ quotedName argument ++ " found" ++ similarArgumentTip similar
  | escapedCommand name _ =>
      "unexpected argument " ++ quotedName name ++ " found" ++
        tipText ("subcommand " ++ quotedName name ++
          " exists; to use it, remove the '--' before it")
  | unknownCommand name similar _ =>
      "unrecognized subcommand " ++ quotedName name ++ similarCommandsTip similar
  | missingCommand program commands _ =>
      quotedName program ++ " requires a subcommand but one was not provided\n  [subcommands: " ++
        Text.joinWith ", " commands ++ "]"

def usage? : LineError → Option String
  | missingValue _ => none
  | repeated _ usage => some usage
  | unexpectedValue _ _ usage => some usage
  | unexpectedArgument _ _ usage => some usage
  | escapedCommand _ usage => some usage
  | unknownCommand _ _ usage => some usage
  | missingCommand _ _ usage => some usage

def message (error : LineError) : String :=
  let usage := match error.usage? with
    | some usage => "\n\n" ++ usage
    | none => ""
  "error: " ++ error.cause ++ usage ++ "\n\nFor more information, try '" ++ helpOption ++ "'.\n"

end LineError

def misuseExit : Nat := 2

def LineStop.output : LineStop → Output
  | help text => ⟨0, text, ""⟩
  | nothing text => ⟨misuseExit, "", text⟩
  | failed error => ⟨misuseExit, "", error.message⟩

inductive PendingValue where
  | none
  | awaited
  | given (value : String)
  deriving DecidableEq, Repr

structure LineState where
  present : Bool
  value : Option String
  pending : PendingValue
  escaped : Bool
  deriving DecidableEq, Repr

def LineState.start : LineState := ⟨false, none, .none, false⟩

namespace CommandSpec

def plainUsage (spec : CommandSpec) : String := spec.usage []

def usedOptions (spec : CommandSpec) (s : LineState) : List String :=
  if s.present then spec.option.toList.map OptionSpec.text else []

/-- The option takes a value. A failure leaves a state behind too, for the usage line of a
    later fault. -/
def takeValue (spec : CommandSpec) (o : OptionSpec) (s : LineState) (value : String) :
    LineState × Option LineError :=
  let s := { s with pending := .none }
  if s.present then
    ({ s with present := false }, some (.repeated o.text spec.plainUsage))
  else if value.isEmpty && !o.allowsEmpty then
    ({ s with present := true }, some (.missingValue o.text))
  else ({ s with present := true, value := some value }, none)

def settle (spec : CommandSpec) (s : LineState) : LineState × Option LineError :=
  match spec.option, s.pending with
  | some o, .awaited => ({ s with pending := .none }, some (.missingValue o.text))
  | some o, .given value => spec.takeValue o s value
  | _, _ => (s, none)

def orStop : LineState × Option LineError → Except LineStop LineState
  | (s, none) => .ok s
  | (_, some error) => .error (.failed error)

def useOption (spec : CommandSpec) (o : OptionSpec) (s : LineState) (attached : Option String) :
    Except LineStop LineState := do
  let s ← orStop (spec.settle s)
  match attached with
  | some value => orStop (spec.takeValue o s value)
  | none => .ok { s with pending := .awaited }

/-- Help is asked for; a fault of the pending value comes first. -/
def showHelp (spec : CommandSpec) (s : LineState) : Except LineStop LineState := do
  let _ ← orStop (spec.settle s)
  .error (.help spec.help)

/-- No option is named like that; the nearest one is suggested and shown as used. -/
def unknownLong (spec : CommandSpec) (s : LineState) (name : String) : LineStop :=
  let s := (spec.settle s).1
  let similar := (Similarity.alike name spec.longNames).getLast?
  let shown := spec.usedOptions s ++
    ((similar.map spec.longText).toList.filter fun text => !(spec.usedOptions s).contains text)
  .failed (.unexpectedArgument ("--" ++ name) (similar.map ("--" ++ ·)) (spec.usage shown))

def readLong (spec : CommandSpec) (s : LineState) (name : String) (attached : Option String) :
    Except LineStop LineState :=
  if name = helpLong then
    match attached with
    | none => spec.showHelp s
    | some value =>
        .error (.failed
          (.unexpectedValue value helpOption (spec.usage (spec.usedOptions s ++ [helpOption]))))
  else
    match spec.option with
    | some o =>
        if name = o.long then spec.useOption o s attached else .error (spec.unknownLong s name)
    | none => .error (spec.unknownLong s name)

/-- What stands behind a short option in its argument; an equals sign may come between. -/
def attachedValue : List Char → Option String
  | [] => none
  | '=' :: rest => some (String.ofList rest)
  | rest => some (String.ofList rest)

/-- An argument of one hyphen and characters; the first decides, since help ends the reading
    and the option takes the rest. -/
def readShort (spec : CommandSpec) (s : LineState) (c : Char) (rest : List Char) :
    Except LineStop LineState :=
  let unknown : LineStop :=
    .failed (.unexpectedArgument (String.ofList ['-', c]) none spec.plainUsage)
  if c = helpShort then spec.showHelp s
  else
    match spec.option with
    | some o => if c = o.short then spec.useOption o s (attachedValue rest) else .error unknown
    | none => .error unknown

def strayArgument (spec : CommandSpec) (s : LineState) (arg : String) : LineError :=
  if s.escaped && spec.commandNames.contains arg then .escapedCommand arg spec.plainUsage
  else if spec.commands.isEmpty then .unexpectedArgument arg none spec.plainUsage
  else .unknownCommand arg (Similarity.alike arg spec.commandNames) spec.plainUsage

inductive ArgumentForm where
  | escape
  | long (name : String) (attached : Option String)
  | short (c : Char) (rest : List Char)
  | plain

def argumentForm (arg : String) : ArgumentForm :=
  match arg.toList with
  | ['-', '-'] => .escape
  | '-' :: '-' :: rest =>
      let name := rest.takeWhile (· != '=')
      match rest.drop name.length with
      | _ :: value => .long (String.ofList name) (some (String.ofList value))
      | [] => .long (String.ofList name) none
  | '-' :: c :: rest => .short c rest
  | _ => .plain

def helpFor (spec : CommandSpec) : List String → LineStop
  | [] => .help spec.help
  | name :: rest =>
      if !spec.commandNames.contains name then
        .failed (.unknownCommand name [] spec.plainUsage)
      else
        match spec.command? name, rest with
        | some sub, [] => .help sub.help
        | some sub, next :: _ => .failed (.unknownCommand next [] sub.plainUsage)
        | none, [] => .help spec.helpCommandHelp
        | none, next :: _ => .failed (.unknownCommand next [] spec.helpCommandUsage)

/-- The end of the line: the pending value is taken up, and a command must not be missing. -/
def finish (spec : CommandSpec) (s : LineState) (command : Option String) :
    Except LineStop CommandLine := do
  let s ← orStop (spec.settle s)
  if command.isSome || spec.commands.isEmpty then .ok ⟨s.value, command⟩
  else if !s.present then .error (.nothing spec.help)
  else .error (.failed (.missingCommand spec.name spec.commandNames spec.plainUsage))

def startsCommand (spec : CommandSpec) (s : LineState) (arg : String) : Bool :=
  !s.escaped && s.pending != .awaited && spec.commandNames.contains arg

def read (spec : CommandSpec) (s : LineState) : List String → Except LineStop CommandLine
  | [] => spec.finish s none
  | arg :: rest =>
      if spec.startsCommand s arg then
        match spec.command? arg with
        | none => .error (spec.helpFor rest)
        | some sub => do
            let _ ← read sub .start rest
            spec.finish s (some arg)
      else if s.escaped then .error (.failed (spec.strayArgument s arg))
      else
        match argumentForm arg with
        | .escape => read spec { s with escaped := true } rest
        | .long name attached => do
            let s ← spec.readLong s name attached
            read spec s rest
        | .short c more => do
            let s ← spec.readShort s c more
            read spec s rest
        | .plain =>
            if s.pending = .awaited then read spec { s with pending := .given arg } rest
            else .error (.failed (spec.strayArgument s arg))

def parse (spec : CommandSpec) (args : List String) : Except LineStop CommandLine :=
  spec.read .start args

end CommandSpec
end SnapshotEndpoint
