import SnapshotEndpoint.Text.Blank

/-!
What a program takes on its command line: at most one option with a value, perhaps
commands, and always help. Its usage line and its help follow from that.
-/
namespace SnapshotEndpoint

structure OptionSpec where
  short : Char
  long : String
  valueName : String
  about : String
  /-- Whether an empty text counts as a value. -/
  allowsEmpty : Bool

structure CommandSpec where
  name : String
  about : String
  option : Option OptionSpec
  commands : List (String × String)

/-- A row of help: what may be written, and what it means. -/
abbrev HelpRow := String × String

def helpCommand : HelpRow :=
  ("help", "Print this message or the help of the given subcommand(s)")

def helpLong : String := "help"
def helpShort : Char := 'h'
def helpOption : String := "--" ++ helpLong

def OptionSpec.text (o : OptionSpec) : String := "--" ++ o.long ++ " <" ++ o.valueName ++ ">"

def OptionSpec.row (o : OptionSpec) : HelpRow :=
  (String.ofList ['-', o.short] ++ ", " ++ o.text, o.about)

def helpOptionRow : HelpRow :=
  (String.ofList ['-', helpShort] ++ ", " ++ helpOption, "Print help")

def helpTable (rows : List HelpRow) : String :=
  let width := rows.foldl (fun widest row => max widest row.1.length) 0
  String.join (rows.map fun row =>
    "  " ++ row.1 ++ String.ofList (List.replicate (width - row.1.length + 2) ' ') ++ row.2 ++ "\n")

def helpPage (about usage : String) (sections : List (String × List HelpRow)) : String :=
  about ++ "\n\n" ++ usage ++ "\n" ++
    String.join (sections.map fun part => "\n" ++ part.1 ++ ":\n" ++ helpTable part.2)

namespace CommandSpec

def allCommands (spec : CommandSpec) : List HelpRow :=
  if spec.commands.isEmpty then [] else spec.commands ++ [helpCommand]

def commandNames (spec : CommandSpec) : List String := spec.allCommands.map (·.1)

def longNames (spec : CommandSpec) : List String :=
  (spec.option.toList.map OptionSpec.long) ++ [helpLong]

/-- How an option is written, given the word after its hyphens. -/
def longText (spec : CommandSpec) (name : String) : String :=
  match spec.option with
  | some o => if name = o.long then o.text else "--" ++ name
  | none => "--" ++ name

/-- The usage line with options that were used, or for any options. -/
def usage (spec : CommandSpec) (used : List String) : String :=
  let options :=
    if used.isEmpty then (if spec.option.isSome then " [OPTIONS]" else "")
    else String.join (used.map fun u => " " ++ u)
  "Usage: " ++ spec.name ++ options ++ (if spec.commands.isEmpty then "" else " <COMMAND>")

def help (spec : CommandSpec) : String :=
  let commands := if spec.commands.isEmpty then [] else [("Commands", spec.allCommands)]
  helpPage spec.about (spec.usage [])
    (commands ++ [("Options", spec.option.toList.map OptionSpec.row ++ [helpOptionRow])])

/-- The line of one of the commands, which takes nothing itself. -/
def command (spec : CommandSpec) (entry : HelpRow) : CommandSpec :=
  ⟨spec.name ++ " " ++ entry.1, entry.2, none, []⟩

def command? (spec : CommandSpec) (name : String) : Option CommandSpec :=
  (spec.commands.find? fun entry => entry.1 == name).map spec.command

def helpCommandUsage (spec : CommandSpec) : String :=
  "Usage: " ++ spec.name ++ " " ++ helpCommand.1 ++ " [COMMAND]..."

def helpCommandHelp (spec : CommandSpec) : String :=
  helpPage helpCommand.2 spec.helpCommandUsage
    [("Arguments", [("[COMMAND]...", "Print help for the subcommand(s)")])]

end CommandSpec
end SnapshotEndpoint
