import SnapshotEndpoint.Config.Load

/-!
What a program reports when it cannot start with its configuration: the causes by name,
with their values.
-/
namespace SnapshotEndpoint

/-- A double in a report: an exponent for very large and very small values. -/
def reportNumber (x : Binary64) : String := Binary64.render Binary64.tersePointLayout x

def inParentheses (name value : String) : String := name ++ "(" ++ value ++ ")"

def inBraces (name : String) (members : List (String × String)) : String :=
  name ++ " \x7b " ++ Text.joinWith ", " (members.map fun m => m.1 ++ ": " ++ m.2) ++ " \x7d"

def Violation.report : Violation → String
  | bindAddress text => inParentheses "BindAddress" (Text.quoted text)
  | zeroTimeout deadline => inParentheses "ZeroTimeout" (Text.quoted deadline.name)
  | zeroConnections => "ZeroConnections"
  | zeroInitialDelay => "ZeroInitialDelay"
  | delayOrder initial max =>
      inBraces "DelayOrder" [("initial", toString initial), ("max", toString max)]
  | multiplier value => inParentheses "Multiplier" (reportNumber value)
  | jitter value => inParentheses "Jitter" (reportNumber value)

def FileError.report (error : FileError) : String :=
  match error.system? with
  | some e =>
      inBraces "Os"
        [("code", toString e.code), ("kind", e.kind), ("message", Text.quoted e.text)]
  | none => inBraces "Error" [("kind", error.own.1), ("message", Text.quoted error.own.2)]

/-- The report of an error; where a text does not parse it is cut behind the cause. -/
def LoadError.report : LoadError → String
  | io error => "Error: " ++ inParentheses "Io" error.report ++ "\n"
  | notToml => "Error: Parse"
  | schema _ => "Error: Parse"
  | validation violations =>
      "Error: " ++
        inParentheses "Validation"
          ("[" ++ Text.joinWith ", " (violations.map Violation.report) ++ "]") ++ "\n"

end SnapshotEndpoint
