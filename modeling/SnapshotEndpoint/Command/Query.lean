import SnapshotEndpoint.Command.Line
import SnapshotEndpoint.Command.Url
import SnapshotEndpoint.Http.Status
import SnapshotEndpoint.Json.Decode

/-!
The program that asks a running endpoint and prints what it answers: JSON indented and
sorted by keys, the metrics as they are.
-/
namespace SnapshotEndpoint.Query

def urlOption : OptionSpec :=
  ⟨'u', "url", "URL", "[default: http://localhost:61678]", true⟩

def defaultUrl : String := "http://localhost:61678"

/-- A command: what it is called, what help says about it, and the path it asks for. -/
structure Command where
  name : String
  about : String
  path : String
  deriving DecidableEq, Repr

def metricsCommand : Command := ⟨"metrics", "Raw Prometheus exposition", metricsPath⟩

def commands : List Command :=
  [⟨"commands", "List the available data routes", rootPath⟩,
   ⟨"enis", "ENI inventory with per-address assignment", StandardPath.enis⟩,
   ⟨"pods", "Pod to address bindings", StandardPath.pods⟩,
   ⟨"networkutils-env", "Network utility settings read from the environment",
    StandardPath.networkSettings⟩,
   ⟨"ipamd-env", "Address manager settings read from the environment", StandardPath.poolSettings⟩,
   ⟨"eni-configs", "ENIConfig resources known to the node", StandardPath.eniConfigs⟩,
   metricsCommand]

def spec : CommandSpec :=
  ⟨"introspect-cli", "Query a running ipamd introspection endpoint", some urlOption,
    commands.map fun c => (c.name, c.about)⟩

def command? (name : String) : Option Command := commands.find? fun c => c.name == name

/-- The address of a path at an endpoint; slashes at the end of the endpoint do not count. -/
def address (url path : String) : String :=
  String.ofList (Text.dropWhileEnd (· == '/') url.toList) ++ path

inductive Reply where
  | unreachable
  | answered (status : Nat) (body : String)
  deriving DecidableEq, Repr

inductive QueryError where
  | badAddress
  | noReply
  | notJson
  | status (status : Nat) (body : String)
  deriving DecidableEq, Repr

def transferMessage (kind : String) : String := "Error: reqwest::Error \x7b kind: " ++ kind

def QueryError.message : QueryError → String
  | badAddress => transferMessage "Builder"
  | noReply => transferMessage "Request"
  | notJson => transferMessage "Decode"
  | status code body =>
      "Response: " ++ body ++ "\nError: " ++
        Text.quoted ("introspection endpoint returned status " ++ statusText code) ++ "\n"

/-- What is printed for the body of a successful answer. -/
def shown (command : Command) (body : String) : Except QueryError String :=
  if command = metricsCommand then .ok body
  else
    match Json.parse body with
    | .ok value => .ok (value.prettyText ++ "\n")
    | .error _ => .error .notJson

def ask (network : String → Reply) (url : String) (command : Command) :
    Except QueryError String :=
  let target := address url command.path
  if !Url.isWebAddress target then .error .badAddress
  else
    match network target with
    | .unreachable => .error .noReply
    | .answered status body =>
        if isSuccess status then shown command body else .error (.status status body)

def failureExit : Nat := 1

def run (network : String → Reply) (args : List String) : Output :=
  match spec.parse args with
  | .error stop => stop.output
  | .ok line =>
      match line.command.bind command? with
      | none => (LineStop.nothing spec.help).output
      | some command =>
          match ask network (line.value.getD defaultUrl) command with
          | .ok text => ⟨0, text, ""⟩
          | .error e => ⟨failureExit, "", e.message⟩

end SnapshotEndpoint.Query
