import SnapshotEndpoint.Command.Line
import SnapshotEndpoint.Config.Report
import SnapshotEndpoint.Service.Endpoint
import SnapshotEndpoint.Service.LogFilter
import SnapshotEndpoint.Service.LogLine
import SnapshotEndpoint.Service.Server
import SnapshotEndpoint.Snapshot.Settings
import SnapshotEndpoint.Snapshot.Inventory

/-!
The service as a program: it reads its command line and its configuration, serves until a
signal comes, and logs what happens.
-/
namespace SnapshotEndpoint.Program

def version : String := "0.1.0"

def configOption : OptionSpec :=
  ⟨'c', "config", "CONFIG", "TOML configuration file. Defaults apply when omitted", false⟩

def spec : CommandSpec :=
  ⟨"ipamd-introspect", "Read-only introspection endpoint for the address manager",
    some configOption, []⟩

structure Host where
  env : Environment
  file : String → FileContent
  /-- The address that clients come from, if the network lets them through. -/
  clients : Option String

def configuration (host : Host) (path : Option String) : Except LoadError Config :=
  match path with
  | some path => Config.load (host.file path) host.env
  | none => Config.loadDefault host.env

/-- The data routes before anything is published: no interfaces, no pods, no resources, and
    the settings of the environment. -/
def standardStep (env : Environment) : SessionStep :=
  .standard
    { enis := .fixed (Wire.toJson Inventory.empty)
      pods := .fixed (.object [])
      networkSettings := .fixed (Settings.hostNetwork.toJson env)
      poolSettings := .fixed (Settings.addressPool.toJson env)
      eniConfigs := .fixed (.object []) }

/-- The server of a configuration; its port is free, so no delay is ever drawn. -/
def server (host : Host) (endpoint : Endpoint) : Server :=
  { loop := Restart.ofEndpoint endpoint fun _ => Binary64.one
    clients := host.clients
    signal := .trigger }

def loadedEvents (config : Config) : List Event :=
  [.programStarting version,
   .configurationLoaded config.server.bindAddress config.server.maxConnections
     config.server.readTimeoutSecs config.server.writeTimeoutSecs]

abbrev ProgramAnswer := Option SessionAnswer

/-- A run of the program: its output, and what the requests to it get. -/
structure Run where
  exit : Nat
  lines : List OutputLine
  stderr : String
  answers : List ProgramAnswer

def failureExit : Nat := 1

def textLines (text : String) : List OutputLine :=
  ((Text.splitAtChar '\n' text.toList).dropLast).map fun line => .text (String.ofList line)

def logLines (host : Host) (config : Config) (events : List Event) : List OutputLine :=
  let directives := LogFilter.directives config.observability.logLevel host.env
  ((events.map Event.record).filter (LogFilter.shows directives)).map
    (Record.outputLine config.observability.logFormat)

/-- What is said on standard error while the log is set up. -/
def setupText (host : Host) (config : Config) : String :=
  String.join
    ((LogFilter.setupComplaints config.observability.logLevel host.env).map (· ++ "\n"))

/-- A run that ends before it serves: no request gets an answer. -/
def unserved (requests : List ServerStep) (exit : Nat) (lines : List OutputLine)
    (stderr : String) : Run :=
  ⟨exit, lines, stderr, requests.map fun _ => none⟩

/-- The run of a server that answers requests and then gets the signal. -/
def serve (host : Host) (config : Config) (endpoint : Endpoint) (requests : List ServerStep) :
    Run :=
  let server := server host endpoint
  let reachable := host.clients.isSome
  match server.run [standardStep host.env] (if reachable then requests else []) with
  | .ended run =>
      let requestEvents := run.steps.flatMap fun answer =>
        match answer with
        | .answered _ events => events
        | _ => []
      let events := loadedEvents config ++ run.start ++ requestEvents ++ [.signalReceived] ++
        run.stop ++ [.shutdownComplete]
      ⟨0, logLines host config events, setupText host config,
        if reachable then run.steps.map some else requests.map fun _ => none⟩
  | .died _ start =>
      let events := loadedEvents config ++ start ++ [.signalReceived, .shutdownTriggered 0]
      unserved requests failureExit (logLines host config events) (setupText host config)
  | .unreachable => unserved requests failureExit [] (setupText host config)

def runConfig (host : Host) (config : Config) (requests : List ServerStep) : Run :=
  if !config.server.enabled then
    let events := [.programStarting version, .introspectionDisabled]
    unserved requests 0 (logLines host config events) (setupText host config)
  else
    match Endpoint.ofConfig config with
    | .ok endpoint => serve host config endpoint requests
    | .error e =>
        unserved requests failureExit (logLines host config (loadedEvents config))
          (setupText host config ++ "Error: " ++ e.message ++ "\n")

/-- A whole run under some arguments, with the requests that come before the signal. -/
def run (host : Host) (args : List String) (requests : List ServerStep) : Run :=
  match spec.parse args with
  | .error stop =>
      unserved requests stop.output.exit (textLines stop.output.stdout) stop.output.stderr
  | .ok line =>
      match configuration host line.value with
      | .error e => unserved requests failureExit [] e.report
      | .ok config => runConfig host config requests

def serves (host : Host) (args : List String) : Bool :=
  match spec.parse args with
  | .error _ => false
  | .ok line =>
      match configuration host line.value with
      | .error _ => false
      | .ok config => config.server.enabled

def variableNames : List String :=
  [disableVariable, bindAddressVariable, LogFilter.variableName] ++
    Settings.hostNetwork.names ++ Settings.addressPool.names

end SnapshotEndpoint.Program
