import SnapshotEndpoint.Command.Query
import SnapshotEndpoint.Service.Program

/-!
The command line. Under the name of the query program as first argument it is that program,
with the endpoint's reply on standard input: a line with the status, then the body. Otherwise
it is the service; requests are lines of a method and a target on standard input, and the end
of input is the signal.
-/
namespace SnapshotEndpoint.Terminal

def environment : IO Environment := do
  let found ← Program.variableNames.mapM fun name => do return (name, ← IO.getEnv name)
  return fun name => (found.lookup name).join

def fileError : IO.Error → FileError
  | .inappropriateType _ code _ => if code = 20 then .notDirectory else .isDirectory
  | _ => .notFound

def content (path : String) : IO FileContent := do
  try
    return .bytes (← IO.FS.readBinFile path)
  catch e =>
    return .unreadable (fileError e)

partial def inputLines (input : IO.FS.Stream) : IO (List String) := do
  let line ← input.getLine
  if line.isEmpty then return []
  else
    let text := Text.dropWhileEnd (· == '\n') line.toList
    return String.ofList text :: (← inputLines input)

def requestOfLine (line : String) : ServerStep :=
  match Text.splitAtChar ' ' line.toList with
  | [uri] => .exchange "GET" (String.ofList uri)
  | method :: uri => .exchange (String.ofList method) (String.ofList (uri.flatten))
  | [] => .exchange "GET" rootPath

def bodyText : Option Body → String
  | some (.json text) => text
  | some (.plain text) => text
  | some (.metrics m) => Text.joinWith "\n" (m.lines true)
  | none => ""

def answerText : Program.ProgramAnswer → String
  | some (.answered sent _) =>
      Text.joinWith "\n" (sent.statusLine :: sent.headerLines ++ ["", bodyText sent.body])
  | _ => "HTTP/1.1 " ++ statusText 400

def outputText : OutputLine → String
  | .text line => line
  | .object value => value.text

def pathOf (args : List String) : Option String :=
  match Program.spec.parse args with
  | .ok line => line.value
  | .error _ => none

def serve (args : List String) : IO UInt32 := do
  let file ← match pathOf args with
    | some path => content path
    | none => pure (.unreadable .notFound)
  let host : Program.Host := ⟨← environment, fun _ => file, some "127.0.0.1:0"⟩
  let lines ← if Program.serves host args then inputLines (← IO.getStdin) else pure []
  let run := Program.run host args (lines.map requestOfLine)
  for line in run.lines do
    IO.println (outputText line)
  for answer in run.answers do
    IO.println (answerText answer)
  IO.eprint run.stderr
  return run.exit.toUInt32

def query (args : List String) : IO UInt32 := do
  let lines ← match Query.spec.parse args with
    | .ok _ => inputLines (← IO.getStdin)
    | .error _ => pure []
  let reply : Query.Reply := match lines with
    | status :: body => .answered (Text.decimalValue status.toList) (Text.joinWith "\n" body)
    | [] => .unreachable
  let output := Query.run (fun _ => reply) args
  IO.print output.stdout
  IO.eprint output.stderr
  return output.exit.toUInt32

end SnapshotEndpoint.Terminal

def main (args : List String) : IO UInt32 :=
  match args with
  | [] => SnapshotEndpoint.Terminal.serve []
  | name :: rest =>
      if name = SnapshotEndpoint.Query.spec.name then SnapshotEndpoint.Terminal.query rest
      else SnapshotEndpoint.Terminal.serve args
