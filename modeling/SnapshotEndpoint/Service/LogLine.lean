import SnapshotEndpoint.Config
import SnapshotEndpoint.Json
import SnapshotEndpoint.Service.Event
import SnapshotEndpoint.Text.Quoted

/-!
The two forms of a log record, without the time it was written.
-/
namespace SnapshotEndpoint

def FieldValue.lineText : FieldValue → String
  | text s => s
  | quoted s => Text.quoted s
  | number n => toString n

def FieldValue.json : FieldValue → Json
  | text s => .string s
  | quoted s => .string s
  | number n => .integer n

namespace Record

def levelColumn (level : Level) : String :=
  String.ofList (List.replicate (5 - level.name.length) ' ') ++ level.name

def line (r : Record) : String :=
  " " ++ levelColumn r.level ++ " " ++ r.target ++ ": " ++ r.message ++
    String.join (r.fields.map fun f => " " ++ f.1 ++ "=" ++ f.2.lineText)

def json (r : Record) : Json :=
  let fields := SortedMap.ofList (("message", FieldValue.text r.message) :: r.fields)
  .object
    [("fields", .object (fields.mapValues FieldValue.json).entries),
     ("level", .string r.level.name), ("target", .string r.target)]

end Record

inductive OutputLine where
  | text (line : String)
  | object (value : Json)
  deriving Repr

def Record.outputLine (format : LogFormat) (r : Record) : OutputLine :=
  match format with
  | .pretty => .text r.line
  | .json => .object r.json

def OutputLine.json : OutputLine → Json
  | text line => .string line
  | object value => value

end SnapshotEndpoint
