import SnapshotEndpoint.Config
import SnapshotEndpoint.Text.Quoted
import SnapshotEndpoint.Toml.Value

/-!
The configuration that a TOML document describes. Fields the document does not name keep
their defaults, keys that name no field are passed over, and the first value in document
order that does not fit its field is the answer. A section may also be the array of its
fields in their order.
-/
namespace SnapshotEndpoint

inductive SchemaMisfit where
  | wrongType (found : Toml.Value) (expected : String)
  | negative (value : Int) (expected : String)
  | unknownFormat (name : String)
  /-- A log format given as a table with no entry, or with several. -/
  | emptyFormat
  | severalFormats
  /-- A log format given as neither a string nor a table. -/
  | formatKind
  /-- A log format given as a table whose one entry holds something. -/
  | formatContent (content : Toml.Value)
  deriving Repr

namespace SchemaMisfit

/-- Doubles in messages about values: every digit written out, whole numbers with `.0`. -/
def pointLayout : Binary64.Layout := ⟨fun _ => true, true, ""⟩

def foundText : Toml.Value → String
  | .string s => "string " ++ Text.quoted s
  | .integer n => "integer `" ++ toString n ++ "`"
  | .float x => "floating point `" ++ Binary64.render pointLayout x ++ "`"
  | .boolean b => "boolean `" ++ (if b then "true" else "false") ++ "`"
  | .array _ => "sequence"
  | .tables _ => "sequence"
  | .datetime => "map"
  | .table _ _ => "map"

def contentText : Toml.Value → String
  | .string _ => "expected table, found string"
  | .integer _ => "expected table, found integer"
  | .float _ => "expected table, found float"
  | .boolean _ => "expected table, found boolean"
  | .datetime => "expected table, found datetime"
  | .array _ => "expected empty table"
  | .table _ _ => "expected empty table"
  | .tables _ => "expected empty array"

def message : SchemaMisfit → String
  | wrongType found expected => "invalid type: " ++ foundText found ++ ", expected " ++ expected
  | negative n expected => "invalid value: integer `" ++ toString n ++ "`, expected " ++ expected
  | unknownFormat name => "unknown variant `" ++ name ++ "`, expected `pretty` or `json`"
  | emptyFormat => "wanted exactly 1 element, found 0 elements"
  | severalFormats => "wanted exactly 1 element, more than 1 element"
  | formatKind => "wanted string or table"
  | formatContent content => contentText content

end SchemaMisfit

namespace Config

abbrev FieldReader (α : Type) := Toml.Value → Except SchemaMisfit α

def readFlag : FieldReader Bool
  | .boolean b => .ok b
  | v => .error (.wrongType v "a boolean")

def readText : FieldReader String
  | .string s => .ok s
  | v => .error (.wrongType v "a string")

/-- A whole number that is not negative; the name of its type stands in messages. -/
def readCount (expected : String) : FieldReader Nat
  | .integer n => if n < 0 then .error (.negative n expected) else .ok n.toNat
  | v => .error (.wrongType v expected)

def readFloat : FieldReader Binary64
  | .float x => .ok x
  | .integer n => .ok (Binary64.ofInt n)
  | v => .error (.wrongType v "f64")

def formatNamed (name : String) : Except SchemaMisfit LogFormat :=
  if name = "pretty" then .ok .pretty
  else if name = "json" then .ok .json
  else .error (.unknownFormat name)

def isHollow : Toml.Value → Bool
  | .array items => items.isEmpty
  | .table _ entries => entries.isEmpty
  | .tables elements => elements.isEmpty
  | _ => false

/-- A log format: its name, or a table with the name as its one key and nothing under it. -/
def readFormat : FieldReader LogFormat
  | .string name => formatNamed name
  | .table _ [] => .error .emptyFormat
  | .table _ [(name, content)] => do
      let format ← formatNamed name
      if isHollow content then .ok format else .error (.formatContent content)
  | .table _ _ => .error .severalFormats
  | _ => .error .formatKind

/-- A record from a table or from the array of its fields; items past the last field do not
    count. A date holds no field. -/
def readRecord {α : Type} (name : String) (fields : List String)
    (set : α → String → Toml.Value → Except SchemaMisfit α) (start : α) : FieldReader α
  | .table _ entries => entries.foldlM (fun record e => set record e.1 e.2) start
  | .array items => (fields.zip items).foldlM (fun record e => set record e.1 e.2) start
  | .tables elements =>
      (fields.zip elements).foldlM (fun record e => set record e.1 (.table .header e.2)) start
  | .datetime => .ok start
  | v => .error (.wrongType v ("struct " ++ name))

def setServerField (c : ServerSection) (name : String) (v : Toml.Value) :
    Except SchemaMisfit ServerSection :=
  match name with
  | "enabled" => (readFlag v).map fun x => { c with enabled := x }
  | "bind_address" => (readText v).map fun x => { c with bindAddress := x }
  | "read_timeout_secs" => (readCount "u64" v).map fun x => { c with readTimeoutSecs := x }
  | "write_timeout_secs" => (readCount "u64" v).map fun x => { c with writeTimeoutSecs := x }
  | "max_connections" => (readCount "usize" v).map fun x => { c with maxConnections := x }
  | _ => .ok c

def setBackoffField (c : BackoffSection) (name : String) (v : Toml.Value) :
    Except SchemaMisfit BackoffSection :=
  match name with
  | "initial_delay_ms" => (readCount "u64" v).map fun x => { c with initialDelayMs := x }
  | "max_delay_ms" => (readCount "u64" v).map fun x => { c with maxDelayMs := x }
  | "multiplier" => (readFloat v).map fun x => { c with multiplier := x }
  | "jitter" => (readFloat v).map fun x => { c with jitter := x }
  | _ => .ok c

def setObservabilityField (c : LogSection) (name : String) (v : Toml.Value) :
    Except SchemaMisfit LogSection :=
  match name with
  | "log_level" => (readText v).map fun x => { c with logLevel := x }
  | "log_format" => (readFormat v).map fun x => { c with logFormat := x }
  | _ => .ok c

def readServer : FieldReader ServerSection :=
  readRecord "ServerConfig"
    ["enabled", "bind_address", "read_timeout_secs", "write_timeout_secs", "max_connections"]
    setServerField ServerSection.default

def readBackoff : FieldReader BackoffSection :=
  readRecord "BackoffConfig" ["initial_delay_ms", "max_delay_ms", "multiplier", "jitter"]
    setBackoffField BackoffSection.default

def readObservability : FieldReader LogSection :=
  readRecord "ObservabilityConfig" ["log_level", "log_format"]
    setObservabilityField LogSection.default

def setSection (c : Config) (name : String) (v : Toml.Value) : Except SchemaMisfit Config :=
  match name with
  | "server" => (readServer v).map fun x => { c with server := x }
  | "backoff" => (readBackoff v).map fun x => { c with backoff := x }
  | "observability" => (readObservability v).map fun x => { c with observability := x }
  | _ => .ok c

def ofDocument (entries : Toml.Entries) : Except SchemaMisfit Config :=
  entries.foldlM (fun c e => setSection c e.1 e.2) Config.default

end Config
end SnapshotEndpoint
