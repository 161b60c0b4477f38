import SnapshotEndpoint.Config.Overrides
import SnapshotEndpoint.Config.Schema
import SnapshotEndpoint.Config.Violation
import SnapshotEndpoint.Toml.Document

/-!
Loading a configuration: read the file, if there is one, apply the overrides of the
environment, and check the result.
-/
namespace SnapshotEndpoint

inductive FileError where
  | notFound
  | notDirectory
  | isDirectory
  | nameTooLong
  | nulInName
  | notUtf8
  deriving DecidableEq, Repr

/-- The number and the kind of an error of the system; the others are the reader's own. -/
structure SystemError where
  code : Nat
  kind : String
  text : String

def FileError.system? : FileError → Option SystemError
  | notFound => some ⟨2, "NotFound", "No such file or directory"⟩
  | notDirectory => some ⟨20, "NotADirectory", "Not a directory"⟩
  | isDirectory => some ⟨21, "IsADirectory", "Is a directory"⟩
  | nameTooLong => some ⟨36, "InvalidFilename", "File name too long"⟩
  | nulInName => none
  | notUtf8 => none

/-- The kind and text of an error that is not the system's. -/
def FileError.own : FileError → String × String
  | nulInName => ("InvalidInput", "file name contained an unexpected NUL byte")
  | _ => ("InvalidData", "stream did not contain valid UTF-8")

def FileError.message (error : FileError) : String :=
  match error.system? with
  | some e => e.text ++ " (os error " ++ toString e.code ++ ")"
  | none => error.own.2

inductive FileContent where
  | unreadable (error : FileError)
  | bytes (content : ByteArray)

def FileContent.text : FileContent → Except FileError String
  | unreadable error => .error error
  | bytes content =>
      match String.fromUTF8? content with
      | some s => .ok s
      | none => .error .notUtf8

inductive LoadError where
  | io (error : FileError)
  | notToml
  | schema (misfit : SchemaMisfit)
  | validation (violations : List Violation)
  deriving Repr

def validationMessage (violations : List Violation) : String :=
  "Validation failed: " ++ Text.joinWith ", " (violations.map Violation.message)

namespace Config

def checked (config : Config) : Except LoadError Config :=
  if config.violations.isEmpty then .ok config else .error (.validation config.violations)

def finish (config : Config) (env : Environment) : Except LoadError Config :=
  (config.override env).checked

def loadDefault (env : Environment) : Except LoadError Config := Config.default.finish env

def ofText (s : String) : Except LoadError Config :=
  match Toml.parse? s with
  | none => .error .notToml
  | some entries =>
      match ofDocument entries with
      | .ok config => .ok config
      | .error misfit => .error (.schema misfit)

def loadText (s : String) (env : Environment) : Except LoadError Config := do
  (← ofText s).finish env

def load (file : FileContent) (env : Environment) : Except LoadError Config :=
  match file.text with
  | .error error => .error (.io error)
  | .ok s => loadText s env

end Config
end SnapshotEndpoint
