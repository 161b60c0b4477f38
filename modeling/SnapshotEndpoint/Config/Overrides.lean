import SnapshotEndpoint.Config
import SnapshotEndpoint.Text.Blank

/-!
Environment variables that override a configuration.
-/
namespace SnapshotEndpoint

abbrev Environment := String → Option String

/-- Set to `true` it keeps the endpoint from starting. -/
def disableVariable : String := "DISABLE_INTROSPECTION"

def bindAddressVariable : String := "INTROSPECTION_BIND_ADDRESS"

def Environment.disables (env : Environment) : Bool :=
  match env disableVariable with
  | some value => Text.equalIgnoringCase (Text.trim value) "true"
  | none => false

/-- The bind address an environment asks for; a blank value asks for none. -/
def Environment.bindAddress? (env : Environment) : Option String :=
  match env bindAddressVariable with
  | some value => if (Text.trim value).isEmpty then none else some (Text.trim value)
  | none => none

def Config.override (config : Config) (env : Environment) : Config :=
  let server := config.server
  { config with
    server := { server with
      enabled := server.enabled && !env.disables
      bindAddress := env.bindAddress?.getD server.bindAddress } }

end SnapshotEndpoint
