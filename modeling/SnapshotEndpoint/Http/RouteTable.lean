import SnapshotEndpoint.Http.Listing
import SnapshotEndpoint.Text.Blank
import SnapshotEndpoint.Text.Quoted

/-!
The data routes of the endpoint in the order of their registration, each with what
provides its snapshot.
-/
namespace SnapshotEndpoint

def rootPath : String := "/"
def metricsPath : String := "/metrics"

def StandardPath.enis : String := "/v1/enis"

def StandardPath.pods : String := "/v1/pods"

def StandardPath.networkSettings : String := "/v1/networkutils-env-settings"

def StandardPath.poolSettings : String := "/v1/ipamd-env-settings"

def StandardPath.eniConfigs : String := "/v1/eni-configs"

inductive RouteRefusal where
  | reserved (path : String)
  | invalid (path : String)
  | duplicate (path : String)
  deriving DecidableEq, Repr

def RouteRefusal.message : RouteRefusal → String
  | reserved path => "route path " ++ Text.quoted path ++ " is reserved"
  | invalid path =>
      "route path " ++ Text.quoted path ++
        " must start with '/' and contain no pattern characters"
  | duplicate path => "route path " ++ Text.quoted path ++ " is registered twice"

/-- Characters that a pattern would give a meaning, and blanks. -/
def isPatternChar (c : Char) : Bool :=
  c == '\x7b' || c == '\x7d' || c == '*' || c == ':' || Text.isBlank c

def isPlainPath (path : String) : Bool :=
  match path.toList with
  | '/' :: rest => !rest.any isPatternChar
  | _ => false

def isReservedPath (path : String) : Bool := path == rootPath || path == metricsPath

structure StandardProviders (P : Type) where
  enis : P
  pods : P
  networkSettings : P
  poolSettings : P
  eniConfigs : P

structure RouteTable (P : Type) where
  routes : List (String × P)

namespace RouteTable

variable {P : Type}

def empty : RouteTable P := ⟨[]⟩

def standard (p : StandardProviders P) : RouteTable P :=
  ⟨[(StandardPath.enis, p.enis), (StandardPath.pods, p.pods), (StandardPath.networkSettings, p.networkSettings),
    (StandardPath.poolSettings, p.poolSettings), (StandardPath.eniConfigs, p.eniConfigs)]⟩

def paths (table : RouteTable P) : List String := table.routes.map (·.1)

def find? (table : RouteTable P) (path : String) : Option P := table.routes.lookup path

def register (table : RouteTable P) (path : String) (provider : P) :
    Except RouteRefusal (RouteTable P) :=
  if isReservedPath path then .error (.reserved path)
  else if !isPlainPath path then .error (.invalid path)
  else if table.paths.contains path then .error (.duplicate path)
  else .ok ⟨table.routes ++ [(path, provider)]⟩

def listing (table : RouteTable P) : Listing := ⟨table.paths⟩

end RouteTable
end SnapshotEndpoint
