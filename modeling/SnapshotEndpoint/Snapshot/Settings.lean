import SnapshotEndpoint.Config.Overrides
import SnapshotEndpoint.Json
import SnapshotEndpoint.SortedMap
import SnapshotEndpoint.Word

/-!
Settings taken from environment variables. A value that is absent, blank or not of the
setting's kind gives the default.
-/
namespace SnapshotEndpoint

inductive Setting where
  | bool (default : Bool)
  | int (default : Int)
  | text (default : String)
  | list
  deriving DecidableEq, Repr

namespace Setting

/-- A value without the blanks around it; what is blank counts as absent. -/
def present (raw : Option String) : Option String :=
  raw.bind fun s => if (Text.trim s).isEmpty then none else some (Text.trim s)

def parseBool (s : String) : Option Bool :=
  if Text.equalIgnoringCase s "true" then some true
  else if Text.equalIgnoringCase s "false" then some false
  else none

def parseDigits (cs : List Char) : Option Nat :=
  if !cs.isEmpty && cs.all Char.isDigit then some (Text.decimalValue cs) else none

/-- A signed number of 64 bits, with or without a sign in front. -/
def parseInt (s : String) : Option Int :=
  let value : Option Int :=
    match s.toList with
    | '-' :: digits => (parseDigits digits).map fun n => -(n : Int)
    | '+' :: digits => (parseDigits digits).map fun n => (n : Int)
    | digits => (parseDigits digits).map fun n => (n : Int)
  value.bind fun n => if FitsSigned n then some n else none

/-- The items between commas, without blanks around them and without empty ones. -/
def parseItems (s : String) : List String :=
  ((Text.splitAtChar ',' s.toList).map fun piece => String.ofList (Text.trimChars piece)).filter
    fun item => !item.isEmpty

def resolve (setting : Setting) (raw : Option String) : Json :=
  match setting with
  | bool default => .bool (((present raw).bind parseBool).getD default)
  | int default => .integer (((present raw).bind parseInt).getD default)
  | text default => .string ((present raw).getD default)
  | list => .array ((parseItems ((present raw).getD "")).map .string)

end Setting

/-- Settings under the names of their variables, in the order of declaration. -/
abbrev Settings := List (String × Setting)

namespace Settings

def names (settings : Settings) : List String := settings.map (·.1)

/-- The values under an environment; of a repeated name the last declaration counts. -/
def snapshot (settings : Settings) (env : Environment) : SortedMap Json :=
  SortedMap.ofList (settings.map fun s => (s.1, s.2.resolve (env s.1)))

def toJson (settings : Settings) (env : Environment) : Json :=
  .object (settings.snapshot env).entries

def hostNetwork : Settings :=
  [("AWS_VPC_K8S_CNI_EXTERNALSNAT", .bool false),
   ("AWS_VPC_K8S_CNI_EXCLUDE_SNAT_CIDRS", .list),
   ("AWS_VPC_K8S_CNI_RANDOMIZESNAT", .text "prng"),
   ("AWS_VPC_K8S_CNI_CONNMARK", .int 0x80),
   ("AWS_VPC_K8S_CNI_VETHPREFIX", .text "eni"),
   ("AWS_VPC_ENI_MTU", .int 9001),
   ("AWS_VPC_CNI_NODE_PORT_SUPPORT", .bool true)]

def addressPool : Settings :=
  [("WARM_ENI_TARGET", .int 1),
   ("WARM_IP_TARGET", .int 0),
   ("MINIMUM_IP_TARGET", .int 0),
   ("MAX_ENI", .int (-1)),
   ("AWS_VPC_K8S_CNI_CUSTOM_NETWORK_CFG", .bool false),
   ("ENI_CONFIG_LABEL_DEF", .text "k8s.amazonaws.com/eniConfig")]

end Settings
end SnapshotEndpoint
