import SnapshotEndpoint.Snapshot.Wire

/-!
Addresses of pods, by pod, and the network settings of nodes, by the value of a label.
-/
namespace SnapshotEndpoint

structure PodBinding where
  ip : String
  deviceNumber : UInt32
  deriving DecidableEq, Repr

abbrev PodBindings := SortedMap PodBinding

structure EniConfig where
  securityGroups : List String
  subnet : String
  deriving DecidableEq, Repr

abbrev EniConfigMap := SortedMap EniConfig

namespace PodBinding

def fieldShapes : List (String × Json.Shape) :=
  [("IP", Wire.textShape), ("DeviceNumber", Wire.deviceShape)]

def toJson (pod : PodBinding) : Json :=
  .object [("IP", .string pod.ip), ("DeviceNumber", Wire.natJson pod.deviceNumber.toNat)]

def ofJson? : Json → Option PodBinding
  | .object [(_, ip), (_, deviceNumber)] => do
      some ⟨← Wire.text? ip, (← Wire.nat? deviceNumber).toUInt32⟩
  | _ => none

instance : Wire PodBinding := ⟨.record "PodAddress" fieldShapes, toJson, ofJson?⟩

end PodBinding

namespace EniConfig

def fieldShapes : List (String × Json.Shape) :=
  [("securityGroups", .list Wire.textShape), ("subnet", Wire.textShape)]

def toJson (spec : EniConfig) : Json :=
  .object [("securityGroups", .array (spec.securityGroups.map .string)),
    ("subnet", .string spec.subnet)]

def ofJson? : Json → Option EniConfig
  | .object [(_, groups), (_, subnet)] => do
      some ⟨← Wire.items? Wire.text? groups, ← Wire.text? subnet⟩
  | _ => none

instance : Wire EniConfig := ⟨.record "EniConfigSpec" fieldShapes, toJson, ofJson?⟩

end EniConfig
end SnapshotEndpoint
