import SnapshotEndpoint.Snapshot.Wire

/-!
Network interfaces of a node with their addresses, and the counts over them. Repeated
addresses of an interface, and repeated interfaces, count once: the last one stays.
-/
namespace SnapshotEndpoint

structure EniAddress where
  address : String
  assigned : Bool
  deriving DecidableEq, Repr

structure Eni where
  id : String
  isPrimary : Bool
  deviceNumber : UInt32
  assignedAddresses : Nat
  addresses : SortedMap EniAddress
  deriving DecidableEq, Repr

structure Inventory where
  totalIps : Nat
  assignedIps : Nat
  enis : SortedMap Eni
  deriving DecidableEq, Repr

def Eni.ofAddresses (id : String) (deviceNumber : UInt32) (isPrimary : Bool)
    (addresses : List EniAddress) : Eni :=
  let byAddress := SortedMap.ofList (addresses.map fun a => (a.address, a))
  ⟨id, isPrimary, deviceNumber, (byAddress.values.filter EniAddress.assigned).length, byAddress⟩

def Inventory.ofEnis (enis : List Eni) : Inventory :=
  let byId := SortedMap.ofList (enis.map fun eni => (eni.id, eni))
  ⟨byId.total fun eni => eni.addresses.size, byId.total Eni.assignedAddresses, byId⟩

def Inventory.empty : Inventory := Inventory.ofEnis []

namespace EniAddress

def fieldShapes : List (String × Json.Shape) :=
  [("Address", Wire.textShape), ("Assigned", Wire.flagShape)]

def toJson (a : EniAddress) : Json :=
  .object [("Address", .string a.address), ("Assigned", .bool a.assigned)]

def ofJson? : Json → Option EniAddress
  | .object [(_, address), (_, assigned)] => do
      some ⟨← Wire.text? address, ← Wire.flag? assigned⟩
  | _ => none

instance : Wire EniAddress := ⟨.record "AddressInfo" fieldShapes, toJson, ofJson?⟩

end EniAddress

namespace Eni

def fieldShapes : List (String × Json.Shape) :=
  [("ID", Wire.textShape), ("IsPrimary", Wire.flagShape), ("DeviceNumber", Wire.deviceShape),
   ("AssignedIPv4Addresses", Wire.sizeShape),
   ("IPv4Addresses", .map (Wire.shape EniAddress))]

def toJson (eni : Eni) : Json :=
  .object
    [("ID", .string eni.id), ("IsPrimary", .bool eni.isPrimary),
     ("DeviceNumber", Wire.natJson eni.deviceNumber.toNat),
     ("AssignedIPv4Addresses", Wire.natJson eni.assignedAddresses),
     ("IPv4Addresses", Wire.toJson eni.addresses)]

def ofJson? : Json → Option Eni
  | .object [(_, id), (_, isPrimary), (_, deviceNumber), (_, assigned), (_, addresses)] => do
      some ⟨← Wire.text? id, ← Wire.flag? isPrimary, (← Wire.nat? deviceNumber).toUInt32,
        ← Wire.nat? assigned, ← Wire.ofJson? addresses⟩
  | _ => none

instance : Wire Eni := ⟨.record "Eni" fieldShapes, toJson, ofJson?⟩

end Eni

namespace Inventory

def fieldShapes : List (String × Json.Shape) :=
  [("TotalIPs", Wire.sizeShape), ("AssignedIPs", Wire.sizeShape),
   ("ENIs", .map (Wire.shape Eni))]

def toJson (inventory : Inventory) : Json :=
  .object
    [("TotalIPs", Wire.natJson inventory.totalIps),
     ("AssignedIPs", Wire.natJson inventory.assignedIps),
     ("ENIs", Wire.toJson inventory.enis)]

def ofJson? : Json → Option Inventory
  | .object [(_, total), (_, assigned), (_, enis)] => do
      some ⟨← Wire.nat? total, ← Wire.nat? assigned, ← Wire.ofJson? enis⟩
  | _ => none

instance : Wire Inventory := ⟨.record "EniInventory" fieldShapes, toJson, ofJson?⟩

end Inventory
end SnapshotEndpoint
