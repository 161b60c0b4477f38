import SnapshotEndpoint.Snapshot.Wire

/-!
The list of commands that `/` and every unknown path answer.
-/
namespace SnapshotEndpoint

structure Listing where
  availableCommands : List String
  deriving DecidableEq, Repr

namespace Listing

def fieldShapes : List (String × Json.Shape) := [("AvailableCommands", .list Wire.textShape)]

def toJson (listing : Listing) : Json :=
  .object [("AvailableCommands", .array (listing.availableCommands.map .string))]

def ofJson? : Json → Option Listing
  | .object [(_, commands)] => (Wire.items? Wire.text? commands).map Listing.mk
  | _ => none

instance : Wire Listing := ⟨.record "RootResponse" fieldShapes, toJson, ofJson?⟩

end Listing
end SnapshotEndpoint
