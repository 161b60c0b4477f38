import SnapshotEndpoint.Json.Decode
import SnapshotEndpoint.Word

/-!
Types with a JSON form: the shape of the form, the form of a value, and the value of a
form. Decoding reads a text by the shape first, so the last step meets only values of
that shape.
-/
namespace SnapshotEndpoint

class Wire (α : Type) where
  shape : Json.Shape
  toJson : α → Json
  ofJson? : Json → Option α

namespace Wire

def encode {α : Type} [Wire α] (value : α) : String := (toJson value).text

def decode (α : Type) [Wire α] (s : String) : Except Json.Failure α := do
  match ofJson? (← Json.decodeAs (shape α) s) with
  | some value => .ok value
  | none => .error (.fault .malformed)

def textShape : Json.Shape := .text
def flagShape : Json.Shape := .flag

def deviceShape : Json.Shape := .count wordLimit32 "u32"

def sizeShape : Json.Shape := .count wordLimit "usize"

def natJson (n : Nat) : Json := .integer n

def text? : Json → Option String
  | .string s => some s
  | _ => none

def flag? : Json → Option Bool
  | .bool b => some b
  | _ => none

def nat? : Json → Option Nat
  | .integer n => if 0 ≤ n then some n.toNat else none
  | _ => none

def items? {α : Type} (item? : Json → Option α) : Json → Option (List α)
  | .array items => items.mapM item?
  | _ => none

def entries? {α : Type} (value? : Json → Option α) : Json → Option (List (String × α))
  | .object members => members.mapM fun m => (value? m.2).map fun value => (m.1, value)
  | _ => none

/-- A map as an object, in the order of its keys. -/
def mapJson {α : Type} (toJson : α → Json) (m : SortedMap α) : Json :=
  .object (m.entries.map fun e => (e.1, toJson e.2))

def map? {α : Type} (value? : Json → Option α) (j : Json) : Option (SortedMap α) :=
  (entries? value? j).map SortedMap.ofList

instance mapWire {α : Type} [Wire α] : Wire (SortedMap α) where
  shape := .map (shape α)
  toJson := mapJson toJson
  ofJson? := map? ofJson?

end Wire
end SnapshotEndpoint
