import SnapshotEndpoint.Binary64

/-!
Values of a TOML document. Tables keep their entries in the order in which they came to
be, and remember how they were made, because that decides what may still be added.
-/
namespace SnapshotEndpoint.Toml

inductive Origin where
  /-- Written in braces; nothing can be added. -/
  | literal
  /-- Opened by its own header. -/
  | header
  /-- Made on the way to a longer header. -/
  | implied
  /-- Made by a dotted key. -/
  | dotted
  deriving DecidableEq, Repr

inductive Value where
  | string (value : String)
  | integer (value : Int)
  | float (value : Binary64)
  | boolean (value : Bool)
  /-- A date, a time or both; nothing here reads more than its kind. -/
  | datetime
  | array (items : List Value)
  | table (origin : Origin) (entries : List (String × Value))
  /-- An array of tables, each opened by a header in double brackets. -/
  | tables (elements : List (List (String × Value)))
  deriving Repr, Inhabited

abbrev Entries := List (String × Value)

end SnapshotEndpoint.Toml
