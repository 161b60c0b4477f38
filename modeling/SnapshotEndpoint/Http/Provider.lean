import SnapshotEndpoint.Http.Router

/-!
Providers of snapshots: fixed values, shared cells by name, counters of their own calls,
and providers that fail.
-/
namespace SnapshotEndpoint

inductive Provider where
  | fixed (value : Json)
  | cell (name : String)
  | counter (index : Nat)
  | failing (failure : SnapshotFailure)
  deriving Repr

/-- What providers read: the value of each cell, and how often each counter was asked. -/
structure Sources where
  cells : SortedMap Json
  counters : List Nat

namespace Sources

def empty : Sources := ⟨SortedMap.empty, []⟩

/-- A cell holds null until something is published; a name that is there keeps its value. -/
def openCell (s : Sources) (name : String) : Sources :=
  match s.cells.get? name with
  | some _ => s
  | none => { s with cells := s.cells.insert name .null }

def publish (s : Sources) (name : String) (value : Json) : Option Sources :=
  match s.cells.get? name with
  | some _ => some { s with cells := s.cells.insert name value }
  | none => none

def openCounter (s : Sources) : Sources × Nat :=
  ({ s with counters := s.counters ++ [0] }, s.counters.length)

end Sources

def Provider.query : Query Sources Provider := fun provider state =>
  match provider with
  | .fixed value => (.ok value.text, state)
  | .cell name => (.ok ((state.cells.get? name).getD .null).text, state)
  | .counter index =>
      let calls := (state.counters[index]?).getD 0 + 1
      (.ok (Json.integer calls).text, { state with counters := state.counters.set index calls })
  | .failing failure => (.error failure, state)

/-- An entry of a map from numbers, put in its place. -/
def insertNumbered (key : Int) (value : Json) : List (Int × Json) → List (Int × Json)
  | [] => [(key, value)]
  | entry :: rest =>
      if key < entry.1 then (key, value) :: entry :: rest
      else if key = entry.1 then (key, value) :: rest
      else entry :: insertNumbered key value rest

/-- A map from numbers as an object, in the order of the numbers. -/
def numberedJson (pairs : List (Int × Json)) : Json :=
  let entries := pairs.foldl (fun m p => insertNumbered p.1 p.2 m) []
  .object (entries.map fun e => (toString e.1, e.2))

end SnapshotEndpoint
