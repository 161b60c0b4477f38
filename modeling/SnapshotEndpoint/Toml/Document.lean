import SnapshotEndpoint.Toml.Statement

/-!
The table that a TOML text describes. The statements fall into sections, each a header
with the assignments below it; a section is put into the table as a whole.
-/
namespace SnapshotEndpoint.Toml

structure Section where
  header : Header
  assignments : List Assignment
  deriving Repr

def sectionsOf : List Statement → List Assignment × List Section
  | [] => ([], [])
  | .assign a :: rest =>
      let (assignments, sections) := sectionsOf rest
      (a :: assignments, sections)
  | .header h :: rest =>
      let (assignments, sections) := sectionsOf rest
      ([], ⟨h, assignments⟩ :: sections)

/-- A table section in the table that holds it. A table made on the way to a longer header
    may be opened once; it moves to the end. -/
def placeTable (key : String) (assignments : List Assignment) (entries : Entries) :
    Option Entries :=
  match entries.lookup key with
  | none => do addEntry key (.table .header (← assignAll [] assignments)) entries
  | some (.table .implied inner) => do
      addEntry key (.table .header (← assignAll inner assignments))
        (entries.filter fun e => e.1 != key)
  | some _ => none

def placeElement (key : String) (assignments : List Assignment) (entries : Entries) :
    Option Entries :=
  modifyEntry key (fun child =>
    match child with
    | none => (assignAll [] assignments).map fun element => .tables [element]
    | some (.tables elements) =>
        (assignAll [] assignments).map fun element => .tables (elements ++ [element])
    | some _ => none) entries

/-- A change made at the end of a header's path. Tables on the way are made where they are
    missing; in an array of tables the way goes through the last element. -/
def throughTables (change : Entries → Option Entries) : List String → Entries → Option Entries
  | [], entries => change entries
  | step :: path, entries =>
      modifyEntry step (fun child =>
        match child with
        | none => (throughTables change path []).map (Value.table .implied)
        | some (.table .literal _) => none
        | some (.table origin inner) =>
            (throughTables change path inner).map (Value.table origin)
        | some (.tables elements) =>
            (modifyLast (throughTables change path) elements).map Value.tables
        | some _ => none) entries

def placeSection (entries : Entries) (part : Section) : Option Entries :=
  match part.header with
  | .table path => throughTables (placeTable path.key part.assignments) path.tables entries
  | .element path => throughTables (placeElement path.key part.assignments) path.tables entries

def ofStatements (statements : List Statement) : Option Entries :=
  let (assignments, sections) := sectionsOf statements
  match assignAll [] assignments with
  | some entries => sections.foldlM placeSection entries
  | none => none

/-- The entries of the document a text holds; `none` if the text is not a TOML document. -/
def parse? (s : String) : Option Entries := (readStatements s).bind ofStatements

end SnapshotEndpoint.Toml
