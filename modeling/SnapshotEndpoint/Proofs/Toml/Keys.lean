import Mathlib.Data.List.Nodup
import SnapshotEndpoint.Toml.Document

/-!
A document holds each key once, in the document as a whole and in every table of it. Whatever
is put into a table keeps that, so the entries of a text can be looked up in any order.
-/
namespace SnapshotEndpoint.Toml

/-- A value in which no table holds a key twice. -/
inductive Value.Keyed : Value → Prop where
  | string (s : String) : Keyed (.string s)
  | integer (n : Int) : Keyed (.integer n)
  | float (x : Binary64) : Keyed (.float x)
  | boolean (b : Bool) : Keyed (.boolean b)
  | datetime : Keyed .datetime
  | array {items : List Value} (inside : ∀ item ∈ items, Keyed item) : Keyed (.array items)
  | table {origin : Origin} {entries : Entries} (distinct : (entries.map (·.1)).Nodup)
      (inside : ∀ e ∈ entries, Keyed e.2) : Keyed (.table origin entries)
  | tables {elements : List Entries}
      (distinct : ∀ element ∈ elements, (element.map (·.1)).Nodup)
      (inside : ∀ element ∈ elements, ∀ e ∈ element, Keyed e.2) : Keyed (.tables elements)

/-- Entries under different keys, and so in each table inside. -/
structure Keyed (entries : Entries) : Prop where
  distinct : (entries.map (·.1)).Nodup
  inside : ∀ e ∈ entries, e.2.Keyed

theorem keyed_nil : Keyed [] := ⟨List.nodup_nil, List.forall_mem_nil _⟩

theorem keyed_table_iff {origin : Origin} {entries : Entries} :
    (Value.table origin entries).Keyed ↔ Keyed entries := by
  constructor
  · intro keyed
    cases keyed with
    | table distinct inside => exact ⟨distinct, inside⟩
  · intro keyed
    exact .table keyed.distinct keyed.inside

theorem keyed_tables_iff {elements : List Entries} :
    (Value.tables elements).Keyed ↔ ∀ element ∈ elements, Keyed element := by
  constructor
  · intro keyed element member
    cases keyed with
    | tables distinct inside => exact ⟨distinct element member, inside element member⟩
  · intro keyed
    exact .tables (fun element member => (keyed element member).distinct)
      fun element member => (keyed element member).inside

theorem keyed_cons_iff {entry : String × Value} {rest : Entries} :
    Keyed (entry :: rest) ↔ entry.2.Keyed ∧ (∀ e ∈ rest, e.1 ≠ entry.1) ∧ Keyed rest := by
  constructor
  · rintro ⟨distinct, inside⟩
    rw [List.map_cons, List.nodup_cons, List.mem_map] at distinct
    rw [List.forall_mem_cons] at inside
    exact ⟨inside.1, fun e member same => distinct.1 ⟨e, member, same⟩, distinct.2, inside.2⟩
  · rintro ⟨own, others, distinct, inside⟩
    refine ⟨?_, List.forall_mem_cons.mpr ⟨own, inside⟩⟩
    rw [List.map_cons, List.nodup_cons, List.mem_map]
    refine ⟨?_, distinct⟩
    rintro ⟨e, member, same⟩
    exact others e member same

theorem Keyed.filter {entries : Entries} (keyed : Keyed entries) (p : String × Value → Bool) :
    Keyed (entries.filter p) where
  distinct := keyed.distinct.sublist (List.filter_sublist.map _)
  inside e member := keyed.inside e (List.mem_of_mem_filter member)

/-- A change of entries that leaves each key once. -/
def Keeps (change : Entries → Option Entries) : Prop :=
  ∀ entries result, Keyed entries → change entries = some result → Keyed result

theorem keeps_add_entry {key : String} {value : Value} (own : value.Keyed) :
    Keeps (addEntry key value) := by
  intro entries result keyed added
  unfold addEntry at added
  split at added
  · cases added
  · rename_i fresh
    cases added
    rw [Option.not_isSome_iff_eq_none, List.lookup_eq_none_iff] at fresh
    constructor
    · rw [List.map_append, List.map_singleton, List.nodup_append]
      refine ⟨keyed.distinct, List.nodup_singleton key, ?_⟩
      intro name member other same
      obtain ⟨e, known, rfl⟩ := List.mem_map.mp member
      rw [List.mem_singleton.mp same]
      exact Ne.symm (bne_iff_ne.mp (fresh e known))
    · rw [List.forall_mem_append]
      exact ⟨keyed.inside, List.forall_mem_singleton.mpr own⟩

section Changes

variable {key : String} {change : Option Value → Option Value}

theorem key_of_modify_entry {entries result : Entries}
    (modified : modifyEntry key change entries = some result) {e : String × Value}
    (member : e ∈ result) : e.1 = key ∨ ∃ old ∈ entries, old.1 = e.1 := by
  induction entries generalizing result with
  | nil =>
    obtain ⟨value, _, rfl⟩ := Option.map_eq_some_iff.mp modified
    rw [List.mem_singleton.mp member]
    exact .inl rfl
  | cons entry rest ih =>
    rw [modifyEntry] at modified
    split at modified
    · obtain ⟨value, _, rfl⟩ := Option.map_eq_some_iff.mp modified
      rcases List.mem_cons.mp member with rfl | later
      · exact .inl rfl
      · exact .inr ⟨e, List.mem_cons_of_mem entry later, rfl⟩
    · obtain ⟨others, later, rfl⟩ := Option.map_eq_some_iff.mp modified
      rcases List.mem_cons.mp member with rfl | known
      · exact .inr ⟨e, List.mem_cons_self, rfl⟩
      · rcases ih later known with same | ⟨old, there, same⟩
        · exact .inl same
        · exact .inr ⟨old, List.mem_cons_of_mem entry there, same⟩

theorem keeps_modify_entry
    (changes : ∀ child value, (∀ v ∈ child, v.Keyed) → change child = some value → value.Keyed) :
    Keeps (modifyEntry key change) := by
  intro entries
  induction entries with
  | nil =>
    intro result _ modified
    obtain ⟨value, made, rfl⟩ := Option.map_eq_some_iff.mp modified
    have own := changes none value (by simp) made
    exact keyed_cons_iff.mpr ⟨own, List.forall_mem_nil _, keyed_nil⟩
  | cons entry rest ih =>
    intro result keyed modified
    obtain ⟨old, others, later⟩ := keyed_cons_iff.mp keyed
    rw [modifyEntry] at modified
    split at modified
    · rename_i same
      obtain ⟨value, made, rfl⟩ := Option.map_eq_some_iff.mp modified
      have own := changes (some entry.2) value (by simpa using old) made
      exact keyed_cons_iff.mpr ⟨own, same ▸ others, later⟩
    · rename_i other
      obtain ⟨changed, made, rfl⟩ := Option.map_eq_some_iff.mp modified
      refine keyed_cons_iff.mpr ⟨old, ?_, ih changed later made⟩
      intro e member
      rcases key_of_modify_entry made member with same | ⟨known, there, same⟩
      · rw [same]
        exact Ne.symm other
      · rw [← same]
        exact others known there

end Changes

theorem all_of_modify_last {α : Type} {P : α → Prop} {change : α → Option α}
    (changes : ∀ x y, P x → change x = some y → P y) {xs ys : List α}
    (modified : modifyLast change xs = some ys) (all : ∀ x ∈ xs, P x) : ∀ y ∈ ys, P y := by
  induction xs generalizing ys with
  | nil => cases modified
  | cons x rest ih =>
    obtain ⟨own, others⟩ := List.forall_mem_cons.mp all
    cases rest with
    | nil =>
      obtain ⟨y, made, rfl⟩ := Option.map_eq_some_iff.mp modified
      exact List.forall_mem_singleton.mpr (changes x y own made)
    | cons next rest =>
      obtain ⟨later, made, rfl⟩ := Option.map_eq_some_iff.mp modified
      exact List.forall_mem_cons.mpr ⟨own, ih made others⟩

section Tables

variable {change : Entries → Option Entries} (keeps : Keeps change) {value : Value}
include keeps

theorem keyed_of_table {origin : Origin} {entries : Entries} (keyed : Keyed entries)
    (made : (change entries).map (Value.table origin) = some value) : value.Keyed := by
  obtain ⟨changed, done, rfl⟩ := Option.map_eq_some_iff.mp made
  exact keyed_table_iff.mpr (keeps entries changed keyed done)

theorem keyed_of_last {elements : List Entries} (keyed : (Value.tables elements).Keyed)
    (made : (modifyLast change elements).map Value.tables = some value) : value.Keyed := by
  obtain ⟨changed, done, rfl⟩ := Option.map_eq_some_iff.mp made
  exact keyed_tables_iff.mpr (all_of_modify_last keeps done (keyed_tables_iff.mp keyed))

end Tables

theorem keeps_assign_into {key : String} {value : Value} (own : value.Keyed)
    (path : List String) : Keeps (assignInto key value path) := by
  induction path with
  | nil => exact keeps_add_entry own
  | cons step path ih =>
    refine keeps_modify_entry ?_
    intro child made keyed changed
    split at changed
    · exact keyed_of_table ih keyed_nil changed
    · exact keyed_of_table ih (keyed_table_iff.mp (keyed _ rfl)) changed
    · split at changed
      · cases changed
      · exact keyed_of_table ih (keyed_table_iff.mp (keyed _ rfl)) changed
    · split at changed
      · cases changed
      · exact keyed_of_last ih (keyed _ rfl) changed
    · cases changed

theorem keeps_fold {β : Type} {change : Entries → β → Option Entries} {steps : List β}
    (each : ∀ step ∈ steps, Keeps fun entries => change entries step) :
    Keeps fun entries => steps.foldlM change entries := by
  induction steps with
  | nil =>
    intro entries result keyed done
    cases done
    exact keyed
  | cons step rest ih =>
    intro entries result keyed done
    obtain ⟨first, others⟩ := List.forall_mem_cons.mp each
    obtain ⟨next, made, later⟩ := Option.bind_eq_some_iff.mp done
    exact ih others next result (first entries next keyed made) later

theorem keeps_assign_all {assignments : List Assignment} (own : ∀ a ∈ assignments, a.value.Keyed) :
    Keeps fun entries => assignAll entries assignments :=
  keeps_fold fun a member => keeps_assign_into (own a member) a.path.tables

/-! What is read holds each key once, because an inline table is made of its assignments. -/

section Scalars

variable {cs rest : List Char} {value : Value}

theorem keyed_of_integer {n : Int} (made : integerValue n = some value) : value.Keyed := by
  unfold integerValue at made
  split at made
  · cases made
    exact .integer n
  · cases made

theorem keyed_of_read_integer (read : readInteger cs = some (value, rest)) : value.Keyed := by
  unfold readInteger at read
  split at read
  all_goals
    simp only [readBased, readDecimalInteger, Option.bind_eq_bind, Option.bind_eq_some_iff] at read
    obtain ⟨digits, _, n, made, same⟩ := read
    cases same
    exact keyed_of_integer made

theorem keyed_of_read_decimal (read : readDecimalFloat cs = some (value, rest)) :
    value.Keyed := by
  simp only [readDecimalFloat, Option.bind_eq_bind, Option.bind_eq_some_iff] at read
  obtain ⟨whole, _, parts, _, read⟩ := read
  split at read
  · cases read
  · cases read
    exact .float _

theorem keyed_of_read_special (read : readSpecialFloat cs = some (value, rest)) :
    value.Keyed := by
  unfold readSpecialFloat at read
  dsimp only at read
  split at read
  · cases read
    exact .float _
  · obtain ⟨_, _, same⟩ := Option.map_eq_some_iff.mp read
    cases same
    exact .float _

theorem keyed_of_read_datetime (read : readDatetime cs = some (value, rest)) : value.Keyed := by
  unfold readDatetime at read
  split at read
  · cases read
    exact .datetime
  · obtain ⟨_, _, same⟩ := Option.map_eq_some_iff.mp read
    cases same
    exact .datetime

theorem keyed_of_read_scalar (read : readScalar cs = some (value, rest)) : value.Keyed := by
  unfold readScalar at read
  split at read
  · obtain ⟨_, _, same⟩ := Option.map_eq_some_iff.mp read
    cases same
    exact .boolean true
  · obtain ⟨_, _, same⟩ := Option.map_eq_some_iff.mp read
    cases same
    exact .boolean false
  · simp only [Option.or_eq_some_iff] at read
    rcases read with date | ⟨_, decimal | ⟨_, special | ⟨_, whole⟩⟩⟩
    · exact keyed_of_read_datetime date
    · exact keyed_of_read_decimal decimal
    · exact keyed_of_read_special special
    · exact keyed_of_read_integer whole

end Scalars

/-- What the readers of values give with some number of steps. -/
structure ReadsKeyed (fuel : Nat) : Prop where
  value {room : Nat} {cs rest : List Char} {value : Value}
    (read : readValue fuel room cs = some (value, rest)) : value.Keyed
  items {room : Nat} {cs rest : List Char} {items : List Value}
    (read : readItems fuel room cs = some (items, rest)) : ∀ item ∈ items, item.Keyed
  inline {room : Nat} {first : Bool} {cs rest : List Char} {assignments : List Assignment}
    (read : readInline fuel room first cs = some (assignments, rest)) :
    ∀ a ∈ assignments, a.value.Keyed

section Steps

variable {n room : Nat} (reads : ReadsKeyed n) {cs rest : List Char}
include reads

theorem keyed_of_read_value {value : Value}
    (read : readValue (n + 1) room cs = some (value, rest)) : value.Keyed := by
  unfold readValue at read
  split at read
  · cases read
  split at read
  · obtain ⟨_, _, same⟩ := Option.map_eq_some_iff.mp read
    cases same
    exact .string _
  split at read
  · split at read
    · cases read
    · obtain ⟨found, inside, same⟩ := Option.map_eq_some_iff.mp read
      cases same
      exact .array (reads.items inside)
  split at read
  · split at read
    · cases read
    · simp only [Option.bind_eq_bind, Option.bind_eq_some_iff] at read
      obtain ⟨found, inside, entries, assigned, same⟩ := read
      cases same
      exact keyed_table_iff.mpr (keeps_assign_all (reads.inline inside) [] _ keyed_nil assigned)
  · exact keyed_of_read_scalar read

theorem keyed_of_read_items {items : List Value}
    (read : readItems (n + 1) room cs = some (items, rest)) : ∀ item ∈ items, item.Keyed := by
  rw [readItems] at read
  split at read
  · cases read
    exact List.forall_mem_nil _
  · obtain ⟨⟨item, left⟩, own, read⟩ := Option.bind_eq_some_iff.mp read
    dsimp only at read
    split at read
    · cases read
      exact List.forall_mem_singleton.mpr (reads.value own)
    · obtain ⟨⟨others, _⟩, later, same⟩ := Option.bind_eq_some_iff.mp read
      cases same
      exact List.forall_mem_cons.mpr ⟨reads.value own, reads.items later⟩
    · cases read

theorem keyed_of_read_inline {first : Bool} {assignments : List Assignment}
    (read : readInline (n + 1) room first cs = some (assignments, rest)) :
    ∀ a ∈ assignments, a.value.Keyed := by
  unfold readInline at read
  split at read
  · cases read
    exact List.forall_mem_nil _
  · simp only [Option.bind_eq_bind, Option.bind_eq_some_iff] at read
    obtain ⟨⟨path, _⟩, _, _, _, ⟨value, _⟩, own, read⟩ := read
    dsimp only at read
    split at read
    · cases read
      exact List.forall_mem_singleton.mpr (reads.value own)
    · obtain ⟨⟨others, _⟩, later, same⟩ := Option.bind_eq_some_iff.mp read
      cases same
      exact List.forall_mem_cons.mpr ⟨reads.value own, reads.inline later⟩
    · cases read

end Steps

theorem reads_keyed (fuel : Nat) : ReadsKeyed fuel := by
  induction fuel with
  | zero => exact ⟨by intros; contradiction, by intros; contradiction, by intros; contradiction⟩
  | succ n ih =>
    exact ⟨keyed_of_read_value ih, keyed_of_read_items ih, keyed_of_read_inline ih⟩

/-- The values of assignments hold each key once. -/
def Statement.Keyed : Statement → Prop
  | .header _ => True
  | .assign a => a.value.Keyed

theorem keyed_of_read_assignment {cs rest : List Char} {a : Assignment}
    (read : readAssignment cs = some (a, rest)) : a.value.Keyed := by
  simp only [readAssignment, Option.bind_eq_bind, Option.bind_eq_some_iff] at read
  obtain ⟨_, _, _, _, ⟨value, _⟩, own, same⟩ := read
  cases same
  exact (reads_keyed _).value own

theorem keyed_of_read_line {cs rest : List Char} {statement : Statement}
    (read : readLine cs = some (some statement, rest)) : statement.Keyed := by
  unfold readLine at read
  split at read
  · cases read
  · split at read
    · simp only [Option.bind_eq_bind, Option.bind_eq_some_iff] at read
      obtain ⟨header, _, _, _, same⟩ := read
      cases same
      trivial
    · simp only [Option.bind_eq_bind, Option.bind_eq_some_iff] at read
      obtain ⟨a, own, _, _, same⟩ := read
      cases same
      exact keyed_of_read_assignment own

theorem keyed_of_read_lines {fuel : Nat} {cs : List Char} {statements : List Statement}
    (read : readLines fuel cs = some statements) : ∀ s ∈ statements, s.Keyed := by
  induction fuel generalizing cs statements with
  | zero =>
    cases cs with
    | nil =>
      cases read
      exact List.forall_mem_nil _
    | cons c more => cases read
  | succ n ih =>
    cases cs with
    | nil =>
      cases read
      exact List.forall_mem_nil _
    | cons c more =>
      rw [readLines] at read
      obtain ⟨⟨statement, left⟩, own, read⟩ := Option.bind_eq_some_iff.mp read
      obtain ⟨others, later, read⟩ := Option.bind_eq_some_iff.mp read
      cases statement with
      | none =>
        cases read
        exact ih later
      | some statement =>
        cases read
        exact List.forall_mem_cons.mpr ⟨keyed_of_read_line own, ih later⟩

theorem keyed_of_sections {statements : List Statement} (keyed : ∀ s ∈ statements, s.Keyed) :
    (∀ a ∈ (sectionsOf statements).1, a.value.Keyed) ∧
      ∀ part ∈ (sectionsOf statements).2, ∀ a ∈ part.assignments, a.value.Keyed := by
  induction statements with
  | nil => exact ⟨List.forall_mem_nil _, List.forall_mem_nil _⟩
  | cons statement rest ih =>
    obtain ⟨own, others⟩ := List.forall_mem_cons.mp keyed
    obtain ⟨assigned, parts⟩ := ih others
    cases statement with
    | header h => exact ⟨List.forall_mem_nil _, List.forall_mem_cons.mpr ⟨assigned, parts⟩⟩
    | assign a => exact ⟨List.forall_mem_cons.mpr ⟨own, assigned⟩, parts⟩

section Sections

variable {assignments : List Assignment} (own : ∀ a ∈ assignments, a.value.Keyed)
include own

theorem keeps_place_table (key : String) : Keeps (placeTable key assignments) := by
  intro entries result keyed placed
  unfold placeTable at placed
  split at placed
  · obtain ⟨made, assigned, added⟩ := Option.bind_eq_some_iff.mp placed
    have table := keeps_assign_all own [] made keyed_nil assigned
    exact keeps_add_entry (keyed_table_iff.mpr table) entries result keyed added
  · rename_i inner found
    obtain ⟨made, assigned, added⟩ := Option.bind_eq_some_iff.mp placed
    obtain ⟨before, after, rfl, _⟩ := List.lookup_eq_some_iff.mp found
    have old := keyed_table_iff.mp
      (keyed.inside _ (List.mem_append_right before List.mem_cons_self))
    have table := keeps_assign_all own inner made old assigned
    exact keeps_add_entry (keyed_table_iff.mpr table) _ result (keyed.filter _) added
  · cases placed

theorem keeps_place_element (key : String) : Keeps (placeElement key assignments) := by
  refine keeps_modify_entry ?_
  intro child made keyed changed
  split at changed
  · obtain ⟨element, assigned, rfl⟩ := Option.map_eq_some_iff.mp changed
    have table := keeps_assign_all own [] element keyed_nil assigned
    exact keyed_tables_iff.mpr (List.forall_mem_singleton.mpr table)
  · obtain ⟨element, assigned, rfl⟩ := Option.map_eq_some_iff.mp changed
    have table := keeps_assign_all own [] element keyed_nil assigned
    rw [keyed_tables_iff, List.forall_mem_append]
    exact ⟨keyed_tables_iff.mp (keyed _ rfl), List.forall_mem_singleton.mpr table⟩
  · cases changed

end Sections

theorem keeps_through_tables {change : Entries → Option Entries} (keeps : Keeps change)
    (path : List String) : Keeps (throughTables change path) := by
  induction path with
  | nil => exact keeps
  | cons step path ih =>
    refine keeps_modify_entry ?_
    intro child made keyed changed
    split at changed
    · exact keyed_of_table ih keyed_nil changed
    · cases changed
    · exact keyed_of_table ih (keyed_table_iff.mp (keyed _ rfl)) changed
    · exact keyed_of_last ih (keyed _ rfl) changed
    · cases changed

theorem keeps_place_section {part : Section} (own : ∀ a ∈ part.assignments, a.value.Keyed) :
    Keeps fun entries => placeSection entries part := by
  intro entries result keyed placed
  unfold placeSection at placed
  split at placed
  · exact keeps_through_tables (keeps_place_table own _) _ entries result keyed placed
  · exact keeps_through_tables (keeps_place_element own _) _ entries result keyed placed

theorem keyed_of_statements {statements : List Statement} (own : ∀ s ∈ statements, s.Keyed)
    {entries : Entries} (made : ofStatements statements = some entries) : Keyed entries := by
  obtain ⟨assigned, parts⟩ := keyed_of_sections own
  unfold ofStatements at made
  dsimp only at made
  split at made
  · rename_i start first
    have keyed := keeps_assign_all assigned [] start keyed_nil first
    exact keeps_fold (fun part member => keeps_place_section (parts part member)) start entries
      keyed made
  · cases made

/-- Whatever a text holds, it holds under different keys. -/
theorem keyed_of_parse {s : String} {entries : Entries} (document : parse? s = some entries) :
    Keyed entries := by
  obtain ⟨statements, read, made⟩ := Option.bind_eq_some_iff.mp document
  exact keyed_of_statements (keyed_of_read_lines read) made

end SnapshotEndpoint.Toml
