import Mathlib.Data.List.Pairwise
import Mathlib.Tactic.MkIffOfInductiveProp
import SnapshotEndpoint.Config.Schema
import SnapshotEndpoint.Proofs.Except
import SnapshotEndpoint.Proofs.Toml.Keys
import SnapshotEndpoint.SortedMap

/-!
The configuration that a document describes, said without an order of reading. A field has what
stands under its name, or else its default, and so has a section; nothing else in a document
counts. A document describes one configuration exactly if every known key holds what fits it.
-/
namespace SnapshotEndpoint
namespace Config

open Toml (Value Entries)

inductive FlagOf : Value → Bool → Prop where
  | boolean (b : Bool) : FlagOf (.boolean b) b

inductive TextOf : Value → String → Prop where
  | string (s : String) : TextOf (.string s) s

inductive CountOf : Value → Nat → Prop where
  | integer (n : Nat) : CountOf (.integer n) n

inductive NumberOf : Value → Binary64 → Prop where
  | float (x : Binary64) : NumberOf (.float x) x
  | integer (n : Int) : NumberOf (.integer n) (Binary64.ofInt n)

inductive FormatNamed : String → LogFormat → Prop where
  | pretty : FormatNamed "pretty" .pretty
  | json : FormatNamed "json" .json

/-- A format by its name, or by a table with the name as its one key and nothing under it. -/
inductive FormatOf : Value → LogFormat → Prop where
  | string {name : String} {format : LogFormat} (named : FormatNamed name format) :
      FormatOf (.string name) format
  | table {name : String} {format : LogFormat} (named : FormatNamed name format)
      {content : Value} (hollow : isHollow content = true) (origin : Toml.Origin) :
      FormatOf (.table origin [(name, content)]) format

/-- The entries of a section: those of a table, or the items of an array under the names of the
    fields in their order, as far as both go. A date has none. -/
def sectionEntries? (names : List String) : Value → Option Entries
  | .table _ entries => some entries
  | .array items => some (names.zip items)
  | .tables elements => some (names.zip (elements.map (Value.table .header)))
  | .datetime => some []
  | _ => none

/-- A part of a record: its key, what the values under the key mean, which of them fit, and which
    of them say the same. -/
structure Field (α : Type) where
  name : String
  Held : Type
  Means : Value → Held → Prop
  Fits : Value → Prop
  Same : Value → Value → Prop
  get : α → Held

/-- Each field of a record is what stands under its name, or what it was. -/
def Described {α : Type} (fields : List (Field α)) (start : α) (entries : Entries) (record : α) :
    Prop :=
  ∀ field ∈ fields, match entries.lookup field.name with
    | some v => field.Means v (field.get record)
    | none => field.get record = field.get start

/-- Some known key holds a value that does not fit. -/
def Unfit {α : Type} (fields : List (Field α)) (entries : Entries) : Prop :=
  ∃ field ∈ fields, ∃ v, entries.lookup field.name = some v ∧ ¬ field.Fits v

/-- The known keys say the same, in whatever order and among whatever others they stand. -/
def Alike {α : Type} (fields : List (Field α)) (first second : Entries) : Prop :=
  ∀ field ∈ fields, (first.lookup field.name = none ∧ second.lookup field.name = none) ∨
    ∃ v w, first.lookup field.name = some v ∧ second.lookup field.name = some w ∧ field.Same v w

namespace Field

variable {α β : Type}

/-- A field that holds one value. -/
def leaf (name : String) (means : Value → β → Prop) (get : α → β) : Field α where
  name := name
  Held := β
  Means := means
  Fits v := ∃ x, means v x
  Same v w := v = w
  get := get

/-- A field that holds a section. -/
def part (name : String) (fields : List (Field β)) (start : β) (get : α → β) : Field α where
  name := name
  Held := β
  Means v record := ∃ entries, sectionEntries? (fields.map (·.name)) v = some entries ∧
    Described fields start entries record
  Fits v := ∃ entries, sectionEntries? (fields.map (·.name)) v = some entries ∧
    ¬ Unfit fields entries
  Same v w := ∃ first second, sectionEntries? (fields.map (·.name)) v = some first ∧
    sectionEntries? (fields.map (·.name)) w = some second ∧ Alike fields first second
  get := get

end Field

def serverFields : List (Field ServerSection) :=
  [.leaf "enabled" FlagOf (·.enabled), .leaf "bind_address" TextOf (·.bindAddress),
    .leaf "read_timeout_secs" CountOf (·.readTimeoutSecs),
    .leaf "write_timeout_secs" CountOf (·.writeTimeoutSecs),
    .leaf "max_connections" CountOf (·.maxConnections)]

def backoffFields : List (Field BackoffSection) :=
  [.leaf "initial_delay_ms" CountOf (·.initialDelayMs),
    .leaf "max_delay_ms" CountOf (·.maxDelayMs), .leaf "multiplier" NumberOf (·.multiplier),
    .leaf "jitter" NumberOf (·.jitter)]

def observabilityFields : List (Field LogSection) :=
  [.leaf "log_level" TextOf (·.logLevel), .leaf "log_format" FormatOf (·.logFormat)]

def fields : List (Field Config) :=
  [.part "server" serverFields ServerSection.default (·.server),
    .part "backoff" backoffFields BackoffSection.default (·.backoff),
    .part "observability" observabilityFields LogSection.default (·.observability)]

/-- A record is read as its fields say, one key at a time. -/
structure Follows {α : Type} (fields : List (Field α))
    (set : α → String → Value → Except SchemaMisfit α) : Prop where
  own : ∀ field ∈ fields, ∀ record v result, v.Keyed → set record field.name v = .ok result →
    field.Means v (field.get result)
  other : ∀ field ∈ fields, ∀ record key v result, key ≠ field.name →
    set record key v = .ok result → field.get result = field.get record
  able : ∀ record key v, v.Keyed →
    ((∃ result, set record key v = .ok result) ↔ ∀ field ∈ fields, field.name = key → field.Fits v)

section Reading

variable {α : Type} {fields : List (Field α)} {entries : Entries}

theorem not_unfit_iff (keyed : Toml.Keyed entries) :
    ¬ Unfit fields entries ↔
      ∀ e ∈ entries, ∀ field ∈ fields, field.name = e.1 → field.Fits e.2 := by
  constructor
  · intro fit e member field known same
    refine Classical.byContradiction fun misfit => fit ⟨field, known, e.2, ?_, misfit⟩
    rw [same]
    exact lookup_of_distinct keyed.distinct member
  · rintro fits ⟨field, known, v, found, misfit⟩
    exact misfit (fits _ (mem_of_lookup found) field known rfl)

variable {set : α → String → Value → Except SchemaMisfit α} (follows : Follows fields set)
include follows

theorem Follows.described (keyed : Toml.Keyed entries) {start record : α}
    (read : entries.foldlM (fun record e => set record e.1 e.2) start = .ok record) :
    Described fields start entries record := by
  induction entries generalizing start with
  | nil =>
    cases read
    exact fun _ _ => rfl
  | cons entry rest ih =>
    obtain ⟨own, others, later⟩ := Toml.keyed_cons_iff.mp keyed
    obtain ⟨key, v⟩ := entry
    obtain ⟨next, first, read⟩ := bind_eq_ok_iff.mp read
    intro field member
    have after := ih later read field member
    by_cases same : field.name = key
    · -- The key comes once, so nothing further on changes what it gave.
      have fresh : rest.lookup field.name = none := by
        rw [List.lookup_eq_none_iff]
        intro e known
        rw [bne_iff_ne, same]
        exact (others e known).symm
      rw [fresh] at after
      dsimp only at after first
      rw [← same] at first
      rw [List.lookup_cons, same, beq_self_eq_true, after]
      exact follows.own field member start v next own first
    · rw [List.lookup_cons, beq_eq_false_iff_ne.mpr same]
      rwa [follows.other field member start key v next (Ne.symm same) first] at after

theorem Follows.read_iff (keyed : Toml.Keyed entries) (start : α) :
    (∃ record, entries.foldlM (fun record e => set record e.1 e.2) start = .ok record) ↔
      ¬ Unfit fields entries := by
  rw [not_unfit_iff keyed]
  induction entries generalizing start with
  | nil => exact iff_of_true ⟨start, rfl⟩ (List.forall_mem_nil _)
  | cons entry rest ih =>
    obtain ⟨own, _, later⟩ := Toml.keyed_cons_iff.mp keyed
    rw [List.forall_mem_cons, ← follows.able start entry.1 entry.2 own]
    constructor
    · rintro ⟨record, read⟩
      obtain ⟨next, first, read⟩ := bind_eq_ok_iff.mp read
      exact ⟨⟨next, first⟩, (ih later next).mp ⟨record, read⟩⟩
    · rintro ⟨⟨next, first⟩, fits⟩
      obtain ⟨record, read⟩ := (ih later next).mpr fits
      exact ⟨record, bind_eq_ok_iff.mpr ⟨next, first, read⟩⟩

end Reading

/-- Fields tell records apart, and each value means one thing. -/
structure Separates {α : Type} (fields : List (Field α)) : Prop where
  single : ∀ field ∈ fields, ∀ v x y, field.Means v x → field.Means v y → x = y
  whole : ∀ first second : α, (∀ field ∈ fields, field.get first = field.get second) →
    first = second

theorem Separates.unique {α : Type} {fields : List (Field α)} (separates : Separates fields)
    {start first second : α} {entries : Entries} (described : Described fields start entries first)
    (described' : Described fields start entries second) : first = second := by
  refine separates.whole first second ?_
  intro field member
  have own := described field member
  have own' := described' field member
  cases found : entries.lookup field.name with
  | none =>
    rw [found] at own own'
    exact own.trans own'.symm
  | some v =>
    rw [found] at own own'
    exact separates.single field member v _ _ own own'

section Values

variable {v : Value}

theorem read_flag_eq_ok_iff {b : Bool} : readFlag v = .ok b ↔ FlagOf v b := by
  constructor
  · intro read
    cases v with
    | boolean c =>
      cases read
      exact .boolean b
    | _ => cases read
  · intro flag
    cases flag
    rfl

theorem read_text_eq_ok_iff {s : String} : readText v = .ok s ↔ TextOf v s := by
  constructor
  · intro read
    cases v with
    | string c =>
      cases read
      exact .string s
    | _ => cases read
  · intro text
    cases text
    rfl

theorem read_count_eq_ok_iff {expected : String} {n : Nat} :
    readCount expected v = .ok n ↔ CountOf v n := by
  constructor
  · intro read
    cases v with
    | integer m =>
      rw [readCount] at read
      split at read
      · cases read
      · rename_i natural
        cases read
        obtain ⟨k, rfl⟩ := Int.eq_ofNat_of_zero_le (Int.not_lt.mp natural)
        exact .integer k
    | _ => cases read
  · intro count
    cases count with
    | integer n => rw [readCount, if_neg (by omega), Int.toNat_natCast]

theorem read_float_eq_ok_iff {x : Binary64} : readFloat v = .ok x ↔ NumberOf v x := by
  constructor
  · intro read
    cases v with
    | float y =>
      cases read
      exact .float x
    | integer n => exact Except.ok.inj read ▸ .integer n
    | _ => cases read
  · intro number
    cases number <;> rfl

theorem format_named_eq_ok_iff {name : String} {format : LogFormat} :
    formatNamed name = .ok format ↔ FormatNamed name format := by
  unfold formatNamed
  constructor
  · intro read
    split at read
    · rename_i pretty
      cases read
      exact pretty ▸ .pretty
    split at read
    · rename_i json
      cases read
      exact json ▸ .json
    · cases read
  · intro named
    cases named <;> rfl

theorem read_format_eq_ok_iff {format : LogFormat} :
    readFormat v = .ok format ↔ FormatOf v format := by
  constructor
  · intro read
    unfold readFormat at read
    split at read
    · exact .string (format_named_eq_ok_iff.mp read)
    · cases read
    · obtain ⟨found, named, read⟩ := bind_eq_ok_iff.mp read
      split at read
      · rename_i hollow
        cases read
        exact .table (format_named_eq_ok_iff.mp named) hollow _
      · cases read
    · cases read
    · cases read
  · intro means
    cases means with
    | string named => exact format_named_eq_ok_iff.mpr named
    | table named hollow origin =>
      refine bind_eq_ok_iff.mpr ⟨format, format_named_eq_ok_iff.mpr named, ?_⟩
      rw [if_pos hollow]

end Values

/-- A field with the reader of its values and the change that a value makes. -/
structure Setter (α : Type) where
  field : Field α
  read : FieldReader field.Held
  put : α → field.Held → α

/-- What the key of some field changes; other keys change nothing. -/
def setWith {α : Type} (setters : List (Setter α)) (record : α) (key : String) (v : Value) :
    Except SchemaMisfit α :=
  match setters with
  | [] => .ok record
  | s :: rest =>
      if key = s.field.name then (s.read v).map (s.put record) else setWith rest record key v

namespace Setter

variable {α β : Type}

/-- The reader gives what a value means, for each value that fits, and it is what is held then. -/
structure Lawful (s : Setter α) : Prop where
  means : ∀ v x, v.Keyed → s.read v = .ok x → s.field.Means v x
  able : ∀ v, v.Keyed → ((∃ x, s.read v = .ok x) ↔ s.field.Fits v)
  holds : ∀ record x, s.field.get (s.put record x) = x

/-- Two fields of different names, neither of which changes the other. -/
@[mk_iff]
structure Apart (s t : Setter α) : Prop where
  names : s.field.name ≠ t.field.name
  left : ∀ record x, s.field.get (t.put record x) = s.field.get record
  right : ∀ record x, t.field.get (s.put record x) = t.field.get record

instance : Std.Symm (Apart : Setter α → Setter α → Prop) where
  symm _ _ apart := ⟨apart.names.symm, apart.right, apart.left⟩

/-- The setter of a field that holds one value. -/
def leaf (name : String) (means : Value → β → Prop) (get : α → β) (read : FieldReader β)
    (put : α → β → α) : Setter α :=
  ⟨.leaf name means get, read, put⟩

theorem leaf_lawful {name : String} {means : Value → β → Prop} {get : α → β} {read : FieldReader β}
    {put : α → β → α} (reads : ∀ v x, read v = .ok x ↔ means v x)
    (holds : ∀ record x, get (put record x) = x) : (leaf name means get read put).Lawful where
  means v x _ done := (reads v x).mp done
  able v _ := exists_congr (reads v)
  holds := holds

end Setter

section Setters

variable {α : Type} {setters : List (Setter α)}

theorem set_with_cases (record : α) (key : String) (v : Value) :
    (∃ s ∈ setters, s.field.name = key ∧
        setWith setters record key v = (s.read v).map (s.put record)) ∨
      (∀ s ∈ setters, s.field.name ≠ key) ∧ setWith setters record key v = .ok record := by
  induction setters with
  | nil => exact .inr ⟨List.forall_mem_nil _, rfl⟩
  | cons s rest ih =>
    rw [setWith, List.forall_mem_cons, List.exists_mem_cons_iff]
    by_cases own : key = s.field.name
    · rw [if_pos own]
      exact .inl (.inl ⟨own.symm, rfl⟩)
    · rw [if_neg own]
      exact ih.imp .inr fun absent => ⟨⟨Ne.symm own, absent.1⟩, absent.2⟩

theorem eq_or_apart (apart : setters.Pairwise Setter.Apart) {s t : Setter α} (member : s ∈ setters)
    (member' : t ∈ setters) : s = t ∨ s.Apart t := by
  by_cases same : s = t
  · exact .inl same
  · exact .inr (apart.forall member member' same)

/-- Fields that are set apart from each other are read as they say. -/
theorem set_with_follows (lawful : ∀ s ∈ setters, s.Lawful)
    (apart : setters.Pairwise Setter.Apart) :
    Follows (setters.map (·.field)) (setWith setters) where
  own := by
    simp only [List.forall_mem_map]
    intro s member record v result keyed done
    rcases set_with_cases record s.field.name v with ⟨t, member', same, sets⟩ | ⟨absent, _⟩
    · rcases eq_or_apart apart member member' with rfl | apart
      · rw [sets] at done
        obtain ⟨x, read, rfl⟩ := map_eq_ok_iff.mp done
        rw [(lawful s member).holds]
        exact (lawful s member).means v x keyed read
      · exact absurd same.symm apart.names
    · exact absurd rfl (absent s member)
  other := by
    simp only [List.forall_mem_map]
    intro s member record key v result different done
    rcases set_with_cases record key v with ⟨t, member', rfl, sets⟩ | ⟨_, sets⟩
    · rcases eq_or_apart apart member member' with rfl | apart
      · exact absurd rfl different
      · rw [sets] at done
        obtain ⟨x, _, rfl⟩ := map_eq_ok_iff.mp done
        exact apart.left record x
    · rw [sets] at done
      cases done
      rfl
  able := by
    simp only [List.forall_mem_map]
    intro record key v keyed
    rcases set_with_cases record key v with ⟨s, member, rfl, sets⟩ | ⟨absent, sets⟩
    · have read : (∃ result, (s.read v).map (s.put record) = .ok result) ↔
          ∃ x, s.read v = .ok x := by
        simp [map_eq_ok_iff, exists_comm]
      rw [sets, read, (lawful s member).able v keyed]
      constructor
      · intro fits t member' same
        rcases eq_or_apart apart member member' with rfl | apart
        · exact fits
        · exact absurd same.symm apart.names
      · intro fits
        exact fits s member rfl
    · rw [sets]
      exact iff_of_true ⟨record, rfl⟩ fun s member same => absurd same (absent s member)

end Setters

def serverSetters : List (Setter ServerSection) :=
  [.leaf "enabled" FlagOf (·.enabled) readFlag fun c x => { c with enabled := x },
    .leaf "bind_address" TextOf (·.bindAddress) readText fun c x => { c with bindAddress := x },
    .leaf "read_timeout_secs" CountOf (·.readTimeoutSecs) (readCount "u64")
      fun c x => { c with readTimeoutSecs := x },
    .leaf "write_timeout_secs" CountOf (·.writeTimeoutSecs) (readCount "u64")
      fun c x => { c with writeTimeoutSecs := x },
    .leaf "max_connections" CountOf (·.maxConnections) (readCount "usize")
      fun c x => { c with maxConnections := x }]

def backoffSetters : List (Setter BackoffSection) :=
  [.leaf "initial_delay_ms" CountOf (·.initialDelayMs) (readCount "u64")
      fun c x => { c with initialDelayMs := x },
    .leaf "max_delay_ms" CountOf (·.maxDelayMs) (readCount "u64")
      fun c x => { c with maxDelayMs := x },
    .leaf "multiplier" NumberOf (·.multiplier) readFloat fun c x => { c with multiplier := x },
    .leaf "jitter" NumberOf (·.jitter) readFloat fun c x => { c with jitter := x }]

def observabilitySetters : List (Setter LogSection) :=
  [.leaf "log_level" TextOf (·.logLevel) readText fun c x => { c with logLevel := x },
    .leaf "log_format" FormatOf (·.logFormat) readFormat fun c x => { c with logFormat := x }]

theorem server_follows : Follows serverFields setServerField := by
  have same : setServerField = setWith serverSetters := by
    funext record key v
    unfold setServerField
    split <;> simp_all [serverSetters, setWith, Setter.leaf, Field.leaf]
  have lawful : ∀ s ∈ serverSetters, s.Lawful := by
    simp only [serverSetters, List.forall_mem_cons]
    exact ⟨Setter.leaf_lawful (fun _ _ => read_flag_eq_ok_iff) fun _ _ => rfl,
      Setter.leaf_lawful (fun _ _ => read_text_eq_ok_iff) fun _ _ => rfl,
      Setter.leaf_lawful (fun _ _ => read_count_eq_ok_iff) fun _ _ => rfl,
      Setter.leaf_lawful (fun _ _ => read_count_eq_ok_iff) fun _ _ => rfl,
      Setter.leaf_lawful (fun _ _ => read_count_eq_ok_iff) fun _ _ => rfl,
      List.forall_mem_nil _⟩
  have apart : serverSetters.Pairwise Setter.Apart := by
    simp [serverSetters, Setter.apart_iff, Setter.leaf, Field.leaf]
  rw [same]
  exact set_with_follows lawful apart

theorem backoff_follows : Follows backoffFields setBackoffField := by
  have same : setBackoffField = setWith backoffSetters := by
    funext record key v
    unfold setBackoffField
    split <;> simp_all [backoffSetters, setWith, Setter.leaf, Field.leaf]
  have lawful : ∀ s ∈ backoffSetters, s.Lawful := by
    simp only [backoffSetters, List.forall_mem_cons]
    exact ⟨Setter.leaf_lawful (fun _ _ => read_count_eq_ok_iff) fun _ _ => rfl,
      Setter.leaf_lawful (fun _ _ => read_count_eq_ok_iff) fun _ _ => rfl,
      Setter.leaf_lawful (fun _ _ => read_float_eq_ok_iff) fun _ _ => rfl,
      Setter.leaf_lawful (fun _ _ => read_float_eq_ok_iff) fun _ _ => rfl,
      List.forall_mem_nil _⟩
  have apart : backoffSetters.Pairwise Setter.Apart := by
    simp [backoffSetters, Setter.apart_iff, Setter.leaf, Field.leaf]
  rw [same]
  exact set_with_follows lawful apart

theorem observability_follows : Follows observabilityFields setObservabilityField := by
  have same : setObservabilityField = setWith observabilitySetters := by
    funext record key v
    unfold setObservabilityField
    split <;> simp_all [observabilitySetters, setWith, Setter.leaf, Field.leaf]
  have lawful : ∀ s ∈ observabilitySetters, s.Lawful := by
    simp only [observabilitySetters, List.forall_mem_cons]
    exact ⟨Setter.leaf_lawful (fun _ _ => read_text_eq_ok_iff) fun _ _ => rfl,
      Setter.leaf_lawful (fun _ _ => read_format_eq_ok_iff) fun _ _ => rfl,
      List.forall_mem_nil _⟩
  have apart : observabilitySetters.Pairwise Setter.Apart := by
    simp [observabilitySetters, Setter.apart_iff, Setter.leaf, Field.leaf]
  rw [same]
  exact set_with_follows lawful apart

section Sections

variable {α : Type} {fields : List (Field α)} {set : α → String → Value → Except SchemaMisfit α}
  {v : Value}

theorem keyed_zip {names : List String} (distinct : names.Nodup) {items : List Value}
    (inside : ∀ item ∈ items, item.Keyed) : Toml.Keyed (names.zip items) := by
  induction names generalizing items with
  | nil => exact Toml.keyed_nil
  | cons name names ih =>
    cases items with
    | nil => exact Toml.keyed_nil
    | cons item items =>
      obtain ⟨fresh, distinct⟩ := List.nodup_cons.mp distinct
      obtain ⟨own, others⟩ := List.forall_mem_cons.mp inside
      refine Toml.keyed_cons_iff.mpr ⟨own, ?_, ih distinct others⟩
      rintro ⟨label, held⟩ member same
      obtain rfl : label = name := same
      exact fresh (List.of_mem_zip member).1

theorem keyed_of_section {names : List String} (distinct : names.Nodup) (keyed : v.Keyed)
    {entries : Entries} (found : sectionEntries? names v = some entries) : Toml.Keyed entries := by
  cases v with
  | table origin inner =>
    cases found
    exact Toml.keyed_table_iff.mp keyed
  | array items =>
    cases found
    cases keyed with
    | array inside => exact keyed_zip distinct inside
  | tables elements =>
    cases found
    refine keyed_zip distinct ?_
    intro item member
    obtain ⟨element, known, rfl⟩ := List.mem_map.mp member
    exact Toml.keyed_table_iff.mpr (Toml.keyed_tables_iff.mp keyed element known)
  | datetime =>
    cases found
    exact Toml.keyed_nil
  | _ => cases found

theorem read_record_eq_ok_iff {name : String} {names : List String} {start record : α} :
    readRecord name names set start v = .ok record ↔
      ∃ entries, sectionEntries? names v = some entries ∧
        entries.foldlM (fun record e => set record e.1 e.2) start = .ok record := by
  cases v with
  | table origin entries => simp [readRecord, sectionEntries?]
  | array items => simp [readRecord, sectionEntries?]
  | tables elements => simp [readRecord, sectionEntries?, List.zip_map_right, List.foldlM_map]
  | datetime => simp [readRecord, sectionEntries?, pure, Except.pure]
  | _ => simp [readRecord, sectionEntries?]

/-- A section is read as its fields say. -/
theorem Follows.part_means (follows : Follows fields set) (distinct : (fields.map (·.name)).Nodup)
    {name : String} {start record : α} (keyed : v.Keyed)
    (read : readRecord name (fields.map (·.name)) set start v = .ok record) :
    ∃ entries, sectionEntries? (fields.map (·.name)) v = some entries ∧
      Described fields start entries record := by
  obtain ⟨entries, found, read⟩ := read_record_eq_ok_iff.mp read
  exact ⟨entries, found, follows.described (keyed_of_section distinct keyed found) read⟩

theorem Follows.part_able (follows : Follows fields set) (distinct : (fields.map (·.name)).Nodup)
    (name : String) (start : α) (keyed : v.Keyed) :
    (∃ record, readRecord name (fields.map (·.name)) set start v = .ok record) ↔
      ∃ entries, sectionEntries? (fields.map (·.name)) v = some entries ∧
        ¬ Unfit fields entries := by
  simp only [read_record_eq_ok_iff]
  rw [exists_comm]
  refine exists_congr fun entries => ?_
  rw [exists_and_left]
  refine and_congr_right fun found => ?_
  exact follows.read_iff (keyed_of_section distinct keyed found) start

end Sections

namespace Setter

variable {α β : Type}

/-- The setter of a field that holds a section. -/
def part (name : String) (fields : List (Field β)) (start : β) (get : α → β) (label : String)
    (set : β → String → Value → Except SchemaMisfit β) (put : α → β → α) : Setter α :=
  ⟨.part name fields start get, readRecord label (fields.map (·.name)) set start, put⟩

theorem part_lawful {name label : String} {fields : List (Field β)} {start : β} {get : α → β}
    {set : β → String → Value → Except SchemaMisfit β} {put : α → β → α}
    (follows : Follows fields set) (distinct : (fields.map (·.name)).Nodup)
    (holds : ∀ record x, get (put record x) = x) :
    (part name fields start get label set put).Lawful where
  means _ _ keyed read := follows.part_means distinct keyed read
  able _ keyed := follows.part_able distinct label start keyed
  holds := holds

end Setter

def setters : List (Setter Config) :=
  [.part "server" serverFields ServerSection.default (·.server) "ServerConfig" setServerField
      fun c x => { c with server := x },
    .part "backoff" backoffFields BackoffSection.default (·.backoff) "BackoffConfig" setBackoffField
      fun c x => { c with backoff := x },
    .part "observability" observabilityFields LogSection.default (·.observability)
      "ObservabilityConfig" setObservabilityField fun c x => { c with observability := x }]

theorem follows : Follows fields setSection := by
  have same : setSection = setWith setters := by
    funext record key v
    unfold setSection
    split <;> simp_all [setters, setWith, Setter.part, Field.part] <;> rfl
  have lawful : ∀ s ∈ setters, s.Lawful := by
    simp only [setters, List.forall_mem_cons]
    exact ⟨Setter.part_lawful server_follows (by decide) fun _ _ => rfl,
      Setter.part_lawful backoff_follows (by decide) fun _ _ => rfl,
      Setter.part_lawful observability_follows (by decide) fun _ _ => rfl, List.forall_mem_nil _⟩
  have apart : setters.Pairwise Setter.Apart := by
    simp [setters, Setter.apart_iff, Setter.part, Field.part]
  rw [same]
  exact set_with_follows lawful apart

/-- Each value means one thing, because a reader gives one answer. -/
theorem single_of_reads {β : Type} {read : FieldReader β} {means : Value → β → Prop}
    (reads : ∀ v x, read v = .ok x ↔ means v x) (v : Value) (x y : β) (own : means v x)
    (own' : means v y) : x = y := by
  have same := ((reads v x).mpr own).symm.trans ((reads v y).mpr own')
  exact Except.ok.inj same

theorem count_single (v : Value) (x y : Nat) (means : CountOf v x) (means' : CountOf v y) : x = y :=
  single_of_reads (fun _ _ => @read_count_eq_ok_iff _ "u64" _) v x y means means'

theorem server_separates : Separates serverFields where
  single := by
    simp only [serverFields, List.forall_mem_cons]
    exact ⟨single_of_reads fun _ _ => read_flag_eq_ok_iff,
      single_of_reads fun _ _ => read_text_eq_ok_iff, count_single, count_single, count_single,
      List.forall_mem_nil _⟩
  whole := by
    intro first second same
    simp only [serverFields, List.forall_mem_cons] at same
    obtain ⟨enabled, address, read, write, connections, _⟩ := same
    cases first
    cases second
    cases enabled
    cases address
    cases read
    cases write
    cases connections
    rfl

theorem backoff_separates : Separates backoffFields where
  single := by
    simp only [backoffFields, List.forall_mem_cons]
    exact ⟨count_single, count_single, single_of_reads fun _ _ => read_float_eq_ok_iff,
      single_of_reads fun _ _ => read_float_eq_ok_iff, List.forall_mem_nil _⟩
  whole := by
    intro first second same
    simp only [backoffFields, List.forall_mem_cons] at same
    obtain ⟨initial, max, multiplier, jitter, _⟩ := same
    cases first
    cases second
    cases initial
    cases max
    cases multiplier
    cases jitter
    rfl

theorem observability_separates : Separates observabilityFields where
  single := by
    simp only [observabilityFields, List.forall_mem_cons]
    exact ⟨single_of_reads fun _ _ => read_text_eq_ok_iff,
      single_of_reads fun _ _ => read_format_eq_ok_iff, List.forall_mem_nil _⟩
  whole := by
    intro first second same
    simp only [observabilityFields, List.forall_mem_cons] at same
    obtain ⟨level, format, _⟩ := same
    cases first
    cases second
    cases level
    cases format
    rfl

theorem Separates.part_single {α β : Type} {fields : List (Field β)} (separates : Separates fields)
    {name : String} {start : β} {get : α → β} (v : Value) (x y : β)
    (means : (Field.part name fields start get).Means v x)
    (means' : (Field.part name fields start get).Means v y) : x = y := by
  obtain ⟨entries, found, own⟩ := means
  obtain ⟨entries', found', own'⟩ := means'
  rw [found, Option.some.injEq] at found'
  subst found'
  exact separates.unique own own'

theorem separates : Separates fields where
  single := by
    simp only [fields, List.forall_mem_cons]
    exact ⟨server_separates.part_single, backoff_separates.part_single,
      observability_separates.part_single, List.forall_mem_nil _⟩
  whole := by
    intro first second same
    simp only [fields, List.forall_mem_cons] at same
    obtain ⟨server, backoff, observability, _⟩ := same
    cases first
    cases second
    cases server
    cases backoff
    cases observability
    rfl

/-- Values that say the same are read alike. -/
def Respects {α : Type} (fields : List (Field α)) : Prop :=
  ∀ field ∈ fields, ∀ v w, field.Same v w →
    (field.Fits v ↔ field.Fits w) ∧ ∀ x, field.Means v x ↔ field.Means w x

section Alike

variable {α : Type} {fields : List (Field α)} (respects : Respects fields)
  {first second : Entries} (alike : Alike fields first second)
include respects alike

theorem described_iff_of_alike {start record : α} :
    Described fields start first record ↔ Described fields start second record := by
  refine forall₂_congr fun field member => ?_
  rcases alike field member with ⟨absent, absent'⟩ | ⟨v, w, found, found', same⟩
  · rw [absent, absent']
  · rw [found, found']
    exact (respects field member v w same).2 _

theorem unfit_iff_of_alike : Unfit fields first ↔ Unfit fields second := by
  refine exists_congr fun field => and_congr_right fun member => ?_
  rcases alike field member with ⟨absent, absent'⟩ | ⟨v, w, found, found', same⟩
  · simp only [absent, absent']
  · simp only [found, found', Option.some.injEq, exists_eq_left',
      (respects field member v w same).1]

end Alike

theorem leaf_respects {α β : Type} {name : String} {means : Value → β → Prop} {get : α → β}
    (v w : Value) (same : (Field.leaf name means get).Same v w) :
    ((Field.leaf name means get).Fits v ↔ (Field.leaf name means get).Fits w) ∧
      ∀ x, (Field.leaf name means get).Means v x ↔ (Field.leaf name means get).Means w x := by
  obtain rfl : v = w := same
  exact ⟨Iff.rfl, fun _ => Iff.rfl⟩

theorem part_respects {α β : Type} {fields : List (Field β)} (respects : Respects fields)
    {name : String} {start : β} {get : α → β} (v w : Value)
    (same : (Field.part name fields start get).Same v w) :
    ((Field.part name fields start get).Fits v ↔ (Field.part name fields start get).Fits w) ∧
      ∀ x, (Field.part name fields start get).Means v x ↔
        (Field.part name fields start get).Means w x := by
  obtain ⟨first, second, found, found', alike⟩ := same
  simp only [Field.part, found, found', Option.some.injEq, exists_eq_left']
  exact ⟨not_congr (unfit_iff_of_alike respects alike),
    fun x => described_iff_of_alike respects alike⟩

theorem respects : Respects fields := by
  have server : Respects serverFields := by
    simp only [Respects, serverFields, List.forall_mem_cons]
    exact ⟨leaf_respects, leaf_respects, leaf_respects, leaf_respects, leaf_respects,
      List.forall_mem_nil _⟩
  have backoff : Respects backoffFields := by
    simp only [Respects, backoffFields, List.forall_mem_cons]
    exact ⟨leaf_respects, leaf_respects, leaf_respects, leaf_respects, List.forall_mem_nil _⟩
  have observability : Respects observabilityFields := by
    simp only [Respects, observabilityFields, List.forall_mem_cons]
    exact ⟨leaf_respects, leaf_respects, List.forall_mem_nil _⟩
  simp only [Respects, fields, List.forall_mem_cons]
  exact ⟨part_respects server, part_respects backoff, part_respects observability,
    List.forall_mem_nil _⟩

end Config
end SnapshotEndpoint
