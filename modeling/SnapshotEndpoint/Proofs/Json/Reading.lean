import SnapshotEndpoint.Proofs.Except
import SnapshotEndpoint.Proofs.Json.Fitting

/-!
What reading by a shape takes, said without an order of reading. A record is taken from an
object exactly if each of its fields stands there once and reads, every name is a text, and all
else can be passed over; and from the array of what its fields hold.
-/
namespace SnapshotEndpoint.Json

/-- Records give each name to one field, and counts are words. -/
inductive Shape.Proper : Shape → Prop where
  | text : Proper .text
  | flag : Proper .flag
  | count {limit : Nat} (name : String) (word : limit ≤ wordLimit) : Proper (.count limit name)
  | list {item : Shape} (inside : item.Proper) : Proper (.list item)
  | map {value : Shape} (inside : value.Proper) : Proper (.map value)
  | record (name : String) {fields : List (String × Shape)} (distinct : (fields.map (·.1)).Nodup)
      (inside : ∀ field ∈ fields, field.2.Proper) : Proper (.record name fields)

/-- The values that stand under a name. -/
def under (name : String) (members : List (Quoted × Tree)) : List Tree :=
  members.filterMap fun member => if member.1.text = .ok name then some member.2 else none

/-- Members whose names are texts, with something whole under the names a record lacks. -/
def Passable (fields : List (String × Shape)) (members : List (Quoted × Tree)) : Prop :=
  ∀ member ∈ members, ∃ name, member.1.text = .ok name ∧
    (fields.lookup name = none → ignore member.2 = .ok ())

/-- What a field holds before and after the values under its name have been read. -/
inductive Fills (shape : Shape) : Option Json → List Tree → Option Json → Prop where
  | kept (value : Json) : Fills shape (some value) [] (some value)
  | absent : Fills shape none [] none
  | taken {tree : Tree} {value : Json} (read : readAs shape tree = .ok value) :
      Fills shape none [tree] (some value)

/-- Each field of a record read from the tree in its place. -/
inductive Filled : List (String × Shape) → List Tree → List (String × Json) → Prop where
  | nil : Filled [] [] []
  | cons {field : String × Shape} {tree : Tree} {value : Json} {fields : List (String × Shape)}
      {trees : List Tree} {values : List (String × Json)} (read : readAs field.2 tree = .ok value)
      (others : Filled fields trees values) :
      Filled (field :: fields) (tree :: trees) ((field.1, value) :: values)

theorem or_fault_eq_ok_iff {α : Type} {x : Except Fault α} {value : α} :
    orFault x = .ok value ↔ x = .ok value := by
  cases x <;> simp [orFault]

theorem array_end_eq_ok_iff {ending : ArrayEnd} : ending.check = .ok () ↔ ending = .closed := by
  cases ending <;> simp [ArrayEnd.check]

theorem array_end_full_eq_ok_iff {ending : ArrayEnd} :
    ending.checkFull = .ok () ↔ ending = .closed := by
  cases ending <;> simp [ArrayEnd.checkFull]

theorem object_end_eq_ok_iff {ending : ObjectEnd} : ending.check = .ok () ↔ ending = .closed := by
  cases ending <;> simp [ObjectEnd.check]

theorem read_items_eq_ok_iff {shape : Shape} {items : List Tree} {values : List Json} :
    readItemsAs shape items = .ok values ↔
      List.Forall₂ (fun item value => readAs shape item = .ok value) items values := by
  induction items generalizing values with
  | nil => simp [readItemsAs, eq_comm]
  | cons item rest ih =>
    rw [readItemsAs, bind_eq_ok_iff, List.forall₂_cons_left_iff]
    constructor
    · rintro ⟨value, first, more⟩
      obtain ⟨others, later, same⟩ := bind_eq_ok_iff.mp more
      cases same
      exact ⟨value, others, first, ih.mp later, rfl⟩
    · rintro ⟨value, others, first, later, rfl⟩
      exact ⟨value, first, bind_eq_ok_iff.mpr ⟨others, ih.mpr later, rfl⟩⟩

theorem read_list_eq_ok_iff {shape : Shape} {items : List Tree} {ending : ArrayEnd} {value : Json} :
    readAs (.list shape) (.array items ending) = .ok value ↔
      ending = .closed ∧ ∃ values, value = .array values ∧
        List.Forall₂ (fun item value => readAs shape item = .ok value) items values := by
  rw [readAs, bind_eq_ok_iff]
  constructor
  · rintro ⟨values, inside, more⟩
    obtain ⟨_, closed, same⟩ := bind_eq_ok_iff.mp more
    cases same
    exact ⟨array_end_eq_ok_iff.mp (or_fault_eq_ok_iff.mp closed), values, rfl,
      read_items_eq_ok_iff.mp inside⟩
  · rintro ⟨rfl, values, rfl, inside⟩
    exact ⟨values, read_items_eq_ok_iff.mpr inside, rfl⟩

theorem read_fields_eq_ok_iff {name : String} {total taken : Nat} {fields : List (String × Shape)}
    {ending : ArrayEnd} {trees : List Tree} {values : List (String × Json)} :
    readFieldsAs name total fields taken ending trees = .ok values ↔
      ending = .closed ∧ Filled fields trees values := by
  induction trees generalizing fields taken values with
  | nil =>
    cases fields with
    | nil =>
      rw [readFieldsAs, bind_eq_ok_iff]
      constructor
      · rintro ⟨_, closed, same⟩
        cases same
        exact ⟨array_end_full_eq_ok_iff.mp (or_fault_eq_ok_iff.mp closed), .nil⟩
      · rintro ⟨rfl, filled⟩
        cases filled
        exact ⟨(), rfl, rfl⟩
    | cons field fields =>
      rw [readFieldsAs, bind_eq_ok_iff]
      constructor
      · rintro ⟨_, _, impossible⟩
        cases impossible
      · rintro ⟨_, impossible⟩
        cases impossible
  | cons tree rest ih =>
    cases fields with
    | nil =>
      rw [readFieldsAs]
      constructor
      · intro impossible
        cases impossible
      · rintro ⟨_, impossible⟩
        cases impossible
    | cons field fields =>
      rw [readFieldsAs, bind_eq_ok_iff]
      constructor
      · rintro ⟨value, first, more⟩
        obtain ⟨others, later, same⟩ := bind_eq_ok_iff.mp more
        cases same
        obtain ⟨closed, filled⟩ := ih.mp later
        exact ⟨closed, .cons first filled⟩
      · rintro ⟨closed, filled⟩
        cases filled with
        | cons first others =>
          exact ⟨_, first, bind_eq_ok_iff.mpr ⟨_, ih.mpr ⟨closed, others⟩, rfl⟩⟩

theorem read_record_array_eq_ok_iff {name : String} {fields : List (String × Shape)}
    {trees : List Tree} {ending : ArrayEnd} {value : Json} :
    readAs (.record name fields) (.array trees ending) = .ok value ↔
      ending = .closed ∧ ∃ values, value = .object values ∧ Filled fields trees values := by
  rw [readAs, bind_eq_ok_iff]
  constructor
  · rintro ⟨values, inside, same⟩
    cases same
    obtain ⟨closed, filled⟩ := read_fields_eq_ok_iff.mp inside
    exact ⟨closed, values, rfl, filled⟩
  · rintro ⟨closed, values, rfl, filled⟩
    exact ⟨values, read_fields_eq_ok_iff.mpr ⟨closed, filled⟩, rfl⟩

theorem under_cons (name : String) (member : Quoted × Tree) (rest : List (Quoted × Tree)) :
    under name (member :: rest) =
      if member.1.text = .ok name then member.2 :: under name rest else under name rest := by
  rw [under, List.filterMap_cons]
  split
  · rename_i other
    rw [if_neg (by simpa using other), under]
  · rename_i own
    split
    · rename_i named
      rw [if_pos named] at own
      rw [under, Option.some.inj own]
    · rename_i unnamed
      rw [if_neg unnamed] at own
      cases own

theorem passable_cons_iff {fields : List (String × Shape)} {member : Quoted × Tree}
    {rest : List (Quoted × Tree)} : Passable fields (member :: rest) ↔
      (∃ name, member.1.text = .ok name ∧ (fields.lookup name = none → ignore member.2 = .ok ())) ∧
        Passable fields rest :=
  List.forall_mem_cons

theorem fills_cons_iff {shape : Shape} {before after : Option Json} {tree : Tree}
    {rest : List Tree} : Fills shape before (tree :: rest) after ↔
      before = none ∧
        ∃ value, readAs shape tree = .ok value ∧ Fills shape (some value) rest after := by
  constructor
  · intro fills
    cases fills with
    | taken read => exact ⟨rfl, _, read, .kept _⟩
  · rintro ⟨rfl, value, read, later⟩
    cases later with
    | kept => exact .taken read

theorem lookup_append_single (found : List (String × Json)) (key name : String) (value : Json) :
    (found ++ [(key, value)]).lookup name =
      (found.lookup name).or (if name = key then some value else none) := by
  rw [List.lookup_append]
  by_cases same : name = key
  · simp [same]
  · simp [List.lookup_cons, same, beq_eq_false_iff_ne.mpr same]

section Members

variable {fields : List (String × Shape)}

/-- Members that can be read have every field filled at most once. -/
theorem fills_of_read_members {found result : List (String × Json)}
    {members : List (Quoted × Tree)} (read : readMembersAs fields found members = .ok result) :
    Passable fields members ∧ ∀ name shape, fields.lookup name = some shape →
      Fills shape (found.lookup name) (under name members) (result.lookup name) := by
  induction members generalizing found with
  | nil =>
    rw [readMembersAs] at read
    cases read
    refine ⟨List.forall_mem_nil _, ?_⟩
    intro name shape _
    cases result.lookup name with
    | none => exact .absent
    | some value => exact .kept value
  | cons member rest ih =>
    rw [readMembersAs] at read
    obtain ⟨key, text, read⟩ := bind_eq_ok_iff.mp read
    rw [or_fault_eq_ok_iff] at text
    simp only [passable_cons_iff, under_cons, text, Except.ok.injEq]
    cases own : fields.lookup key with
    | none =>
      rw [own] at read
      obtain ⟨_, whole, read⟩ := bind_eq_ok_iff.mp read
      obtain ⟨passable, fills⟩ := ih read
      refine ⟨⟨⟨key, rfl, fun _ => or_fault_eq_ok_iff.mp whole⟩, passable⟩, ?_⟩
      intro name shape known
      have other : key ≠ name := by
        rintro rfl
        rw [own] at known
        cases known
      rw [if_neg other]
      exact fills name shape known
    | some shape =>
      rw [own] at read
      dsimp only at read
      split at read
      · cases read
      rename_i fresh
      rw [Option.not_isSome_iff_eq_none] at fresh
      obtain ⟨value, first, read⟩ := bind_eq_ok_iff.mp read
      obtain ⟨passable, fills⟩ := ih read
      refine ⟨⟨⟨key, rfl, by simp [own]⟩, passable⟩, ?_⟩
      intro name own' known
      have later := fills name own' known
      rw [lookup_append_single] at later
      by_cases same : key = name
      · -- The field is filled here, so nothing may stand under its name further on.
        subst same
        rw [own, Option.some.injEq] at known
        subst known
        rw [fresh, if_pos rfl] at later
        rw [fresh, if_pos rfl, fills_cons_iff]
        exact ⟨rfl, value, first, later⟩
      · rw [if_neg (Ne.symm same), Option.or_none] at later
        rw [if_neg same]
        exact later

theorem read_members_of_fills {members : List (Quoted × Tree)} (passable : Passable fields members)
    {found : List (String × Json)}
    (fills : ∀ name shape, fields.lookup name = some shape →
      ∃ after, Fills shape (found.lookup name) (under name members) after) :
    ∃ result, readMembersAs fields found members = .ok result := by
  induction members generalizing found with
  | nil => exact ⟨found, by rw [readMembersAs]⟩
  | cons member rest ih =>
    obtain ⟨⟨key, text, whole⟩, passable⟩ := passable_cons_iff.mp passable
    simp only [under_cons, text, Except.ok.injEq] at fills
    simp only [readMembersAs, bind_eq_ok_iff, or_fault_eq_ok_iff]
    cases own : fields.lookup key with
    | none =>
      have others : ∀ name shape, fields.lookup name = some shape →
          ∃ after, Fills shape (found.lookup name) (under name rest) after := by
        intro name shape known
        have other : key ≠ name := by
          rintro rfl
          rw [own] at known
          cases known
        have later := fills name shape known
        rwa [if_neg other] at later
      obtain ⟨result, read⟩ := ih passable others
      refine ⟨result, key, text, ?_⟩
      rw [own]
      exact bind_eq_ok_iff.mpr ⟨(), or_fault_eq_ok_iff.mpr (whole own), read⟩
    | some shape =>
      obtain ⟨after, own'⟩ := fills key shape own
      rw [if_pos rfl, fills_cons_iff] at own'
      obtain ⟨fresh, value, first, later⟩ := own'
      have others : ∀ name shape, fields.lookup name = some shape →
          ∃ after, Fills shape ((found ++ [(key, value)]).lookup name) (under name rest) after := by
        intro name shape' known
        rw [lookup_append_single]
        by_cases same : key = name
        · subst same
          rw [own, Option.some.injEq] at known
          subst known
          rw [fresh, if_pos rfl]
          exact ⟨after, later⟩
        · have later := fills name shape' known
          rw [if_neg same] at later
          rw [if_neg (Ne.symm same), Option.or_none]
          exact later
      obtain ⟨result, read⟩ := ih passable others
      refine ⟨result, key, text, ?_⟩
      rw [own]
      dsimp only
      rw [if_neg (by simp [fresh])]
      exact bind_eq_ok_iff.mpr ⟨value, first, read⟩

theorem collect_fields_eq_ok_iff {found values : List (String × Json)} :
    collectFields fields found = .ok values ↔
      List.Forall₂ (fun field value => value.1 = field.1 ∧ found.lookup field.1 = some value.2)
        fields values := by
  rw [collectFields, map_m_eq_ok_iff]
  constructor
  · intro collected
    refine collected.imp ?_
    intro field value same
    split at same
    · rename_i held found
      cases same
      exact ⟨rfl, found⟩
    · cases same
  · intro named
    refine named.imp ?_
    rintro field ⟨name, value⟩ ⟨rfl, found⟩
    rw [found]

/-- The one value that each field of a record has among the members of an object. -/
def Assigned (fields : List (String × Shape)) (members : List (Quoted × Tree))
    (trees : List Tree) : Prop :=
  List.Forall₂ (fun field tree => under field.1 members = [tree]) fields trees

theorem read_of_assigned {members : List (Quoted × Tree)} {trees : List Tree}
    {values : List (String × Json)} (assigned : Assigned fields members trees)
    (filled : Filled fields trees values) {field : String × Shape} (known : field ∈ fields) :
    ∃ tree value, under field.1 members = [tree] ∧ readAs field.2 tree = .ok value := by
  induction filled with
  | nil => cases known
  | cons read _ ih =>
    cases assigned with
    | cons one assigned =>
      rcases List.mem_cons.mp known with rfl | later
      · exact ⟨_, _, one, read⟩
      · exact ih assigned later

theorem filled_of_collected {found values : List (String × Json)} {members : List (Quoted × Tree)}
    (fills : ∀ field ∈ fields, Fills field.2 none (under field.1 members) (found.lookup field.1))
    (collected : collectFields fields found = .ok values) :
    ∃ trees, Assigned fields members trees ∧ Filled fields trees values := by
  rw [collect_fields_eq_ok_iff] at collected
  induction collected with
  | nil => exact ⟨[], .nil, .nil⟩
  | @cons field value fields values first _ ih =>
    obtain ⟨trees, assigned, filled⟩ :=
      ih fun other later => fills other (List.mem_cons_of_mem field later)
    have own := fills field List.mem_cons_self
    obtain ⟨name, value⟩ := value
    obtain ⟨rfl, held⟩ := first
    rw [held] at own
    generalize one : under field.1 members = under' at own
    cases own with
    | taken read => exact ⟨_, .cons one assigned, .cons read filled⟩

theorem collected_of_filled {found values : List (String × Json)} {members : List (Quoted × Tree)}
    {trees : List Tree} (assigned : Assigned fields members trees)
    (filled : Filled fields trees values)
    (fills : ∀ field ∈ fields, Fills field.2 none (under field.1 members) (found.lookup field.1)) :
    collectFields fields found = .ok values := by
  rw [collect_fields_eq_ok_iff]
  induction filled with
  | nil => exact .nil
  | @cons field tree value fields trees values read others ih =>
    cases assigned with
    | cons one assigned =>
      have own := fills field List.mem_cons_self
      rw [one, fills_cons_iff] at own
      obtain ⟨_, held, again, kept⟩ := own
      cases read.symm.trans again
      generalize found : found.lookup field.1 = after at kept
      cases kept with
      | kept =>
        refine .cons ⟨rfl, found⟩ (ih assigned ?_)
        intro other later
        exact fills other (List.mem_cons_of_mem field later)

end Members

/-- A record is taken from an object exactly if each field stands there once, in whatever order,
    and all else can be passed over. -/
theorem read_record_object_eq_ok_iff {name : String} {fields : List (String × Shape)}
    (distinct : (fields.map (·.1)).Nodup) {members : List (Quoted × Tree)} {ending : ObjectEnd}
    {value : Json} :
    readAs (.record name fields) (.object members ending) = .ok value ↔
      ending = .closed ∧ Passable fields members ∧ ∃ trees values, value = .object values ∧
        Assigned fields members trees ∧ Filled fields trees values := by
  rw [readAs, bind_eq_ok_iff]
  constructor
  · rintro ⟨found, read, more⟩
    obtain ⟨_, closed, more⟩ := bind_eq_ok_iff.mp more
    obtain ⟨values, collected, same⟩ := bind_eq_ok_iff.mp more
    cases same
    obtain ⟨passable, fills⟩ := fills_of_read_members read
    obtain ⟨trees, assigned, filled⟩ := filled_of_collected
      (fun field known => fills field.1 field.2 (lookup_of_distinct distinct known)) collected
    exact ⟨object_end_eq_ok_iff.mp (or_fault_eq_ok_iff.mp closed), passable, trees, values, rfl,
      assigned, filled⟩
  · rintro ⟨rfl, passable, trees, values, rfl, assigned, filled⟩
    have able : ∀ name shape, fields.lookup name = some shape →
        ∃ after, Fills shape none (under name members) after := by
      intro name shape known
      obtain ⟨tree, value, one, read⟩ := read_of_assigned assigned filled (mem_of_lookup known)
      rw [one]
      exact ⟨_, .taken read⟩
    obtain ⟨found, read⟩ : ∃ found, readMembersAs fields [] members = .ok found :=
      read_members_of_fills passable able
    obtain ⟨_, fills⟩ := fills_of_read_members read
    have collected := collected_of_filled assigned filled
      fun field known => fills field.1 field.2 (lookup_of_distinct distinct known)
    exact ⟨found, read, bind_eq_ok_iff.mpr ⟨(), rfl, bind_eq_ok_iff.mpr ⟨values, collected, rfl⟩⟩⟩

/-- The entries of a map after those read have been put in turn. -/
def putAll (entries read : List (String × Json)) : List (String × Json) :=
  read.foldl (fun entries entry => insertEntry entry.1 entry.2 entries) entries

theorem read_entries_eq_ok_iff {shape : Shape} {entries result : List (String × Json)}
    {members : List (Quoted × Tree)} :
    readEntriesAs shape entries members = .ok result ↔
      ∃ read, result = putAll entries read ∧
        List.Forall₂ (fun member entry => member.1.text = .ok entry.1 ∧
          readAs shape member.2 = .ok entry.2) members read := by
  induction members generalizing entries with
  | nil => simp [readEntriesAs, putAll, eq_comm]
  | cons member rest ih =>
    simp only [readEntriesAs, bind_eq_ok_iff, or_fault_eq_ok_iff, ih, List.forall₂_cons_left_iff]
    constructor
    · rintro ⟨key, text, value, first, read, rfl, others⟩
      exact ⟨(key, value) :: read, rfl, (key, value), read, ⟨text, first⟩, others, rfl⟩
    · rintro ⟨_, rfl, entry, read, ⟨text, first⟩, others, rfl⟩
      exact ⟨entry.1, text, entry.2, first, read, rfl, others⟩

theorem read_map_eq_ok_iff {shape : Shape} {members : List (Quoted × Tree)} {ending : ObjectEnd}
    {value : Json} :
    readAs (.map shape) (.object members ending) = .ok value ↔
      ending = .closed ∧ ∃ read, value = .object (putAll [] read) ∧
        List.Forall₂ (fun member entry => member.1.text = .ok entry.1 ∧
          readAs shape member.2 = .ok entry.2) members read := by
  rw [readAs, bind_eq_ok_iff]
  constructor
  · rintro ⟨entries, inside, more⟩
    obtain ⟨_, closed, same⟩ := bind_eq_ok_iff.mp more
    obtain ⟨read, rfl, each⟩ := read_entries_eq_ok_iff.mp inside
    cases same
    exact ⟨object_end_eq_ok_iff.mp (or_fault_eq_ok_iff.mp closed), read, rfl, each⟩
  · rintro ⟨rfl, read, rfl, each⟩
    exact ⟨_, read_entries_eq_ok_iff.mpr ⟨read, rfl, each⟩, rfl⟩

theorem increasing_put_all {entries : List (String × Json)} (sorted : Increasing entries)
    (read : List (String × Json)) : Increasing (putAll entries read) := by
  induction read generalizing entries with
  | nil => exact sorted
  | cons entry rest ih => exact ih (increasing_insert_entry entry.1 entry.2 sorted)

theorem mem_put_all {entries read : List (String × Json)} {entry : String × Json}
    (member : entry ∈ putAll entries read) : entry ∈ entries ∨ entry ∈ read := by
  induction read generalizing entries with
  | nil => exact .inl member
  | cons first rest ih =>
    rcases ih member with known | later
    · rcases mem_insert_entry known with rfl | earlier
      · exact .inr List.mem_cons_self
      · exact .inl earlier
    · exact .inr (List.mem_cons_of_mem first later)

theorem Filled.names {fields : List (String × Shape)} {trees : List Tree}
    {values : List (String × Json)} (filled : Filled fields trees values) :
    values.map (·.1) = fields.map (·.1) := by
  induction filled with
  | nil => rfl
  | cons _ _ ih => rw [List.map_cons, List.map_cons, ih]

theorem Filled.read {fields : List (String × Shape)} {trees : List Tree}
    {values : List (String × Json)} (filled : Filled fields trees values) {entry : String × Json}
    (member : entry ∈ values) :
    ∃ field ∈ fields, field.1 = entry.1 ∧ ∃ tree, readAs field.2 tree = .ok entry.2 := by
  induction filled with
  | nil => cases member
  | @cons field tree value fields trees values read _ ih =>
    rcases List.mem_cons.mp member with rfl | later
    · exact ⟨field, List.mem_cons_self, rfl, tree, read⟩
    · obtain ⟨other, known, found⟩ := ih later
      exact ⟨other, List.mem_cons_of_mem field known, found⟩

theorem fits_of_filled {name : String} {fields : List (String × Shape)} {trees : List Tree}
    {values : List (String × Json)} (distinct : (fields.map (·.1)).Nodup)
    (filled : Filled fields trees values)
    (inside : ∀ field ∈ fields, ∀ tree value, readAs field.2 tree = .ok value →
      Fits field.2 value) :
    Fits (.record name fields) (.object values) := by
  refine .record name distinct filled.names ?_
  intro field known value member
  obtain ⟨other, known', same, tree, read⟩ := filled.read member
  have shape : other.2 = field.2 := by
    have own := lookup_of_distinct distinct known
    have own' := lookup_of_distinct distinct known'
    rw [same, own] at own'
    exact (Option.some.inj own').symm
  rw [← shape]
  exact inside other known' tree value read

/-- What is read from a value without parts fits. -/
theorem fits_or_nested {shape : Shape} (proper : shape.Proper) {tree : Tree} {value : Json}
    (read : readAs shape tree = .ok value) :
    Fits shape value ∨ (∃ items ending, tree = .array items ending) ∨
      ∃ members ending, tree = .object members ending := by
  cases tree with
  | array items ending => exact .inr (.inl ⟨items, ending, rfl⟩)
  | object members ending => exact .inr (.inr ⟨members, ending, rfl⟩)
  | bool b =>
    refine .inl ?_
    cases proper with
    | flag =>
      cases read
      exact .flag b
    | _ => cases read
  | string token =>
    refine .inl ?_
    rw [readAs] at read
    obtain ⟨s, _, read⟩ := bind_eq_ok_iff.mp read
    cases proper with
    | text =>
      cases read
      exact .text s
    | _ => cases read
  | number found =>
    refine .inl ?_
    cases found with
    | none => cases read
    | some number =>
      cases proper with
      | count name word =>
        cases number with
        | float _ => cases read
        | integer n =>
          rw [readAs, readNumberAs] at read
          split at read
          · rename_i within
            cases read
            obtain ⟨m, rfl⟩ := Int.eq_ofNat_of_zero_le within.1
            exact .count name (by omega) word
          · cases read
      | _ => cases read
  | null => cases read
  | brokenNumber fault => cases read
  | broken fault => cases read

/-- Whatever is read fits. -/
theorem fits_of_read_as {shape : Shape} (proper : shape.Proper) :
    ∀ {tree value}, readAs shape tree = .ok value → Fits shape value := by
  induction proper with
  | text =>
    intro tree value read
    rcases fits_or_nested .text read with fits | ⟨_, _, rfl⟩ | ⟨_, _, rfl⟩
    · exact fits
    · cases read
    · cases read
  | flag =>
    intro tree value read
    rcases fits_or_nested .flag read with fits | ⟨_, _, rfl⟩ | ⟨_, _, rfl⟩
    · exact fits
    · cases read
    · cases read
  | count name word =>
    intro tree value read
    rcases fits_or_nested (.count name word) read with fits | ⟨_, _, rfl⟩ | ⟨_, _, rfl⟩
    · exact fits
    · cases read
    · cases read
  | list inside ih =>
    intro tree value read
    rcases fits_or_nested (.list inside) read with fits | ⟨items, _, rfl⟩ | ⟨_, _, rfl⟩
    · exact fits
    · obtain ⟨_, values, rfl, each⟩ := read_list_eq_ok_iff.mp read
      refine .list ?_
      intro value member
      obtain ⟨item, _, read⟩ := exists_of_mem_results each member
      exact ih read
    · cases read
  | map inside ih =>
    intro tree value read
    rcases fits_or_nested (.map inside) read with fits | ⟨_, _, rfl⟩ | ⟨members, _, rfl⟩
    · exact fits
    · cases read
    · obtain ⟨_, entries, rfl, each⟩ := read_map_eq_ok_iff.mp read
      refine .map (increasing_put_all List.Pairwise.nil entries) ?_
      intro entry member
      rcases mem_put_all member with impossible | member
      · cases impossible
      · obtain ⟨_, _, _, read⟩ := exists_of_mem_results each member
        exact ih read
  | record name distinct inside ih =>
    intro tree value read
    rcases fits_or_nested (.record name distinct inside) read with fits | ⟨_, _, rfl⟩ | ⟨_, _, rfl⟩
    · exact fits
    · obtain ⟨_, values, rfl, filled⟩ := read_record_array_eq_ok_iff.mp read
      exact fits_of_filled distinct filled fun field known _ _ => ih field known
    · obtain ⟨_, _, trees, values, rfl, _, filled⟩ :=
        (read_record_object_eq_ok_iff distinct).mp read
      exact fits_of_filled distinct filled fun field known _ _ => ih field known

theorem decode_as_eq_ok_iff {shape : Shape} {s : String} {value : Json} :
    decodeAs shape s = .ok value ↔
      (Document.ofText s).fault = none ∧ readAs shape (Document.ofText s).tree = .ok value := by
  rw [decodeAs, bind_eq_ok_iff]
  cases ended : (Document.ofText s).fault with
  | none => simp [Document.finish, ended, orFault]
  | some fault => simp [Document.finish, ended, orFault]

end SnapshotEndpoint.Json
