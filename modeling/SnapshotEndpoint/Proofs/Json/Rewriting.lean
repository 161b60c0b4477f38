import Mathlib.Logic.Relation
import SnapshotEndpoint.Proofs.Json.Grammar
import SnapshotEndpoint.Proofs.Json.Reading
import SnapshotEndpoint.Proofs.SortedMap

/-!
What reading by a shape does not see. A `Place` is where a value is read inside a tree, and what
is read there is all that the whole takes from it. So the order of the members of a record, the
members it does not have, the choice between object and array, and the earlier entries of a key
can change at any place without a change of what is read.
-/
namespace SnapshotEndpoint.Json

/-- A tree read by one shape, but for a part of it that is read by another. -/
inductive Place : Shape → Shape → Type where
  | whole (shape : Shape) : Place shape shape
  | item {shape inner : Shape} (before after : List Tree) (inside : Place shape inner) :
      Place (.list shape) inner
  | field {record : String} {front back : List (String × Shape)} {field : String × Shape}
      {inner : Shape} (before after : List Tree) (level : before.length = front.length)
      (inside : Place field.2 inner) : Place (.record record (front ++ field :: back)) inner
  | entry {shape inner : Shape} (key : Quoted) (before after : List (Quoted × Tree))
      (inside : Place shape inner) : Place (.map shape) inner
  | member {record : String} {fields : List (String × Shape)} {name : String}
      {shape inner : Shape} (known : fields.lookup name = some shape) (key : Quoted)
      (text : key.text = .ok name) (before after : List (Quoted × Tree))
      (inside : Place shape inner) : Place (.record record fields) inner

/-- The tree with the part in its place. -/
def Place.fill {outer inner : Shape} (tree : Tree) : Place outer inner → Tree
  | .whole _ => tree
  | .item before after inside => .array (before ++ inside.fill tree :: after) .closed
  | .field before after _ inside => .array (before ++ inside.fill tree :: after) .closed
  | .entry key before after inside =>
      .object (before ++ (key, inside.fill tree) :: after) .closed
  | .member _ key _ before after inside =>
      .object (before ++ (key, inside.fill tree) :: after) .closed

theorem Place.proper {outer inner : Shape} (place : Place outer inner) (proper : outer.Proper) :
    inner.Proper := by
  induction place with
  | whole _ => exact proper
  | item _ _ _ ih =>
    cases proper with
    | list inside => exact ih inside
  | field _ _ _ _ ih =>
    cases proper with
    | record _ _ inside => exact ih (inside _ (by simp))
  | entry _ _ _ _ ih =>
    cases proper with
    | map inside => exact ih inside
  | member known _ _ _ _ _ ih =>
    cases proper with
    | record _ _ inside => exact ih (inside _ (mem_of_lookup known))

/-- What one tree of a record read as, and what the record would read as with another there. -/
theorem filled_at {front back : List (String × Shape)} {field : String × Shape}
    {before after : List Tree} {tree : Tree} {values : List (String × Json)}
    (level : before.length = front.length)
    (filled : Filled (front ++ field :: back) (before ++ tree :: after) values) :
    ∃ part, readAs field.2 tree = .ok part ∧ ∀ other part', readAs field.2 other = .ok part' →
      ∃ values', Filled (front ++ field :: back) (before ++ other :: after) values' ∧
        (part' = part → values' = values) := by
  induction front generalizing before values with
  | nil =>
    obtain rfl := List.length_eq_zero_iff.mp level
    cases filled with
    | @cons _ _ part _ _ values read others =>
      refine ⟨part, read, ?_⟩
      intro other part' read'
      refine ⟨(field.1, part') :: values, .cons read' others, ?_⟩
      rintro rfl
      rfl
  | cons first front ih =>
    cases before with
    | nil => cases level
    | cons earlier before =>
      cases filled with
      | @cons _ _ value _ _ values own others =>
        obtain ⟨part, read, again⟩ := ih (Nat.succ.inj level) others
        refine ⟨part, read, ?_⟩
        intro other part' read'
        obtain ⟨values', filled, same⟩ := again other part' read'
        refine ⟨(first.1, value) :: values', .cons own filled, ?_⟩
        intro alike
        rw [same alike]

/-- A field with what it holds among the members of an object. -/
def Holds (members : List (Quoted × Tree)) (field : String × Shape) (entry : String × Json) :
    Prop :=
  entry.1 = field.1 ∧
    ∃ tree, under field.1 members = [tree] ∧ readAs field.2 tree = .ok entry.2

theorem holds_iff {fields : List (String × Shape)} {members : List (Quoted × Tree)}
    {values : List (String × Json)} :
    List.Forall₂ (Holds members) fields values ↔
      ∃ trees, Assigned fields members trees ∧ Filled fields trees values := by
  constructor
  · intro held
    induction held with
    | nil => exact ⟨[], .nil, .nil⟩
    | @cons field entry fields values own _ ih =>
      obtain ⟨trees, assigned, filled⟩ := ih
      obtain ⟨name, value⟩ := entry
      obtain ⟨rfl, tree, one, read⟩ := own
      exact ⟨tree :: trees, .cons one assigned, .cons read filled⟩
  · rintro ⟨trees, assigned, filled⟩
    induction filled with
    | nil => exact .nil
    | cons read _ ih =>
      cases assigned with
      | cons one assigned => exact .cons ⟨rfl, _, one, read⟩ (ih assigned)

theorem read_record_iff_holds {record : String} {fields : List (String × Shape)}
    (distinct : (fields.map (·.1)).Nodup) {members : List (Quoted × Tree)} {value : Json} :
    readAs (.record record fields) (.object members .closed) = .ok value ↔
      Passable fields members ∧
        ∃ values, value = .object values ∧ List.Forall₂ (Holds members) fields values := by
  rw [read_record_object_eq_ok_iff distinct]
  constructor
  · rintro ⟨_, passable, trees, values, same, held⟩
    exact ⟨passable, values, same, holds_iff.mpr ⟨trees, held⟩⟩
  · rintro ⟨passable, values, same, held⟩
    obtain ⟨trees, assigned, filled⟩ := holds_iff.mp held
    exact ⟨rfl, passable, trees, values, same, assigned, filled⟩

theorem under_append (name : String) (before after : List (Quoted × Tree)) :
    under name (before ++ after) = under name before ++ under name after := by
  rw [under, List.filterMap_append, under, under]

theorem under_member {name : String} {before after : List (Quoted × Tree)} {key : Quoted}
    (text : key.text = .ok name) (tree : Tree) :
    under name (before ++ (key, tree) :: after) =
      under name before ++ tree :: under name after := by
  rw [under_append, under_cons, if_pos text]

theorem under_other {name : String} {before after : List (Quoted × Tree)} {key : Quoted}
    (other : key.text ≠ .ok name) (tree : Tree) :
    under name (before ++ (key, tree) :: after) = under name (before ++ after) := by
  rw [under_append, under_cons, if_neg other, under_append]

/-- What stands alone under its name has no others beside it. -/
theorem alone_of_under {name : String} {before after : List (Quoted × Tree)} {tree found : Tree}
    (one : under name before ++ tree :: under name after = [found]) :
    under name before = [] ∧ tree = found ∧ under name after = [] := by
  cases earlier : under name before with
  | nil =>
    rw [earlier, List.nil_append, List.cons.injEq] at one
    exact ⟨rfl, one⟩
  | cons first rest =>
    rw [earlier] at one
    have lengths := congrArg List.length one
    simp at lengths

theorem read_of_holds {fields : List (String × Shape)} {before after : List (Quoted × Tree)}
    {key : Quoted} {name : String} {shape : Shape} {tree : Tree} {values : List (String × Json)}
    (known : fields.lookup name = some shape) (text : key.text = .ok name)
    (held : List.Forall₂ (Holds (before ++ (key, tree) :: after)) fields values) :
    ∃ value, readAs shape tree = .ok value := by
  obtain ⟨trees, assigned, filled⟩ := holds_iff.mp held
  obtain ⟨found, value, one, read⟩ := read_of_assigned assigned filled (mem_of_lookup known)
  rw [under_member text] at one
  obtain ⟨_, rfl, _⟩ := alone_of_under one
  exact ⟨value, read⟩

/-- A member that a record has alone under its name can be read as something else. -/
theorem holds_at {fields : List (String × Shape)} {before after : List (Quoted × Tree)}
    {key : Quoted} {name : String} {shape : Shape} {tree other : Tree} {part' : Json}
    {values : List (String × Json)} (distinct : (fields.map (·.1)).Nodup)
    (known : fields.lookup name = some shape) (text : key.text = .ok name)
    (held : List.Forall₂ (Holds (before ++ (key, tree) :: after)) fields values)
    (read' : readAs shape other = .ok part') :
    ∃ values', List.Forall₂ (Holds (before ++ (key, other) :: after)) fields values' ∧
      (readAs shape tree = .ok part' → values' = values) := by
  have own : ∀ field ∈ fields, field.1 = name → field.2 = shape := by
    intro field member same
    have found := lookup_of_distinct distinct member
    rw [same, known] at found
    exact (Option.some.inj found).symm
  clear distinct known
  induction held with
  | nil => exact ⟨[], .nil, fun _ => rfl⟩
  | @cons field entry fields values holds _ ih =>
    obtain ⟨values', held', same⟩ := ih fun later member =>
      own later (List.mem_cons_of_mem field member)
    obtain ⟨label, value⟩ := entry
    obtain ⟨rfl, found, one, read⟩ := holds
    by_cases mine : field.1 = name
    · rw [mine, under_member text] at one
      obtain ⟨early, rfl, late⟩ := alone_of_under one
      rw [own field List.mem_cons_self mine] at read
      refine ⟨(field.1, part') :: values', .cons ⟨rfl, other, ?_, ?_⟩ held', ?_⟩
      · rw [mine, under_member text, early, late, List.nil_append]
      · rw [own field List.mem_cons_self mine]
        exact read'
      · intro alike
        rw [same alike, Except.ok.inj (alike.symm.trans read)]
    · have elsewhere : key.text ≠ .ok field.1 := by
        rw [text]
        intro named
        exact mine (Except.ok.inj named).symm
      rw [under_other elsewhere] at one
      refine ⟨(field.1, value) :: values', .cons ⟨rfl, found, ?_, read⟩ held', ?_⟩
      · rw [under_other elsewhere]
        exact one
      · intro alike
        rw [same alike]

theorem passable_at {fields : List (String × Shape)} {before after : List (Quoted × Tree)}
    {key : Quoted} {name : String} {shape : Shape} {tree : Tree} (text : key.text = .ok name)
    (known : fields.lookup name = some shape)
    (passable : Passable fields (before ++ (key, tree) :: after)) (other : Tree) :
    Passable fields (before ++ (key, other) :: after) := by
  rw [Passable, List.forall_mem_append, List.forall_mem_cons] at passable ⊢
  refine ⟨passable.1, ⟨name, text, ?_⟩, passable.2.2⟩
  intro unknown
  rw [known] at unknown
  cases unknown

/-- What a whole takes from the part in a place is what is read there. -/
theorem Place.read {outer inner : Shape} (place : Place outer inner) (proper : outer.Proper)
    {tree : Tree} {value : Json} (read : readAs outer (place.fill tree) = .ok value) :
    ∃ part, readAs inner tree = .ok part ∧ ∀ other part', readAs inner other = .ok part' →
      ∃ value', readAs outer (place.fill other) = .ok value' ∧ (part' = part → value' = value) := by
  induction place generalizing value with
  | whole _ => exact ⟨value, read, fun _ part' read' => ⟨part', read', id⟩⟩
  | item before after inside ih =>
    cases proper with
    | list proper =>
      obtain ⟨_, values, rfl, each⟩ := read_list_eq_ok_iff.mp read
      obtain ⟨first, _, rfl, earlier, rest⟩ := forall₂_append_left_iff.mp each
      obtain ⟨own, last, old, later, rfl⟩ := List.forall₂_cons_left_iff.mp rest
      obtain ⟨part, inner, again⟩ := ih proper old
      refine ⟨part, inner, ?_⟩
      intro other part' read'
      obtain ⟨own', new, same⟩ := again other part' read'
      have each' := List.rel_append earlier (.cons new later)
      refine ⟨.array (first ++ own' :: last), read_list_eq_ok_iff.mpr ⟨rfl, _, rfl, each'⟩, ?_⟩
      intro alike
      rw [same alike]
  | field before after level inside ih =>
    cases proper with
    | record _ _ proper =>
      obtain ⟨_, values, rfl, filled⟩ := read_record_array_eq_ok_iff.mp read
      obtain ⟨own, old, refill⟩ := filled_at level filled
      obtain ⟨part, inner, again⟩ := ih (proper _ (by simp)) old
      refine ⟨part, inner, ?_⟩
      intro other part' read'
      obtain ⟨own', new, same⟩ := again other part' read'
      obtain ⟨values', filled', same'⟩ := refill _ own' new
      refine ⟨_, read_record_array_eq_ok_iff.mpr ⟨rfl, values', rfl, filled'⟩, ?_⟩
      intro alike
      rw [same' (same alike)]
  | entry key before after inside ih =>
    cases proper with
    | map proper =>
      obtain ⟨_, entries, rfl, each⟩ := read_map_eq_ok_iff.mp read
      obtain ⟨first, _, rfl, earlier, rest⟩ := forall₂_append_left_iff.mp each
      obtain ⟨own, last, ⟨text, old⟩, later, rfl⟩ := List.forall₂_cons_left_iff.mp rest
      obtain ⟨part, inner, again⟩ := ih proper old
      refine ⟨part, inner, ?_⟩
      intro other part' read'
      obtain ⟨own', new, same⟩ := again other part' read'
      refine ⟨_, read_map_eq_ok_iff.mpr ⟨rfl, first ++ (own.1, own') :: last, rfl,
        List.rel_append earlier (.cons ⟨text, new⟩ later)⟩, ?_⟩
      intro alike
      rw [same alike]
  | member known key text before after inside ih =>
    cases proper with
    | record _ distinct proper =>
      obtain ⟨passable, values, rfl, held⟩ := (read_record_iff_holds distinct).mp read
      obtain ⟨own, old⟩ := read_of_holds known text held
      obtain ⟨part, inner, again⟩ := ih (proper _ (mem_of_lookup known)) old
      refine ⟨part, inner, ?_⟩
      intro other part' read'
      obtain ⟨own', new, same⟩ := again other part' read'
      obtain ⟨values', held', same'⟩ := holds_at distinct known text held new
      refine ⟨_, (read_record_iff_holds distinct).mpr
        ⟨passable_at text known passable _, values', rfl, held'⟩, ?_⟩
      intro alike
      rw [same' ((same alike).symm ▸ old)]

/-- Nothing changes for the whole when what stands in a place reads as before. -/
theorem Place.read_exchanged {outer inner : Shape} (place : Place outer inner)
    (proper : outer.Proper) {tree other : Tree} {value : Json}
    (alike : ∀ part, readAs inner tree = .ok part → readAs inner other = .ok part)
    (read : readAs outer (place.fill tree) = .ok value) :
    readAs outer (place.fill other) = .ok value := by
  obtain ⟨part, own, again⟩ := place.read proper read
  obtain ⟨value', read', same⟩ := again other part (alike part own)
  rw [← same rfl]
  exact read'

section Maps

/-- The last entry read under a key is the one that stays. -/
theorem lookup_put_all (entries read : List (String × Json)) (key : String) :
    (putAll entries read).lookup key = (read.reverse.lookup key).or (entries.lookup key) :=
  lookup_insert_all entries read key

theorem put_all_overridden (before middle after : List (String × Json)) (name : String)
    (value value' : Json) :
    putAll [] (before ++ (name, value) :: (middle ++ (name, value') :: after)) =
      putAll [] (before ++ (middle ++ (name, value') :: after)) := by
  refine eq_of_lookups (increasing_put_all List.Pairwise.nil _)
    (increasing_put_all List.Pairwise.nil _) ?_
  intro key
  rw [lookup_put_all, lookup_put_all]
  by_cases same : key = name
  · simp [List.lookup_append, same]
  · simp [List.lookup_append, List.lookup_cons, beq_eq_false_iff_ne.mpr same]

variable {shape : Shape} {before middle after : List (Quoted × Tree)} {key key' : Quoted}
  {name : String} {tree tree' : Tree} {value : Json}

/-- An entry of a map that reads does not count if its key comes again. -/
theorem read_overridden_iff (text : key.text = .ok name) (again : key'.text = .ok name)
    (reads : ∃ part, readAs shape tree = .ok part) :
    readAs (.map shape)
        (.object (before ++ (key, tree) :: (middle ++ (key', tree') :: after)) .closed) =
          .ok value ↔
      readAs (.map shape) (.object (before ++ (middle ++ (key', tree') :: after)) .closed) =
        .ok value := by
  rw [read_map_eq_ok_iff, read_map_eq_ok_iff]
  refine and_congr_right fun _ => ?_
  constructor
  · rintro ⟨_, rfl, each⟩
    obtain ⟨first, _, rfl, earlier, here⟩ := forall₂_append_left_iff.mp each
    obtain ⟨⟨label, part⟩, _, ⟨named, _⟩, rest, rfl⟩ := List.forall₂_cons_left_iff.mp here
    obtain ⟨between, _, rfl, inner, there⟩ := forall₂_append_left_iff.mp rest
    obtain ⟨⟨label', part'⟩, last, ⟨named', read'⟩, later, rfl⟩ :=
      List.forall₂_cons_left_iff.mp there
    obtain rfl := Except.ok.inj (text.symm.trans named)
    obtain rfl := Except.ok.inj (again.symm.trans named')
    refine ⟨first ++ (between ++ (name, part') :: last), ?_, ?_⟩
    · rw [put_all_overridden]
    · exact List.rel_append earlier (List.rel_append inner (.cons ⟨again, read'⟩ later))
  · rintro ⟨_, rfl, each⟩
    obtain ⟨part, read⟩ := reads
    obtain ⟨first, _, rfl, earlier, rest⟩ := forall₂_append_left_iff.mp each
    obtain ⟨between, _, rfl, inner, there⟩ := forall₂_append_left_iff.mp rest
    obtain ⟨⟨label', part'⟩, last, ⟨named', read'⟩, later, rfl⟩ :=
      List.forall₂_cons_left_iff.mp there
    obtain rfl := Except.ok.inj (again.symm.trans named')
    refine ⟨first ++ (name, part) :: (between ++ (name, part') :: last), ?_, ?_⟩
    · rw [put_all_overridden]
    · exact List.rel_append earlier (.cons ⟨text, read⟩
        (List.rel_append inner (.cons ⟨again, read'⟩ later)))

/-- A map is read when each of its entries can be. -/
theorem map_reads_iff {members : List (Quoted × Tree)} :
    (∃ value, readAs (.map shape) (.object members .closed) = .ok value) ↔
      ∀ member ∈ members, (∃ name, member.1.text = .ok name) ∧
        ∃ value, readAs shape member.2 = .ok value := by
  constructor
  · rintro ⟨value, read⟩
    obtain ⟨_, entries, _, each⟩ := read_map_eq_ok_iff.mp read
    intro member known
    obtain ⟨entry, text, own⟩ := exists_results_iff.mp ⟨entries, each⟩ member known
    exact ⟨⟨entry.1, text⟩, entry.2, own⟩
  · intro reads
    have entries : ∀ member ∈ members, ∃ entry : String × Json,
        member.1.text = .ok entry.1 ∧ readAs shape member.2 = .ok entry.2 := by
      intro member known
      obtain ⟨⟨name, text⟩, value, own⟩ := reads member known
      exact ⟨(name, value), text, own⟩
    obtain ⟨entries, each⟩ := exists_results_iff.mpr entries
    exact ⟨_, read_map_eq_ok_iff.mpr ⟨rfl, entries, rfl, each⟩⟩

end Maps

theorem written_array_at_iff {before after : List Tree} {tree : Tree} :
    Written (.array (before ++ tree :: after) .closed) ↔
      Written tree ∧ Written (.array (before ++ after) .closed) := by
  simp only [written_array_iff, List.forall_mem_append, List.forall_mem_cons, true_and]
  exact and_left_comm

theorem written_object_at_iff {before after : List (Quoted × Tree)} {key : Quoted} {tree : Tree} :
    Written (.object (before ++ (key, tree) :: after) .closed) ↔
      Written tree ∧ Quotable key ∧ Written (.object (before ++ after) .closed) := by
  simp only [written_object_iff, List.forall_mem_append, List.forall_mem_cons, true_and]
  constructor
  · rintro ⟨earlier, ⟨quotable, own⟩, later⟩
    exact ⟨own, quotable, earlier, later⟩
  · rintro ⟨own, quotable, earlier, later⟩
    exact ⟨earlier, ⟨quotable, own⟩, later⟩

/-- What can be written can still be when a part is taken out and another put in its place. -/
theorem Place.written {outer inner : Shape} (place : Place outer inner) {tree : Tree}
    (written : Written (place.fill tree)) :
    Written tree ∧ ∀ other, Written other → Written (place.fill other) := by
  induction place with
  | whole _ => exact ⟨written, fun _ => id⟩
  | item before after inside ih =>
    obtain ⟨own, others⟩ := written_array_at_iff.mp written
    exact ⟨(ih own).1, fun other new => written_array_at_iff.mpr ⟨(ih own).2 other new, others⟩⟩
  | field before after _ inside ih =>
    obtain ⟨own, others⟩ := written_array_at_iff.mp written
    exact ⟨(ih own).1, fun other new => written_array_at_iff.mpr ⟨(ih own).2 other new, others⟩⟩
  | entry key before after inside ih =>
    obtain ⟨own, others⟩ := written_object_at_iff.mp written
    exact ⟨(ih own).1, fun other new => written_object_at_iff.mpr ⟨(ih own).2 other new, others⟩⟩
  | member _ key _ before after inside ih =>
    obtain ⟨own, others⟩ := written_object_at_iff.mp written
    exact ⟨(ih own).1, fun other new => written_object_at_iff.mpr ⟨(ih own).2 other new, others⟩⟩

/-- A key that can be written and gives a name. -/
structure Names (key : Quoted) (name : String) : Prop where
  text : key.text = .ok name
  quotable : Quotable key

/-- One change at the root of a tree: the members of a record in another order, one more that it
    does not have, its fields as an array, and an entry of a map more or less whose key comes
    again. -/
inductive Recast : Shape → Tree → Tree → Prop where
  | permuted {record : String} {fields : List (String × Shape)}
      {members members' : List (Quoted × Tree)} (order : members.Perm members') :
      Recast (.record record fields) (.object members .closed) (.object members' .closed)
  | widened {record : String} {fields : List (String × Shape)} {key : Quoted} {name : String}
      {value : Tree} (names : Names key name) (unknown : fields.lookup name = none)
      (written : Written value) (before after : List (Quoted × Tree)) :
      Recast (.record record fields) (.object (before ++ after) .closed)
        (.object (before ++ (key, value) :: after) .closed)
  | listed {record : String} {fields : List (String × Shape)} {members : List (Quoted × Tree)}
      {trees : List Tree} (assigned : Assigned fields members trees) :
      Recast (.record record fields) (.object members .closed) (.array trees .closed)
  | repeated {shape : Shape} {key key' : Quoted} {name : String} {tree : Tree}
      (names : Names key name) (again : key'.text = .ok name)
      (reads : ∃ part, readAs shape tree = .ok part) (written : Written tree)
      (before middle after : List (Quoted × Tree)) (tree' : Tree) :
      Recast (.map shape) (.object (before ++ (middle ++ (key', tree') :: after)) .closed)
        (.object (before ++ (key, tree) :: (middle ++ (key', tree') :: after)) .closed)
  | settled {shape : Shape} {key key' : Quoted} {name : String} (text : key.text = .ok name)
      (again : key'.text = .ok name) (before middle after : List (Quoted × Tree))
      (tree tree' : Tree) :
      Recast (.map shape)
        (.object (before ++ (key, tree) :: (middle ++ (key', tree') :: after)) .closed)
        (.object (before ++ (middle ++ (key', tree') :: after)) .closed)

section Records

variable {record : String} {fields : List (String × Shape)}
  {members members' : List (Quoted × Tree)}
  {trees : List Tree} {value : Json} (distinct : (fields.map (·.1)).Nodup)

theorem under_of_perm (order : members.Perm members') {name : String} {tree : Tree}
    (one : under name members = [tree]) : under name members' = [tree] := by
  have same := order.filterMap fun member =>
    if member.1.text = .ok name then some member.2 else none
  rw [← under, one] at same
  exact List.perm_singleton.mp same.symm

include distinct

theorem read_permuted (order : members.Perm members')
    (read : readAs (.record record fields) (.object members .closed) = .ok value) :
    readAs (.record record fields) (.object members' .closed) = .ok value := by
  obtain ⟨passable, values, rfl, held⟩ := (read_record_iff_holds distinct).mp read
  refine (read_record_iff_holds distinct).mpr ⟨?_, values, rfl, held.imp ?_⟩
  · intro member known
    exact passable member (order.mem_iff.mpr known)
  · rintro field entry ⟨same, tree, one, read⟩
    exact ⟨same, tree, under_of_perm order one, read⟩

theorem read_widened {key : Quoted} {name : String} {tree : Tree} (text : key.text = .ok name)
    (unknown : fields.lookup name = none) (whole : ignore tree = .ok ())
    {before after : List (Quoted × Tree)}
    (read : readAs (.record record fields) (.object (before ++ after) .closed) = .ok value) :
    readAs (.record record fields) (.object (before ++ (key, tree) :: after) .closed) =
      .ok value := by
  obtain ⟨passable, values, rfl, held⟩ := (read_record_iff_holds distinct).mp read
  refine (read_record_iff_holds distinct).mpr ⟨?_, values, rfl, ?_⟩
  · rw [Passable, List.forall_mem_append] at passable
    rw [Passable, List.forall_mem_append, List.forall_mem_cons]
    exact ⟨passable.1, ⟨name, text, fun _ => whole⟩, passable.2⟩
  · have other : ∀ field ∈ fields, key.text ≠ .ok field.1 := by
      intro field known same
      have found := lookup_of_distinct distinct known
      rw [text, Except.ok.injEq] at same
      rw [← same, unknown] at found
      cases found
    refine ((List.forall₂_and_left fields values).mpr ⟨other, held⟩).imp ?_
    rintro field entry ⟨elsewhere, same, found, one, read⟩
    rw [← under_other elsewhere tree] at one
    exact ⟨same, found, one, read⟩

theorem read_listed (assigned : Assigned fields members trees)
    (read : readAs (.record record fields) (.object members .closed) = .ok value) :
    readAs (.record record fields) (.array trees .closed) = .ok value := by
  obtain ⟨_, _, trees', values, rfl, assigned', filled⟩ :=
    (read_record_object_eq_ok_iff distinct).mp read
  have same : trees' = trees := by
    refine List.right_unique_forall₂' ?_ assigned' assigned
    intro field first second one one'
    rw [one] at one'
    exact (List.cons.inj one').1
  rw [same] at filled
  exact read_record_array_eq_ok_iff.mpr ⟨rfl, values, rfl, filled⟩

end Records

theorem Recast.read {shape : Shape} {tree tree' : Tree} (recast : Recast shape tree tree')
    (proper : shape.Proper) {value : Json} (read : readAs shape tree = .ok value) :
    readAs shape tree' = .ok value := by
  cases recast with
  | permuted order =>
    cases proper with
    | record _ distinct _ => exact read_permuted distinct order read
  | widened names unknown written before after =>
    cases proper with
    | record _ distinct _ =>
      exact read_widened distinct names.text unknown (ignore_of_written written) read
  | listed assigned =>
    cases proper with
    | record _ distinct _ => exact read_listed distinct assigned read
  | repeated names again reads _ _ _ _ _ =>
    exact (read_overridden_iff names.text again reads).mpr read
  | settled text again before middle after tree tree' =>
    have reads := map_reads_iff.mp ⟨value, read⟩
    rw [List.forall_mem_append, List.forall_mem_cons] at reads
    exact (read_overridden_iff text again reads.2.1.2).mp read

theorem mem_of_under {name : String} {members : List (Quoted × Tree)} {tree : Tree}
    (found : tree ∈ under name members) : ∃ key, (key, tree) ∈ members := by
  obtain ⟨member, known, own⟩ := List.mem_filterMap.mp found
  split at own
  · cases own
    exact ⟨member.1, known⟩
  · cases own

theorem Recast.written {shape : Shape} {tree tree' : Tree} (recast : Recast shape tree tree')
    (written : Written tree) : Written tree' := by
  cases recast with
  | permuted order =>
    rw [written_object_iff] at written ⊢
    exact ⟨rfl, fun member known => written.2 member (order.mem_iff.mpr known)⟩
  | widened names _ value before after =>
    exact written_object_at_iff.mpr ⟨value, names.quotable, written⟩
  | listed assigned =>
    rw [written_object_iff] at written
    refine written_array_iff.mpr ⟨rfl, ?_⟩
    intro tree member
    obtain ⟨field, _, one⟩ := exists_of_mem_results assigned member
    obtain ⟨key, known⟩ := mem_of_under (one ▸ List.mem_singleton_self tree)
    exact (written.2 (key, tree) known).2
  | repeated names _ _ value before middle after tree' =>
    exact written_object_at_iff.mpr ⟨value, names.quotable, written⟩
  | settled _ _ before middle after tree tree' =>
    exact (written_object_at_iff.mp written).2.2

/-- One change at some place of a tree. -/
def Changed (outer : Shape) (tree tree' : Tree) : Prop :=
  ∃ inner, ∃ place : Place outer inner, ∃ part part', Recast inner part part' ∧
    tree = place.fill part ∧ tree' = place.fill part'

/-- Any number of changes, each at any place. -/
def Rewritten (outer : Shape) : Tree → Tree → Prop := Relation.ReflTransGen (Changed outer)

theorem read_of_changed {outer : Shape} (proper : outer.Proper) {tree tree' : Tree}
    (changed : Changed outer tree tree') {value : Json} (read : readAs outer tree = .ok value) :
    readAs outer tree' = .ok value := by
  obtain ⟨inner, place, part, part', recast, rfl, rfl⟩ := changed
  exact place.read_exchanged proper (fun _ own => recast.read (place.proper proper) own) read

/-- What is read stays through any number of changes. -/
theorem read_of_rewritten {outer : Shape} (proper : outer.Proper) {tree tree' : Tree}
    (rewritten : Rewritten outer tree tree') {value : Json} (read : readAs outer tree = .ok value) :
    readAs outer tree' = .ok value := by
  induction rewritten with
  | refl => exact read
  | tail _ changed ih => exact read_of_changed proper changed ih

theorem written_of_rewritten {outer : Shape} {tree tree' : Tree}
    (rewritten : Rewritten outer tree tree') (written : Written tree) : Written tree' := by
  induction rewritten with
  | refl => exact written
  | tail _ changed ih =>
    obtain ⟨inner, place, part, part', recast, rfl, rfl⟩ := changed
    obtain ⟨own, again⟩ := place.written ih
    exact again part' (recast.written own)

/-- A record with a field that stands twice or not at all is not read, wherever it is. -/
theorem not_read_of_not_single {outer : Shape} (proper : outer.Proper) {record : String}
    {fields : List (String × Shape)} (place : Place outer (.record record fields))
    {members : List (Quoted × Tree)} {ending : ObjectEnd} {field : String × Shape}
    (known : field ∈ fields) (unsettled : (under field.1 members).length ≠ 1) (value : Json) :
    readAs outer (place.fill (.object members ending)) ≠ .ok value := by
  intro read
  obtain ⟨part, own, _⟩ := place.read proper read
  cases place.proper proper with
  | record _ distinct _ =>
    obtain ⟨_, _, trees, values, _, assigned, filled⟩ :=
      (read_record_object_eq_ok_iff distinct).mp own
    obtain ⟨tree, _, one, _⟩ := read_of_assigned assigned filled known
    rw [one] at unsettled
    exact unsettled rfl

end SnapshotEndpoint.Json
