import SnapshotEndpoint.Proofs.Json.Rewriting

/-!
What any JSON text is read as: the value that was written, with the members of its objects in the
order of their names, unless arrays and objects stand too deep inside each other. The order is all
that changes, and no shape that a value fits sees it.
-/
namespace SnapshotEndpoint.Json

mutual

/-- The value with the members of each object in order of their names; of several members of one
    name the last counts. -/
def arranged : Json → Json
  | array items => .array (arrangedItems items)
  | object members => .object (putAll [] (arrangedMembers members))
  | value => value

def arrangedItems : List Json → List Json
  | [] => []
  | item :: rest => arranged item :: arrangedItems rest

def arrangedMembers : List (String × Json) → List (String × Json)
  | [] => []
  | (name, value) :: rest => (name, arranged value) :: arrangedMembers rest

end

mutual

/-- How many arrays and objects stand inside each other. -/
def depth : Json → Nat
  | array items => itemsDepth items + 1
  | object members => membersDepth members + 1
  | _ => 0

def itemsDepth : List Json → Nat
  | [] => 0
  | item :: rest => max (depth item) (itemsDepth rest)

def membersDepth : List (String × Json) → Nat
  | [] => 0
  | (_, value) :: rest => max (depth value) (membersDepth rest)

end

theorem arranged_items_eq (items : List Json) : arrangedItems items = items.map arranged := by
  induction items with
  | nil => rfl
  | cons item rest ih => rw [arrangedItems, ih, List.map_cons]

theorem arranged_members_eq (members : List (String × Json)) :
    arrangedMembers members = members.map fun member => (member.1, member.2.arranged) := by
  induction members with
  | nil => rfl
  | cons member rest ih => rw [arrangedMembers, ih, List.map_cons]

theorem items_depth_le_iff {items : List Json} {room : Nat} :
    itemsDepth items ≤ room ↔ ∀ item ∈ items, item.depth ≤ room := by
  induction items with
  | nil => simp [itemsDepth]
  | cons item rest ih => rw [itemsDepth, Nat.max_le, ih, List.forall_mem_cons]

theorem members_depth_le_iff {members : List (String × Json)} {room : Nat} :
    membersDepth members ≤ room ↔ ∀ member ∈ members, member.2.depth ≤ room := by
  induction members with
  | nil => simp [membersDepth]
  | cons member rest ih => rw [membersDepth, Nat.max_le, ih, List.forall_mem_cons]

/-- What a value is read as where so many arrays and objects may still be opened. -/
def ReadsAny (value : Json) : Prop := ∀ room,
  readAny room value.tree = if value.depth ≤ room then .ok value.arranged else .error .malformed

theorem read_any_items {items : List Json} (inside : ∀ item ∈ items, ReadsAny item) (room : Nat) :
    readAnyItems room (itemTrees items) =
      if itemsDepth items ≤ room then .ok (arrangedItems items) else .error .malformed := by
  induction items with
  | nil => rfl
  | cons item rest ih =>
    have first := inside item List.mem_cons_self room
    have others := ih fun other member => inside other (List.mem_cons_of_mem item member)
    rw [itemTrees, readAnyItems, first, others, itemsDepth, arrangedItems]
    by_cases fits : item.depth ≤ room
    · by_cases rests : itemsDepth rest ≤ room
      · rw [if_pos fits, if_pos rests, if_pos (Nat.max_le.mpr ⟨fits, rests⟩)]
        rfl
      · rw [if_pos fits, if_neg rests, if_neg (mt (fun h => (Nat.max_le.mp h).2) rests)]
        rfl
    · rw [if_neg fits, if_neg (mt (fun h => (Nat.max_le.mp h).1) fits)]
      rfl

theorem read_any_members {members : List (String × Json)}
    (inside : ∀ member ∈ members, ReadsAny member.2) (room : Nat)
    (entries : List (String × Json)) :
    readAnyMembers room entries (memberTrees members) =
      if membersDepth members ≤ room then .ok (putAll entries (arrangedMembers members))
      else .error .malformed := by
  induction members generalizing entries with
  | nil => rfl
  | cons member rest ih =>
    obtain ⟨name, value⟩ := member
    have first := inside (name, value) List.mem_cons_self room
    have others := ih (fun other known => inside other (List.mem_cons_of_mem _ known))
      (insertEntry name value.arranged entries)
    dsimp only at first
    rw [memberTrees, readAnyMembers, text_of_text, first, membersDepth, arrangedMembers]
    dsimp only [Bind.bind, Except.bind]
    by_cases fits : value.depth ≤ room
    · rw [if_pos fits]
      dsimp only
      rw [others]
      by_cases rests : membersDepth rest ≤ room
      · rw [if_pos rests, if_pos (Nat.max_le.mpr ⟨fits, rests⟩)]
        rfl
      · rw [if_neg rests, if_neg (mt (fun h => (Nat.max_le.mp h).2) rests)]
    · rw [if_neg fits, if_neg (mt (fun h => (Nat.max_le.mp h).1) fits)]

theorem reads_any {value : Json} (kept : Exact value) : ReadsAny value := by
  induction kept with
  | null => exact fun _ => rfl
  | bool value => exact fun _ => rfl
  | integer low high => exact fun _ => rfl
  | string s =>
    intro room
    rw [tree, readAny, text_of_text]
    rfl
  | @array items _ ih =>
    intro room
    rw [tree, readAny, depth, arranged, read_any_items ih]
    cases room with
    | zero => rw [if_pos rfl, if_neg (Nat.not_succ_le_zero _)]
    | succ room =>
      rw [if_neg (Nat.succ_ne_zero room), Nat.add_sub_cancel]
      by_cases fits : itemsDepth items ≤ room
      · rw [if_pos fits, if_pos (Nat.succ_le_succ fits)]
        rfl
      · rw [if_neg fits, if_neg (mt Nat.le_of_succ_le_succ fits)]
        rfl
  | @object members _ ih =>
    intro room
    rw [tree, readAny, depth, arranged, read_any_members ih]
    cases room with
    | zero => rw [if_pos rfl, if_neg (Nat.not_succ_le_zero _)]
    | succ room =>
      rw [if_neg (Nat.succ_ne_zero room), Nat.add_sub_cancel]
      by_cases fits : membersDepth members ≤ room
      · rw [if_pos fits, if_pos (Nat.succ_le_succ fits)]
        rfl
      · rw [if_neg fits, if_neg (mt Nat.le_of_succ_le_succ fits)]
        rfl

theorem parse_of_is_text {s : String} {value : Json} (kept : Exact value)
    (text : IsTextOf s value.tree) : parse s =
      if value.depth ≤ depthLimit then .ok value.arranged else .error .malformed := by
  rw [parse, is_text_of_iff.mp text]
  dsimp only
  rw [reads_any kept depthLimit]
  by_cases shallow : value.depth ≤ depthLimit
  · rw [if_pos shallow]
    rfl
  · rw [if_neg shallow]
    rfl

/-! Members in the order of their names. -/

inductive InOrder : Json → Prop where
  | null : InOrder .null
  | bool (value : Bool) : InOrder (.bool value)
  | integer (n : Int) : InOrder (.integer n)
  | string (s : String) : InOrder (.string s)
  | array {items : List Json} (inside : ∀ item ∈ items, InOrder item) : InOrder (.array items)
  | object {members : List (String × Json)} (sorted : Increasing members)
      (inside : ∀ member ∈ members, InOrder member.2) : InOrder (.object members)

theorem put_all_sorted (before : List (String × Json)) {entries : List (String × Json)}
    (sorted : Increasing (before ++ entries)) : putAll before entries = before ++ entries :=
  insert_all_sorted before sorted

theorem mem_arranged_items {items : List Json} {item : Json} (known : item ∈ arrangedItems items) :
    ∃ other ∈ items, item = other.arranged := by
  rw [arranged_items_eq] at known
  obtain ⟨other, member, rfl⟩ := List.mem_map.mp known
  exact ⟨other, member, rfl⟩

theorem mem_arranged {members : List (String × Json)} {member : String × Json}
    (known : member ∈ putAll [] (arrangedMembers members)) :
    ∃ other ∈ members, member.1 = other.1 ∧ member.2 = other.2.arranged := by
  rcases mem_put_all known with impossible | there
  · cases impossible
  · rw [arranged_members_eq] at there
    obtain ⟨other, own, rfl⟩ := List.mem_map.mp there
    exact ⟨other, own, rfl, rfl⟩

theorem exact_arranged {value : Json} (kept : Exact value) : Exact value.arranged := by
  induction kept with
  | null => exact .null
  | bool value => exact .bool value
  | integer low high => exact .integer low high
  | string s => exact .string s
  | array _ ih =>
    apply Exact.array
    intro item known
    obtain ⟨other, member, rfl⟩ := mem_arranged_items known
    exact ih other member
  | object _ ih =>
    apply Exact.object
    intro member known
    obtain ⟨other, own, _, same⟩ := mem_arranged known
    rw [same]
    exact ih other own

theorem in_order_arranged {value : Json} (kept : Exact value) : InOrder value.arranged := by
  induction kept with
  | null => exact .null
  | bool value => exact .bool value
  | integer low high => exact .integer _
  | string s => exact .string s
  | array _ ih =>
    apply InOrder.array
    intro item known
    obtain ⟨other, member, rfl⟩ := mem_arranged_items known
    exact ih other member
  | object _ ih =>
    apply InOrder.object (increasing_put_all List.Pairwise.nil _)
    intro member known
    obtain ⟨other, own, _, same⟩ := mem_arranged known
    rw [same]
    exact ih other own

theorem depth_arranged_le {value : Json} (kept : Exact value) :
    value.arranged.depth ≤ value.depth := by
  induction kept with
  | null => exact Nat.le_refl _
  | bool value => exact Nat.le_refl _
  | integer low high => exact Nat.le_refl _
  | string s => exact Nat.le_refl _
  | @array items _ ih =>
    apply Nat.succ_le_succ
    rw [items_depth_le_iff]
    intro item known
    obtain ⟨other, member, rfl⟩ := mem_arranged_items known
    exact (ih other member).trans (items_depth_le_iff.mp (Nat.le_refl _) other member)
  | @object members _ ih =>
    apply Nat.succ_le_succ
    rw [members_depth_le_iff]
    intro member known
    obtain ⟨other, own, _, same⟩ := mem_arranged known
    rw [same]
    exact (ih other own).trans (members_depth_le_iff.mp (Nat.le_refl _) other own)

theorem arranged_of_in_order {value : Json} (ordered : InOrder value) : value.arranged = value := by
  induction ordered with
  | null => rfl
  | bool value => rfl
  | integer n => rfl
  | string s => rfl
  | array _ ih =>
    rw [arranged, arranged_items_eq, List.map_congr_left ih, List.map_id']
  | @object members sorted _ ih =>
    have same : arrangedMembers members = members := by
      rw [arranged_members_eq]
      refine (List.map_congr_left ?_).trans (List.map_id' members)
      intro member known
      rw [ih member known]
    rw [arranged, same, put_all_sorted [] sorted]
    rfl

/-- What is parsed once is parsed again as it is. -/
theorem parse_arranged {s : String} {value : Json} (kept : Exact value)
    (shallow : value.depth ≤ depthLimit) (text : IsTextOf s value.arranged.tree) :
    parse s = .ok value.arranged := by
  rw [parse_of_is_text (exact_arranged kept) text, if_pos ((depth_arranged_le kept).trans shallow),
    arranged_of_in_order (in_order_arranged kept)]

/-! Where each part is found. -/

/-- Every object has each name once. -/
inductive Keyed : Json → Prop where
  | null : Keyed .null
  | bool (value : Bool) : Keyed (.bool value)
  | integer (n : Int) : Keyed (.integer n)
  | string (s : String) : Keyed (.string s)
  | array {items : List Json} (inside : ∀ item ∈ items, Keyed item) : Keyed (.array items)
  | object {members : List (String × Json)} (distinct : (members.map (·.1)).Nodup)
      (inside : ∀ member ∈ members, Keyed member.2) : Keyed (.object members)

theorem keyed_of_in_order {value : Json} (ordered : InOrder value) : Keyed value := by
  induction ordered with
  | null => exact .null
  | bool value => exact .bool value
  | integer n => exact .integer n
  | string s => exact .string s
  | array _ ih => exact .array ih
  | object sorted _ ih => exact .object (distinct_of_increasing sorted) ih

inductive Turn where
  | name (name : String)
  | index (index : Nat)
  deriving DecidableEq, Repr

def child? : Json → Turn → Option Json
  | .object members, .name name => members.lookup name
  | .array items, .index i => items[i]?
  | _, _ => none

/-- The part of a value that a path leads to. -/
def at? (value : Json) : List Turn → Option Json
  | [] => some value
  | turn :: rest => (value.child? turn).bind fun part => part.at? rest

theorem keyed_child {value part : Json} (keyed : Keyed value) {turn : Turn}
    (found : value.child? turn = some part) : Keyed part := by
  cases keyed with
  | array inside =>
    cases turn with
    | index i => exact inside part (List.mem_of_getElem? found)
    | name name => cases found
  | object _ inside =>
    cases turn with
    | name name => exact inside (name, part) (mem_of_lookup found)
    | index i => cases found
  | null => cases found
  | bool value => cases found
  | integer n => cases found
  | string s => cases found

theorem insert_entry_perm {name : String} (value : Json) {entries : List (String × Json)}
    (fresh : name ∉ entries.map (·.1)) :
    (insertEntry name value entries).Perm ((name, value) :: entries) := by
  induction entries with
  | nil => exact .refl _
  | cons entry rest ih =>
    rw [List.map_cons, List.mem_cons, not_or] at fresh
    unfold insertEntry
    by_cases before : name < entry.1
    · rw [if_pos before]
    · rw [if_neg before, if_neg fresh.1]
      exact ((ih fresh.2).cons entry).trans (.swap _ _ rest)

theorem put_all_perm (entries : List (String × Json)) {read : List (String × Json)}
    (distinct : ((entries ++ read).map (·.1)).Nodup) :
    (putAll entries read).Perm (entries ++ read) := by
  induction read generalizing entries with
  | nil =>
    rw [List.append_nil]
    exact .refl _
  | cons entry rest ih =>
    have moved : ((entry :: entries) ++ rest).Perm (entries ++ entry :: rest) :=
      List.perm_middle.symm
    have distinct' := (moved.map (·.1)).nodup_iff.mpr distinct
    have fresh : entry.1 ∉ entries.map (·.1) := by
      rw [List.cons_append, List.map_cons, List.nodup_cons, List.map_append, List.mem_append,
        not_or] at distinct'
      exact distinct'.1.1
    have put := (insert_entry_perm entry.2 fresh).append_right rest
    have others := ih _ ((put.map (·.1)).nodup_iff.mpr distinct')
    exact (others.trans put).trans moved

theorem names_arranged (members : List (String × Json)) :
    (arrangedMembers members).map (·.1) = members.map (·.1) := by
  rw [arranged_members_eq, List.map_map]
  rfl

theorem arranged_perm {members : List (String × Json)} (distinct : (members.map (·.1)).Nodup) :
    (arrangedMembers members).Perm (putAll [] (arrangedMembers members)) :=
  (put_all_perm [] (names_arranged members ▸ distinct)).symm

theorem lookup_perm {members members' : List (String × Json)}
    (distinct : (members.map (·.1)).Nodup) (order : members.Perm members') (name : String) :
    members'.lookup name = members.lookup name := by
  have distinct' := (order.map (·.1)).nodup_iff.mp distinct
  cases found : members.lookup name with
  | some value => exact lookup_of_distinct distinct' (order.mem_iff.mp (mem_of_lookup found))
  | none =>
    rw [List.lookup_eq_none_iff] at found ⊢
    intro member known
    exact found member (order.mem_iff.mpr known)

theorem lookup_arranged (members : List (String × Json)) (name : String) :
    (arrangedMembers members).lookup name = (members.lookup name).map arranged := by
  induction members with
  | nil => rfl
  | cons member rest ih =>
    rw [arrangedMembers, List.lookup_cons, List.lookup_cons, ih]
    cases name == member.1 with
    | true => rfl
    | false => rfl

theorem child_arranged {value : Json} (keyed : Keyed value) (turn : Turn) :
    value.arranged.child? turn = (value.child? turn).map arranged := by
  cases keyed with
  | array inside =>
    cases turn with
    | index i => rw [arranged, child?, child?, arranged_items_eq, List.getElem?_map]
    | name name => rfl
  | @object members distinct inside =>
    cases turn with
    | name name =>
      rw [arranged, child?, child?, ← lookup_arranged]
      exact lookup_perm (names_arranged members ▸ distinct) (arranged_perm distinct) name
    | index i => rfl
  | null => rfl
  | bool value => rfl
  | integer n => rfl
  | string s => rfl

/-- Every path leads to the part it led to, in its own order. -/
theorem at_arranged {value : Json} (keyed : Keyed value) (path : List Turn) :
    value.arranged.at? path = (value.at? path).map arranged := by
  induction path generalizing value with
  | nil => rfl
  | cons turn rest ih =>
    rw [at?, at?, child_arranged keyed]
    cases found : value.child? turn with
    | none => rfl
    | some part => exact ih (keyed_child keyed found)

/-- What has no parts is found where it was and nowhere else. -/
theorem arranged_eq_iff {leaf value : Json} (plain : leaf.depth = 0) :
    value.arranged = leaf ↔ value = leaf := by
  cases value with
  | array items =>
    constructor
    · rintro rfl
      cases plain
    · rintro rfl
      cases plain
  | object members =>
    constructor
    · rintro rfl
      cases plain
    · rintro rfl
      cases plain
  | null => rfl
  | bool b => rfl
  | integer n => rfl
  | float x => rfl
  | string s => rfl

/-! No shape that a value fits sees the order. -/

theorem item_trees_eq (items : List Json) : itemTrees items = items.map tree := by
  induction items with
  | nil => rfl
  | cons item rest ih => rw [itemTrees, ih, List.map_cons]

theorem member_trees_eq (members : List (String × Json)) :
    memberTrees members = members.map fun member => (Quoted.ofText member.1, member.2.tree) := by
  induction members with
  | nil => rfl
  | cons member rest ih => rw [memberTrees, ih, List.map_cons]

theorem under_member_trees {members : List (String × Json)} {name : String} {value : Json}
    (distinct : (members.map (·.1)).Nodup) (known : (name, value) ∈ members) :
    under name (memberTrees members) = [value.tree] := by
  have absent : ∀ {others : List (String × Json)}, name ∉ others.map (·.1) →
      under name (memberTrees others) = [] := by
    intro others absent
    induction others with
    | nil => rfl
    | cons other rest ih =>
      rw [List.map_cons, List.mem_cons, not_or] at absent
      rw [memberTrees, under_cons, text_of_text, if_neg (by simpa using Ne.symm absent.1),
        ih absent.2]
  induction members with
  | nil => cases known
  | cons member rest ih =>
    rw [List.map_cons, List.nodup_cons] at distinct
    rw [memberTrees, under_cons, text_of_text]
    rcases List.mem_cons.mp known with rfl | later
    · rw [if_pos rfl, absent distinct.1]
    · have other : member.1 ≠ name := by
        rintro rfl
        exact distinct.1 (List.mem_map.mpr ⟨_, later, rfl⟩)
      rw [if_neg (by simpa using other), ih distinct.2 later]

/-- The fields of a record hold what stands under their names. -/
theorem holds_each {trees : List (Quoted × Tree)} {fields : List (String × Shape)}
    {members : List (String × Json)} (names : members.map (·.1) = fields.map (·.1))
    (each : ∀ field ∈ fields, ∀ value, (field.1, value) ∈ members →
      ∃ tree, under field.1 trees = [tree] ∧ readAs field.2 tree = .ok value) :
    List.Forall₂ (Holds trees) fields members := by
  induction fields generalizing members with
  | nil =>
    rw [List.map_eq_nil_iff.mp names]
    exact .nil
  | cons field fields ih =>
    cases members with
    | nil => cases names
    | cons member rest =>
      obtain ⟨name, value⟩ := member
      obtain ⟨rfl, others⟩ := List.cons.inj names
      refine .cons ⟨rfl, each field List.mem_cons_self value List.mem_cons_self⟩ (ih others ?_)
      intro other known value later
      exact each other (List.mem_cons_of_mem field known) value (List.mem_cons_of_mem _ later)

theorem read_arranged {shape : Shape} {value : Json} (fits : Fits shape value) :
    readAs shape value.arranged.tree = .ok value := by
  induction fits with
  | text s => exact read_as_tree (.text s)
  | flag value => exact read_as_tree (.flag value)
  | count name below word => exact read_as_tree (.count name below word)
  | @list shape items _ ih =>
    rw [arranged, tree, arranged_items_eq, item_trees_eq, List.map_map]
    refine read_list_eq_ok_iff.mpr ⟨rfl, items, rfl, ?_⟩
    rw [List.forall₂_map_left_iff, List.forall₂_same]
    exact ih
  | @map shape entries sorted _ ih =>
    have sorted' : Increasing (arrangedMembers entries) := by
      rw [arranged_members_eq]
      exact increasing_map arranged sorted
    rw [arranged, tree, put_all_sorted [] sorted', List.nil_append, arranged_members_eq,
      member_trees_eq, List.map_map]
    refine read_map_eq_ok_iff.mpr ⟨rfl, entries, ?_, ?_⟩
    · rw [put_all_sorted [] sorted]
      rfl
    · rw [List.forall₂_map_left_iff, List.forall₂_same]
      intro entry known
      exact ⟨text_of_text entry.1, ih entry known⟩
  | @record name fields members distinct names _ ih =>
    have own : (members.map (·.1)).Nodup := names ▸ distinct
    have own' : ((arrangedMembers members).map (·.1)).Nodup := names_arranged members ▸ own
    have order : (memberTrees (arrangedMembers members)).Perm
        (memberTrees (putAll [] (arrangedMembers members))) := by
      rw [member_trees_eq, member_trees_eq]
      exact (arranged_perm own).map _
    rw [arranged, tree]
    apply read_permuted distinct order
    rw [read_record_iff_holds distinct]
    refine ⟨?_, members, rfl, holds_each names ?_⟩
    · intro member known
      rw [arranged_members_eq, member_trees_eq, List.map_map] at known
      obtain ⟨other, there, rfl⟩ := List.mem_map.mp known
      refine ⟨other.1, text_of_text other.1, ?_⟩
      intro unknown
      obtain ⟨field, mem, same⟩ := mem_field_of_member names there
      rw [← same, lookup_of_distinct distinct mem] at unknown
      cases unknown
    · intro field known value member
      refine ⟨value.arranged.tree, under_member_trees own' ?_, ih field known value member⟩
      rw [arranged_members_eq]
      exact List.mem_map_of_mem member

theorem keyed_of_fits {shape : Shape} {value : Json} (fits : Fits shape value) : Keyed value := by
  induction fits with
  | text s => exact .string s
  | flag value => exact .bool value
  | count name below word => exact .integer _
  | list _ ih => exact .array ih
  | map sorted _ ih => exact .object (distinct_of_increasing sorted) ih
  | record name distinct names _ ih =>
    refine .object (names ▸ distinct) ?_
    intro member known
    obtain ⟨field, mem, same⟩ := mem_field_of_member names known
    refine ih field mem member.2 ?_
    rwa [same]

mutual

/-- How many arrays and objects stand inside each other where a shape is fitted. -/
def Shape.depth : Shape → Nat
  | .list item => item.depth + 1
  | .map value => value.depth + 1
  | .record _ fields => Shape.fieldsDepth fields + 1
  | _ => 0

def Shape.fieldsDepth : List (String × Shape) → Nat
  | [] => 0
  | (_, shape) :: rest => max shape.depth (Shape.fieldsDepth rest)

end

theorem le_fields_depth {fields : List (String × Shape)} {field : String × Shape}
    (known : field ∈ fields) : field.2.depth ≤ Shape.fieldsDepth fields := by
  induction fields with
  | nil => cases known
  | cons first rest ih =>
    rw [Shape.fieldsDepth]
    rcases List.mem_cons.mp known with rfl | later
    · exact Nat.le_max_left _ _
    · exact (ih later).trans (Nat.le_max_right _ _)

theorem depth_le_of_fits {shape : Shape} {value : Json} (fits : Fits shape value) :
    value.depth ≤ shape.depth := by
  induction fits with
  | text s => exact Nat.le_refl _
  | flag value => exact Nat.le_refl _
  | count name below word => exact Nat.le_refl _
  | list _ ih => exact Nat.succ_le_succ (items_depth_le_iff.mpr ih)
  | map _ _ ih => exact Nat.succ_le_succ (members_depth_le_iff.mpr ih)
  | @record name fields members distinct names _ ih =>
    apply Nat.succ_le_succ
    rw [members_depth_le_iff]
    intro member known
    obtain ⟨field, mem, same⟩ := mem_field_of_member names known
    have own : (field.1, member.2) ∈ members := by rwa [same]
    exact (ih field mem member.2 own).trans (le_fields_depth mem)

end SnapshotEndpoint.Json
