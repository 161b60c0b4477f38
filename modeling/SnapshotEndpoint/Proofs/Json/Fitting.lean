import SnapshotEndpoint.Proofs.Json.Compact
import SnapshotEndpoint.Snapshot.Wire

/-!
Values that fit a shape are read back under it from their own text: fields in the order of
the record, entries of a map in the order of its keys, whole numbers below the limit.
-/
namespace SnapshotEndpoint
namespace Json

inductive Fits : Shape → Json → Prop where
  | text (s : String) : Fits .text (.string s)
  | flag (value : Bool) : Fits .flag (.bool value)
  | count {limit n : Nat} (name : String) (below : n < limit) (word : limit ≤ wordLimit) :
      Fits (.count limit name) (.integer n)
  | list {shape : Shape} {items : List Json} (inside : ∀ item ∈ items, Fits shape item) :
      Fits (.list shape) (.array items)
  | map {shape : Shape} {entries : List (String × Json)} (sorted : Increasing entries)
      (inside : ∀ entry ∈ entries, Fits shape entry.2) : Fits (.map shape) (.object entries)
  | record (name : String) {fields : List (String × Shape)} {members : List (String × Json)}
      (distinct : (fields.map (·.1)).Nodup) (names : members.map (·.1) = fields.map (·.1))
      (inside : ∀ field ∈ fields, ∀ value, (field.1, value) ∈ members → Fits field.2 value) :
      Fits (.record name fields) (.object members)

theorem mem_field_of_member {β γ : Type} {fields : List (String × β)} {members : List (String × γ)}
    (names : members.map (·.1) = fields.map (·.1)) {member : String × γ}
    (known : member ∈ members) : ∃ field ∈ fields, field.1 = member.1 := by
  rw [← List.mem_map, ← names]
  exact List.mem_map_of_mem known

theorem exact_of_fits {shape : Shape} {value : Json} (fits : Fits shape value) : Exact value := by
  induction fits with
  | text s => exact .string s
  | flag value => exact .bool value
  | count name below word => exact .integer (by omega) (by omega)
  | list _ ih => exact .array ih
  | map _ _ ih => exact .object ih
  | record name _ names _ ih =>
    refine .object ?_
    intro member known
    obtain ⟨field, mem, same⟩ := mem_field_of_member names known
    refine ih field mem member.2 ?_
    rwa [same]

theorem read_items_as_trees {shape : Shape} {items : List Json}
    (inside : ∀ item ∈ items, readAs shape item.tree = .ok item) :
    readItemsAs shape (itemTrees items) = .ok items := by
  induction items with
  | nil => rfl
  | cons item rest ih =>
    rw [itemTrees, readItemsAs, inside item List.mem_cons_self,
      ih fun other member => inside other (List.mem_cons_of_mem item member)]
    rfl

theorem read_entries_as_trees {shape : Shape} (before : List (String × Json))
    {entries : List (String × Json)} (sorted : Increasing (before ++ entries))
    (inside : ∀ entry ∈ entries, readAs shape entry.2.tree = .ok entry.2) :
    readEntriesAs shape before (memberTrees entries) = .ok (before ++ entries) := by
  induction entries generalizing before with
  | nil => rw [memberTrees, readEntriesAs, List.append_nil]
  | cons entry rest ih =>
    have last : ∀ e ∈ before, e.1 < entry.1 := fun e member =>
      (List.pairwise_append.mp sorted).2.2 e member entry List.mem_cons_self
    rw [List.append_cons] at sorted ⊢
    have others := ih (before ++ [entry]) sorted fun other member =>
      inside other (List.mem_cons_of_mem entry member)
    rw [memberTrees, readEntriesAs, text_of_text, inside entry List.mem_cons_self]
    dsimp only [orFault, Bind.bind, Except.bind]
    rw [insert_entry_last entry.2 last, others]

theorem read_members_as_trees {fields : List (String × Shape)} (found : List (String × Json))
    {members : List (String × Json)} (distinct : ((found ++ members).map (·.1)).Nodup)
    (inside : ∀ member ∈ members, ∃ shape, fields.lookup member.1 = some shape ∧
      readAs shape member.2.tree = .ok member.2) :
    readMembersAs fields found (memberTrees members) = .ok (found ++ members) := by
  induction members generalizing found with
  | nil => rw [memberTrees, readMembersAs, List.append_nil]
  | cons member rest ih =>
    obtain ⟨shape, field, value⟩ := inside member List.mem_cons_self
    have fresh : found.lookup member.1 = none := by
      rw [List.lookup_eq_none_iff]
      intro known earlier
      rw [List.map_append, List.nodup_append] at distinct
      rw [bne_iff_ne]
      exact (distinct.2.2 known.1 (List.mem_map_of_mem earlier) member.1 List.mem_cons_self).symm
    rw [List.append_cons] at distinct ⊢
    have others := ih (found ++ [member]) distinct fun other known =>
      inside other (List.mem_cons_of_mem member known)
    rw [memberTrees, readMembersAs, text_of_text]
    dsimp only [orFault, Bind.bind, Except.bind]
    rw [field]
    dsimp only
    rw [fresh, value]
    exact others

theorem collect_fields_eq {fields : List (String × Shape)} {members found : List (String × Json)}
    (names : members.map (·.1) = fields.map (·.1))
    (inside : ∀ member ∈ members, found.lookup member.1 = some member.2) :
    collectFields fields found = .ok members := by
  induction fields generalizing members with
  | nil =>
    rw [List.map_eq_nil_iff.mp names]
    rfl
  | cons field fields ih =>
    cases members with
    | nil => cases names
    | cons member rest =>
      have same : member.1 = field.1 := (List.cons.inj names).1
      have others := (List.cons.inj names).2
      have more := ih others fun other known => inside other (List.mem_cons_of_mem member known)
      rw [collectFields] at more ⊢
      rw [List.mapM_cons, more, ← same, inside member List.mem_cons_self]
      rfl

theorem read_as_tree {shape : Shape} {value : Json} (fits : Fits shape value) :
    readAs shape value.tree = .ok value := by
  induction fits with
  | text s =>
    rw [tree, readAs, text_of_text]
    rfl
  | flag value => rfl
  | count name below word =>
    rw [tree, readAs, readNumberAs, if_pos (by omega)]
  | list _ ih =>
    rw [tree, readAs, read_items_as_trees ih]
    rfl
  | map sorted _ ih =>
    rw [tree, readAs, read_entries_as_trees [] sorted ih]
    rfl
  | record name distinct names _ ih =>
    rename_i fields members _
    -- A member's name belongs to one field only, so its value was read under that field's shape.
    have own : (members.map (·.1)).Nodup := names ▸ distinct
    have found : readMembersAs fields [] (memberTrees members) = .ok members := by
      refine read_members_as_trees [] own ?_
      intro member known
      obtain ⟨field, mem, same⟩ := mem_field_of_member names known
      refine ⟨field.2, same ▸ lookup_of_distinct distinct mem, ih field mem member.2 ?_⟩
      rwa [same]
    have collected := collect_fields_eq names fun member known => lookup_of_distinct own known
    rw [tree, readAs, found]
    dsimp only [orFault, ObjectEnd.check, Bind.bind, Except.bind]
    rw [collected]

theorem decode_text_of_fits {shape : Shape} {value : Json} (fits : Fits shape value) :
    decodeAs shape value.text = .ok value := by
  rw [decodeAs, document_of_text (exact_of_fits fits)]
  dsimp only
  rw [read_as_tree fits]
  rfl

end Json

/-- What is encoded is decoded again, if its form fits the shape and gives the value back. -/
theorem Wire.decode_encode {α : Type} [Wire α] {value : α}
    (fits : Json.Fits (shape α) (toJson value)) (back : ofJson? (toJson value) = some value) :
    decode α (encode value) = .ok value := by
  rw [decode, encode, Json.decode_text_of_fits fits]
  dsimp only [Bind.bind, Except.bind]
  rw [back]

end SnapshotEndpoint
