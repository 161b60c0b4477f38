import SnapshotEndpoint.Proofs.Text.Blank
import SnapshotEndpoint.Snapshot.Settings

/-!
The items of a list in a text. They stand between commas, and neither the blanks around an item nor
what is empty or blank between two commas counts. So a list has many texts, and of two texts with a
comma between them the items are those of the one and then those of the other.
-/
namespace SnapshotEndpoint.Setting

theorem split_eq_split_on (separator : Char) (cs : List Char) :
    Text.splitAtChar separator cs = cs.splitOn separator := by
  induction cs with
  | nil => rfl
  | cons c rest ih =>
    rw [Text.splitAtChar, ih, List.splitOn_cons_eq_if_modifyHead]
    obtain ⟨piece, pieces, parts⟩ :=
      List.exists_cons_of_ne_nil (List.splitOn_ne_nil separator rest)
    simp only [parts, beq_iff_eq, List.modifyHead_cons]

theorem not_mem_of_mem_split {separator : Char} {cs piece : List Char}
    (known : piece ∈ cs.splitOn separator) : separator ∉ piece := by
  induction cs generalizing piece with
  | nil =>
    rw [List.mem_singleton.mp known]
    exact List.not_mem_nil
  | cons c rest ih =>
    obtain ⟨first, pieces, parts⟩ :=
      List.exists_cons_of_ne_nil (List.splitOn_ne_nil separator rest)
    rw [List.splitOn_cons_eq_if_modifyHead, parts] at known
    rw [parts] at ih
    by_cases same : c = separator
    · rw [if_pos (beq_iff_eq.mpr same), List.mem_cons] at known
      rcases known with rfl | known
      · exact List.not_mem_nil
      · exact ih known
    · rw [if_neg (mt beq_iff_eq.mp same), List.modifyHead_cons, List.mem_cons] at known
      rcases known with rfl | known
      · exact List.not_mem_cons_of_ne_of_not_mem (Ne.symm same) (ih List.mem_cons_self)
      · exact ih (List.mem_cons_of_mem first known)

/-- The cores of some pieces in turn, without the pieces that have none. -/
inductive Itemized : List (List Char) → List String → Prop where
  | nil : Itemized [] []
  | blank {piece : List Char} {pieces : List (List Char)} {items : List String}
      (nothing : Text.Blank piece) (rest : Itemized pieces items) : Itemized (piece :: pieces) items
  | item {piece : List Char} {pieces : List (List Char)} {item : String} {items : List String}
      (core : Text.Trims piece item.toList) (some_ : item ≠ "") (rest : Itemized pieces items) :
      Itemized (piece :: pieces) (item :: items)

/-- A text has the items that its pieces between commas come to. -/
def Lists (s : String) (items : List String) : Prop :=
  ∃ pieces, s.toList = [','].intercalate pieces ∧ (∀ piece ∈ pieces, ',' ∉ piece) ∧
    Itemized pieces items

/-- A text that can be an item: not empty, without commas and with no blanks around it. -/
structure Item (item : String) : Prop where
  nonempty : item ≠ ""
  whole : ',' ∉ item.toList
  bare : Text.Trims item.toList item.toList

theorem itemized (pieces : List (List Char)) :
    Itemized pieces ((pieces.map fun piece => String.ofList (Text.trimChars piece)).filter
      fun item => !item.isEmpty) := by
  induction pieces with
  | nil => exact .nil
  | cons piece pieces ih =>
    have core : Text.Trims piece (String.ofList (Text.trimChars piece)).toList := by
      rw [String.toList_ofList]
      exact Text.trims_trim_chars piece
    rw [List.map_cons, List.filter_cons]
    by_cases nothing : String.ofList (Text.trimChars piece) = ""
    · have blank : Text.Blank piece := by
        rwa [String.ofList_eq_empty_iff, Text.trim_chars_eq_nil_iff] at nothing
      simpa only [nothing] using .blank blank ih
    · rw [if_pos (by simpa using nothing)]
      exact .item core nothing ih

theorem lists_parse_items (s : String) : Lists s (parseItems s) := by
  refine ⟨s.toList.splitOn ',', (List.intercalate_splitOn ',').symm, ?_, ?_⟩
  · exact fun piece => not_mem_of_mem_split
  · rw [parseItems, split_eq_split_on]
    exact itemized _

theorem item_of_itemized {pieces : List (List Char)} {items : List String}
    (itemized : Itemized pieces items) (whole : ∀ piece ∈ pieces, ',' ∉ piece) :
    ∀ item ∈ items, Item item := by
  induction itemized with
  | nil => exact List.forall_mem_nil _
  | blank _ _ ih => exact ih (List.forall_mem_cons.mp whole).2
  | @item piece _ item _ core some_ _ ih =>
    obtain ⟨free, others⟩ := List.forall_mem_cons.mp whole
    refine List.forall_mem_cons.mpr ⟨⟨some_, ?_, core.bare⟩, ih others⟩
    obtain ⟨before, after, parts, _⟩ := core.parts
    rw [parts] at free
    exact fun within => free (List.mem_append_left _ (List.mem_append_right _ within))

theorem parse_items_append (s t : String) :
    parseItems (s ++ "," ++ t) = parseItems s ++ parseItems t := by
  have parts : (s ++ "," ++ t).toList = s.toList ++ ',' :: t.toList := by simp
  rw [parseItems, parseItems, parseItems, parts]
  simp only [split_eq_split_on]
  rw [List.splitOn_append_cons_self, List.map_append, List.filter_append]

theorem parse_items_of_whole {s : String} (whole : ',' ∉ s.toList) :
    parseItems s = if Text.trim s = "" then [] else [Text.trim s] := by
  rw [parseItems, split_eq_split_on, List.splitOn_eq_singleton whole, List.map_singleton,
    List.filter_singleton, ← Text.trim, cond_eq_ite]
  by_cases nothing : Text.trim s = ""
  · rw [if_pos nothing, if_neg (by simp [nothing])]
  · rw [if_neg nothing, if_pos (by simpa using nothing)]

theorem parse_items_of_item {item : String} (clean : Item item) : parseItems item = [item] := by
  rw [parse_items_of_whole clean.whole, Text.trim_eq_iff.mpr clean.bare, if_neg clean.nonempty]

theorem comma_not_mem_of_blank {cs : List Char} (blank : Text.Blank cs) : ',' ∉ cs := by
  intro known
  have visible : Text.isBlank ',' = false := by decide
  rw [blank ',' known] at visible
  cases visible

theorem parse_items_of_blank {s : String} (blank : Text.Blank s.toList) : parseItems s = [] := by
  have nothing : Text.trim s = "" := Text.trim_eq_empty_iff.mpr blank
  rw [parse_items_of_whole (comma_not_mem_of_blank blank), if_pos nothing]

theorem items_of_itemized {pieces : List (List Char)} {items : List String}
    (itemized : Itemized pieces items) :
    ((pieces.map fun piece => String.ofList (Text.trimChars piece)).filter
      fun item => !item.isEmpty) = items := by
  induction itemized with
  | nil => rfl
  | @blank piece _ _ nothing _ ih =>
    rw [List.map_cons, List.filter_cons, Text.trim_chars_of_blank nothing, ih]
    rfl
  | @item piece _ item _ core some_ _ ih =>
    rw [List.map_cons, List.filter_cons, Text.trim_chars_of_trims core, String.ofList_toList,
      if_pos (by simpa using some_), ih]

/-- A text lists only the items that are found in it. -/
theorem parse_items_of_lists {s : String} {items : List String} (lists : Lists s items) :
    parseItems s = items := by
  obtain ⟨pieces, text, whole, itemized⟩ := lists
  rw [parseItems, split_eq_split_on, text]
  by_cases some_ : pieces = []
  · subst some_
    cases itemized
    rfl
  · rw [List.splitOn_intercalate ',' whole some_]
    exact items_of_itemized itemized

theorem first_comma {s : String} (known : ',' ∈ s.toList) :
    ∃ first rest : String, s = first ++ "," ++ rest ∧ ',' ∉ first.toList := by
  obtain ⟨first, rest, parts, whole⟩ := List.eq_append_cons_of_mem known
  refine ⟨String.ofList first, String.ofList rest, ?_, by rwa [String.toList_ofList]⟩
  rw [← String.toList_inj, parts]
  simp

theorem last_comma {s : String} (known : ',' ∈ s.toList) :
    ∃ front last : String, s = front ++ "," ++ last ∧ ',' ∉ last.toList := by
  obtain ⟨last, front, parts, whole⟩ := List.eq_append_cons_of_mem (List.mem_reverse.mpr known)
  refine ⟨String.ofList front.reverse, String.ofList last.reverse, ?_, ?_⟩
  · rw [← String.toList_inj, ← List.reverse_inj, parts]
    simp
  · rwa [String.toList_ofList, List.mem_reverse]

theorem blank_empty : Text.Blank "".toList := List.forall_mem_nil _

theorem parse_items_around_whole {before s after : String} (early : Text.Blank before.toList)
    (whole : ',' ∉ s.toList) (late : Text.Blank after.toList) :
    parseItems (before ++ s ++ after) = parseItems s := by
  rw [parse_items_of_whole whole, parse_items_of_whole, Text.trim_around early late]
  simp only [String.toList_append, List.mem_append, not_or]
  exact ⟨⟨comma_not_mem_of_blank early, whole⟩, comma_not_mem_of_blank late⟩

theorem parse_items_before {before : String} (early : Text.Blank before.toList) (s : String) :
    parseItems (before ++ s) = parseItems s := by
  by_cases known : ',' ∈ s.toList
  · obtain ⟨first, rest, rfl, whole⟩ := first_comma known
    have single := parse_items_around_whole early whole blank_empty
    rw [String.append_empty] at single
    rw [parse_items_append, ← single, ← parse_items_append]
    simp only [String.append_assoc]
  · have single := parse_items_around_whole early known blank_empty
    rwa [String.append_empty] at single

theorem parse_items_after {after : String} (late : Text.Blank after.toList) (s : String) :
    parseItems (s ++ after) = parseItems s := by
  by_cases known : ',' ∈ s.toList
  · obtain ⟨front, last, rfl, whole⟩ := last_comma known
    have single := parse_items_around_whole blank_empty whole late
    rw [String.empty_append] at single
    rw [parse_items_append, ← single, ← parse_items_append]
    simp only [String.append_assoc]
  · have single := parse_items_around_whole blank_empty known late
    rwa [String.empty_append] at single

/-- Blanks before or behind a text belong to its first or its last piece, and count in neither. -/
theorem parse_items_around {before after : String} (early : Text.Blank before.toList)
    (late : Text.Blank after.toList) (s : String) :
    parseItems (before ++ s ++ after) = parseItems s := by
  rw [parse_items_after late, parse_items_before early]

theorem parse_items_join (parts : List String) :
    parseItems (Text.joinWith "," parts) = parts.flatMap parseItems := by
  rw [Text.joinWith]
  induction parts with
  | nil => exact parse_items_of_blank blank_empty
  | cons first rest ih =>
    cases rest with
    | nil => simp
    | cons second rest =>
      rw [String.intercalate_cons_cons, parse_items_append, ih, ← List.flatMap_cons]

end SnapshotEndpoint.Setting
