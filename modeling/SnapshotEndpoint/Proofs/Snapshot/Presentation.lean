import SnapshotEndpoint.Proofs.Json.Rewriting
import SnapshotEndpoint.Proofs.Snapshot.RoundTrip

/-!
How a text presents a snapshot does not matter. Blanks between tokens, the order of the members
of a record, members it does not have, and the array of its fields in place of the object give
the same value; of the entries of a map under one key the last stays. Only a field that stands
twice, or not at all, is refused, wherever it is.
-/
namespace SnapshotEndpoint.Wire

open Json

variable {α : Type} [Wire α] {within : α → Prop}

/-- A tree has texts, and each of them is decoded to one value. -/
structure Stands (value : α) (tree : Tree) : Prop where
  written : ∃ s, IsTextOf s tree
  decoded : ∀ s, IsTextOf s tree → decode α s = .ok value

/-- An entry that a map accepts under a name. -/
structure Entry (item : Shape) (name : String) (entry : Quoted × Tree) : Prop where
  names : Names entry.1 name
  written : Written entry.2
  reads : ∃ part, readAs item entry.2 = .ok part

/-- The value of an accepted text is that of every text it can be rewritten to. A later entry of a
    map counts in place of an earlier one of its key, but a record with a field twice or without
    one is refused. -/
structure PresentationFree (α : Type) [Wire α] : Prop where
  rewritten : ∀ s (value : α), decode α s = .ok value → ∃ tree, IsTextOf s tree ∧
    ∀ tree', Rewritten (shape α) tree tree' → Stands value tree'
  overridden : ∀ item (place : Place (shape α) (.map item)) before middle after name key tree last,
    key.text = .ok name → Entry item name last → ∀ s (value : α),
      IsTextOf s (place.fill (.object (before ++ (key, tree) :: (middle ++ after)) .closed)) →
      decode α s = .ok value → ∃ value' : α,
        Stands value'
          (place.fill (.object (before ++ (key, tree) :: (middle ++ last :: after)) .closed)) ∧
        Stands value' (place.fill (.object (before ++ (middle ++ last :: after)) .closed))
  refused : ∀ record fields (place : Place (shape α) (.record record fields)) members field,
    field ∈ fields → (under field.1 members).length ≠ 1 →
      ∀ s, IsTextOf s (place.fill (.object members .closed)) →
        ∀ value : α, decode α s ≠ .ok value

theorem decode_text_eq_ok_iff {s : String} {tree : Tree} (text : IsTextOf s tree) {value : α} :
    decode α s = .ok value ↔
      ∃ form, readAs (shape α) tree = .ok form ∧ ofJson? form = some value := by
  simp only [decode_eq_ok_iff, decode_as_eq_ok_iff, is_text_of_iff.mp text, true_and]

theorem text_of_decode {s : String} {value : α} (accepted : decode α s = .ok value) :
    ∃ tree, IsTextOf s tree := by
  obtain ⟨form, read, _⟩ := decode_eq_ok_iff.mp accepted
  refine ⟨(Document.ofText s).tree, is_text_of_iff.mpr ?_⟩
  rw [← (decode_as_eq_ok_iff.mp read).1]

theorem stands_of_read {tree : Tree} {form : Json} {value : α} (written : Written tree)
    (read : readAs (shape α) tree = .ok form) (made : ofJson? form = some value) :
    Stands value tree where
  written := text_of_written written
  decoded _ text := (decode_text_eq_ok_iff text).mpr ⟨form, read, made⟩

namespace Faithful

variable (faithful : Faithful α within)
include faithful

/-- Whatever is read is the form of a value. -/
theorem made_of_read {tree : Tree} {form : Json} (read : readAs (shape α) tree = .ok form) :
    ∃ value, ofJson? (α := α) form = some value := by
  obtain ⟨value, kept, rfl⟩ := faithful.made form (fits_of_read_as faithful.proper read)
  exact ⟨value, faithful.back value kept⟩

theorem stands_rewritten {s : String} {value : α} (accepted : decode α s = .ok value) :
    ∃ tree, IsTextOf s tree ∧ ∀ tree', Rewritten (shape α) tree tree' → Stands value tree' := by
  obtain ⟨tree, text⟩ := text_of_decode accepted
  obtain ⟨form, read, made⟩ := (decode_text_eq_ok_iff text).mp accepted
  refine ⟨tree, text, ?_⟩
  intro tree' rewritten
  have written := written_of_rewritten rewritten (written_of_text text)
  exact stands_of_read written (read_of_rewritten faithful.proper rewritten read) made

theorem stands_overridden {item : Shape} (place : Place (shape α) (.map item))
    {before middle after : List (Quoted × Tree)} {name : String} {key : Quoted} {tree : Tree}
    {last : Quoted × Tree} (named : key.text = .ok name) (entry : Entry item name last)
    {s : String} {value : α}
    (text : IsTextOf s (place.fill (.object (before ++ (key, tree) :: (middle ++ after)) .closed)))
    (accepted : decode α s = .ok value) : ∃ value' : α,
      Stands value'
        (place.fill (.object (before ++ (key, tree) :: (middle ++ last :: after)) .closed)) ∧
      Stands value' (place.fill (.object (before ++ (middle ++ last :: after)) .closed)) := by
  obtain ⟨form, read, _⟩ := (decode_text_eq_ok_iff text).mp accepted
  obtain ⟨part, own, again⟩ := place.read faithful.proper read
  have reads := map_reads_iff.mp ⟨part, own⟩
  obtain ⟨object, replaced⟩ := place.written (written_of_text text)
  obtain ⟨inside, quotable, others⟩ := written_object_at_iff.mp object
  -- With the new entry in place of the old one the map is read, so it is with both.
  have without : Written (.object (before ++ (middle ++ last :: after)) .closed) := by
    rw [← List.append_assoc] at others ⊢
    exact written_object_at_iff.mpr ⟨entry.written, entry.names.quotable, others⟩
  have able : ∃ part',
      readAs (.map item) (.object (before ++ (middle ++ last :: after)) .closed) = .ok part' := by
    rw [map_reads_iff]
    simp only [List.forall_mem_append, List.forall_mem_cons] at reads ⊢
    exact ⟨reads.1, reads.2.2.1, ⟨⟨name, entry.names.text⟩, entry.reads⟩, reads.2.2.2⟩
  obtain ⟨part', own'⟩ := able
  obtain ⟨form', read', _⟩ := again _ part' own'
  obtain ⟨value', made⟩ := faithful.made_of_read read'
  have known := (reads (key, tree) (List.mem_append_right before List.mem_cons_self)).2
  have both := place.read_exchanged faithful.proper
    (fun _ => (read_overridden_iff named entry.names.text known).mpr) read'
  exact ⟨value', stands_of_read (replaced _ (written_object_at_iff.mpr ⟨inside, quotable, without⟩))
    both made, stands_of_read (replaced _ without) read' made⟩

theorem presentation_free : PresentationFree α where
  rewritten _ _ accepted := faithful.stands_rewritten accepted
  overridden _ place _ _ _ _ _ _ _ named entry _ _ text accepted :=
    faithful.stands_overridden place named entry text accepted
  refused := by
    intro record fields place members field known unsettled s text value accepted
    obtain ⟨form, read, _⟩ := (decode_text_eq_ok_iff text).mp accepted
    exact not_read_of_not_single faithful.proper place known unsettled form read

end Faithful

theorem snapshots_presentation_free :
    PresentationFree EniAddress ∧ PresentationFree Eni ∧ PresentationFree Inventory ∧
      PresentationFree PodBinding ∧ PresentationFree PodBindings ∧ PresentationFree EniConfig ∧
      PresentationFree EniConfigMap ∧ PresentationFree Listing :=
  ⟨EniAddress.faithful.presentation_free, Eni.faithful.presentation_free,
    Inventory.faithful.presentation_free, PodBinding.faithful.presentation_free,
    PodBinding.faithful.map.presentation_free, EniConfig.faithful.presentation_free,
    EniConfig.faithful.map.presentation_free, Listing.faithful.presentation_free⟩

/-! One pod, presented in three ways, and with a field twice. -/

def podPlain : Json := .object [("IP", .string "10.0.0.7"), ("DeviceNumber", .integer 2)]

def podWidened : Json :=
  .object [("DeviceNumber", .integer 2), ("\u00e9", .array [.null]), ("IP", .string "10.0.0.7")]

def podListed : Json := .array [.string "10.0.0.7", .integer 2]

def podTwice : Json :=
  .object [("IP", .string "10.0.0.7"), ("IP", .null), ("DeviceNumber", .integer 2)]

theorem text_tree_eq {s : String} {tree tree' : Tree} (text : IsTextOf s tree)
    (text' : IsTextOf s tree') : tree = tree' := by
  have same := (is_text_of_iff.mp text).symm.trans (is_text_of_iff.mp text')
  exact (Document.mk.inj same).1

theorem names_of_text (s : String) : Names (.ofText s) s := ⟨text_of_text s, _, quoted_text s⟩

theorem snapshots_presentation_free_pod :
    decode PodBinding podPlain.text = .ok ⟨"10.0.0.7", 2⟩ ∧
      decode PodBinding podWidened.text = .ok ⟨"10.0.0.7", 2⟩ ∧
      decode PodBinding podListed.text = .ok ⟨"10.0.0.7", 2⟩ ∧
      ∀ pod, decode PodBinding podTwice.text ≠ .ok pod := by
  have free := snapshots_presentation_free.2.2.2.1
  have ip : Exact (.string "10.0.0.7") := .string _
  have device : Exact (.integer 2) := .integer (by decide) (by decide)
  have nulls : Exact (.array [.null]) := .array (by simp [Exact.null])
  have plain : IsTextOf podPlain.text podPlain.tree :=
    is_text_of_text (.object (by simp [ip, device]))
  have wide : IsTextOf podWidened.text podWidened.tree :=
    is_text_of_text (.object (by simp [ip, device, nulls]))
  have list : IsTextOf podListed.text podListed.tree :=
    is_text_of_text (.array (by simp [ip, device]))
  have twice : IsTextOf podTwice.text podTwice.tree :=
    is_text_of_text (.object (by simp [ip, device, Exact.null]))
  have accepted : decode PodBinding podPlain.text = .ok ⟨"10.0.0.7", 2⟩ :=
    @Faithful.decode_encode _ _ _ PodBinding.faithful ⟨"10.0.0.7", 2⟩ trivial
  obtain ⟨tree, text, stands⟩ := free.rewritten _ _ accepted
  obtain rfl := text_tree_eq plain text
  have permuted : Changed (shape PodBinding) podPlain.tree (.object [_, _] .closed) :=
    ⟨_, .whole _, _, _, .permuted (.swap _ _ []), rfl, rfl⟩
  have widened : Changed (shape PodBinding) _ podWidened.tree :=
    ⟨_, .whole _, _, _, .widened (names_of_text "\u00e9") (by decide)
      ⟨_, spells_compact nulls⟩ [_] [_], rfl, rfl⟩
  have listed : Changed (shape PodBinding) podPlain.tree podListed.tree := by
    refine ⟨_, .whole _, _, _, .listed (.cons ?_ (.cons ?_ .nil)), rfl, rfl⟩
    · simp [memberTrees, under, text_of_text]
    · simp [memberTrees, under, text_of_text]
  refine ⟨accepted, (stands _ (.tail (.single permuted) widened)).decoded _ wide,
    (stands _ (.single listed)).decoded _ list, ?_⟩
  exact free.refused _ _ (.whole _) _ ("IP", textShape) List.mem_cons_self
    (by simp [memberTrees, under, text_of_text]) _ twice

end SnapshotEndpoint.Wire
