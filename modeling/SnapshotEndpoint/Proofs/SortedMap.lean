import Mathlib.Data.List.Nodup
import SnapshotEndpoint.SortedMap

/-!
What a map keeps of the items put into it one after the other: of each key the last item, whatever
stood before it. So the order of items with different keys does not matter.
-/
namespace SnapshotEndpoint

theorem distinct_of_increasing {β : Type} {entries : List (String × β)}
    (sorted : Increasing entries) : (entries.map (·.1)).Nodup := by
  rw [List.Nodup, List.pairwise_map]
  refine sorted.imp ?_
  intro first second before same
  rw [same] at before
  exact String.lt_irrefl second.1 before

/-- Entries in order of their keys are known by their look-ups. -/
theorem eq_of_lookups {β : Type} {first second : List (String × β)} (sorted : Increasing first)
    (sorted' : Increasing second) (same : ∀ key, first.lookup key = second.lookup key) :
    first = second := by
  have within : ∀ {entries others : List (String × β)}, Increasing entries →
      (∀ key, entries.lookup key = others.lookup key) → ∀ e ∈ entries, e ∈ others := by
    intro entries others sorted same e member
    have found := lookup_of_distinct (distinct_of_increasing sorted) member
    rw [same] at found
    exact mem_of_lookup found
  have order : first.Perm second := by
    rw [List.perm_ext_iff_of_nodup (List.Nodup.of_map _ (distinct_of_increasing sorted))
      (List.Nodup.of_map _ (distinct_of_increasing sorted'))]
    exact fun e => ⟨within sorted same e, within sorted' (fun key => (same key).symm) e⟩
  refine List.Perm.eq_of_pairwise ?_ sorted sorted' order
  intro a b _ _ before after
  exact absurd before (String.lt_asymm after)

/-- The last entry put under a key is the one that stays. -/
theorem lookup_insert_all {β : Type} (entries put : List (String × β)) (key : String) :
    (put.foldl (fun kept e => insertEntry e.1 e.2 kept) entries).lookup key =
      (put.reverse.lookup key).or (entries.lookup key) := by
  induction put generalizing entries with
  | nil => rfl
  | cons entry rest ih =>
    obtain ⟨label, value⟩ := entry
    have inserted : (insertEntry label value entries).lookup key =
        ([(label, value)].lookup key).or (entries.lookup key) := by
      by_cases same : key = label
      · rw [same, lookup_insert_entry_self]
        simp
      · rw [lookup_insert_entry_other same]
        simp [List.lookup_cons, beq_eq_false_iff_ne.mpr same]
    have later := ih (insertEntry label value entries)
    rw [inserted, ← Option.or_assoc, ← List.lookup_append, ← List.reverse_cons] at later
    exact later

/-- Entries put in order of their keys stay as they come. -/
theorem insert_all_sorted {β : Type} (before : List (String × β)) {entries : List (String × β)}
    (sorted : Increasing (before ++ entries)) :
    entries.foldl (fun kept e => insertEntry e.1 e.2 kept) before = before ++ entries := by
  induction entries generalizing before with
  | nil => exact (List.append_nil before).symm
  | cons entry rest ih =>
    have last : ∀ e ∈ before, e.1 < entry.1 := fun e member =>
      (List.pairwise_append.mp sorted).2.2 e member entry List.mem_cons_self
    rw [List.append_cons] at sorted ⊢
    rw [List.foldl_cons, insert_entry_last entry.2 last]
    exact ih _ sorted

/-- The last of the items with a key. -/
def LastWith {α : Type} (key : α → String) (name : String) (xs : List α) (x : α) : Prop :=
  ∃ before after, xs = before ++ x :: after ∧ key x = name ∧ ∀ later ∈ after, key later ≠ name

/-- The same items after some exchanges of neighbours with different keys. -/
inductive Shuffled {α : Type} (key : α → String) : List α → List α → Prop where
  | refl (xs : List α) : Shuffled key xs xs
  | cons (x : α) {xs ys : List α} (rest : Shuffled key xs ys) : Shuffled key (x :: xs) (x :: ys)
  | swap {x y : α} (apart : key x ≠ key y) (rest : List α) :
      Shuffled key (x :: y :: rest) (y :: x :: rest)
  | trans {xs ys zs : List α} (first : Shuffled key xs ys) (second : Shuffled key ys zs) :
      Shuffled key xs zs

theorem shuffled_of_perm {α : Type} {key : α → String} {xs ys : List α} (order : xs.Perm ys)
    (distinct : (xs.map key).Nodup) : Shuffled key xs ys := by
  induction order with
  | nil => exact .refl []
  | cons x _ ih => exact .cons x (ih (List.nodup_cons.mp distinct).2)
  | swap x y rest =>
    have apart : key y ≠ key x := by
      intro same
      simp [same] at distinct
    exact .swap apart rest
  | trans first _ ih ih' => exact .trans (ih distinct) (ih' ((first.map key).nodup_iff.mp distinct))

/-- The items in another order: in any if no two keys are the same, and else in one that leaves
    those with the same key as they were among themselves. -/
def Reordered {α : Type} (key : α → String) (xs ys : List α) : Prop :=
  xs.Perm ys ∧ (xs.map key).Nodup ∨ Shuffled key xs ys

namespace SortedMap

section Maps

variable {β : Type}

theorem entries_of_list (entries : List (String × β)) :
    (ofList entries).entries = entries.foldl (fun kept e => insertEntry e.1 e.2 kept) [] :=
  (List.foldl_hom SortedMap.entries fun _ _ => rfl).symm

theorem of_list_entries (m : SortedMap β) : .ofList m.entries = m := by
  apply SortedMap.ext
  rw [entries_of_list]
  exact insert_all_sorted [] m.increasing

theorem get_of_list (entries : List (String × β)) (key : String) :
    (ofList entries).get? key = entries.reverse.lookup key := by
  rw [get?, entries_of_list, lookup_insert_all]
  exact Option.or_none

theorem eq_of_gets {m n : SortedMap β} (same : ∀ key, m.get? key = n.get? key) : m = n :=
  SortedMap.ext (eq_of_lookups m.increasing n.increasing same)

theorem distinct_keys (m : SortedMap β) : m.keys.Nodup := distinct_of_increasing m.increasing

theorem get_eq_some_iff {m : SortedMap β} {key : String} {value : β} :
    m.get? key = some value ↔ (key, value) ∈ m.entries :=
  ⟨mem_of_lookup, lookup_of_distinct (distinct_of_increasing m.increasing)⟩

end Maps

section Keyed

variable {α β : Type} (key : α → String) (made : α → β)

/-- The map of what is made of the items, each under its key. -/
def ofKeyed (xs : List α) : SortedMap β := ofList (xs.map fun x => (key x, made x))

/-- A map keeps of each key that occurs what is made of the last item with it. -/
structure KeepsLast (xs : List α) (holds : α → β → Prop) (m : SortedMap β) : Prop where
  distinct : m.keys.Nodup
  keys : ∀ name, name ∈ m.keys ↔ name ∈ xs.map key
  last : ∀ e ∈ m.entries, ∃ x, LastWith key e.1 xs x ∧ holds x e.2

variable {key made}

theorem get_of_keyed_eq_some_iff {xs : List α} {name : String} {value : β} :
    (ofKeyed key made xs).get? name = some value ↔
      ∃ x, LastWith key name xs x ∧ made x = value := by
  rw [ofKeyed, get_of_list, List.lookup_eq_some_iff]
  constructor
  · rintro ⟨late, early, parts, others⟩
    rw [← List.map_reverse] at parts
    obtain ⟨after, rest, whole, rfl, more⟩ := List.map_eq_append_iff.mp parts
    obtain ⟨x, before, rfl, same, rfl⟩ := List.map_eq_cons_iff.mp more
    refine ⟨x, ⟨before.reverse, after.reverse, ?_, congrArg Prod.fst same, ?_⟩,
      congrArg Prod.snd same⟩
    · rw [← List.reverse_reverse xs, whole]
      simp
    · intro later known
      have other := others _ (List.mem_map_of_mem (List.mem_reverse.mp known))
      exact (bne_iff_ne.mp other).symm
  · rintro ⟨x, ⟨before, after, rfl, rfl, others⟩, rfl⟩
    refine ⟨(after.map fun x => (key x, made x)).reverse,
      (before.map fun x => (key x, made x)).reverse, by simp, ?_⟩
    intro entry known
    obtain ⟨later, own, rfl⟩ := List.mem_map.mp (List.mem_reverse.mp known)
    exact bne_iff_ne.mpr (others later own).symm

theorem exists_last_with_iff {xs : List α} {name : String} :
    (∃ x, LastWith key name xs x) ↔ name ∈ xs.map key := by
  constructor
  · rintro ⟨x, before, after, rfl, rfl, _⟩
    exact List.mem_map_of_mem (List.mem_append_right before List.mem_cons_self)
  · intro known
    induction xs with
    | nil => cases known
    | cons first rest ih =>
      by_cases again : name ∈ rest.map key
      · obtain ⟨x, before, after, rfl, own, last⟩ := ih again
        exact ⟨x, first :: before, after, rfl, own, last⟩
      · rcases List.mem_cons.mp known with rfl | later
        · refine ⟨first, [], rest, rfl, rfl, ?_⟩
          intro later member same
          exact again (same ▸ List.mem_map_of_mem member)
        · exact absurd later again

theorem keeps_last_of_keyed (xs : List α) :
    KeepsLast key xs (fun x value => made x = value) (ofKeyed key made xs) where
  distinct := distinct_keys _
  keys := by
    intro name
    rw [← exists_last_with_iff, keys, List.mem_map]
    constructor
    · rintro ⟨entry, known, rfl⟩
      obtain ⟨x, last, _⟩ := get_of_keyed_eq_some_iff.mp (get_eq_some_iff.mpr known)
      exact ⟨x, last⟩
    · rintro ⟨x, last⟩
      exact ⟨(name, made x), get_eq_some_iff.mp (get_of_keyed_eq_some_iff.mpr ⟨x, last, rfl⟩), rfl⟩
  last := fun _ known => get_of_keyed_eq_some_iff.mp (get_eq_some_iff.mpr known)

theorem KeepsLast.weaken {xs : List α} {holds holds' : α → β → Prop} {m : SortedMap β}
    (keeps : KeepsLast key xs holds m) (weaker : ∀ x value, holds x value → holds' x value) :
    KeepsLast key xs holds' m where
  distinct := keeps.distinct
  keys := keeps.keys
  last := by
    intro entry known
    obtain ⟨x, last, held⟩ := keeps.last entry known
    exact ⟨x, last, weaker x entry.2 held⟩

theorem get_of_keyed_append (xs ys : List α) (name : String) :
    (ofKeyed key made (xs ++ ys)).get? name =
      ((ofKeyed key made ys).get? name).or ((ofKeyed key made xs).get? name) := by
  rw [ofKeyed, get_of_list, List.map_append, List.reverse_append, List.lookup_append,
    ← get_of_list, ← get_of_list, ← ofKeyed, ← ofKeyed]

theorem get_of_keyed_single (x : α) (name : String) :
    (ofKeyed key made [x]).get? name = if name = key x then some (made x) else none := by
  rw [ofKeyed, get_of_list]
  by_cases same : name = key x
  · simp [same]
  · simp [List.lookup_cons, same, beq_eq_false_iff_ne.mpr same]

theorem of_keyed_shuffled {xs ys : List α} (shuffled : Shuffled key xs ys) :
    ofKeyed key made xs = ofKeyed key made ys := by
  apply eq_of_gets
  intro name
  induction shuffled with
  | refl xs => rfl
  | cons x _ ih =>
    rw [← List.singleton_append, get_of_keyed_append, ih, ← get_of_keyed_append,
      List.singleton_append]
  | @swap x y apart rest =>
    have front : ∀ x y : α, x :: y :: rest = [x] ++ ([y] ++ rest) := fun _ _ => rfl
    rw [front, front]
    simp only [get_of_keyed_append, get_of_keyed_single, Option.or_assoc]
    by_cases first : name = key x
    · rw [if_pos first, if_neg (first ▸ apart)]
      rfl
    · rw [if_neg first, Option.none_or, Option.or_none]
  | trans _ _ ih ih' => exact ih.trans ih'

theorem of_keyed_reordered {xs ys : List α} (reordered : Reordered key xs ys) :
    ofKeyed key made xs = ofKeyed key made ys := by
  rcases reordered with ⟨order, distinct⟩ | shuffled
  · exact of_keyed_shuffled (shuffled_of_perm order distinct)
  · exact of_keyed_shuffled shuffled

/-- An item does not count if its key comes again. -/
theorem of_keyed_overwritten {before after : List α} {x : α} (again : key x ∈ after.map key) :
    ofKeyed key made (before ++ x :: after) = ofKeyed key made (before ++ after) := by
  apply eq_of_gets
  intro name
  rw [← List.singleton_append, get_of_keyed_append, get_of_keyed_append, get_of_keyed_append,
    get_of_keyed_single]
  by_cases same : name = key x
  · obtain ⟨y, last⟩ := exists_last_with_iff.mpr (same ▸ again)
    rw [get_of_keyed_eq_some_iff.mpr ⟨y, last, rfl⟩]
    rfl
  · rw [if_neg same, Option.or_none]

end Keyed

end SortedMap
end SnapshotEndpoint
