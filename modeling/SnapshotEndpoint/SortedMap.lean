/-!
Maps from texts, kept as one list of entries in strictly increasing order of the keys.
Texts are ordered by code points, which is also the order of their UTF-8 bytes. Two maps
with the same look-ups are equal, so a map has one written form.
-/
namespace SnapshotEndpoint

/-- Put a value under a key, replacing an entry with that key. -/
def insertEntry {β : Type} (key : String) (value : β) :
    List (String × β) → List (String × β)
  | [] => [(key, value)]
  | entry :: rest =>
      if key < entry.1 then (key, value) :: entry :: rest
      else if key = entry.1 then (key, value) :: rest
      else entry :: insertEntry key value rest

def Increasing {β : Type} (entries : List (String × β)) : Prop :=
  entries.Pairwise fun a b => a.1 < b.1

theorem mem_insert_entry {β : Type} {key : String} {value : β} {entries : List (String × β)}
    {e : String × β} (h : e ∈ insertEntry key value entries) : e = (key, value) ∨ e ∈ entries := by
  induction entries with
  | nil => simpa [insertEntry] using h
  | cons first rest ih => grind [insertEntry]

theorem lt_of_not_lt_of_ne {a b : String} (h : ¬ a < b) (hne : a ≠ b) : b < a := by
  have hle : b ≤ a := String.not_lt.mp h
  rcases Decidable.em (b < a) with hb | hb
  · exact hb
  · exact absurd (String.le_antisymm (String.not_lt.mp hb) hle) hne

theorem increasing_insert_entry {β : Type} (key : String) (value : β)
    {entries : List (String × β)} (h : Increasing entries) :
    Increasing (insertEntry key value entries) := by
  induction entries with
  | nil => simp [insertEntry, Increasing]
  | cons first rest ih =>
    obtain ⟨hfirst, hrest⟩ := List.pairwise_cons.mp h
    unfold insertEntry
    split
    · rename_i hlt
      refine List.pairwise_cons.mpr ⟨?_, h⟩
      intro e he
      rcases List.mem_cons.mp he with rfl | he
      · exact hlt
      · exact String.lt_trans hlt (hfirst e he)
    · rename_i hnot
      split
      · rename_i heq
        exact List.pairwise_cons.mpr ⟨fun e he => heq ▸ hfirst e he, hrest⟩
      · rename_i hne
        refine List.pairwise_cons.mpr ⟨?_, ih hrest⟩
        intro e he
        rcases mem_insert_entry he with rfl | he
        · exact lt_of_not_lt_of_ne hnot hne
        · exact hfirst e he

theorem insert_entry_last {β : Type} {key : String} (value : β) {entries : List (String × β)}
    (last : ∀ e ∈ entries, e.1 < key) :
    insertEntry key value entries = entries ++ [(key, value)] := by
  induction entries with
  | nil => rfl
  | cons first rest ih =>
    have before := last first List.mem_cons_self
    have same : key ≠ first.1 := by
      rintro rfl
      exact String.lt_irrefl first.1 before
    rw [insertEntry, if_neg (String.lt_asymm before), if_neg same,
      ih fun e he => last e (List.mem_cons_of_mem first he)]
    rfl

theorem lookup_insert_entry_self {β : Type} (key : String) (value : β)
    (entries : List (String × β)) : (insertEntry key value entries).lookup key = some value := by
  induction entries with
  | nil => simp [insertEntry]
  | cons first rest ih =>
    unfold insertEntry
    split
    · simp
    · split
      · simp
      · rename_i hne
        rwa [List.lookup_cons, beq_eq_false_iff_ne.mpr hne]

theorem lookup_insert_entry_other {β : Type} {key other : String} (hne : other ≠ key) (value : β)
    (entries : List (String × β)) :
    (insertEntry key value entries).lookup other = entries.lookup other := by
  have hkey : (other == key) = false := beq_eq_false_iff_ne.mpr hne
  induction entries with
  | nil => simp [insertEntry, List.lookup_cons, hkey]
  | cons first rest ih =>
    unfold insertEntry
    split
    · simp [List.lookup_cons, hkey]
    · split
      · rename_i heq
        have hfirst : (other == first.1) = false := heq ▸ hkey
        rw [List.lookup_cons, List.lookup_cons, hkey, hfirst]
      · rw [List.lookup_cons, List.lookup_cons, ih]

theorem lookup_of_distinct {β : Type} {entries : List (String × β)}
    (hdistinct : (entries.map (·.1)).Nodup) {e : String × β} (h : e ∈ entries) :
    entries.lookup e.1 = some e.2 := by
  obtain ⟨before, after, rfl⟩ := List.append_of_mem h
  rw [List.lookup_eq_some_iff]
  refine ⟨before, after, rfl, ?_⟩
  intro other hother
  rw [List.map_append, List.nodup_append] at hdistinct
  rw [bne_iff_ne]
  exact (hdistinct.2.2 other.1 (List.mem_map_of_mem hother) e.1 List.mem_cons_self).symm

theorem mem_of_lookup {β : Type} {entries : List (String × β)} {key : String} {value : β}
    (found : entries.lookup key = some value) : (key, value) ∈ entries := by
  obtain ⟨before, after, rfl, _⟩ := List.lookup_eq_some_iff.mp found
  exact List.mem_append_right before List.mem_cons_self

theorem increasing_erase {β : Type} (key : String) {entries : List (String × β)}
    (h : Increasing entries) : Increasing (entries.filter fun e => e.1 != key) :=
  List.Pairwise.filter _ h

theorem increasing_map {β γ : Type} (f : β → γ) {entries : List (String × β)}
    (h : Increasing entries) : Increasing (entries.map fun e => (e.1, f e.2)) :=
  List.Pairwise.map _ (fun _ _ hab => hab) h

structure SortedMap (β : Type) where
  entries : List (String × β)
  increasing : Increasing entries

namespace SortedMap

variable {β : Type}

def empty : SortedMap β := ⟨[], List.Pairwise.nil⟩

instance : Inhabited (SortedMap β) := ⟨empty⟩
instance : EmptyCollection (SortedMap β) := ⟨empty⟩

instance [Repr β] : Repr (SortedMap β) := ⟨fun m n => reprPrec m.entries n⟩

theorem ext {m n : SortedMap β} (h : m.entries = n.entries) : m = n := by
  cases m; cases n; cases h; rfl

instance [DecidableEq β] : DecidableEq (SortedMap β) := fun m n =>
  if h : m.entries = n.entries then .isTrue (ext h) else .isFalse fun heq => h (heq ▸ rfl)

def insert (m : SortedMap β) (key : String) (value : β) : SortedMap β :=
  ⟨insertEntry key value m.entries, increasing_insert_entry key value m.increasing⟩

def erase (m : SortedMap β) (key : String) : SortedMap β :=
  ⟨m.entries.filter fun e => e.1 != key, increasing_erase key m.increasing⟩

/-- The map with every entry of a list put in turn, so the last one of a key stays. -/
def ofList (entries : List (String × β)) : SortedMap β :=
  entries.foldl (fun m e => m.insert e.1 e.2) empty

def get? (m : SortedMap β) (key : String) : Option β := m.entries.lookup key

@[simp] theorem get_insert_self (m : SortedMap β) (key : String) (value : β) :
    (m.insert key value).get? key = some value :=
  lookup_insert_entry_self key value m.entries

theorem get_insert_other (m : SortedMap β) {key other : String} (hne : other ≠ key) (value : β) :
    (m.insert key value).get? other = m.get? other :=
  lookup_insert_entry_other hne value m.entries

def values (m : SortedMap β) : List β := m.entries.map (·.2)
def keys (m : SortedMap β) : List String := m.entries.map (·.1)
def size (m : SortedMap β) : Nat := m.entries.length

def total (number : β → Nat) (m : SortedMap β) : Nat :=
  m.entries.foldr (fun e sum => number e.2 + sum) 0

def mapValues {γ : Type} (f : β → γ) (m : SortedMap β) : SortedMap γ :=
  ⟨m.entries.map fun e => (e.1, f e.2), increasing_map f m.increasing⟩

end SortedMap
end SnapshotEndpoint
