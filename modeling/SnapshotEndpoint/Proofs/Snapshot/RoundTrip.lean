import SnapshotEndpoint.Http.Listing
import SnapshotEndpoint.Proofs.Json.Reading
import SnapshotEndpoint.Proofs.SortedMap
import SnapshotEndpoint.Snapshot.Inventory
import SnapshotEndpoint.Snapshot.Pods

/-!
Snapshots come back from their text as they were. Every value whose counts are words has a form
that fits its type, and every form that fits is that of one such value, so no two values share a
text and whatever text is accepted has a written form that stays.
-/
namespace SnapshotEndpoint

namespace Json

/-- Values under the names of the fields of a record. -/
def named (fields : List (String × Shape)) (values : List Json) : List (String × Json) :=
  List.zipWith (fun field value => (field.1, value)) fields values

theorem field_of_named {fields : List (String × Shape)} {values : List Json}
    (each : List.Forall₂ (fun field value => Fits field.2 value) fields values)
    {member : String × Json} (known : member ∈ named fields values) :
    ∃ field ∈ fields, field.1 = member.1 ∧ Fits field.2 member.2 := by
  induction each with
  | nil => cases known
  | @cons field value fields values own _ ih =>
    rcases List.mem_cons.mp known with rfl | later
    · exact ⟨field, List.mem_cons_self, rfl, own⟩
    · obtain ⟨other, known', found⟩ := ih later
      exact ⟨other, List.mem_cons_of_mem field known', found⟩

theorem fits_record {name : String} {fields : List (String × Shape)} {values : List Json}
    (distinct : (fields.map (·.1)).Nodup)
    (each : List.Forall₂ (fun field value => Fits field.2 value) fields values) :
    Fits (.record name fields) (.object (named fields values)) := by
  have names : (named fields values).map (·.1) = fields.map (·.1) := by
    clear distinct
    induction each with
    | nil => rfl
    | cons _ _ ih => exact congrArg (_ :: ·) ih
  refine .record name distinct names ?_
  intro field known value member
  obtain ⟨other, known', same, fits⟩ := field_of_named each member
  have own := lookup_of_distinct distinct known
  have own' := lookup_of_distinct distinct known'
  rw [same, own] at own'
  rw [Option.some.inj own']
  exact fits

theorem named_of_names {fields : List (String × Shape)} {members : List (String × Json)}
    (names : members.map (·.1) = fields.map (·.1))
    (inside : ∀ field ∈ fields, ∀ value, (field.1, value) ∈ members → Fits field.2 value) :
    ∃ values, members = named fields values ∧
      List.Forall₂ (fun field value => Fits field.2 value) fields values := by
  induction fields generalizing members with
  | nil => exact ⟨[], List.map_eq_nil_iff.mp names, .nil⟩
  | cons field fields ih =>
    cases members with
    | nil => cases names
    | cons member rest =>
      obtain ⟨name, value⟩ := member
      obtain ⟨rfl, others⟩ := List.cons.inj names
      have own := inside field List.mem_cons_self value List.mem_cons_self
      obtain ⟨values, rfl, each⟩ := ih others fun other known value later =>
        inside other (List.mem_cons_of_mem field known) value (List.mem_cons_of_mem _ later)
      exact ⟨value :: values, rfl, .cons own each⟩

theorem fields_of_fits {name : String} {fields : List (String × Shape)} {form : Json}
    (fits : Fits (.record name fields) form) :
    ∃ values, form = .object (named fields values) ∧
      List.Forall₂ (fun field value => Fits field.2 value) fields values := by
  cases fits with
  | record _ _ names inside =>
    obtain ⟨values, rfl, each⟩ := named_of_names names inside
    exact ⟨values, rfl, each⟩

end Json

namespace Wire

variable {α : Type} [Wire α] {within : α → Prop}

/-- The forms that fit a type are those of its values within some limits, each of one value. -/
structure Faithful (α : Type) [Wire α] (within : α → Prop) : Prop where
  proper : (shape α).Proper
  fits : ∀ value, within value → Json.Fits (shape α) (toJson value)
  back : ∀ value, within value → ofJson? (toJson value) = some value
  made : ∀ form, Json.Fits (shape α) form → ∃ value, within value ∧ form = toJson value

theorem decode_eq_ok_iff {s : String} {value : α} :
    decode α s = .ok value ↔
      ∃ form, Json.decodeAs (shape α) s = .ok form ∧ ofJson? form = some value := by
  rw [decode, bind_eq_ok_iff]
  refine exists_congr fun form => and_congr_right fun _ => ?_
  cases ofJson? (α := α) form with
  | none => simp
  | some other => simp

namespace Faithful

variable (faithful : Faithful α within)
include faithful

theorem decode_encode {value : α} (kept : within value) :
    decode α (encode value) = .ok value :=
  Wire.decode_encode (faithful.fits value kept) (faithful.back value kept)

theorem encode_inj {value other : α} (kept : within value) (kept' : within other)
    (same : encode value = encode other) : value = other := by
  have first := faithful.decode_encode kept
  rw [same, faithful.decode_encode kept'] at first
  exact (Except.ok.inj first).symm

theorem within_of_decode {s : String} {value : α} (accepted : decode α s = .ok value) :
    within value := by
  obtain ⟨form, read, made⟩ := decode_eq_ok_iff.mp accepted
  have fits := Json.fits_of_read_as faithful.proper (Json.decode_as_eq_ok_iff.mp read).2
  obtain ⟨other, kept, rfl⟩ := faithful.made form fits
  rw [faithful.back other kept] at made
  exact Option.some.inj made ▸ kept

end Faithful

end Wire

namespace Wire

open Json (Fits)

theorem form_of_text {form : Json} (fits : Fits .text form) : ∃ s, form = .string s := by
  cases fits with
  | text s => exact ⟨s, rfl⟩

theorem form_of_flag {form : Json} (fits : Fits .flag form) : ∃ b, form = .bool b := by
  cases fits with
  | flag b => exact ⟨b, rfl⟩

theorem form_of_count {limit : Nat} {name : String} {form : Json}
    (fits : Fits (.count limit name) form) : ∃ n < limit, form = natJson n := by
  cases fits with
  | @count _ n _ below word => exact ⟨n, below, rfl⟩

theorem form_of_list {item : Json.Shape} {form : Json} (fits : Fits (.list item) form) :
    ∃ items, form = .array items ∧ ∀ value ∈ items, Fits item value := by
  cases fits with
  | list inside => exact ⟨_, rfl, inside⟩

@[simp] theorem nat_of_nat_json (n : Nat) : nat? (natJson n) = some n := by
  rw [natJson, nat?, if_pos (Int.natCast_nonneg n), Int.toNat_natCast]

theorem strings_of_fits {items : List Json} (inside : ∀ item ∈ items, Fits .text item) :
    ∃ texts : List String, items = texts.map .string := by
  induction items with
  | nil => exact ⟨[], rfl⟩
  | cons item rest ih =>
    obtain ⟨s, rfl⟩ := form_of_text (inside item List.mem_cons_self)
    obtain ⟨texts, rfl⟩ := ih fun other later => inside other (List.mem_cons_of_mem _ later)
    exact ⟨s :: texts, rfl⟩

section Maps

variable {α : Type} [Wire α] {within : α → Prop}

theorem entries_of_forms {entries : List (String × α)}
    (back : ∀ e ∈ entries, ofJson? (toJson e.2) = some e.2) :
    entries? ofJson? (.object (entries.map fun e => (e.1, toJson e.2))) = some entries := by
  rw [entries?]
  induction entries with
  | nil => rfl
  | cons entry rest ih =>
    have later := ih fun other later => back other (List.mem_cons_of_mem entry later)
    rw [List.map_cons, List.mapM_cons, later, back entry List.mem_cons_self]
    rfl

theorem entries_of_fits (faithful : Faithful α within) {entries : List (String × Json)}
    (inside : ∀ entry ∈ entries, Fits (shape α) entry.2) :
    ∃ values : List (String × α), (∀ e ∈ values, within e.2) ∧
      entries = values.map fun e => (e.1, toJson e.2) := by
  induction entries with
  | nil => exact ⟨[], List.forall_mem_nil _, rfl⟩
  | cons entry rest ih =>
    obtain ⟨values, kept, rfl⟩ := ih fun other later =>
      inside other (List.mem_cons_of_mem entry later)
    obtain ⟨value, own, form⟩ := faithful.made entry.2 (inside entry List.mem_cons_self)
    refine ⟨(entry.1, value) :: values, List.forall_mem_cons.mpr ⟨own, kept⟩, ?_⟩
    rw [List.map_cons, ← form]

/-- A map is within the limits when each of its values is. -/
def Each (within : α → Prop) (m : SortedMap α) : Prop := ∀ e ∈ m.entries, within e.2

theorem Faithful.map (faithful : Faithful α within) : Faithful (SortedMap α) (Each within) where
  proper := .map faithful.proper
  fits := by
    intro m kept
    refine .map (increasing_map toJson m.increasing) ?_
    intro entry member
    obtain ⟨e, known, rfl⟩ := List.mem_map.mp member
    exact faithful.fits e.2 (kept e known)
  back := by
    intro m kept
    have entries := entries_of_forms fun e known => faithful.back e.2 (kept e known)
    have back : map? ofJson? (mapJson toJson m) = some (.ofList m.entries) :=
      congrArg (Option.map SortedMap.ofList) entries
    rw [SortedMap.of_list_entries] at back
    exact back
  made := by
    intro form fits
    cases fits with
    | @map _ entries sorted inside =>
      obtain ⟨values, kept, rfl⟩ := entries_of_fits faithful inside
      rw [Increasing, List.pairwise_map] at sorted
      exact ⟨⟨values, sorted⟩, kept, rfl⟩

end Maps

end Wire

theorem EniAddress.faithful : Wire.Faithful EniAddress fun _ => True where
  proper := by
    refine .record _ (by decide) ?_
    simp only [fieldShapes, List.forall_mem_cons]
    exact ⟨.text, .flag, List.forall_mem_nil _⟩
  fits := by
    intro a _
    exact Json.fits_record (by decide) (.cons (.text _) (.cons (.flag _) .nil))
  back := fun _ _ => rfl
  made := by
    intro form fits
    obtain ⟨values, rfl, each⟩ := Json.fields_of_fits fits
    rcases each with _ | ⟨address, _ | ⟨assigned, _ | _⟩⟩
    obtain ⟨s, rfl⟩ := Wire.form_of_text address
    obtain ⟨b, rfl⟩ := Wire.form_of_flag assigned
    exact ⟨⟨s, b⟩, trivial, rfl⟩

/-- The count of an interface is a word. -/
def Eni.Counted (eni : Eni) : Prop := eni.assignedAddresses < wordLimit

instance (eni : Eni) : Decidable eni.Counted :=
  inferInstanceAs (Decidable (eni.assignedAddresses < wordLimit))

/-- All counts of an inventory are words. -/
structure Inventory.Counted (inventory : Inventory) : Prop where
  total : inventory.totalIps < wordLimit
  assigned : inventory.assignedIps < wordLimit
  enis : Wire.Each Eni.Counted inventory.enis

theorem Wire.Faithful.free_map {α : Type} [Wire α] (faithful : Faithful α fun _ => True) :
    Faithful (SortedMap α) fun _ => True where
  proper := faithful.map.proper
  fits m _ := faithful.map.fits m fun _ _ => trivial
  back m _ := faithful.map.back m fun _ _ => trivial
  made := by
    intro form fits
    obtain ⟨m, _, same⟩ := faithful.map.made form fits
    exact ⟨m, trivial, same⟩

theorem device_made {n : Nat} (below : n < wordLimit32) : n.toUInt32.toNat = n :=
  Nat.mod_eq_of_lt below

theorem Eni.faithful : Wire.Faithful Eni Eni.Counted where
  proper := by
    refine .record _ (by decide) ?_
    simp only [fieldShapes, List.forall_mem_cons]
    exact ⟨.text, .flag, .count _ (by decide), .count _ (Nat.le_refl _),
      .map EniAddress.faithful.proper, List.forall_mem_nil _⟩
  fits := by
    intro eni counted
    have addresses := EniAddress.faithful.free_map.fits eni.addresses trivial
    exact Json.fits_record (by decide) (.cons (.text _) (.cons (.flag _) (.cons
      (.count _ eni.deviceNumber.toNat_lt (by decide)) (.cons (.count _ counted (Nat.le_refl _))
      (.cons addresses .nil)))))
  back := by
    intro eni _
    have addresses := EniAddress.faithful.free_map.back eni.addresses trivial
    obtain ⟨id, isPrimary, deviceNumber, assignedAddresses, _⟩ := eni
    simp only [Wire.ofJson?, Wire.toJson, toJson, ofJson?] at addresses ⊢
    simp [Wire.text?, Wire.flag?, addresses]
  made := by
    intro form fits
    obtain ⟨values, rfl, each⟩ := Json.fields_of_fits fits
    rcases each with _ | ⟨id, _ | ⟨primary, _ | ⟨device, _ | ⟨assigned, _ | ⟨addresses, _ | _⟩⟩⟩⟩⟩
    obtain ⟨s, rfl⟩ := Wire.form_of_text id
    obtain ⟨b, rfl⟩ := Wire.form_of_flag primary
    obtain ⟨n, below, rfl⟩ := Wire.form_of_count device
    obtain ⟨count, word, rfl⟩ := Wire.form_of_count assigned
    obtain ⟨m, _, rfl⟩ := EniAddress.faithful.free_map.made _ addresses
    refine ⟨⟨s, b, n.toUInt32, count, m⟩, word, ?_⟩
    simp only [Wire.toJson, toJson, device_made below]
    rfl

theorem Inventory.faithful : Wire.Faithful Inventory Inventory.Counted where
  proper := by
    refine .record _ (by decide) ?_
    simp only [fieldShapes, List.forall_mem_cons]
    exact ⟨.count _ (Nat.le_refl _), .count _ (Nat.le_refl _), .map Eni.faithful.proper,
      List.forall_mem_nil _⟩
  fits := by
    intro inventory counted
    have enis := Eni.faithful.map.fits inventory.enis counted.enis
    exact Json.fits_record (by decide) (.cons (.count _ counted.total (Nat.le_refl _))
      (.cons (.count _ counted.assigned (Nat.le_refl _)) (.cons enis .nil)))
  back := by
    intro inventory counted
    have enis := Eni.faithful.map.back inventory.enis counted.enis
    simp only [Wire.ofJson?, Wire.toJson, toJson, ofJson?] at enis ⊢
    simp [enis]
  made := by
    intro form fits
    obtain ⟨values, rfl, each⟩ := Json.fields_of_fits fits
    rcases each with _ | ⟨total, _ | ⟨assigned, _ | ⟨enis, _ | _⟩⟩⟩
    obtain ⟨n, word, rfl⟩ := Wire.form_of_count total
    obtain ⟨count, word', rfl⟩ := Wire.form_of_count assigned
    obtain ⟨m, counted, rfl⟩ := Eni.faithful.map.made _ enis
    exact ⟨⟨n, count, m⟩, ⟨word, word', counted⟩, rfl⟩

theorem PodBinding.faithful : Wire.Faithful PodBinding fun _ => True where
  proper := by
    refine .record _ (by decide) ?_
    simp only [fieldShapes, List.forall_mem_cons]
    exact ⟨.text, .count _ (by decide), List.forall_mem_nil _⟩
  fits := by
    intro pod _
    exact Json.fits_record (by decide)
      (.cons (.text _) (.cons (.count _ pod.deviceNumber.toNat_lt (by decide)) .nil))
  back := by
    intro pod _
    simp [Wire.ofJson?, Wire.toJson, toJson, ofJson?, Wire.text?]
  made := by
    intro form fits
    obtain ⟨values, rfl, each⟩ := Json.fields_of_fits fits
    rcases each with _ | ⟨ip, _ | ⟨device, _ | _⟩⟩
    obtain ⟨s, rfl⟩ := Wire.form_of_text ip
    obtain ⟨n, below, rfl⟩ := Wire.form_of_count device
    refine ⟨⟨s, n.toUInt32⟩, trivial, ?_⟩
    simp only [Wire.toJson, toJson, device_made below]
    rfl

theorem Wire.strings_back (texts : List String) :
    items? text? (.array (texts.map .string)) = some texts := by
  rw [items?]
  induction texts with
  | nil => rfl
  | cons s rest ih =>
    rw [List.map_cons, List.mapM_cons, ih]
    rfl

theorem Wire.strings_fit (texts : List String) :
    Json.Fits (.list .text) (.array (texts.map .string)) := by
  refine .list ?_
  intro item member
  obtain ⟨s, _, rfl⟩ := List.mem_map.mp member
  exact .text s

theorem EniConfig.faithful : Wire.Faithful EniConfig fun _ => True where
  proper := by
    refine .record _ (by decide) ?_
    simp only [fieldShapes, List.forall_mem_cons]
    exact ⟨.list .text, .text, List.forall_mem_nil _⟩
  fits := by
    intro spec _
    exact Json.fits_record (by decide)
      (.cons (Wire.strings_fit spec.securityGroups) (.cons (.text _) .nil))
  back := by
    intro spec _
    simp [Wire.ofJson?, Wire.toJson, toJson, ofJson?, Wire.strings_back, Wire.text?]
  made := by
    intro form fits
    obtain ⟨values, rfl, each⟩ := Json.fields_of_fits fits
    rcases each with _ | ⟨groups, _ | ⟨subnet, _ | _⟩⟩
    obtain ⟨items, rfl, inside⟩ := Wire.form_of_list groups
    obtain ⟨texts, rfl⟩ := Wire.strings_of_fits inside
    obtain ⟨s, rfl⟩ := Wire.form_of_text subnet
    exact ⟨⟨texts, s⟩, trivial, rfl⟩

theorem Listing.faithful : Wire.Faithful Listing fun _ => True where
  proper := by
    refine .record _ (by decide) ?_
    simp only [fieldShapes, List.forall_mem_cons]
    exact ⟨.list .text, List.forall_mem_nil _⟩
  fits := by
    intro listing _
    exact Json.fits_record (by decide) (.cons (Wire.strings_fit listing.availableCommands) .nil)
  back := by
    intro listing _
    simp [Wire.ofJson?, Wire.toJson, toJson, ofJson?, Wire.strings_back]
  made := by
    intro form fits
    obtain ⟨values, rfl, each⟩ := Json.fields_of_fits fits
    rcases each with _ | ⟨commands, _ | _⟩
    obtain ⟨items, rfl, inside⟩ := Wire.form_of_list commands
    obtain ⟨texts, rfl⟩ := Wire.strings_of_fits inside
    exact ⟨⟨texts⟩, trivial, rfl⟩

/-- Text and value stand for each other: a value within the limits is given back by its text,
    which no other such value has, and what a text is accepted as has a text that stays. -/
structure Wire.RoundTrips (α : Type) [Wire α] (within : α → Prop) : Prop where
  given_back : ∀ value, within value → decode α (encode value) = .ok value
  alone : ∀ value other, within value → within other → encode value = encode other → value = other
  stays : ∀ s value, decode α s = .ok value → within value ∧
    decode α (encode value) = .ok value ∧
      (decode α (encode value)).map encode = .ok (encode value)

theorem Wire.Faithful.round_trips {α : Type} [Wire α] {within : α → Prop}
    (faithful : Wire.Faithful α within) : Wire.RoundTrips α within where
  given_back _ kept := faithful.decode_encode kept
  alone _ _ kept kept' same := faithful.encode_inj kept kept' same
  stays := by
    intro s value accepted
    have kept := faithful.within_of_decode accepted
    have again := faithful.decode_encode kept
    refine ⟨kept, again, ?_⟩
    rw [again]
    rfl

/-- All that is served in a form of its own. Only the counts have limits, those of a word. -/
theorem snapshots_round_trip :
    Wire.RoundTrips EniAddress (fun _ => True) ∧ Wire.RoundTrips Eni Eni.Counted ∧
      Wire.RoundTrips Inventory Inventory.Counted ∧
      Wire.RoundTrips PodBinding (fun _ => True) ∧
      Wire.RoundTrips PodBindings (fun _ => True) ∧
      Wire.RoundTrips EniConfig (fun _ => True) ∧
      Wire.RoundTrips EniConfigMap (fun _ => True) ∧
      Wire.RoundTrips Listing (fun _ => True) :=
  ⟨EniAddress.faithful.round_trips, Eni.faithful.round_trips, Inventory.faithful.round_trips,
    PodBinding.faithful.round_trips, PodBinding.faithful.free_map.round_trips,
    EniConfig.faithful.round_trips, EniConfig.faithful.free_map.round_trips,
    Listing.faithful.round_trips⟩

/-- An inventory whose counts are the greatest words, under keys that need escapes. -/
def Inventory.extreme : Inventory where
  totalIps := wordLimit - 1
  assignedIps := wordLimit - 1
  enis := (SortedMap.empty.insert "\u0000\"\\" ⟨"", true, 0xFFFFFFFF, wordLimit - 1, .empty⟩).insert
    "😀/\u007f" ⟨"\n", false, 0, 0, SortedMap.empty.insert "" ⟨"\t", true⟩⟩

theorem Wire.Each.insert {α : Type} {within : α → Prop} {m : SortedMap α} (each : Each within m)
    (key : String) {value : α} (own : within value) : Each within (m.insert key value) := by
  intro e member
  rcases mem_insert_entry member with rfl | earlier
  · exact own
  · exact each e earlier

theorem snapshots_round_trip_extreme : Inventory.extreme.Counted ∧
    Wire.decode Inventory (Wire.encode Inventory.extreme) = .ok .extreme := by
  have none : Wire.Each Eni.Counted .empty := List.forall_mem_nil _
  have counted : Inventory.extreme.Counted :=
    ⟨by decide, by decide, (none.insert _ (by decide)).insert _ (by decide)⟩
  exact ⟨counted, snapshots_round_trip.2.2.1.given_back .extreme counted⟩

end SnapshotEndpoint
