import SnapshotEndpoint.Command.Query
import SnapshotEndpoint.Proofs.Json.Arranged
import SnapshotEndpoint.Proofs.Json.Indented
import SnapshotEndpoint.Proofs.Snapshot.RoundTrip
import SnapshotEndpoint.Snapshot.Settings

/-!
What the query program prints of an answer. Whatever was served, from its text through any JSON
value to the indented text, the printed text is decoded to the value that was served.
-/
namespace SnapshotEndpoint

open Json

/-- A text prints as something with a property, whenever it is the body of a successful answer to
    a command for data. -/
def Query.Prints (body : String) (property : String → Prop) : Prop :=
  ∀ network args line command status, spec.parse args = .ok line →
    line.command.bind command? = some command → command ≠ metricsCommand →
    Url.isWebAddress (address (line.value.getD defaultUrl) command.path) = true →
    network (address (line.value.getD defaultUrl) command.path) = .answered status body →
    isSuccess status = true → ∃ printed, run network args = ⟨0, printed, ""⟩ ∧ property printed

namespace Json

/-- A text that shows a value: it is well formed, and what it is parsed as is what the compact
    text is parsed as, the value with the members of its objects in order of their names. All else
    is found where it was. -/
structure Shows (value : Json) (printed : String) : Prop where
  text : printed = value.arranged.prettyText ++ "\n"
  well_formed : IsTextOf printed value.arranged.tree
  parsed : parse printed = .ok value.arranged
  same : parse printed = parse value.text
  ordered : InOrder value.arranged
  found : ∀ path, value.arranged.at? path = (value.at? path).map arranged
  kept : ∀ path leaf, leaf.depth = 0 →
    (value.arranged.at? path = some leaf ↔ value.at? path = some leaf)

theorem is_text_of_pretty {value : Json} (kept : Exact value) :
    IsTextOf (value.prettyText ++ "\n") value.tree := by
  refine ⟨[], prettyChars 0 value, ['\n'], blank_nil, ?_, ?_, spells_indented kept 0⟩
  · intro c member
    rw [List.mem_singleton.mp member]
    rfl
  · rw [prettyText, String.toList_append, String.toList_ofList]
    rfl

theorem shows_pretty {value : Json} (kept : Exact value) (keyed : Keyed value)
    (shallow : value.depth ≤ depthLimit) : Shows value (value.arranged.prettyText ++ "\n") := by
  have well_formed := is_text_of_pretty (exact_arranged kept)
  have parsed := parse_arranged kept shallow well_formed
  have served := parse_of_is_text kept (is_text_of_text kept)
  rw [if_pos shallow] at served
  constructor
  · rfl
  · exact well_formed
  · exact parsed
  · rw [parsed, served]
  · exact in_order_arranged kept
  · exact at_arranged keyed
  · intro path leaf plain
    rw [at_arranged keyed, Option.map_eq_some_iff]
    constructor
    · rintro ⟨part, found, same⟩
      rw [found, (arranged_eq_iff plain).mp same]
    · intro found
      exact ⟨leaf, found, (arranged_eq_iff plain).mpr rfl⟩

end Json

namespace Query

theorem prints_of_shows {value : Json} (kept : Exact value) (keyed : Keyed value)
    (shallow : value.depth ≤ depthLimit) {property : String → Prop}
    (holds : ∀ printed, Shows value printed → property printed) :
    Prints value.text property := by
  intro network args line command status read known data web answered success
  have served := parse_of_is_text kept (is_text_of_text kept)
  rw [if_pos shallow] at served
  refine ⟨_, ?_, holds _ (shows_pretty kept keyed shallow)⟩
  rw [run, read]
  dsimp only
  rw [known]
  dsimp only
  rw [ask, web, answered]
  dsimp only
  rw [success, shown, if_neg data, served]
  rfl

/-- A value of a type is printed as a text that its type decodes to it. -/
def PrintsAs {α : Type} [Wire α] (value : α) : Prop :=
  Prints (Wire.encode value) fun printed =>
    Shows (Wire.toJson value) printed ∧ Wire.decode α printed = .ok value

theorem prints_as_of_faithful {α : Type} [Wire α] {within : α → Prop}
    (faithful : Wire.Faithful α within) (shallow : (Wire.shape α).depth ≤ depthLimit) {value : α}
    (allowed : within value) : PrintsAs value := by
  have fits := faithful.fits value allowed
  apply prints_of_shows (exact_of_fits fits) (keyed_of_fits fits)
    ((depth_le_of_fits fits).trans shallow)
  intro printed shows
  refine ⟨shows, Wire.decode_eq_ok_iff.mpr ⟨Wire.toJson value, ?_, faithful.back value allowed⟩⟩
  rw [decode_as_eq_ok_iff, is_text_of_iff.mp shows.well_formed]
  exact ⟨rfl, read_arranged fits⟩

end Query

/-- A default that is a signed word, if it is a number. -/
def Setting.Sane : Setting → Prop
  | .int default => FitsSigned default
  | _ => True

/-- The value of a setting: a flag, a signed word, a text or a list of texts. -/
inductive Setting.Valued : Json → Prop where
  | flag (value : Bool) : Valued (.bool value)
  | word {n : Int} (fits : FitsSigned n) : Valued (.integer n)
  | text (s : String) : Valued (.string s)
  | list (items : List String) : Valued (.array (items.map .string))

namespace Setting

theorem valued_resolve {setting : Setting} (sane : setting.Sane) (raw : Option String) :
    Valued (setting.resolve raw) := by
  cases setting with
  | bool default => exact .flag _
  | text default => exact .text _
  | list => exact .list _
  | int default =>
    apply Valued.word
    cases read : (present raw).bind parseInt with
    | none => exact sane
    | some n =>
      obtain ⟨s, _, parsed⟩ := Option.bind_eq_some_iff.mp read
      obtain ⟨m, _, fits⟩ := Option.bind_eq_some_iff.mp parsed
      split at fits
      · rename_i within
        cases fits
        exact within
      · cases fits

variable {value : Json}

theorem exact_of_valued (valued : Valued value) : Exact value := by
  cases valued with
  | flag value => exact .bool value
  | word fits =>
    have limits : (signedLimit : Int) ≤ wordLimit := by decide
    exact .integer fits.1 (Int.lt_of_lt_of_le fits.2 limits)
  | text s => exact .string s
  | list items =>
    apply Exact.array
    intro item member
    obtain ⟨s, _, rfl⟩ := List.mem_map.mp member
    exact .string s

theorem in_order_of_valued (valued : Valued value) : InOrder value := by
  cases valued with
  | flag value => exact .bool value
  | word fits => exact .integer _
  | text s => exact .string s
  | list items =>
    apply InOrder.array
    intro item member
    obtain ⟨s, _, rfl⟩ := List.mem_map.mp member
    exact .string s

theorem depth_of_valued (valued : Valued value) : value.depth ≤ 1 := by
  cases valued with
  | flag value => exact Nat.zero_le _
  | word fits => exact Nat.zero_le _
  | text s => exact Nat.zero_le _
  | list items =>
    apply Nat.succ_le_succ
    rw [items_depth_le_iff]
    intro item member
    obtain ⟨s, _, rfl⟩ := List.mem_map.mp member
    exact Nat.le_refl _

end Setting

namespace Settings

theorem valued_snapshot {settings : Settings} (sane : ∀ s ∈ settings, s.2.Sane)
    (env : Environment) : ∀ entry ∈ (settings.snapshot env).entries, Setting.Valued entry.2 := by
  intro entry known
  rw [snapshot, SortedMap.entries_of_list] at known
  rcases mem_put_all known with impossible | there
  · cases impossible
  · obtain ⟨s, member, rfl⟩ := List.mem_map.mp there
    exact Setting.valued_resolve (sane s member) (env s.1)

/-- Settings are printed as a text that is parsed as they are. -/
def Printed (settings : Settings) (env : Environment) : Prop :=
  Query.Prints (settings.toJson env).text fun printed =>
    Shows (settings.toJson env) printed ∧ parse printed = .ok (settings.toJson env)

theorem printed_of_sane {settings : Settings} (sane : ∀ s ∈ settings, s.2.Sane)
    (env : Environment) : settings.Printed env := by
  have valued := valued_snapshot sane env
  have kept : Exact (settings.toJson env) :=
    .object fun entry known => Setting.exact_of_valued (valued entry known)
  have ordered : InOrder (settings.toJson env) :=
    .object (settings.snapshot env).increasing fun entry known =>
      Setting.in_order_of_valued (valued entry known)
  have shallow : (settings.toJson env).depth ≤ depthLimit := by
    have inside := members_depth_le_iff.mpr fun entry known =>
      Setting.depth_of_valued (valued entry known)
    exact (Nat.succ_le_succ inside).trans (by decide)
  apply Query.prints_of_shows kept (keyed_of_in_order ordered) shallow
  intro printed shows
  refine ⟨shows, ?_⟩
  rw [shows.parsed, arranged_of_in_order ordered]

end Settings

/-- The query program prints what the server sent: of every value that is served, and of any other
    without doubles, a text of the same value. -/
theorem Query.answers_shown :
    (∀ value, Exact value → Keyed value → value.depth ≤ depthLimit →
      Prints value.text (Shows value)) ∧
    (∀ inventory : Inventory, inventory.Counted → PrintsAs inventory) ∧
    (∀ pods : PodBindings, PrintsAs pods) ∧ (∀ configs : EniConfigMap, PrintsAs configs) ∧
    (∀ listing : Listing, PrintsAs listing) ∧
    ∀ env, Settings.hostNetwork.Printed env ∧ Settings.addressPool.Printed env := by
  refine ⟨?_, ?_, ?_, ?_, ?_, ?_⟩
  · intro value kept keyed shallow
    exact prints_of_shows kept keyed shallow fun _ shows => shows
  · intro inventory counted
    exact prints_as_of_faithful Inventory.faithful (by decide) counted
  · intro pods
    exact prints_as_of_faithful PodBinding.faithful.free_map (by decide) trivial
  · intro configs
    exact prints_as_of_faithful EniConfig.faithful.free_map (by decide) trivial
  · intro listing
    exact prints_as_of_faithful Listing.faithful (by decide) trivial
  · intro env
    constructor
    · apply Settings.printed_of_sane
      simp [Settings.hostNetwork, Setting.Sane, FitsSigned, signedLimit]
    · apply Settings.printed_of_sane
      simp [Settings.addressPool, Setting.Sane, FitsSigned, signedLimit]

/-- The greatest and the least number, not in order of their names. -/
def Json.extremes : Json :=
  .object [("most", .integer 18446744073709551615), ("least", .integer (-9223372036854775808))]

theorem Query.answers_shown_extremes :
    (∃ printed, run (fun _ => .answered 200 extremes.text) ["pods"] = ⟨0, printed, ""⟩ ∧
      parse printed = .ok (.object [("least", .integer (-9223372036854775808)),
        ("most", .integer 18446744073709551615)])) ∧
    ∃ printed, run (fun _ => .answered 206 (Wire.encode Inventory.empty)) ["enis"] =
      ⟨0, printed, ""⟩ ∧ Wire.decode Inventory printed = .ok .empty := by
  obtain ⟨any, inventory, _⟩ := Query.answers_shown
  have kept : Exact extremes := by
    apply Exact.object
    simp only [List.forall_mem_cons]
    exact ⟨.integer (by decide) (by decide), .integer (by decide) (by decide),
      List.forall_mem_nil _⟩
  have keyed : Keyed extremes := by
    apply Keyed.object (by decide)
    simp only [List.forall_mem_cons]
    exact ⟨.integer _, .integer _, List.forall_mem_nil _⟩
  have counted : Inventory.empty.Counted := ⟨by decide, by decide, List.forall_mem_nil _⟩
  constructor
  · obtain ⟨printed, ran, shows⟩ := any extremes kept keyed (by decide) (fun _ => .answered 200 _)
      ["pods"] ⟨none, some "pods"⟩ ⟨"pods", "Pod to address bindings", StandardPath.pods⟩ 200
      (by decide) (by decide) (by decide) (by decide +kernel) rfl (by decide)
    exact ⟨printed, ran, shows.parsed⟩
  · obtain ⟨printed, ran, _, decoded⟩ := inventory .empty counted (fun _ => .answered 206 _)
      ["enis"] ⟨none, some "enis"⟩
      ⟨"enis", "ENI inventory with per-address assignment", StandardPath.enis⟩ 206
      (by decide) (by decide) (by decide) (by decide +kernel) rfl (by decide)
    exact ⟨printed, ran, decoded⟩

end SnapshotEndpoint
