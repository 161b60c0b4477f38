import SnapshotEndpoint.Proofs.Snapshot.Resolving

/-!
What a setting shows can be put back. The value shown, written as the text of the variable, gives
the same value again: a variable settles after it was read once. And a text that differs in blanks
alone, around the whole or around the items of a list, or in items that are empty, shows the same.
-/
namespace SnapshotEndpoint.Setting

/-- A default text without blanks around it. The other defaults are no texts. -/
def Tidy : Setting → Prop
  | .text default => Text.Trims default.toList default.toList
  | _ => True

/-- The text for a value that a setting shows. -/
inductive Writes : Json → String → Prop where
  | flag (value : Bool) : Writes (.bool value) (if value then "true" else "false")
  | number (n : Int) : Writes (.integer n) (toString n)
  | text (s : String) : Writes (.string s) s
  | list (items : List String) : Writes (.array (items.map .string)) (Text.joinWith "," items)

/-- The pieces of a text with more blanks around some of them, and with others between them that
    are blank or empty. -/
inductive Loosened : List String → List String → Prop where
  | nil : Loosened [] []
  | widened {before after : String} {pieces loose : List String} (early : Text.Blank before.toList)
      (late : Text.Blank after.toList) (piece : String) (rest : Loosened pieces loose) :
      Loosened (piece :: pieces) ((before ++ piece ++ after) :: loose)
  | inserted {blank : String} {pieces loose : List String} (nothing : Text.Blank blank.toList)
      (rest : Loosened pieces loose) : Loosened pieces (blank :: loose)

/-- What a setting shows does not change when it is put back, nor with blanks that do not count. -/
structure Settled (setting : Setting) : Prop where
  written : ∀ raw, ∃ text, Writes (setting.resolve raw) text
  again : ∀ raw text, Writes (setting.resolve raw) text →
    setting.resolve (some text) = setting.resolve raw
  around : ∀ before s after, Text.Blank before.toList → Text.Blank after.toList →
    setting.resolve (some (before ++ s ++ after)) = setting.resolve (some s)
  loosened : setting = .list → ∀ pieces loose, Loosened pieces loose →
    setting.resolve (some (Text.joinWith "," loose)) =
      setting.resolve (some (Text.joinWith "," pieces))

theorem flat_map_parse_items_of_loosened {pieces loose : List String}
    (loosened : Loosened pieces loose) :
    loose.flatMap parseItems = pieces.flatMap parseItems := by
  induction loosened with
  | nil => rfl
  | widened early late piece _ ih =>
    rw [List.flatMap_cons, List.flatMap_cons, parse_items_around early late, ih]
  | inserted nothing _ ih => rw [List.flatMap_cons, parse_items_of_blank nothing, ih]; rfl

theorem parse_items_join_of_items {items : List String} (clean : ∀ item ∈ items, Item item) :
    parseItems (Text.joinWith "," items) = items := by
  have alone : items.flatMap parseItems = items.flatMap fun item => [item] :=
    List.flatMap_congr fun item known => parse_items_of_item (clean item known)
  rw [parse_items_join, alone, List.flatMap_singleton']

theorem present_of_bare {s : String} (bare : Text.Trims s.toList s.toList) :
    (present (some s)) = if s = "" then none else some s := by
  rw [present, Option.bind_some, Text.trim_eq_iff.mpr bare]
  simp only [String.isEmpty_iff]

theorem present_around {before after : String} (early : Text.Blank before.toList)
    (late : Text.Blank after.toList) (s : String) :
    present (some (before ++ s ++ after)) = present (some s) := by
  rw [present, Option.bind_some, Text.trim_around early late]
  rfl

theorem visible_of_digit {c : Char} (digit : c.isDigit = true) : Text.isBlank c = false := by
  obtain ⟨low, high⟩ := Text.digit_range digit
  rw [Bool.eq_false_iff]
  intro blank
  simp only [Text.isBlank, Bool.or_eq_true, Bool.and_eq_true, decide_eq_true_eq, beq_iff_eq]
    at blank
  omega

theorem visible_of_signed {cs : List Char} {n : Int} (signed : Text.Signed cs n) :
    ∀ c ∈ cs, Text.isBlank c = false := by
  cases signed with
  | plain all => exact fun c known => visible_of_digit (all.digit c known)
  | plus all =>
    exact List.forall_mem_cons.mpr ⟨by decide, fun c known => visible_of_digit (all.digit c known)⟩
  | minus all =>
    exact List.forall_mem_cons.mpr ⟨by decide, fun c known => visible_of_digit (all.digit c known)⟩

theorem present_of_signed {s : String} {n : Int} (signed : Text.Signed s.toList n) :
    present (some s) = some s := by
  have some_ : s ≠ "" := by
    rintro rfl
    cases signed with
    | plain all => exact all.nonempty rfl
  have visible := visible_of_signed signed
  rw [present_of_bare (Text.trims_of_visible visible), if_neg some_]

theorem resolve_to_string (default n : Int) :
    (int default).resolve (some (toString n)) =
      .integer (if FitsSigned n then n else default) := by
  have signed := Text.signed_to_string n
  rw [resolve, present_of_signed signed, Option.bind_some, parse_int_of_signed signed]
  split <;> rfl

theorem resolve_flag (default value : Bool) :
    (bool default).resolve (some (if value then "true" else "false")) = .bool value := by
  have read : (present (some (if value then "true" else "false"))).bind parseBool =
      some value := by
    cases value
    · decide +kernel
    · decide +kernel
  rw [resolve, read]
  rfl

theorem resolve_text (default : String) {s : String} (bare : Text.Trims s.toList s.toList) :
    (text default).resolve (some s) = .string (if s = "" then default else s) := by
  rw [resolve, present_of_bare bare]
  split
  · rfl
  · rfl

theorem resolve_items {items : List String} (clean : ∀ item ∈ items, Item item) {s : String}
    (writes : Writes (.array (items.map .string)) s) :
    list.resolve (some s) = .array (items.map .string) := by
  generalize whole : Json.array (items.map .string) = value at writes
  cases writes with
  | list written =>
    have same : items = written :=
      List.map_injective_iff.mpr (fun _ _ => Json.string.inj) (Json.array.inj whole)
    rw [resolve_list, ← same, parse_items_join_of_items clean]
  | _ => cases whole

/-- A setting reads its own value back. -/
theorem resolve_written {setting : Setting} (tidy : setting.Tidy) {raw : Option String}
    {text : String} (writes : Writes (setting.resolve raw) text) :
    setting.resolve (some text) = setting.resolve raw := by
  have resolves := setting.resolves_resolve raw
  generalize setting.resolve raw = value at writes resolves
  cases resolves with
  | flag _ _ =>
    cases writes
    exact resolve_flag _ _
  | defaultFlag _ =>
    cases writes
    exact resolve_flag _ _
  | number _ numeral =>
    cases writes
    rw [resolve_to_string, if_pos numeral.fits]
  | defaultNumber _ =>
    cases writes
    rw [resolve_to_string, ite_self]
  | text given =>
    cases writes
    obtain ⟨_, _, core, some_⟩ := given
    rw [resolve_text _ core.bare, if_neg some_]
  | defaultText _ =>
    cases writes
    rw [resolve_text _ tidy, ite_self]
  | list lists =>
    obtain ⟨_, _, whole, itemized⟩ := lists
    exact resolve_items (item_of_itemized itemized whole) writes
  | defaultList => exact resolve_items (List.forall_mem_nil Item) writes

theorem resolve_around {before after : String} (early : Text.Blank before.toList)
    (late : Text.Blank after.toList) (setting : Setting) (s : String) :
    setting.resolve (some (before ++ s ++ after)) = setting.resolve (some s) := by
  cases setting <;> simp only [resolve, present_around early late]

theorem exists_writes (setting : Setting) (raw : Option String) :
    ∃ text, Writes (setting.resolve raw) text := by
  cases setting with
  | bool default => exact ⟨_, .flag _⟩
  | int default => exact ⟨_, .number _⟩
  | text default => exact ⟨_, .text _⟩
  | list => exact ⟨_, .list _⟩

theorem settled_of_tidy {setting : Setting} (tidy : setting.Tidy) : setting.Settled where
  written := exists_writes setting
  again := fun _ _ writes => resolve_written tidy writes
  around := fun _ s _ early late => resolve_around early late setting s
  loosened := by
    rintro rfl pieces loose loosened
    rw [resolve_list, resolve_list, parse_items_join, parse_items_join,
      flat_map_parse_items_of_loosened loosened]

theorem tidy_of_preset : ∀ s ∈ Settings.hostNetwork ++ Settings.addressPool, s.2.Tidy := by
  have tidy : ∀ {default : String}, Text.trim default = default → (text default).Tidy :=
    Text.trim_eq_iff.mp
  simp only [Settings.hostNetwork, Settings.addressPool, List.cons_append, List.nil_append,
    List.forall_mem_cons]
  exact ⟨trivial, trivial, tidy (by decide +kernel), trivial, tidy (by decide +kernel), trivial,
    trivial, trivial, trivial, trivial, trivial, trivial, tidy (by decide +kernel),
    List.forall_mem_nil _⟩

/-- A setting whose default has no blanks around it settles, and those of both presets do. -/
theorem settings_settled :
    (∀ setting : Setting, setting.Tidy → setting.Settled) ∧
      ∀ s ∈ Settings.hostNetwork ++ Settings.addressPool, s.2.Tidy ∧ s.2.Settled := by
  refine ⟨fun _ => settled_of_tidy, ?_⟩
  intro s known
  exact ⟨tidy_of_preset s known, settled_of_tidy (tidy_of_preset s known)⟩

/-- The least number of 64 bits with zeros in front and blanks around it that are not of ASCII, and
    items that are written back as another text. -/
theorem settings_settled_rewritten :
    Tidy (.int 7) ∧ Tidy .list ∧
      (int 7).resolve (some (toString (-9223372036854775808 : Int))) =
        (int 7).resolve (some "\u2003-0009223372036854775808\u00A0") ∧
      list.resolve (some "a b,c") = list.resolve (some " a b , \t,,\u3000c,") := by
  obtain ⟨settled, _⟩ := settings_settled
  have least : (int 7).resolve (some "\u2003-0009223372036854775808\u00A0") =
      .integer (-9223372036854775808) := congrArg Json.integer (by decide +kernel)
  have items : parseItems " a b , \t,,\u3000c," = ["a b", "c"] := by decide +kernel
  have joined : Text.joinWith "," ["a b", "c"] = "a b,c" := by decide +kernel
  refine ⟨trivial, trivial, ?_, ?_⟩
  · apply (settled (.int 7) trivial).again
    rw [least]
    exact .number _
  · apply (settled .list trivial).again
    rw [resolve_list, items, ← joined]
    exact .list _

end SnapshotEndpoint.Setting
