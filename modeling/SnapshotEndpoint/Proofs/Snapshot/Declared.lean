import SnapshotEndpoint.Proofs.Command.Showing
import SnapshotEndpoint.Proofs.Snapshot.Resolving
import SnapshotEndpoint.Proofs.SortedMap
import SnapshotEndpoint.Proofs.Text.ByteOrder

/-!
What a snapshot of settings holds. Each name that is declared is there once, with what the last
declaration of it makes of its own variable, and the names come in the order of their bytes. So
neither another variable nor the order of the declarations can be seen in it.
-/
namespace SnapshotEndpoint

/-- A value of the kind that a setting is declared with. -/
inductive Setting.OfKind : Setting → Json → Prop where
  | flag (default value : Bool) : OfKind (.bool default) (.bool value)
  | number {default n : Int} (fits : FitsSigned n) : OfKind (.int default) (.integer n)
  | text (default s : String) : OfKind (.text default) (.string s)
  | list {items : List String} (clean : ∀ item ∈ items, Item item) :
      OfKind .list (.array (items.map .string))

theorem Setting.of_kind_of_resolves {setting : Setting} {raw : Option String} {value : Json}
    (sane : setting.Sane) (resolves : Resolves setting raw value) : OfKind setting value := by
  cases resolves with
  | flag _ _ => exact .flag _ _
  | defaultFlag _ => exact .flag _ _
  | number _ numeral => exact .number numeral.fits
  | defaultNumber _ => exact .number sane
  | text _ => exact .text _ _
  | defaultText _ => exact .text _ _
  | list lists =>
    obtain ⟨_, _, whole, itemized⟩ := lists
    exact .list (item_of_itemized itemized whole)
  | defaultList => exact .list (List.forall_mem_nil _)

namespace Settings

/-- A snapshot has of each name what its last declaration makes of its variable, a value of the
    kind declared, and nothing else counts. -/
structure Declared (settings : Settings) (env : Environment) : Prop where
  entries : (settings.snapshot env).KeepsLast (·.1) settings fun s value =>
    s.2.Resolves (env s.1) value ∧ s.2.OfKind value
  order : (settings.snapshot env).entries.Pairwise fun e f => Text.bytes e.1 < Text.bytes f.1
  written : (settings.toJson env).text.toList = '\x7b' :: [','].intercalate
    ((settings.snapshot env).entries.map fun e =>
      Json.stringChars e.1 ++ ':' :: Json.compactChars e.2) ++ ['\x7d']
  decided : ∀ (others : Settings) (env' : Environment) name s, LastWith (·.1) name settings s →
    LastWith (·.1) name others s → env' name = env name →
    (others.snapshot env').get? name = (settings.snapshot env).get? name
  reordered : ∀ others, Reordered (·.1) settings others →
    (toJson others env).text = (settings.toJson env).text

theorem snapshot_eq_of_keyed (settings : Settings) (env : Environment) :
    settings.snapshot env = .ofKeyed (·.1) (fun s => s.2.resolve (env s.1)) settings := rfl

theorem get_snapshot_of_last {settings : Settings} (env : Environment) {name : String}
    {s : String × Setting} (last : LastWith (·.1) name settings s) :
    (settings.snapshot env).get? name = some (s.2.resolve (env name)) := by
  rw [snapshot_eq_of_keyed, SortedMap.get_of_keyed_eq_some_iff]
  refine ⟨s, last, ?_⟩
  obtain ⟨_, _, _, own, _⟩ := last
  exact congrArg (fun name => s.2.resolve (env name)) own

/-- Settings show of every name what its last declaration makes of its variable. -/
theorem snapshot_declared {settings : Settings} (sane : ∀ s ∈ settings, s.2.Sane)
    (env : Environment) : settings.Declared env where
  entries := by
    rw [snapshot_eq_of_keyed]
    refine ⟨SortedMap.distinct_keys _, (SortedMap.keeps_last_of_keyed settings).keys, ?_⟩
    intro e known
    obtain ⟨s, last, same⟩ := (SortedMap.keeps_last_of_keyed settings).last e known
    have resolves : s.2.Resolves (env s.1) e.2 := Setting.resolves_iff.mpr same
    have member : s ∈ settings := by
      obtain ⟨_, _, parts, _⟩ := last
      rw [parts]
      exact List.mem_append_right _ List.mem_cons_self
    exact ⟨s, last, resolves, Setting.of_kind_of_resolves (sane s member) resolves⟩
  order := (settings.snapshot env).increasing.imp fun before => Text.lt_iff_bytes_lt.mp before
  written := by
    rw [Json.text, String.toList_ofList, toJson, Json.compactChars, Json.compact_members_eq]
  decided := by
    intro others env' name s last last' same
    rw [get_snapshot_of_last env last, get_snapshot_of_last env' last', same]
  reordered := by
    intro others reordered
    rw [toJson, toJson, snapshot_eq_of_keyed, snapshot_eq_of_keyed,
      SortedMap.of_keyed_reordered reordered]

/-- One name declared twice, at first with another default. -/
def limits : Settings :=
  [("LIMIT", .int 7), ("NAMES", .list), ("FLAG", .bool false),
    ("LIMIT", .int (-9223372036854775808))]

/-- A number above the greatest of 64 bits, items among blanks, and a flag between two that are not
    of ASCII. -/
def padded : Environment := fun name =>
  if name = "LIMIT" then some " 9223372036854775808 "
  else if name = "NAMES" then some ",\tb ,\u3000, a b"
  else some "\u2003tRUE\u00A0"

theorem snapshot_declared_limits :
    (∀ s ∈ limits, s.2.Sane) ∧ limits.Declared padded ∧
      (limits.toJson padded).text =
        "\x7b\"FLAG\":true,\"LIMIT\":-9223372036854775808,\"NAMES\":[\"b\",\"a b\"]\x7d" := by
  have sane : ∀ s ∈ limits, s.2.Sane := by
    simp [limits, Setting.Sane, FitsSigned, signedLimit]
  exact ⟨sane, snapshot_declared sane padded, by decide +kernel⟩

end Settings
end SnapshotEndpoint
