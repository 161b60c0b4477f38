import SnapshotEndpoint.Proofs.Snapshot.Items
import SnapshotEndpoint.Proofs.Text.Digits

/-!
What a setting makes of its variable. A variable that is not set or holds blanks alone counts as
absent, and around anything else blanks do not count. What is left is a flag, a number, a text or
a list of items, and where it is not what was declared the default stands in.
-/
namespace SnapshotEndpoint.Setting

/-- A variable gives what stands between its blanks, if it is set and that is something. -/
def Given (raw : Option String) (core : String) : Prop :=
  ∃ s, raw = some s ∧ Text.Trims s.toList core.toList ∧ core ≠ ""

/-- The word `true` or `false` with letters of either case. -/
inductive Flag (s : String) : Bool → Prop where
  | yes (letters : List.Forall₂ Text.SameLetter s.toList "true".toList) : Flag s true
  | no (letters : List.Forall₂ Text.SameLetter s.toList "false".toList) : Flag s false

/-- Digits for a number of 64 bits, with a sign or without. -/
structure Numeral (s : String) (n : Int) : Prop where
  digits : Text.Signed s.toList n
  fits : FitsSigned n

/-- The value of a setting by what its variable holds. -/
inductive Resolves : Setting → Option String → Json → Prop where
  | flag {default value : Bool} {raw : Option String} {core : String} (given : Given raw core)
      (flag : Flag core value) : Resolves (.bool default) raw (.bool value)
  | defaultFlag {default : Bool} {raw : Option String}
      (other : ∀ core value, Given raw core → ¬ Flag core value) :
      Resolves (.bool default) raw (.bool default)
  | number {default n : Int} {raw : Option String} {core : String} (given : Given raw core)
      (numeral : Numeral core n) : Resolves (.int default) raw (.integer n)
  | defaultNumber {default : Int} {raw : Option String}
      (other : ∀ core n, Given raw core → ¬ Numeral core n) :
      Resolves (.int default) raw (.integer default)
  | text {default : String} {raw : Option String} {core : String} (given : Given raw core) :
      Resolves (.text default) raw (.string core)
  | defaultText {default : String} {raw : Option String} (absent : ∀ core, ¬ Given raw core) :
      Resolves (.text default) raw (.string default)
  | list {s : String} {items : List String} (lists : Lists s items) :
      Resolves .list (some s) (.array (items.map .string))
  | defaultList : Resolves .list none (.array [])

variable {raw : Option String}

theorem present_eq_some_iff {core : String} : present raw = some core ↔ Given raw core := by
  rw [present, Option.bind_eq_some_iff, Given]
  refine exists_congr fun s => and_congr_right fun _ => ?_
  rw [← Text.trim_eq_iff, ite_eq_iff, String.isEmpty_iff]
  constructor
  · rintro (⟨_, impossible⟩ | ⟨some_, core⟩)
    · cases impossible
    · cases core
      exact ⟨rfl, some_⟩
  · rintro ⟨rfl, some_⟩
    exact Or.inr ⟨some_, rfl⟩

theorem present_eq_none_iff : present raw = none ↔ ∀ core, ¬ Given raw core := by
  simp only [Option.eq_none_iff_forall_ne_some, Ne, present_eq_some_iff]

theorem parse_bool_eq_some_iff {s : String} {value : Bool} :
    parseBool s = some value ↔ Flag s value := by
  unfold parseBool
  constructor
  · intro read
    split at read
    · rename_i yes
      cases read
      exact .yes (Text.equal_ignoring_case_iff.mp yes)
    · split at read
      · rename_i no
        cases read
        exact .no (Text.equal_ignoring_case_iff.mp no)
      · cases read
  · intro flag
    cases flag with
    | yes letters => rw [if_pos (Text.equal_ignoring_case_iff.mpr letters)]
    | no letters =>
      -- The two words differ in length.
      have other : ¬ Text.equalIgnoringCase s "true" = true := by
        intro yes
        have four := (Text.equal_ignoring_case_iff.mp yes).length_eq
        rw [letters.length_eq] at four
        cases four
      rw [if_neg other, if_pos (Text.equal_ignoring_case_iff.mpr letters)]

theorem parse_digits_eq_some_iff {cs : List Char} {n : Int} :
    (do let value ← parseDigits cs; pure (value : Int)) = some n ↔
      Text.Digits cs ∧ (Text.decimalValue cs : Int) = n := by
  have digits : (!cs.isEmpty && cs.all Char.isDigit) = true ↔ Text.Digits cs := by
    rw [Bool.and_eq_true, Bool.not_eq_true', List.isEmpty_eq_false_iff, List.all_eq_true]
    exact ⟨fun ⟨some_, all⟩ => ⟨some_, all⟩, fun all => ⟨all.nonempty, all.digit⟩⟩
  rw [parseDigits, ← digits]
  by_cases all : (!cs.isEmpty && cs.all Char.isDigit) = true
  · simp [all]
  · simp [all]

theorem parse_int_of_signed {s : String} {n : Int} (signed : Text.Signed s.toList n) :
    parseInt s = if FitsSigned n then some n else none := by
  have whole : ∀ {digits : List Char}, Text.Digits digits →
      (do let value ← parseDigits digits; pure (value : Int)) =
        some (Text.decimalValue digits : Int) :=
    fun all => parse_digits_eq_some_iff.mpr ⟨all, rfl⟩
  have fitting : ∀ value : Option Int, value = some n →
      (value.bind fun n => if FitsSigned n then some n else none) =
        if FitsSigned n then some n else none := by
    rintro _ rfl
    rfl
  refine fitting _ ?_
  generalize s.toList = cs at signed
  cases signed with
  | minus all => exact Option.map_eq_some_iff.mpr ⟨_, whole all, rfl⟩
  | plus all => exact Option.map_eq_some_iff.mpr ⟨_, whole all, rfl⟩
  | plain all =>
    -- A sign is no digit.
    split
    · cases all.digit '-' List.mem_cons_self
    · cases all.digit '+' List.mem_cons_self
    · exact Option.map_eq_some_iff.mpr ⟨_, whole all, rfl⟩

theorem parse_int_eq_some_iff {s : String} {n : Int} : parseInt s = some n ↔ Numeral s n := by
  constructor
  · intro read
    unfold parseInt at read
    obtain ⟨m, signed, fits⟩ := Option.bind_eq_some_iff.mp read
    split at fits
    · rename_i within
      cases fits
      refine ⟨?_, within⟩
      split at signed
      · rename_i digits same
        obtain ⟨k, parsed, rfl⟩ := Option.map_eq_some_iff.mp signed
        obtain ⟨all, rfl⟩ := parse_digits_eq_some_iff.mp parsed
        exact same ▸ .minus all
      · rename_i digits same
        obtain ⟨k, parsed, rfl⟩ := Option.map_eq_some_iff.mp signed
        obtain ⟨all, rfl⟩ := parse_digits_eq_some_iff.mp parsed
        exact same ▸ .plus all
      · obtain ⟨k, parsed, rfl⟩ := Option.map_eq_some_iff.mp signed
        obtain ⟨all, rfl⟩ := parse_digits_eq_some_iff.mp parsed
        exact .plain all
    · cases fits
  · rintro ⟨signed, fits⟩
    rw [parse_int_of_signed signed, if_pos fits]

/-- A list needs no trimming first: it has its own, and no items where there is nothing. -/
theorem resolve_list (s : String) :
    list.resolve (some s) = .array ((parseItems s).map .string) := by
  have core : (present (some s)).getD "" = Text.trim s := by
    rw [present, Option.bind_some]
    by_cases nothing : Text.trim s = ""
    · rw [nothing]
      rfl
    · rw [if_neg (by simpa using nothing), Option.getD_some]
  obtain ⟨before, after, parts, early, late⟩ := (Text.trim_eq_iff.mp (Eq.refl (Text.trim s))).parts
  have whole : s = String.ofList before ++ Text.trim s ++ String.ofList after := by
    rw [← String.toList_inj, parts]
    simp
  rw [resolve, core]
  nth_rewrite 2 [whole]
  rw [parse_items_around (by rwa [String.toList_ofList]) (by rwa [String.toList_ofList])]

/-- What is read of a variable is what it gives, where that can be read, and else the default. -/
theorem read_cases {α : Type} {read : String → Option α} {holds : String → α → Prop}
    (reads : ∀ {s value}, read s = some value ↔ holds s value) (raw : Option String)
    (default : α) :
    (∃ core value, Given raw core ∧ holds core value ∧
      ((present raw).bind read).getD default = value) ∨
    (∀ core value, Given raw core → ¬ holds core value) ∧
      ((present raw).bind read).getD default = default := by
  cases found : (present raw).bind read with
  | none =>
    refine Or.inr ⟨?_, rfl⟩
    intro core value given held
    rw [present_eq_some_iff.mpr given, Option.bind_some, reads.mpr held] at found
    cases found
  | some value =>
    obtain ⟨core, known, parsed⟩ := Option.bind_eq_some_iff.mp found
    exact Or.inl ⟨core, value, present_eq_some_iff.mp known, reads.mp parsed, rfl⟩

theorem resolves_resolve (setting : Setting) (raw : Option String) :
    Resolves setting raw (setting.resolve raw) := by
  cases setting with
  | bool default =>
    rw [resolve]
    rcases read_cases parse_bool_eq_some_iff raw default with
      ⟨core, value, given, flag, same⟩ | ⟨other, same⟩
    · rw [same]
      exact .flag given flag
    · rw [same]
      exact .defaultFlag other
  | int default =>
    rw [resolve]
    rcases read_cases parse_int_eq_some_iff raw default with
      ⟨core, n, given, numeral, same⟩ | ⟨other, same⟩
    · rw [same]
      exact .number given numeral
    · rw [same]
      exact .defaultNumber other
  | text default =>
    cases known : present raw with
    | none =>
      rw [resolve, known]
      exact .defaultText (present_eq_none_iff.mp known)
    | some core =>
      rw [resolve, known]
      exact .text (present_eq_some_iff.mp known)
  | list =>
    cases raw with
    | none => exact .defaultList
    | some s =>
      rw [resolve_list]
      exact .list (lists_parse_items s)

/-- What a setting shows of a variable is settled by what the variable may hold, in all cases. -/
theorem resolves_iff {setting : Setting} {value : Json} :
    Resolves setting raw value ↔ setting.resolve raw = value := by
  constructor
  · intro resolves
    cases resolves with
    | flag given flag =>
      rw [resolve, present_eq_some_iff.mpr given, Option.bind_some, parse_bool_eq_some_iff.mpr flag,
        Option.getD_some]
    | @defaultFlag default _ other =>
      rcases read_cases parse_bool_eq_some_iff raw default with ⟨_, _, given, flag, _⟩ | ⟨_, same⟩
      · exact absurd flag (other _ _ given)
      · rw [resolve, same]
    | number given numeral =>
      rw [resolve, present_eq_some_iff.mpr given, Option.bind_some,
        parse_int_eq_some_iff.mpr numeral, Option.getD_some]
    | @defaultNumber default _ other =>
      rcases read_cases parse_int_eq_some_iff raw default with ⟨_, _, given, numeral, _⟩ | ⟨_, same⟩
      · exact absurd numeral (other _ _ given)
      · rw [resolve, same]
    | text given => rw [resolve, present_eq_some_iff.mpr given, Option.getD_some]
    | defaultText absent => rw [resolve, present_eq_none_iff.mpr absent, Option.getD_none]
    | list lists => rw [resolve_list, parse_items_of_lists lists]
    | defaultList => rfl
  · rintro rfl
    exact setting.resolves_resolve raw

end SnapshotEndpoint.Setting
