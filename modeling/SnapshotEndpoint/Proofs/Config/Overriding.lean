import SnapshotEndpoint.Config.Overrides
import SnapshotEndpoint.Proofs.Text.Blank

/-!
What environments in turn make of a configuration. Each can turn the endpoint off, and none can
turn it on again. Each can ask for an address, and the last one that does is heard. Nothing else
of the configuration is in their reach.
-/
namespace SnapshotEndpoint

namespace Environment

/-- The variable holds `true` in letters of either case, perhaps between blanks. -/
def TurnsOff (env : Environment) : Prop :=
  ∃ value core, env disableVariable = some value ∧ Text.Trims value.toList core ∧
    List.Forall₂ Text.SameLetter core "true".toList

/-- The variable holds more than blanks, and the address between them. -/
def AsksFor (env : Environment) (address : String) : Prop :=
  ∃ value, env bindAddressVariable = some value ∧ ¬ Text.Blank value.toList ∧
    Text.Trims value.toList address.toList

/-- The variable is not set, or to blanks alone. -/
def Silent (env : Environment) : Prop := ∀ address, ¬ env.AsksFor address

variable {env : Environment}

theorem disables_iff : env.disables = true ↔ env.TurnsOff := by
  unfold disables TurnsOff
  cases env disableVariable with
  | none => simp
  | some value =>
    simp only [Option.some.injEq, Text.trims_iff, Text.equal_ignoring_case_iff, Text.trim,
      String.toList_ofList, exists_and_left, exists_eq_left']

theorem bind_address_eq_some_iff {address : String} :
    env.bindAddress? = some address ↔ env.AsksFor address := by
  unfold bindAddress? AsksFor
  cases env bindAddressVariable with
  | none => simp
  | some value =>
    have blank : (Text.trim value).isEmpty = true ↔ Text.Blank value.toList := by
      rw [Text.trim, String.isEmpty_iff, ← String.toList_eq_nil_iff, String.toList_ofList,
        Text.trim_chars_eq_nil_iff]
    have core : Text.trim value = address ↔ Text.Trims value.toList address.toList := by
      rw [Text.trim, Text.trims_iff, ← String.toList_inj, String.toList_ofList]
    simp only [Option.some.injEq, exists_eq_left', ← core, ← blank]
    cases (Text.trim value).isEmpty with
    | true => simp
    | false => simp

theorem bind_address_eq_none_iff : env.bindAddress? = none ↔ env.Silent := by
  simp only [Option.eq_none_iff_forall_ne_some, Ne, bind_address_eq_some_iff, Silent]

end Environment

namespace Config

/-- A configuration under one environment after the other. -/
def overrideAll (config : Config) (envs : List Environment) : Config := envs.foldl override config

variable {config : Config} {env : Environment} {envs : List Environment}

theorem override_all_append (config : Config) (envs later : List Environment) :
    config.overrideAll (envs ++ later) = (config.overrideAll envs).overrideAll later :=
  List.foldl_append

theorem override_enabled_iff : (config.override env).server.enabled = true ↔
    config.server.enabled = true ∧ ¬ env.TurnsOff := by
  rw [← Environment.disables_iff]
  simp [override]

theorem override_address (config : Config) (env : Environment) :
    (config.override env).server.bindAddress = env.bindAddress?.getD config.server.bindAddress :=
  rfl

theorem override_address_cases (config : Config) (env : Environment) :
    env.AsksFor (config.override env).server.bindAddress ∨
      env.Silent ∧ (config.override env).server.bindAddress = config.server.bindAddress := by
  rw [override_address]
  cases asked : env.bindAddress? with
  | none => exact Or.inr ⟨Environment.bind_address_eq_none_iff.mp asked, rfl⟩
  | some address => exact Or.inl (Environment.bind_address_eq_some_iff.mp asked)

theorem override_twice (config : Config) (env : Environment) :
    (config.override env).override env = config.override env := by
  simp only [override, Bool.and_assoc, Bool.and_self]
  cases env.bindAddress? with
  | none => rfl
  | some address => rfl

/-- The address after environments in turn: what the last one asks for of those that ask for any,
    and as it was if none does. -/
def Heard (config : Config) (envs : List Environment) (address : String) : Prop :=
  (∃ before env after, envs = before ++ env :: after ∧ env.AsksFor address ∧
    ∀ later ∈ after, later.Silent) ∨
  (∀ env ∈ envs, env.Silent) ∧ address = config.server.bindAddress

theorem heard_override_all (config : Config) (envs : List Environment) :
    config.Heard envs (config.overrideAll envs).server.bindAddress := by
  induction envs using List.reverseRecOn with
  | nil => exact Or.inr ⟨List.forall_mem_nil _, rfl⟩
  | append_singleton earlier env ih =>
    rw [override_all_append]
    rcases override_address_cases (config.overrideAll earlier) env with asks | ⟨silent, same⟩
    · exact Or.inl ⟨earlier, env, [], rfl, asks, List.forall_mem_nil _⟩
    · change Heard _ _ ((config.overrideAll earlier).override env).server.bindAddress
      rw [same]
      have last : ∀ later ∈ [env], later.Silent := List.forall_mem_singleton.mpr silent
      rcases ih with ⟨before, other, after, rfl, asks, rest⟩ | ⟨none, first⟩
      · refine Or.inl ⟨before, other, after ++ [env], by simp, asks, ?_⟩
        exact List.forall_mem_append.mpr ⟨rest, last⟩
      · exact Or.inr ⟨List.forall_mem_append.mpr ⟨none, last⟩, first⟩

theorem override_all_enabled_iff (config : Config) (envs : List Environment) :
    (config.overrideAll envs).server.enabled = true ↔
      config.server.enabled = true ∧ ∀ env ∈ envs, ¬ env.TurnsOff := by
  induction envs generalizing config with
  | nil => simp [overrideAll]
  | cons env rest ih =>
    rw [List.forall_mem_cons, ← and_assoc, ← override_enabled_iff]
    exact ih (config.override env)

/-- A configuration with the two settings that environments can change as they were before. -/
def restored (config before : Config) : Config :=
  { config with server := { config.server with
    enabled := before.server.enabled
    bindAddress := before.server.bindAddress } }

theorem override_all_others (config : Config) (envs : List Environment) :
    (config.overrideAll envs).restored config = config := by
  induction envs generalizing config with
  | nil => rfl
  | cons env rest ih =>
    calc (config.overrideAll (env :: rest)).restored config
      _ = (((config.override env).overrideAll rest).restored (config.override env)).restored
          config := rfl
      _ = (config.override env).restored config := by rw [ih]
      _ = config := rfl

/-- What environments in turn make of a configuration. -/
structure Overridden (config : Config) (envs : List Environment) (final : Config) : Prop where
  enabled : final.server.enabled = true ↔
    config.server.enabled = true ∧ ∀ env ∈ envs, ¬ env.TurnsOff
  address : config.Heard envs final.server.bindAddress
  others : final.restored config = config
  again : ∀ before env after, envs = before ++ env :: after →
    config.overrideAll (before ++ env :: env :: after) = final

/-- Environments in turn can only turn the endpoint off, the last address asked for is heard, an
    environment that comes twice in a row is like one that comes once, and nothing else changes. -/
theorem overrides_settle (config : Config) (envs : List Environment) :
    config.Overridden envs (config.overrideAll envs) where
  enabled := config.override_all_enabled_iff envs
  address := config.heard_override_all envs
  others := config.override_all_others envs
  again := by
    rintro before env after rfl
    have twice := override_twice (config.overrideAll before) env
    rw [override_all_append, override_all_append]
    exact congrArg (overrideAll · after) twice

/-- Turned off between a blank and an em space, and not on again. -/
example : (Config.default.overrideAll
    [fun name => if name = disableVariable then some " TRUE\u2003" else none,
      fun name => if name = disableVariable then some "false" else some "\t"]).server =
    { Config.default.server with enabled := false } := by decide +kernel

end Config
end SnapshotEndpoint
