import SnapshotEndpoint.Config.Load
import SnapshotEndpoint.Proofs.Config.Accepted

/-!
What the loader lets through. An environment changes an address and a flag and nothing else,
and whatever is answered has passed the check.
-/
namespace SnapshotEndpoint

namespace Config

/-- A configuration that a program can start with: one read from a file, or the defaults. -/
inductive Loaded (config : Config) : Prop where
  | file {content : FileContent} {env : Environment} (loaded : load content env = .ok config)
  | environment {env : Environment} (loaded : loadDefault env = .ok config)

variable {config result : Config} {env : Environment}

@[simp] theorem override_max_connections (config : Config) (env : Environment) :
    (config.override env).server.maxConnections = config.server.maxConnections := rfl

theorem checked_eq_ok_iff :
    config.checked = .ok result ↔ config = result ∧ result.violations = [] := by
  unfold checked
  split
  · rename_i fine
    rw [List.isEmpty_iff] at fine
    constructor
    · intro same
      cases same
      exact ⟨rfl, fine⟩
    · rintro ⟨rfl, _⟩
      rfl
  · rename_i wrong
    rw [List.isEmpty_iff] at wrong
    constructor
    · intro same
      cases same
    · rintro ⟨rfl, fine⟩
      exact absurd fine wrong

theorem finish_eq_ok_iff :
    config.finish env = .ok result ↔ config.override env = result ∧ result.violations = [] :=
  checked_eq_ok_iff

theorem load_eq_ok_iff {content : FileContent} : load content env = .ok result ↔
    ∃ s read, content.text = .ok s ∧ ofText s = .ok read ∧ read.finish env = .ok result := by
  unfold load
  cases content.text with
  | error error => simp
  | ok s =>
    cases text : ofText s with
    | error error => simp [loadText, bind, Except.bind, text]
    | ok read => simp [loadText, bind, Except.bind, text]

theorem eq_ok_of_to_option {answer : Except LoadError Config}
    (found : answer.toOption = some config) : answer = .ok config := by
  cases answer with
  | error error => cases found
  | ok other => exact congrArg Except.ok (Option.some.inj found)

theorem Loaded.accepted (loaded : config.Loaded) : config.Accepted := by
  rw [← violations_eq_nil_iff]
  cases loaded with
  | file loaded =>
    obtain ⟨s, read, _, _, finished⟩ := load_eq_ok_iff.mp loaded
    exact (finish_eq_ok_iff.mp finished).2
  | environment loaded => exact (finish_eq_ok_iff.mp loaded).2

theorem max_connections_of_load_default (loaded : loadDefault env = .ok config) :
    config.server.maxConnections = ServerSection.default.maxConnections := by
  obtain ⟨rfl, _⟩ := finish_eq_ok_iff.mp loaded
  exact override_max_connections default env

end Config
end SnapshotEndpoint
