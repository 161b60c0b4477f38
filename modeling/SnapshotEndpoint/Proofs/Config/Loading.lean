import Mathlib
import SnapshotEndpoint.Proofs.Config.Described
import SnapshotEndpoint.Proofs.Config.Loaded

/-!
What loading a document answers. A known key with a value that does not fit ends it, whatever the
environment says. Otherwise the document describes one configuration, the environment overrides
it, and what comes of that is judged: it is the answer if nothing is wrong with it, and else
everything that is wrong is, in the order of the checks.
-/
namespace SnapshotEndpoint

/-- The place of a violation in the order of the checks. -/
def Violation.rank : Violation → Nat
  | bindAddress _ => 0
  | zeroTimeout .read => 1
  | zeroTimeout .write => 2
  | zeroConnections => 3
  | zeroInitialDelay => 4
  | delayOrder _ _ => 5
  | multiplier _ => 6
  | jitter _ => 7

namespace Config

/-- What is wrong with a configuration. -/
inductive Breaks (config : Config) : Violation → Prop where
  | address (unparsed : SocketAddress.parse? config.server.bindAddress = none) :
      Breaks config (.bindAddress config.server.bindAddress)
  | readTimeout (zero : config.server.readTimeoutSecs = 0) : Breaks config (.zeroTimeout .read)
  | writeTimeout (zero : config.server.writeTimeoutSecs = 0) : Breaks config (.zeroTimeout .write)
  | connections (zero : config.server.maxConnections = 0) : Breaks config .zeroConnections
  | initialDelay (zero : config.backoff.initialDelayMs = 0) : Breaks config .zeroInitialDelay
  | delayOrder (crossed : config.backoff.maxDelayMs < config.backoff.initialDelayMs) :
      Breaks config (.delayOrder config.backoff.initialDelayMs config.backoff.maxDelayMs)
  | multiplier (shrinking : Binary64.le Binary64.one config.backoff.multiplier = false) :
      Breaks config (.multiplier config.backoff.multiplier)
  | jitter (outside : ¬ (Binary64.le Binary64.zero config.backoff.jitter = true ∧
      Binary64.lt config.backoff.jitter Binary64.one = true)) :
      Breaks config (.jitter config.backoff.jitter)

theorem mem_unless_ok_iff {ok : Bool} {violation other : Violation} :
    other ∈ unlessOk ok violation ↔ ok = false ∧ other = violation := by
  cases ok <;> simp [unlessOk]

theorem mem_violations_iff {config : Config} {violation : Violation} :
    violation ∈ config.violations ↔ config.Breaks violation := by
  simp only [violations, ServerSection.violations, BackoffSection.violations, List.mem_append,
    mem_unless_ok_iff, Option.isSome_eq_false_iff, Option.isNone_iff_eq_none, bne_eq_false_iff_eq,
    decide_eq_false_iff_not, Nat.not_le, or_assoc]
  constructor
  · rintro (⟨wrong, rfl⟩ | ⟨wrong, rfl⟩ | ⟨wrong, rfl⟩ | ⟨wrong, rfl⟩ | ⟨wrong, rfl⟩ |
      ⟨wrong, rfl⟩ | ⟨wrong, rfl⟩ | ⟨wrong, rfl⟩)
    · exact .address wrong
    · exact .readTimeout wrong
    · exact .writeTimeout wrong
    · exact .connections wrong
    · exact .initialDelay wrong
    · exact .delayOrder wrong
    · exact .multiplier wrong
    · exact .jitter (by simpa using wrong)
  · intro breaks
    cases breaks with
    | address wrong => simp [wrong]
    | readTimeout wrong => simp [wrong]
    | writeTimeout wrong => simp [wrong]
    | connections wrong => simp [wrong]
    | initialDelay wrong => simp [wrong]
    | delayOrder wrong => simp [wrong]
    | multiplier wrong => simp [wrong]
    | jitter wrong => simpa using wrong

theorem unless_ok_append_sublist {ok : Bool} {violation : Violation} {rest all : List Violation}
    (sublist : rest.Sublist all) : (unlessOk ok violation ++ rest).Sublist (violation :: all) := by
  cases ok with
  | false => exact sublist.cons_cons violation
  | true => exact sublist.cons violation

theorem violations_sublist (config : Config) : config.violations.Sublist
    [.bindAddress config.server.bindAddress, .zeroTimeout .read, .zeroTimeout .write,
      .zeroConnections, .zeroInitialDelay,
      .delayOrder config.backoff.initialDelayMs config.backoff.maxDelayMs,
      .multiplier config.backoff.multiplier, .jitter config.backoff.jitter] := by
  rw [← List.append_nil config.violations]
  simp only [violations, ServerSection.violations, BackoffSection.violations, List.append_assoc]
  repeat apply unless_ok_append_sublist
  exact List.nil_sublist _

theorem violations_in_order (config : Config) :
    config.violations.Pairwise fun first second => first.rank < second.rank := by
  refine List.Pairwise.sublist (violations_sublist config) ?_
  simp [Violation.rank]

theorem eq_singleton_of_ordered {violations : List Violation} {violation : Violation}
    (members : ∀ other, other ∈ violations ↔ other = violation)
    (ordered : violations.Pairwise fun first second => first.rank < second.rank) :
    violations = [violation] := by
  cases violations with
  | nil => cases (members violation).mpr rfl
  | cons first rest =>
    obtain rfl := (members first).mp List.mem_cons_self
    have later := (List.pairwise_cons.mp ordered).1
    rw [List.cons.injEq, List.eq_nil_iff_forall_not_mem]
    refine ⟨rfl, ?_⟩
    intro other member
    have lower := later other member
    rw [(members other).mp (List.mem_cons_of_mem _ member)] at lower
    exact Nat.lt_irrefl _ lower

theorem violations_eq_nil_iff_not_breaks {config : Config} :
    config.violations = [] ↔ ∀ violation, ¬ config.Breaks violation := by
  rw [List.eq_nil_iff_forall_not_mem]
  exact forall_congr' fun violation => not_congr mem_violations_iff

/-- The answer for a configuration once it is complete: itself if nothing is wrong with it, else
    everything that is, in the order of the checks. -/
structure Judged (config : Config) (answer : Except LoadError Config) : Prop where
  passed : (∀ violation, ¬ config.Breaks violation) → answer = .ok config
  failed : (∃ violation, config.Breaks violation) → ∃ violations,
    answer = .error (.validation violations) ∧
      (∀ violation, violation ∈ violations ↔ config.Breaks violation) ∧
      violations.Pairwise fun first second => first.rank < second.rank

theorem judged_checked (config : Config) : config.Judged config.checked where
  passed := by
    intro fine
    exact checked_eq_ok_iff.mpr ⟨rfl, violations_eq_nil_iff_not_breaks.mpr fine⟩
  failed := by
    rintro ⟨violation, breaks⟩
    refine ⟨config.violations, ?_, fun _ => mem_violations_iff, violations_in_order config⟩
    rw [checked, if_neg]
    intro fine
    rw [List.isEmpty_iff] at fine
    exact violations_eq_nil_iff_not_breaks.mp fine violation breaks

section Overrides

variable {config : Config} {env : Environment} {address : String}
  (asked : env.bindAddress? = some address)
include asked

theorem override_bind_address : (config.override env).server.bindAddress = address := by
  rw [override, asked]
  rfl

/-- The address is judged as the environment has it, and all else as it was. -/
theorem override_breaks_iff {violation : Violation} : (config.override env).Breaks violation ↔
    violation = .bindAddress address ∧ SocketAddress.parse? address = none ∨
      config.Breaks violation ∧ violation.rank ≠ 0 := by
  have same : (config.override env).server.bindAddress = address := override_bind_address asked
  constructor
  · intro breaks
    cases breaks with
    | address unparsed =>
      rw [same] at unparsed ⊢
      exact .inl ⟨rfl, unparsed⟩
    | readTimeout zero => exact .inr ⟨.readTimeout zero, by decide⟩
    | writeTimeout zero => exact .inr ⟨.writeTimeout zero, by decide⟩
    | connections zero => exact .inr ⟨.connections zero, by decide⟩
    | initialDelay zero => exact .inr ⟨.initialDelay zero, by decide⟩
    | delayOrder crossed => exact .inr ⟨.delayOrder crossed, by simp [Violation.rank]⟩
    | multiplier shrinking => exact .inr ⟨.multiplier shrinking, by simp [Violation.rank]⟩
    | jitter outside => exact .inr ⟨.jitter outside, by simp [Violation.rank]⟩
  · rintro (⟨rfl, unparsed⟩ | ⟨breaks, other⟩)
    · rw [← same] at unparsed ⊢
      exact .address unparsed
    · cases breaks with
      | address _ => exact absurd rfl other
      | readTimeout zero => exact .readTimeout zero
      | writeTimeout zero => exact .writeTimeout zero
      | connections zero => exact .connections zero
      | initialDelay zero => exact .initialDelay zero
      | delayOrder crossed => exact .delayOrder crossed
      | multiplier shrinking => exact .multiplier shrinking
      | jitter outside => exact .jitter outside

end Overrides

/-- What the content of a file that holds a document is loaded as. Whether the document fits, the
    environment has no say in; what else is wrong is that of the overridden configuration. -/
structure Loads (content : FileContent) (entries : Toml.Entries) (env : Environment) : Prop where
  unfit : (∃ misfit, load content env = .error (.schema misfit)) ↔ Unfit fields entries
  described : ¬ Unfit fields entries → ∃ config, Described fields default entries config ∧
    (∀ other, Described fields default entries other → other = config) ∧
    (config.override env).Judged (load content env)
  alike : ∀ content' s' entries', content'.text = .ok s' → Toml.parse? s' = some entries' →
    Alike fields entries entries' → (Unfit fields entries ↔ Unfit fields entries') ∧
      (¬ Unfit fields entries → load content env = load content' env)
  loaded : ∀ config, load content env = .ok config → config.violations = []
  rescued : ∀ config address, ¬ Unfit fields entries →
    Described fields default entries config → env.bindAddress? = some address →
    SocketAddress.parse? address ≠ none →
    (∀ violation, config.Breaks violation → violation = .bindAddress config.server.bindAddress) →
      load content env = .ok (config.override env)
  spoiled : ∀ config address, ¬ Unfit fields entries →
    Described fields default entries config → env.bindAddress? = some address →
    SocketAddress.parse? address = none → (∀ violation, ¬ config.Breaks violation) →
      load content env = .error (.validation [.bindAddress address])

section Documents

variable {content : FileContent} {s : String} {entries : Toml.Entries} {env : Environment}
  (readable : content.text = .ok s) (document : Toml.parse? s = some entries)
include readable document

theorem load_eq : load content env = match ofDocument entries with
    | .ok config => (config.override env).checked
    | .error misfit => .error (.schema misfit) := by
  simp only [load, readable, loadText, ofText, document]
  cases ofDocument entries <;> rfl

theorem unfit_iff : (∃ misfit, load content env = .error (.schema misfit)) ↔
    Unfit fields entries := by
  have able : (∃ config, ofDocument entries = .ok config) ↔ ¬ Unfit fields entries :=
    follows.read_iff (Toml.keyed_of_parse document) default
  rw [load_eq readable document, ← not_iff_not, ← able]
  cases ofDocument entries with
  | ok config =>
    refine iff_of_true ?_ ⟨config, rfl⟩
    rintro ⟨misfit, answer⟩
    dsimp only at answer
    rw [checked] at answer
    split at answer
    · cases answer
    · cases answer
  | error misfit =>
    refine iff_of_false (fun other => other ⟨misfit, rfl⟩) ?_
    rintro ⟨config, done⟩
    cases done

/-- A document that fits is read as what it describes. -/
theorem load_of_described (fit : ¬ Unfit fields entries) {config : Config}
    (described : Described fields default entries config) :
    load content env = (config.override env).checked := by
  have keyed := Toml.keyed_of_parse document
  obtain ⟨read, made⟩ := (follows.read_iff keyed default).mpr fit
  have same := separates.unique described (follows.described keyed made)
  have whole : ofDocument entries = .ok read := made
  rw [load_eq readable document, whole, ← same]

theorem loads_document (env : Environment) : Loads content entries env where
  unfit := unfit_iff readable document
  described := by
    intro fit
    have keyed := Toml.keyed_of_parse document
    obtain ⟨config, made⟩ := (follows.read_iff keyed default).mpr fit
    have described := follows.described keyed made
    refine ⟨config, described, fun _ other => separates.unique other described, ?_⟩
    rw [load_of_described readable document fit described]
    exact judged_checked _
  alike := by
    intro content' s' entries' readable' document' alike
    have unfit := unfit_iff_of_alike respects alike
    refine ⟨unfit, ?_⟩
    intro fit
    obtain ⟨config, made⟩ := (follows.read_iff (Toml.keyed_of_parse document) default).mpr fit
    have described := follows.described (Toml.keyed_of_parse document) made
    rw [load_of_described readable document fit described,
      load_of_described readable' document' (fun other => fit (unfit.mpr other))
        ((described_iff_of_alike respects alike).mp described)]
  loaded _ answer := violations_eq_nil_iff.mpr (Loaded.file answer).accepted
  rescued := by
    intro config address fit described asked good only
    rw [load_of_described readable document fit described]
    refine (judged_checked _).passed ?_
    intro violation breaks
    rcases (override_breaks_iff asked).mp breaks with ⟨_, bad⟩ | ⟨breaks, other⟩
    · exact good bad
    · rw [only violation breaks] at other
      exact other rfl
  spoiled := by
    intro config address fit described asked bad fine
    rw [load_of_described readable document fit described]
    have breaks (violation : Violation) :
        (config.override env).Breaks violation ↔ violation = .bindAddress address := by
      rw [override_breaks_iff asked]
      exact ⟨fun wrong => wrong.elim And.left fun old => absurd old.1 (fine violation),
        fun same => .inl ⟨same, bad⟩⟩
    obtain ⟨violations, answer, members, ordered⟩ :=
      (judged_checked (config.override env)).failed ⟨_, (breaks _).mpr rfl⟩
    simp only [breaks] at members
    rw [answer, eq_singleton_of_ordered members ordered]

end Documents

/-- A section as an array, a key of no field, and a bad address. -/
def mixedText : String :=
  "other = 1\nserver = [true, \"x\"]\n[observability]\nlog_format = \"json\"\n"

def mixedEntries : Toml.Entries :=
  [("other", .integer 1), ("server", .array [.boolean true, .string "x"]),
    ("observability", .table .header [("log_format", .string "json")])]

def mixed : Config :=
  { default with
    server := { ServerSection.default with bindAddress := "x" }
    observability := { LogSection.default with logFormat := .json } }

theorem mixed_described : Described fields default mixedEntries mixed := by
  simp only [Described, fields, List.forall_mem_cons]
  refine ⟨⟨_, rfl, ?_⟩, Eq.refl BackoffSection.default, ⟨_, rfl, ?_⟩, List.forall_mem_nil _⟩
  · simp only [Described, serverFields, List.forall_mem_cons]
    exact ⟨.boolean true, .string "x", rfl, rfl, rfl, List.forall_mem_nil _⟩
  · simp only [Described, observabilityFields, List.forall_mem_cons]
    exact ⟨rfl, .string .json, List.forall_mem_nil _⟩

theorem mixed_fit : ¬ Unfit fields mixedEntries := by
  simp only [Unfit, fields, List.mem_cons, List.not_mem_nil, or_false]
  rintro ⟨field, rfl | rfl | rfl, v, found, misfit⟩
  · cases found
    refine misfit ⟨_, rfl, ?_⟩
    simp only [Unfit, serverFields, List.mem_cons, List.not_mem_nil, or_false]
    rintro ⟨field, rfl | rfl | rfl | rfl | rfl, v, found, misfit⟩
    · cases found
      exact misfit ⟨_, .boolean true⟩
    · cases found
      exact misfit ⟨_, .string "x"⟩
    all_goals cases found
  · cases found
  · cases found
    refine misfit ⟨_, rfl, ?_⟩
    simp only [Unfit, observabilityFields, List.mem_cons, List.not_mem_nil, or_false]
    rintro ⟨field, rfl | rfl, v, found, misfit⟩
    · cases found
    · cases found
      exact misfit ⟨_, .string .json⟩

/-- An environment that asks for an address. -/
def asking (address : String) : Environment :=
  fun name => if name = bindAddressVariable then some address else none

theorem loads_document_mixed :
    load (.bytes mixedText.toUTF8) (asking "[::1]:80") = .ok (mixed.override (asking "[::1]:80")) ∧
      load (.bytes mixedText.toUTF8) (fun _ => none) = .error (.validation [.bindAddress "x"]) := by
  have readable : FileContent.text (.bytes mixedText.toUTF8) = .ok mixedText := by
    decide +kernel
  have document : Toml.parse? mixedText = some mixedEntries := by cbv
  have only : mixed.violations = [.bindAddress "x"] := by decide +kernel
  have breaks (violation : Violation) : mixed.Breaks violation ↔ violation = .bindAddress "x" := by
    rw [← mem_violations_iff, only, List.mem_singleton]
  constructor
  · refine (loads_document readable document (asking "[::1]:80")).rescued mixed "[::1]:80" mixed_fit
      mixed_described (by decide +kernel) (by decide +kernel) ?_
    exact fun violation wrong => (breaks violation).mp wrong
  · obtain ⟨config, _, unique, judged⟩ :=
      (loads_document readable document fun _ => none).described mixed_fit
    have same : config.override (fun _ => none) = mixed := by
      rw [← unique mixed mixed_described]
      decide +kernel
    rw [same] at judged
    obtain ⟨violations, answer, members, ordered⟩ := judged.failed ⟨_, (breaks _).mpr rfl⟩
    simp only [breaks] at members
    rw [answer, eq_singleton_of_ordered members ordered]

end Config
end SnapshotEndpoint
