import SnapshotEndpoint.Http.RouteTable

/-!
The tables that registration can make. Whatever is registered, paths are plain, none is
reserved and none stands twice, so a path has one provider at most.
-/
namespace SnapshotEndpoint.RouteTable

variable {P : Type}

/-- The tables that accepted registrations make of an empty or a standard one. A refused one
    leaves the table as it was. -/
inductive Reachable : RouteTable P → Prop where
  | empty : Reachable RouteTable.empty
  | standard (providers : StandardProviders P) : Reachable (RouteTable.standard providers)
  | registered {table next : RouteTable P} {path : String} {provider : P}
      (before : Reachable table) (accepted : table.register path provider = .ok next) :
      Reachable next

structure Sound (table : RouteTable P) : Prop where
  distinct : table.paths.Nodup
  plain : ∀ path ∈ table.paths, isPlainPath path = true
  unreserved : ∀ path ∈ table.paths, isReservedPath path = false

theorem mem_paths_iff {table : RouteTable P} {path : String} :
    path ∈ table.paths ↔ ∃ provider, (path, provider) ∈ table.routes := by
  simp [paths]

theorem register_eq_ok_iff {table next : RouteTable P} {path : String} {provider : P} :
    table.register path provider = .ok next ↔
      isReservedPath path = false ∧ isPlainPath path = true ∧ path ∉ table.paths ∧
        ⟨table.routes ++ [(path, provider)]⟩ = next := by
  unfold register
  cases isReservedPath path with
  | true => simp
  | false =>
    cases isPlainPath path with
    | false => simp
    | true => by_cases known : path ∈ table.paths <;> simp [known]

theorem sound_empty : (empty : RouteTable P).Sound := by
  constructor <;> simp [empty, paths]

theorem standard_paths (providers : StandardProviders P) : (standard providers).paths =
    [StandardPath.enis, StandardPath.pods, StandardPath.networkSettings,
      StandardPath.poolSettings, StandardPath.eniConfigs] := rfl

theorem sound_standard (providers : StandardProviders P) : (standard providers).Sound := by
  constructor <;> rw [standard_paths] <;> decide

theorem Sound.registered {table next : RouteTable P} {path : String} {provider : P}
    (sound : table.Sound) (accepted : table.register path provider = .ok next) : next.Sound := by
  obtain ⟨unreserved, plain, fresh, rfl⟩ := register_eq_ok_iff.mp accepted
  have paths : (⟨table.routes ++ [(path, provider)]⟩ : RouteTable P).paths =
      table.paths ++ [path] := by
    simp [RouteTable.paths]
  constructor <;> rw [paths]
  · rw [List.nodup_append]
    refine ⟨sound.distinct, by simp, ?_⟩
    intro known member new same
    rw [List.mem_singleton.mp same]
    rintro rfl
    exact fresh member
  · intro other member
    rcases List.mem_append.mp member with known | new
    · exact sound.plain other known
    · rwa [List.mem_singleton.mp new]
  · intro other member
    rcases List.mem_append.mp member with known | new
    · exact sound.unreserved other known
    · rwa [List.mem_singleton.mp new]

theorem sound_of_reachable {table : RouteTable P} (reachable : table.Reachable) :
    table.Sound := by
  induction reachable with
  | empty => exact sound_empty
  | standard providers => exact sound_standard providers
  | registered before accepted ih => exact ih.registered accepted

theorem find_eq_none_iff {table : RouteTable P} {path : String} :
    table.find? path = none ↔ path ∉ table.paths := by
  rw [find?, List.lookup_eq_none_iff, mem_paths_iff]
  constructor
  · rintro missing ⟨provider, member⟩
    simpa using missing _ member
  · intro missing route member
    rw [bne_iff_ne]
    rintro rfl
    exact missing ⟨route.2, member⟩

/-- A route of a sound table is the one that is found under its path. -/
theorem Sound.find_eq_some_iff {table : RouteTable P} (sound : table.Sound) {path : String}
    {provider : P} : table.find? path = some provider ↔ (path, provider) ∈ table.routes := by
  constructor
  · rw [find?, List.lookup_eq_some_iff]
    rintro ⟨before, after, parts, _⟩
    simp [parts]
  · intro member
    exact lookup_of_distinct sound.distinct member

theorem Sound.root_not_mem {table : RouteTable P} (sound : table.Sound) :
    rootPath ∉ table.paths := by
  intro member
  have := sound.unreserved rootPath member
  simp [isReservedPath] at this

theorem Sound.metrics_not_mem {table : RouteTable P} (sound : table.Sound) :
    metricsPath ∉ table.paths := by
  intro member
  have := sound.unreserved metricsPath member
  simp [isReservedPath] at this

end SnapshotEndpoint.RouteTable
