import Mathlib.Tactic.MkIffOfInductiveProp
import Mathlib.Tactic.Tauto
import SnapshotEndpoint.Http.Router
import SnapshotEndpoint.Proofs.Http.Registration
import SnapshotEndpoint.Proofs.Snapshot.RoundTrip

/-!
Histories of registration attempts. Whatever is tried, the paths of the table stay apart from
each other, from patterns and from the reserved paths, and nothing is refused that could have
been added. So a router can mount the paths one after another, and the list of commands tells
them in their order.
-/
namespace SnapshotEndpoint

/-- A path that is matched as it is written. -/
structure Literal (path : String) : Prop where
  rooted : path.toList.head? = some '/'
  plain : ∀ c ∈ path.toList,
    c ≠ '\x7b' ∧ c ≠ '\x7d' ∧ c ≠ '*' ∧ c ≠ ':' ∧ Text.isBlank c = false

theorem is_pattern_char_iff (c : Char) : isPatternChar c = false ↔
    c ≠ '\x7b' ∧ c ≠ '\x7d' ∧ c ≠ '*' ∧ c ≠ ':' ∧ Text.isBlank c = false := by
  simp [isPatternChar, and_assoc]

theorem is_plain_path_iff (path : String) : isPlainPath path = true ↔ Literal path := by
  unfold isPlainPath
  split
  · rename_i rest chars
    rw [Bool.not_eq_true', List.any_eq_false]
    simp only [Bool.not_eq_true, is_pattern_char_iff]
    constructor
    · intro plain
      refine ⟨by rw [chars, List.head?_cons], ?_⟩
      intro c member
      rw [chars] at member
      rcases List.mem_cons.mp member with rfl | later
      · decide
      · exact plain c later
    · intro literal c later
      refine literal.plain c ?_
      rw [chars]
      exact List.mem_cons_of_mem _ later
  · rename_i other
    constructor
    · intro impossible
      cases impossible
    · intro literal
      have rooted := literal.rooted
      cases chars : path.toList with
      | nil => rw [chars] at rooted; cases rooted
      | cons c rest =>
        rw [chars, List.head?_cons] at rooted
        exact absurd (chars.trans (congrArg (· :: rest) (Option.some.inj rooted))) (other rest)

theorem is_reserved_path_iff (path : String) :
    isReservedPath path = true ↔ path = rootPath ∨ path = metricsPath := by
  simp [isReservedPath]

/-- Paths that can stand in one table. -/
@[mk_iff]
structure Admissible (paths : List String) : Prop where
  distinct : paths.Nodup
  literal : ∀ path ∈ paths, Literal path
  unreserved : ∀ path ∈ paths, ¬ (path = rootPath ∨ path = metricsPath)

theorem admissible_append_iff {paths : List String} {path : String} :
    Admissible (paths ++ [path]) ↔ Admissible paths ∧
      ¬ (path = rootPath ∨ path = metricsPath) ∧ Literal path ∧ path ∉ paths := by
  have distinct : (paths ++ [path]).Nodup ↔ path ∉ paths ∧ paths.Nodup := by
    rw [(List.perm_append_singleton path paths).nodup_iff, List.nodup_cons]
  rw [admissible_iff, admissible_iff, distinct, List.forall_mem_append, List.forall_mem_append,
    List.forall_mem_singleton, List.forall_mem_singleton]
  tauto

/-- Which refusal a path gets: reserved comes before invalid, and invalid before duplicate. -/
inductive Refused (paths : List String) (path : String) : RouteRefusal → Prop where
  | reserved (kept : path = rootPath ∨ path = metricsPath) : Refused paths path (.reserved path)
  | invalid (free : ¬ (path = rootPath ∨ path = metricsPath)) (pattern : ¬ Literal path) :
      Refused paths path (.invalid path)
  | duplicate (free : ¬ (path = rootPath ∨ path = metricsPath)) (literal : Literal path)
      (known : path ∈ paths) : Refused paths path (.duplicate path)

theorem refused_iff {paths : List String} (admissible : Admissible paths) (path : String) :
    (∃ refusal, Refused paths path refusal) ↔ ¬ Admissible (paths ++ [path]) := by
  rw [admissible_append_iff]
  constructor
  · rintro ⟨refusal, refused⟩ ⟨_, free, literal, fresh⟩
    cases refused with
    | reserved kept => exact free kept
    | invalid _ pattern => exact pattern literal
    | duplicate _ _ known => exact fresh known
  · intro broken
    by_cases free : path = rootPath ∨ path = metricsPath
    · exact ⟨_, .reserved free⟩
    · by_cases literal : Literal path
      · by_cases known : path ∈ paths
        · exact ⟨_, .duplicate free literal known⟩
        · exact absurd ⟨admissible, free, literal, known⟩ broken
      · exact ⟨_, .invalid free literal⟩

/-- The library that matches paths: what a router of it holds, and what adding a path gives. -/
structure PathRouter (R E : Type) where
  new : R
  held : R → List String
  route : R → String → Except E R

/-- A literal path that is not held yet can be added. -/
structure PathRouter.Lawful {R E : Type} (library : PathRouter R E) : Prop where
  new : library.held library.new = []
  route : ∀ router path, Literal path → path ∉ library.held router →
    ∃ next, library.route router path = .ok next ∧
      library.held next = library.held router ++ [path]

theorem PathRouter.Lawful.route_all {R E : Type} {library : PathRouter R E}
    (lawful : library.Lawful) {paths : List String} (literal : ∀ path ∈ paths, Literal path)
    (router : R) (apart : (library.held router ++ paths).Nodup) :
    ∃ built, paths.foldlM library.route router = .ok built ∧
      library.held built = library.held router ++ paths := by
  induction paths generalizing router with
  | nil => exact ⟨router, rfl, (List.append_nil _).symm⟩
  | cons path rest ih =>
    have fresh : path ∉ library.held router := by
      intro member
      exact (List.nodup_append.mp apart).2.2 path member path List.mem_cons_self rfl
    obtain ⟨next, added, held⟩ := lawful.route router path (literal path List.mem_cons_self) fresh
    rw [List.append_cons, ← held] at apart
    obtain ⟨built, mounted, all⟩ :=
      ih (fun other later => literal other (List.mem_cons_of_mem path later)) next apart
    refine ⟨built, ?_, ?_⟩
    · rw [List.foldlM_cons, added]
      exact mounted
    · rw [all, held, List.append_assoc, List.singleton_append]

namespace RouteTable

variable {P : Type}

theorem sound_iff_admissible (table : RouteTable P) : table.Sound ↔ Admissible table.paths := by
  constructor
  · intro sound
    refine ⟨sound.distinct, ?_, ?_⟩
    · intro path known
      exact (is_plain_path_iff path).mp (sound.plain path known)
    · intro path known
      rw [← is_reserved_path_iff, sound.unreserved path known]
      exact Bool.false_ne_true
  · intro admissible
    refine ⟨admissible.distinct, ?_, ?_⟩
    · intro path known
      exact (is_plain_path_iff path).mpr (admissible.literal path known)
    · intro path known
      rw [← Bool.not_eq_true, is_reserved_path_iff]
      exact admissible.unreserved path known

theorem register_eq_error_iff {table : RouteTable P} {path : String} {provider : P}
    {refusal : RouteRefusal} : table.register path provider = .error refusal ↔
      Refused table.paths path refusal := by
  unfold register
  constructor
  · intro refused
    split at refused
    · rename_i kept
      cases refused
      exact .reserved ((is_reserved_path_iff path).mp kept)
    · rename_i free
      rw [is_reserved_path_iff] at free
      split at refused
      · rename_i pattern
        cases refused
        rw [Bool.not_eq_true', ← Bool.not_eq_true, is_plain_path_iff] at pattern
        exact .invalid free pattern
      · rename_i literal
        rw [Bool.not_eq_true', Bool.not_eq_false, is_plain_path_iff] at literal
        split at refused
        · rename_i known
          cases refused
          exact .duplicate free literal (List.contains_iff_mem.mp known)
        · cases refused
  · intro refused
    cases refused with
    | reserved kept => rw [if_pos ((is_reserved_path_iff path).mpr kept)]
    | invalid free pattern =>
      rw [← is_reserved_path_iff] at free
      rw [← is_plain_path_iff] at pattern
      rw [if_neg free, if_pos (by simpa using pattern)]
    | duplicate free literal known =>
      rw [← is_reserved_path_iff] at free
      rw [← is_plain_path_iff] at literal
      rw [if_neg free, if_neg (by simpa using literal), if_pos (List.contains_iff_mem.mpr known)]

/-- The table after an attempt. A refused one leaves it as it was. -/
def attempt (table : RouteTable P) (tried : String × P) : RouteTable P :=
  match table.register tried.1 tried.2 with
  | .ok next => next
  | .error _ => table

def attempts (table : RouteTable P) (tries : List (String × P)) : RouteTable P :=
  tries.foldl attempt table

/-- The attempts that are not refused, in their order. -/
def accepted (table : RouteTable P) : List (String × P) → List (String × P)
  | [] => []
  | tried :: rest =>
      match table.register tried.1 tried.2 with
      | .ok next => tried :: next.accepted rest
      | .error _ => table.accepted rest

theorem reachable_attempts {start : RouteTable P} (reachable : start.Reachable)
    (tries : List (String × P)) : (start.attempts tries).Reachable := by
  induction tries generalizing start with
  | nil => exact reachable
  | cons tried rest ih =>
    rw [attempts, List.foldl_cons]
    apply ih
    unfold attempt
    split
    · rename_i next registered
      exact reachable.registered registered
    · exact reachable

theorem routes_attempts (start : RouteTable P) (tries : List (String × P)) :
    (start.attempts tries).routes = start.routes ++ start.accepted tries := by
  induction tries generalizing start with
  | nil => exact (List.append_nil _).symm
  | cons tried rest ih =>
    have later := ih (start.attempt tried)
    rw [attempts, List.foldl_cons, ← attempts, later, accepted, attempt]
    split
    · rename_i next registered
      obtain ⟨_, _, _, rfl⟩ := register_eq_ok_iff.mp registered
      exact (List.append_cons start.routes tried _).symm
    · rfl

/-- The paths in the order in which a router mounts them. -/
def mountOrder (table : RouteTable P) : List String := rootPath :: (table.paths ++ [metricsPath])

/-- Mounting a table stops at the first path that cannot be added. -/
def mount {R E : Type} (library : PathRouter R E) (table : RouteTable P) : Except E R :=
  table.mountOrder.foldlM library.route library.new

theorem mount_order_nodup {table : RouteTable P} (admissible : Admissible table.paths) :
    table.mountOrder.Nodup := by
  have metrics : metricsPath ∉ table.paths := by
    intro known
    exact admissible.unreserved metricsPath known (.inr rfl)
  have root : rootPath ∉ table.paths := by
    intro known
    exact admissible.unreserved rootPath known (.inl rfl)
  rw [mountOrder, List.nodup_cons, (List.perm_append_singleton metricsPath table.paths).nodup_iff,
    List.nodup_cons, List.mem_append, List.mem_singleton]
  exact ⟨not_or.mpr ⟨root, by decide⟩, metrics, admissible.distinct⟩

theorem mount_order_literal {table : RouteTable P} (admissible : Admissible table.paths) :
    ∀ path ∈ table.mountOrder, Literal path := by
  have own : Literal rootPath ∧ Literal metricsPath := by
    rw [← is_plain_path_iff, ← is_plain_path_iff]
    decide
  intro path mounted
  rw [mountOrder, List.mem_cons, List.mem_append, List.mem_singleton] at mounted
  rcases mounted with rfl | known | rfl
  · exact own.1
  · exact admissible.literal path known
  · exact own.2

theorem mount_eq_ok {R E : Type} {library : PathRouter R E} (lawful : library.Lawful)
    {table : RouteTable P} (admissible : Admissible table.paths) :
    ∃ built, table.mount library = .ok built ∧ library.held built = table.mountOrder := by
  have apart : (library.held library.new ++ table.mountOrder).Nodup := by
    rw [lawful.new]
    exact mount_order_nodup admissible
  have built := lawful.route_all (mount_order_literal admissible) library.new apart
  rwa [lawful.new, List.nil_append] at built

end RouteTable

namespace Listing

theorem decode_encode (listing : Listing) :
    Wire.decode Listing (Wire.encode listing) = .ok listing :=
  faithful.decode_encode trivial

end Listing

variable {P : Type}

/-- Every attempt is the next one after those before it. -/
theorem registrations_admissible {start : RouteTable P}
    (initial : start = .empty ∨ ∃ providers, start = .standard providers)
    (tries : List (String × P)) {R E : Type} {library : PathRouter R E} (lawful : library.Lawful) :
    let table := start.attempts tries
    Admissible table.paths ∧
      table.routes = start.routes ++ start.accepted tries ∧
      (∀ path provider,
        ((∃ refusal, table.register path provider = .error refusal) ↔
          ¬ Admissible (table.paths ++ [path])) ∧
        ∀ refusal, table.register path provider = .error refusal ↔
          Refused table.paths path refusal) ∧
      (table.mountOrder.Nodup ∧ ∀ path ∈ table.mountOrder, Literal path) ∧
      (∃ built, table.mount library = .ok built ∧ library.held built = table.mountOrder) ∧
      Wire.decode Listing (Wire.encode table.listing) = .ok ⟨table.paths⟩ := by
  intro table
  have reachable : start.Reachable := by
    rcases initial with rfl | ⟨providers, rfl⟩
    · exact .empty
    · exact .standard providers
  have admissible : Admissible table.paths := by
    rw [← RouteTable.sound_iff_admissible]
    exact RouteTable.sound_of_reachable (RouteTable.reachable_attempts reachable tries)
  refine ⟨admissible, RouteTable.routes_attempts start tries, ?_,
    ⟨RouteTable.mount_order_nodup admissible, RouteTable.mount_order_literal admissible⟩,
    RouteTable.mount_eq_ok lawful admissible, Listing.decode_encode _⟩
  intro path provider
  refine ⟨?_, fun refusal => RouteTable.register_eq_error_iff⟩
  rw [← refused_iff admissible path]
  exact exists_congr fun refusal => RouteTable.register_eq_error_iff

/-- A router that takes literal paths only, each of them once. -/
def PathRouter.strict : PathRouter (List String) RouteRefusal where
  new := []
  held router := router
  route router path :=
    if isPlainPath path = false then .error (.invalid path)
    else if path ∈ router then .error (.duplicate path)
    else .ok (router ++ [path])

theorem PathRouter.strict_lawful : PathRouter.strict.Lawful := by
  refine ⟨rfl, ?_⟩
  intro router path literal fresh
  refine ⟨router ++ [path], ?_, rfl⟩
  rw [← is_plain_path_iff] at literal
  have missing : path ∉ router := fresh
  simp [strict, literal, missing]

/-- A table of five routes that four attempts make one longer. -/
theorem registrations_admissible_extended :
    let start := RouteTable.standard (StandardProviders.mk 1 2 3 4 5)
    let tries := [("/metrics", 6), ("/nodes/*", 7), ("/nodes", 8), (StandardPath.pods, 9)]
    let table := start.attempts tries
    PathRouter.strict.Lawful ∧
      table.routes = start.routes ++ [("/nodes", 8)] ∧
      table.register "/nodes" 10 = .error (.duplicate "/nodes") ∧
      table.mount PathRouter.strict = .ok table.mountOrder ∧
      Wire.decode Listing (Wire.encode table.listing) = .ok ⟨start.paths ++ ["/nodes"]⟩ := by
  intro start tries table
  obtain ⟨_, routes, answers, _, ⟨built, mounted, all⟩, decoded⟩ :=
    registrations_admissible (.inr ⟨StandardProviders.mk 1 2 3 4 5, rfl⟩) tries
      PathRouter.strict_lawful
  have accepted : start.accepted tries = [("/nodes", 8)] := by decide
  have longer : table.routes = start.routes ++ [("/nodes", 8)] := accepted ▸ routes
  have paths : table.paths = start.paths ++ ["/nodes"] := by
    rw [RouteTable.paths, longer, List.map_append]
    rfl
  refine ⟨PathRouter.strict_lawful, longer, ?_, ?_, ?_⟩
  · rw [(answers "/nodes" 10).2]
    refine .duplicate (by decide) ((is_plain_path_iff _).mp (by decide)) ?_
    rw [paths]
    exact List.mem_append_right _ List.mem_cons_self
  · exact mounted.trans (congrArg Except.ok all)
  · exact decoded.trans (congrArg (fun commands => Except.ok (Listing.mk commands)) paths)

end SnapshotEndpoint
