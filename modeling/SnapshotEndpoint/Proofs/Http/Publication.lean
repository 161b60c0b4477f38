import SnapshotEndpoint.Http.Session
import SnapshotEndpoint.Proofs.Http.Answers

/-!
A session over time. A built router keeps the routes and the list of commands that its table
had; what its data routes show is read from the cells anew for every request. Whatever steps
are taken in whatever order, a request is answered by the routes of the last build with the
values of the last publications.
-/
namespace SnapshotEndpoint

namespace Sources

/-- What the readers of a cell see. -/
def shown (sources : Sources) (cell : String) : Json := (sources.cells.get? cell).getD .null

def IsOpen (sources : Sources) (cell : String) : Prop := (sources.cells.get? cell).isSome

/-- The later cells are the earlier ones, and perhaps some new ones that hold nothing yet. -/
def Opened (earlier later : Sources) : Prop :=
  ∀ cell, later.cells.get? cell = earlier.cells.get? cell ∨
    earlier.cells.get? cell = none ∧ later.cells.get? cell = some .null

theorem opened_of_same_cells {earlier later : Sources} (same : later.cells = earlier.cells) :
    Opened earlier later := by
  intro cell
  rw [same]
  exact .inl rfl

theorem opened_refl (sources : Sources) : Opened sources sources := opened_of_same_cells rfl

theorem Opened.trans {first second third : Sources} (before : Opened first second)
    (after : Opened second third) : Opened first third := by
  intro cell
  rcases after cell with kept | ⟨missing, fresh⟩
  · rw [kept]
    exact before cell
  · rcases before cell with same | ⟨_, filled⟩
    · exact .inr ⟨same ▸ missing, fresh⟩
    · rw [filled] at missing
      cases missing

theorem Opened.shown_eq {earlier later : Sources} (opened : Opened earlier later)
    (cell : String) : later.shown cell = earlier.shown cell := by
  rcases opened cell with same | ⟨missing, fresh⟩
  · rw [shown, same, shown]
  · rw [shown, fresh, shown, missing]
    rfl

theorem Opened.stays {earlier later : Sources} (opened : Opened earlier later) {cell : String}
    (there : earlier.IsOpen cell) : later.IsOpen cell := by
  rcases opened cell with same | ⟨_, fresh⟩
  · rwa [IsOpen, same]
  · rw [IsOpen, fresh]
    rfl

theorem opened_open_cell (sources : Sources) (cell : String) :
    Opened sources (sources.openCell cell) := by
  unfold openCell
  split
  · exact opened_refl sources
  · rename_i missing
    intro other
    by_cases same : other = cell
    · subst same
      exact .inr ⟨missing, SortedMap.get_insert_self _ _ _⟩
    · exact .inl (SortedMap.get_insert_other _ same _)

theorem is_open_open_cell (sources : Sources) (cell : String) :
    (sources.openCell cell).IsOpen cell := by
  unfold openCell
  split
  · rename_i there
    rw [IsOpen, there]
    rfl
  · rw [IsOpen, SortedMap.get_insert_self]
    rfl

theorem publish_eq_some_iff {sources next : Sources} {cell : String} {value : Json} :
    sources.publish cell value = some next ↔
      sources.IsOpen cell ∧ { sources with cells := sources.cells.insert cell value } = next := by
  unfold publish IsOpen
  cases sources.cells.get? cell <;> simp

theorem shown_insert_self (sources : Sources) (cell : String) (value : Json) :
    shown { sources with cells := sources.cells.insert cell value } cell = value := by
  rw [shown, SortedMap.get_insert_self]
  rfl

theorem shown_insert_other (sources : Sources) {cell other : String} (apart : other ≠ cell)
    (value : Json) :
    shown { sources with cells := sources.cells.insert cell value } other =
      sources.shown other := by
  rw [shown, SortedMap.get_insert_other _ apart, shown]

theorem is_open_insert {sources : Sources} {other : String} (there : sources.IsOpen other)
    (cell : String) (value : Json) :
    IsOpen { sources with cells := sources.cells.insert cell value } other := by
  by_cases same : other = cell
  · subst same
    rw [IsOpen, SortedMap.get_insert_self]
    rfl
  · rwa [IsOpen, SortedMap.get_insert_other _ same]

end Sources

/-- What a provider reads is there. -/
def Provider.Attached (provider : Provider) (sources : Sources) : Prop :=
  ∀ cell, provider = .cell cell → sources.IsOpen cell

theorem Provider.Attached.opened {provider : Provider} {earlier later : Sources}
    (attached : provider.Attached earlier) (opened : Sources.Opened earlier later) :
    provider.Attached later := by
  intro cell reads
  exact opened.stays (attached cell reads)

theorem Provider.query_cells (provider : Provider) (sources : Sources) :
    (provider.query sources).2.cells = sources.cells := by
  cases provider <;> rfl

def RouteTable.Attached (table : RouteTable Provider) (sources : Sources) : Prop :=
  ∀ route ∈ table.routes, route.2.Attached sources

theorem RouteTable.Attached.opened {table : RouteTable Provider} {earlier later : Sources}
    (attached : table.Attached earlier) (opened : Sources.Opened earlier later) :
    table.Attached later := by
  intro route member
  exact (attached route member).opened opened

theorem Router.respond_cells (router : Router Provider) (metrics : Metrics) (path : String)
    (sources : Sources) :
    (router.respond Provider.query metrics path sources).state.cells = sources.cells := by
  unfold respond
  split
  · rename_i provider found
    rw [← provider.query_cells sources]
    unfold render
    split <;> rename_i answer <;> rw [answer]
  · split <;> rfl

namespace Session

theorem opened_install (sources : Sources) (spec : ProviderSpec) :
    Sources.Opened sources (install sources spec).1 := by
  cases spec with
  | cell name => exact Sources.opened_open_cell sources name
  | fixed value => exact Sources.opened_refl sources
  | counter => exact Sources.opened_of_same_cells rfl
  | failing failure => exact Sources.opened_refl sources

theorem attached_install (sources : Sources) (spec : ProviderSpec) :
    (install sources spec).2.Attached (install sources spec).1 := by
  intro cell reads
  cases spec with
  | cell name =>
    cases reads
    exact Sources.is_open_open_cell sources _
  | fixed value => cases reads
  | counter => cases reads
  | failing failure => cases reads

theorem opened_install_standard (sources : Sources) (specs : StandardProviders ProviderSpec) :
    Sources.Opened sources (installStandard sources specs).1 :=
  ((((opened_install _ _).trans (opened_install _ _)).trans (opened_install _ _)).trans
    (opened_install _ _)).trans (opened_install _ _)

theorem attached_install_standard (sources : Sources) (specs : StandardProviders ProviderSpec) :
    (RouteTable.standard (installStandard sources specs).2).Attached
      (installStandard sources specs).1 := by
  -- Each provider is attached when it is installed, and stays so while the others follow.
  let first := install sources specs.enis
  let second := install first.1 specs.pods
  let third := install second.1 specs.networkSettings
  let fourth := install third.1 specs.poolSettings
  let fifth := install fourth.1 specs.eniConfigs
  have fromFourth : Sources.Opened fourth.1 fifth.1 := opened_install _ _
  have fromThird : Sources.Opened third.1 fifth.1 := (opened_install _ _).trans fromFourth
  have fromSecond : Sources.Opened second.1 fifth.1 := (opened_install _ _).trans fromThird
  have fromFirst : Sources.Opened first.1 fifth.1 := (opened_install _ _).trans fromSecond
  have attached : ∀ provider ∈ [first.2, second.2, third.2, fourth.2, fifth.2],
      provider.Attached fifth.1 := by
    simp only [List.forall_mem_cons]
    exact ⟨(attached_install _ _).opened fromFirst, (attached_install _ _).opened fromSecond,
      (attached_install _ _).opened fromThird, (attached_install _ _).opened fromFourth,
      attached_install _ _, by simp⟩
  intro route member
  exact attached route.2 (List.mem_map_of_mem (f := Prod.snd) member)

/-- What a session keeps: its table is one that registrations make, and whatever its routes
    read is there. -/
structure Sound (s : Session) : Prop where
  reachable : s.table.Reachable
  attached : s.table.Attached s.sources

theorem sound_start : start.Sound :=
  ⟨.empty, by simp [RouteTable.Attached, start, RouteTable.empty]⟩

/-- The value that an accepted publication to a cell puts there. -/
def publication? (cell : String) : SessionStep × SessionAnswer → Option Json
  | (.publish name value, .published _) => if name = cell then some value else none
  | _ => none

/-- A step either publishes one value, or leaves all that is shown as it was. -/
theorem step_sources (s : Session) (action : SessionStep) :
    (∃ cell value, action = .publish cell value ∧ s.sources.IsOpen cell ∧
      s.step action =
        ({ s with sources := { s.sources with cells := s.sources.cells.insert cell value } },
          .published value.text)) ∨
      Sources.Opened s.sources (s.step action).1.sources ∧
        ∀ cell, publication? cell (action, (s.step action).2) = none := by
  cases action with
  | publish cell value =>
    simp only [step]
    split
    · rename_i next accepted
      obtain ⟨there, rfl⟩ := Sources.publish_eq_some_iff.mp accepted
      exact .inl ⟨cell, value, rfl, there, rfl⟩
    · exact .inr ⟨Sources.opened_refl _, fun _ => rfl⟩
  | register path spec =>
    refine .inr ⟨?_, fun _ => rfl⟩
    simp only [step]
    split <;> exact opened_install s.sources spec
  | standard specs => exact .inr ⟨opened_install_standard s.sources specs, fun _ => rfl⟩
  | request method uri remote =>
    refine .inr ⟨?_, fun _ => rfl⟩
    simp only [step]
    split
    · exact Sources.opened_refl _
    · exact Sources.opened_refl _
    · exact Sources.opened_of_same_cells (Router.respond_cells _ _ _ _)
  | paths => exact .inr ⟨Sources.opened_refl _, fun _ => rfl⟩
  | root => exact .inr ⟨Sources.opened_refl _, fun _ => rfl⟩
  | build => exact .inr ⟨Sources.opened_refl _, fun _ => rfl⟩
  | metrics => exact .inr ⟨Sources.opened_refl _, fun _ => rfl⟩

theorem shown_step (s : Session) (action : SessionStep) (cell : String) :
    (s.step action).1.sources.shown cell =
      (publication? cell (action, (s.step action).2)).getD (s.sources.shown cell) := by
  rcases s.step_sources action with ⟨name, value, rfl, there, answer⟩ | ⟨opened, silent⟩
  · rw [answer]
    by_cases same : name = cell
    · subst same
      simp [publication?, Sources.shown_insert_self]
    · simp [publication?, same, Sources.shown_insert_other _ (Ne.symm same)]
  · rw [silent cell]
    exact opened.shown_eq cell

theorem shown_publish {s : Session} {cell : String} (there : s.sources.IsOpen cell)
    (value : Json) : (s.step (.publish cell value)).1.sources.shown cell = value := by
  rw [step, Sources.publish_eq_some_iff.mpr ⟨there, rfl⟩]
  exact Sources.shown_insert_self s.sources cell value

theorem is_open_step {s : Session} {cell : String} (there : s.sources.IsOpen cell)
    (action : SessionStep) : (s.step action).1.sources.IsOpen cell := by
  rcases s.step_sources action with ⟨name, value, rfl, _, answer⟩ | ⟨opened, _⟩
  · rw [answer]
    exact Sources.is_open_insert there name value
  · exact opened.stays there

theorem router_step {s : Session} {action : SessionStep} (other : action ≠ .build) :
    (s.step action).1.router = s.router := by
  cases action with
  | build => exact absurd rfl other
  | register path spec => simp only [step]; split <;> rfl
  | publish cell value => simp only [step]; split <;> rfl
  | request method uri remote => simp only [step]; split <;> rfl
  | standard specs => rfl
  | paths => rfl
  | root => rfl
  | metrics => rfl

/-- A step leaves the table alone, or it is a registration that was accepted or a standard
    table, with providers whose data are there. -/
theorem Sound.step {s : Session} (sound : s.Sound) (action : SessionStep) :
    (s.step action).1.Sound := by
  have keeps : ∀ {t : Session}, t.table = s.table →
      (∀ cell, s.sources.IsOpen cell → t.sources.IsOpen cell) → t.Sound := by
    intro t same stays
    constructor
    · rw [same]
      exact sound.reachable
    · rw [same]
      intro route member cell reads
      exact stays cell (sound.attached route member cell reads)
  have stays : ∀ cell, s.sources.IsOpen cell → (s.step action).1.sources.IsOpen cell :=
    fun cell there => is_open_step there action
  cases action with
  | register path spec =>
    simp only [Session.step]
    split
    · rename_i table accepted
      refine ⟨.registered sound.reachable accepted, ?_⟩
      obtain ⟨_, _, _, rfl⟩ := RouteTable.register_eq_ok_iff.mp accepted
      intro route member
      rcases List.mem_append.mp member with known | new
      · exact (sound.attached route known).opened (opened_install s.sources spec)
      · rw [List.mem_singleton.mp new]
        exact attached_install s.sources spec
    · exact ⟨sound.reachable, sound.attached.opened (opened_install s.sources spec)⟩
  | standard specs => exact ⟨.standard _, attached_install_standard s.sources specs⟩
  | publish cell value =>
    refine keeps ?_ stays
    simp only [Session.step]
    split <;> rfl
  | request method uri remote =>
    refine keeps ?_ stays
    simp only [Session.step]
    split <;> rfl
  | paths => exact sound
  | root => exact sound
  | build => exact ⟨sound.reachable, sound.attached⟩
  | metrics => exact sound

/-- Steps with what each was answered. -/
def transcript (s : Session) (actions : List SessionStep) : List (SessionStep × SessionAnswer) :=
  actions.zip (s.run actions).2

theorem transcript_cons (s : Session) (first : SessionStep) (rest : List SessionStep) :
    s.transcript (first :: rest) =
      (first, (s.step first).2) :: (s.step first).1.transcript rest := rfl

def lastPublished (cell : String) (transcript : List (SessionStep × SessionAnswer)) :
    Option Json :=
  transcript.reverse.findSome? (publication? cell)

theorem last_published_cons (cell : String) (entry : SessionStep × SessionAnswer)
    (rest : List (SessionStep × SessionAnswer)) :
    lastPublished cell (entry :: rest) =
      (lastPublished cell rest).or (publication? cell entry) := by
  rw [lastPublished, List.reverse_cons, List.findSome?_append, List.findSome?_singleton]
  rfl

theorem publish_of_publication {cell : String} {action : SessionStep} {answer : SessionAnswer}
    {value : Json} (published : publication? cell (action, answer) = some value) :
    action = .publish cell value := by
  unfold publication? at published
  split at published
  · rename_i name put text pair
    cases pair
    split at published
    · rename_i same
      cases published
      rw [same]
    · cases published
  · cases published

theorem shown_run (s : Session) (actions : List SessionStep) (cell : String) :
    (s.run actions).1.sources.shown cell =
      (lastPublished cell (s.transcript actions)).getD (s.sources.shown cell) := by
  induction actions generalizing s with
  | nil => rfl
  | cons first rest ih =>
    rw [transcript_cons, last_published_cons, run, ih, shown_step]
    cases lastPublished cell ((s.step first).1.transcript rest) <;> rfl

theorem shown_run_of_unpublished {cell : String} {actions : List SessionStep}
    (unpublished : ∀ value, .publish cell value ∉ actions) (s : Session) :
    (s.run actions).1.sources.shown cell = s.sources.shown cell := by
  induction actions generalizing s with
  | nil => rfl
  | cons first rest ih =>
    have silent : publication? cell (first, (s.step first).2) = none := by
      rw [Option.eq_none_iff_forall_ne_some]
      intro value published
      exact unpublished value (List.mem_cons.mpr (.inl (publish_of_publication published).symm))
    have later : ∀ value, .publish cell value ∉ rest :=
      fun value member => unpublished value (List.mem_cons_of_mem first member)
    rw [run, ih later, shown_step, silent, Option.getD_none]

theorem router_run {s : Session} {actions : List SessionStep} (unbuilt : .build ∉ actions) :
    (s.run actions).1.router = s.router := by
  induction actions generalizing s with
  | nil => rfl
  | cons first rest ih =>
    rw [List.mem_cons, not_or] at unbuilt
    rw [run, ih unbuilt.2, router_step (Ne.symm unbuilt.1)]

theorem Sound.run {s : Session} (sound : s.Sound) (actions : List SessionStep) :
    (s.run actions).1.Sound := by
  induction actions generalizing s with
  | nil => exact sound
  | cons first rest ih => exact ih (sound.step first)

theorem is_open_run {s : Session} {cell : String} (there : s.sources.IsOpen cell)
    (actions : List SessionStep) : (s.run actions).1.sources.IsOpen cell := by
  induction actions generalizing s with
  | nil => exact there
  | cons first rest ih => exact ih (is_open_step there first)

theorem run_append (s : Session) (earlier later : List SessionStep) :
    (s.run (earlier ++ later)).1 = ((s.run earlier).1.run later).1 := by
  induction earlier generalizing s with
  | nil => rfl
  | cons first rest ih => exact ih (s.step first).1

/-- What a client gets for a request, if it gets an answer at all. -/
def reply (s : Session) (method uri : String) (remote : Option String) : Option Sent :=
  match (s.step (.request method uri remote)).2 with
  | .answered sent _ => some sent
  | _ => none

/-- Requests for a path get a JSON text, whatever else they carry. -/
def Shows (s : Session) (path text : String) : Prop :=
  ∀ (method uri : String) (remote : Option String) (request : Request),
    Request.ofParts? method uri remote = some request → request.uri.path = path →
      s.reply method uri remote = some ((⟨200, .json text⟩ : Response).sent method)

/-- The routes that answer are those of a table and no others: each asks its provider in the
    present state, and all other paths get the table's list of commands, or the metrics. -/
structure Serves (s : Session) (table : RouteTable Provider) : Prop where
  registered : ∀ (provider : Provider) (method uri : String) (remote : Option String)
    (request : Request), Request.ofParts? method uri remote = some request →
      (request.uri.path, provider) ∈ table.routes →
        s.reply method uri remote = some
          ((Router.render Provider.query request.uri.path provider s.sources).response.sent method)
  listing : ∀ path, path ∉ table.paths → path ≠ "/metrics" →
    s.Shows path (Wire.encode table.listing)
  metrics : ∀ (method uri : String) (remote : Option String) (request : Request),
    Request.ofParts? method uri remote = some request → request.uri.path = "/metrics" →
      s.reply method uri remote = some ((⟨200, .metrics s.metrics⟩ : Response).sent method)

theorem method_of_parts {method uri : String} {remote : Option String} {request : Request}
    (legal : Request.ofParts? method uri remote = some request) : request.method = method := by
  unfold Request.ofParts? at legal
  split at legal
  · obtain ⟨target, _, rfl⟩ := Option.map_eq_some_iff.mp legal
    rfl
  · cases legal

section Built

variable {s : Session} {table : RouteTable Provider} (built : s.router = some table.build)

section Request

variable {method uri : String} {remote : Option String} {request : Request}
  (legal : Request.ofParts? method uri remote = some request)

include built legal

theorem step_request : s.step (.request method uri remote) =
    s.answerRequest table.build request := by
  simp only [step, built, legal]

theorem reply_eq : s.reply method uri remote =
    some ((table.build.respond Provider.query s.metrics request.uri.path s.sources).response.sent
      method) := by
  rw [reply, step_request built legal, ← method_of_parts legal]
  rfl

/-- The whole answer of a route bound to a cell, with its log record. -/
theorem answer_of_cell (sound : table.Sound) {cell : String}
    (bound : (request.uri.path, .cell cell) ∈ table.routes) :
    (s.step (.request method uri remote)).2 =
      .answered ((⟨200, .json (s.sources.shown cell).text⟩ : Response).sent request.method)
        [.requestHandled request.method (request.remote.getD Router.unknownRemote)
          request.uri.text] := by
  have reaction := Router.respond_registered Provider.query s.metrics sound bound s.sources
  simp only [step_request built legal, answerRequest, Router.handle, reaction]
  rfl

end Request

include built

theorem serves_of_built (sound : table.Sound) : s.Serves table := by
  constructor
  · intro provider method uri remote request legal listed
    rw [reply_eq built legal, Router.respond_registered Provider.query s.metrics sound listed]
  · intro path unlisted other method uri remote request legal same
    subst same
    rw [reply_eq built legal, Router.respond_unlisted Provider.query s.metrics unlisted other]
    rfl
  · intro method uri remote request legal same
    have reaction := Router.respond_metrics Provider.query s.metrics sound s.sources
    rw [reply_eq built legal, same, show "/metrics" = metricsPath from rfl, reaction]
    rfl

theorem shows_of_cell (sound : table.Sound) {path cell : String}
    (bound : (path, .cell cell) ∈ table.routes) :
    s.Shows path (s.sources.shown cell).text := by
  intro method uri remote request legal same
  subst same
  rw [reply, answer_of_cell built legal sound bound, method_of_parts legal]

end Built

theorem built_run (s : Session) {earlier later : List SessionStep} (unbuilt : .build ∉ later) :
    (s.run (earlier ++ .build :: later)).1.router = some (s.run earlier).1.table.build := by
  rw [run_append, run, router_run unbuilt]
  rfl

end Session

/-- A session from its start to its last build and beyond. The routes and the list of commands
    are those of the table as it was at the build. A route bound to a cell shows what was last
    published there, be it before the build or after it; the next publication is shown at
    once, and nothing else changes what is shown. -/
theorem routes_frozen_data_live {earlier later : List SessionStep} (unbuilt : .build ∉ later) :
    let table := (Session.start.run earlier).1.table
    let actions := earlier ++ .build :: later
    let s := (Session.start.run actions).1
    s.Serves table ∧
      ∀ {path cell : String}, (path, .cell cell) ∈ table.routes →
        let current :=
          ((Session.lastPublished cell (Session.start.transcript actions)).getD .null).text
        s.Shows path current ∧
          (∀ value, (s.step (.publish cell value)).1.Shows path value.text) ∧
          (∀ between, .build ∉ between → (∀ value, .publish cell value ∉ between) →
            (s.run between).1.Shows path current) ∧
          ∀ other value, other ≠ cell → ∀ {method uri : String} {remote : Option String}
            {request : Request}, Request.ofParts? method uri remote = some request →
              request.uri.path = path →
                ((s.step (.publish other value)).1.step (.request method uri remote)).2 =
                  (s.step (.request method uri remote)).2 := by
  intro table actions s
  have before : (Session.start.run earlier).1.Sound := Session.sound_start.run earlier
  have sound : table.Sound := RouteTable.sound_of_reachable before.reachable
  have built : s.router = some table.build := Session.built_run Session.start unbuilt
  have serves : s.Serves table := Session.serves_of_built built sound
  refine ⟨serves, ?_⟩
  intro path cell bound current
  have there : s.sources.IsOpen cell := by
    have attached := before.attached (path, .cell cell) bound cell rfl
    have stays := Session.is_open_run attached (.build :: later)
    rwa [← Session.run_append] at stays
  have shown : current = (s.sources.shown cell).text := by
    rw [Session.shown_run]
    rfl
  have unmoved : ∀ name value, (s.step (.publish name value)).1.router = some table.build := by
    intro name value
    rw [Session.router_step (by rintro ⟨⟩), built]
  refine ⟨?_, ?_, ?_, ?_⟩
  · rw [shown]
    exact Session.shows_of_cell built sound bound
  · intro value
    have shows := Session.shows_of_cell (unmoved cell value) sound bound
    rwa [Session.shown_publish there] at shows
  · intro between unbuilt unpublished
    have still : (s.run between).1.router = some table.build := by
      rw [Session.router_run unbuilt, built]
    rw [shown, ← Session.shown_run_of_unpublished unpublished s]
    exact Session.shows_of_cell still sound bound
  · intro other value apart method uri remote request legal same
    subst same
    have unpublished : ∀ put, .publish cell put ∉ [SessionStep.publish other value] := by
      intro put member
      cases List.mem_singleton.mp member
      exact apart rfl
    have kept : (s.step (.publish other value)).1.sources.shown cell = s.sources.shown cell :=
      Session.shown_run_of_unpublished unpublished s
    rw [Session.answer_of_cell (unmoved other value) legal sound bound,
      Session.answer_of_cell built legal sound bound, kept]

/-- Two cells are bound and one is filled before the build; then the table is replaced and the
    cell filled anew. -/
def replacedTable : List SessionStep × List SessionStep :=
  let silent := ProviderSpec.fixed .null
  ([.register "/v1/pods" (.cell "pods"), .register "/v1/nodes" (.cell "nodes"),
      .publish "pods" (.bool true)],
    [.standard ⟨silent, silent, silent, silent, silent⟩, .publish "pods" (.bool false),
      .register "/v2/more" (.cell "nodes")])

theorem routes_frozen_data_live_replaced :
    .build ∉ replacedTable.2 ∧
      let s := (Session.start.run (replacedTable.1 ++ .build :: replacedTable.2)).1
      s.reply "GET" "/v1/pods?all" none = some ((⟨200, .json "false"⟩ : Response).sent "GET") ∧
        s.reply "GET" "/v2/more" none = some
          ((⟨200, .json "\x7b\"AvailableCommands\":[\"/v1/pods\",\"/v1/nodes\"]\x7d"⟩ :
            Response).sent "GET") := by
  have unbuilt : .build ∉ replacedTable.2 := by simp [replacedTable]
  obtain ⟨serves, live⟩ := routes_frozen_data_live unbuilt
  refine ⟨unbuilt, ?_, ?_⟩
  · have bound : ("/v1/pods", .cell "pods") ∈ (Session.start.run replacedTable.1).1.table.routes :=
      .head _
    exact (live bound).1 "GET" "/v1/pods?all" none
      ⟨"GET", ⟨none, none, "/v1/pods", some "all"⟩, none⟩ (by decide) rfl
  · exact serves.listing "/v2/more" (by decide) (by decide) "GET" "/v2/more" none
      ⟨"GET", ⟨none, none, "/v2/more", none⟩, none⟩ (by decide) rfl

end SnapshotEndpoint
