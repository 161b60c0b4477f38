import SnapshotEndpoint.Http.Provider
import SnapshotEndpoint.Proofs.Http.Registration

/-!
Who answers a request. Its path alone decides: the provider registered under exactly that
path, asked once, or the metrics, or else the list of commands with nobody asked.
-/
namespace SnapshotEndpoint

/-- A query that also keeps the list of the providers it is put to. -/
def Query.recorded {σ P : Type} (query : Query σ P) : Query (σ × List P) P :=
  fun provider state =>
    ((query provider state.1).1, ((query provider state.1).2, state.2 ++ [provider]))

/-- What a client gets to see of an answer. HEAD and CONNECT do not show its body. -/
structure Sent.Shows (sent : Sent) (method : String) (status : Nat) (type : String)
    (body : Body) : Prop where
  status : sent.status = status
  type : sent.headers.lookup "content-type" = some type
  body : method ≠ "HEAD" → method ≠ "CONNECT" → sent.body = some body

theorem lookup_content_type (body : Body) :
    (lengthHeader body ++ [("content-type", body.contentType)]).lookup "content-type" =
      some body.contentType := by
  cases body <;> rfl

theorem sent_shows (r : Response) (method : String) :
    (r.sent method).Shows method r.status r.body.contentType r.body := by
  unfold Response.sent
  dsimp only
  split
  · rename_i connect
    exact ⟨rfl, rfl, fun _ other => absurd connect.1 other⟩
  · split
    · rename_i head
      exact ⟨rfl, lookup_content_type r.body, fun other _ => absurd head other⟩
    · exact ⟨rfl, lookup_content_type r.body, fun _ _ => rfl⟩

namespace Router

variable {σ P : Type} (query : Query σ P) (metrics : Metrics) {table : RouteTable P}

theorem respond_registered (sound : table.Sound) {path : String} {provider : P}
    (listed : (path, provider) ∈ table.routes) (state : σ) :
    respond query table.build metrics path state = render query path provider state := by
  have found : table.build.routes.lookup path = some provider :=
    sound.find_eq_some_iff.mpr listed
  simp only [respond, found]

theorem respond_metrics (sound : table.Sound) (state : σ) :
    respond query table.build metrics metricsPath state =
      ⟨⟨okStatus, .metrics metrics⟩, [], state⟩ := by
  have missing : table.build.routes.lookup metricsPath = none :=
    RouteTable.find_eq_none_iff.mpr sound.metrics_not_mem
  simp only [respond, missing, if_true]

theorem respond_unlisted {path : String} (unlisted : path ∉ table.paths)
    (other : path ≠ metricsPath) (state : σ) :
    respond query table.build metrics path state =
      ⟨⟨okStatus, .json (Wire.encode table.listing)⟩, [], state⟩ := by
  have missing : table.build.routes.lookup path = none :=
    RouteTable.find_eq_none_iff.mpr unlisted
  simp only [respond, missing, other, if_false]
  rfl

/-- One provider answers: it is asked once, and the client sees its JSON or a bare failure. -/
structure Handled.AnsweredBy (handled : Handled (σ × List P)) (method : String) (provider : P)
    (state : σ) (asked : List P) : Prop where
  once : handled.state = ((query provider state).2, asked ++ [provider])
  json : ∀ text, (query provider state).1 = .ok text →
    (handled.response.sent method).Shows method 200 "application/json" (.json text)
  failure : ∀ failure, (query provider state).1 = .error failure →
    (handled.response.sent method).Shows method 500 "text/plain; charset=utf-8"
      (.plain "Internal Server Error")

/-- The list of commands answers, and no provider is asked. -/
structure Handled.Lists (handled : Handled (σ × List P)) (method : String)
    (table : RouteTable P) (state : σ) (asked : List P) : Prop where
  none : handled.state = (state, asked)
  listing : (handled.response.sent method).Shows method 200 "application/json"
    (.json (Wire.encode table.listing))

variable (state : σ) (asked : List P) {request : Request}

theorem shows_of_response {handled : Handled (σ × List P)} {response : Response}
    (same : handled.response = response) (method : String) :
    (handled.response.sent method).Shows method response.status response.body.contentType
      response.body := by
  rw [same]
  exact sent_shows response method

theorem handle_registered (sound : table.Sound) {provider : P}
    (listed : (request.uri.path, provider) ∈ table.routes) :
    Handled.AnsweredBy query (table.build.handle query.recorded metrics request (state, asked))
      request.method provider state asked := by
  have reaction := respond_registered query.recorded metrics sound listed (state, asked)
  constructor
  · rw [handle, reaction, render, Query.recorded]
    cases (query provider state).1 <;> rfl
  · intro text ok
    have response : (table.build.handle query.recorded metrics request (state, asked)).response =
        ⟨okStatus, .json text⟩ := by
      simp only [handle, reaction, render, Query.recorded, ok]
    exact shows_of_response response request.method
  · intro failure error
    have response : (table.build.handle query.recorded metrics request (state, asked)).response =
        failureAnswer := by
      simp only [handle, reaction, render, Query.recorded, error]
    exact shows_of_response response request.method

theorem handle_unlisted (unlisted : request.uri.path ∉ table.paths)
    (other : request.uri.path ≠ metricsPath) :
    Handled.Lists (table.build.handle query.recorded metrics request (state, asked))
      request.method table state asked := by
  have reaction := respond_unlisted query.recorded metrics unlisted other (state, asked)
  have response : (table.build.handle query.recorded metrics request (state, asked)).response =
      ⟨okStatus, .json (Wire.encode table.listing)⟩ := by
    simp only [handle, reaction]
  exact ⟨congrArg Reaction.state reaction, shows_of_response response request.method⟩

end Router

/-- The answer of a built router to any request, in any state of its providers. What a request
    carries beside its path, a body included, is read by nobody. -/
theorem answered_by_path {σ P : Type} {table : RouteTable P} (reachable : table.Reachable)
    (query : Query σ P) (metrics : Metrics) (request : Request) (state : σ) (asked : List P) :
    let answer := fun r => table.build.handle query.recorded metrics r (state, asked)
    let path := request.uri.path
    (∀ provider, (path, provider) ∈ table.routes →
      (answer request).AnsweredBy query request.method provider state asked) ∧
      (path = "/metrics" → (answer request).state = (state, asked) ∧
        ((answer request).response.sent request.method).Shows request.method 200
          "text/plain; version=0.0.4" (.metrics metrics)) ∧
      (path ∉ table.paths → path ≠ "/metrics" →
        (answer request).Lists request.method table state asked) ∧
      ("/" ∉ table.paths ∧ "/metrics" ∉ table.paths) ∧
      ∀ other : Request, other.uri.path = path →
        (answer other).response = (answer request).response ∧
          (answer other).state = (answer request).state := by
  have sound := RouteTable.sound_of_reachable reachable
  intro answer path
  refine ⟨?_, ?_, ?_, ⟨sound.root_not_mem, sound.metrics_not_mem⟩, ?_⟩
  · intro provider listed
    exact Router.handle_registered query metrics state asked sound listed
  · intro scraped
    have reaction := Router.respond_metrics query.recorded metrics sound (state, asked)
    rw [show metricsPath = path from scraped.symm] at reaction
    have response : (answer request).response = ⟨okStatus, .metrics metrics⟩ :=
      congrArg Reaction.response reaction
    exact ⟨congrArg Reaction.state reaction, Router.shows_of_response response request.method⟩
  · intro unlisted other
    exact Router.handle_unlisted query metrics state asked unlisted other
  · intro other same
    have reaction : table.build.respond query.recorded metrics other.uri.path (state, asked) =
        table.build.respond query.recorded metrics path (state, asked) := by rw [same]
    exact ⟨congrArg Reaction.response reaction, congrArg Reaction.state reaction⟩

/-- The standard routes, and one more that counts how often it is asked. -/
def countingTable : RouteTable Provider :=
  let silent := Provider.fixed .null
  ⟨(RouteTable.standard ⟨silent, silent, silent, silent, silent⟩).routes ++
    [("/v2/calls", .counter 0)]⟩

theorem counting_table_reachable : countingTable.Reachable :=
  .registered (.standard _) (RouteTable.register_eq_ok_iff.mpr
    ⟨by decide, by decide, by decide, rfl⟩)

theorem answered_by_path_counting : countingTable.Reachable ∧
    let request : Request := ⟨"POST", ⟨none, none, "/v2/calls", some "all"⟩, none⟩
    let handled := countingTable.build.handle (Query.recorded Provider.query) Metrics.empty request
      (⟨SortedMap.empty, [4]⟩, [])
    handled.state.2 = [.counter 0] ∧
      (handled.response.sent "POST").Shows "POST" 200 "application/json" (.json "5") := by
  refine ⟨counting_table_reachable, ?_⟩
  intro request handled
  obtain ⟨registered, _⟩ := answered_by_path counting_table_reachable Provider.query Metrics.empty
    request ⟨SortedMap.empty, [4]⟩ []
  have counted := registered (.counter 0) (by simp [countingTable, request])
  exact ⟨congrArg Prod.snd counted.once, counted.json "5" (by rfl)⟩

end SnapshotEndpoint
