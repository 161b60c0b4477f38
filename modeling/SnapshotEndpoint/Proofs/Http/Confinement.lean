import Mathlib.Data.List.Forall2
import SnapshotEndpoint.Proofs.Http.Runs

/-!
What a failing provider can make the endpoint show. Of two runs whose providers fail at the
same points, each for reasons of its own, the answers are the same, those that show the
counters included; the reasons reach the log alone. After a failure the answers are what they
would have been without it, but for the counters.
-/
namespace SnapshotEndpoint

/-- What two queries give when they differ in nothing but why they fail. -/
inductive SameOutcome : Except SnapshotFailure String → Except SnapshotFailure String → Prop where
  | snapshot (text : String) : SameOutcome (.ok text) (.ok text)
  | failure (failure other : SnapshotFailure) : SameOutcome (.error failure) (.error other)

variable {σ τ P Q : Type}

/-- Two ways of asking providers, step by step alike but for the reasons of failures. What
    keeps them in step may be any relation of their states. -/
structure Query.FailsAlike (query : Query σ P) (other : Query τ Q) (same : P → Q → Prop)
    (inStep : σ → τ → Prop) : Prop where
  outcome : ∀ {p q s t}, same p q → inStep s t → SameOutcome (query p s).1 (other q t).1
  state : ∀ {p q s t}, same p q → inStep s t → inStep (query p s).2 (other q t).2

/-- The same paths in the same order, each with providers that are alike. -/
def SameRoutes (same : P → Q → Prop) (routes : List (String × P)) (others : List (String × Q)) :
    Prop :=
  List.Forall₂ (fun r o => r.1 = o.1 ∧ same r.2 o.2) routes others

/-- An event with the reason of a failure left out. -/
def Event.unexplained : Event → Event
  | .snapshotFailed path _ => .snapshotFailed path ""
  | event => event

theorem Event.series_unexplained (event : Event) : event.unexplained.series = event.series := by
  cases event <;> rfl

theorem flatMap_series_of_unexplained {events others : List Event}
    (same : events.map Event.unexplained = others.map Event.unexplained) :
    events.flatMap Event.series = others.flatMap Event.series := by
  have counted : ∀ events : List Event,
      (events.map Event.unexplained).flatMap Event.series = events.flatMap Event.series := by
    intro events
    rw [List.flatMap_map]
    exact List.flatMap_congr fun event _ => event.series_unexplained
  rw [← counted events, same, counted others]

section Routes

variable {same : P → Q → Prop} {routes : List (String × P)} {others : List (String × Q)}

theorem SameRoutes.paths_eq (alike : SameRoutes same routes others) :
    routes.map (·.1) = others.map (·.1) := by
  induction alike with
  | nil => rfl
  | cons head rest ih => rw [List.map_cons, List.map_cons, ih, head.1]

theorem SameRoutes.lookup_cases (alike : SameRoutes same routes others) (path : String) :
    (routes.lookup path = none ∧ others.lookup path = none) ∨
      ∃ p q, routes.lookup path = some p ∧ others.lookup path = some q ∧ same p q := by
  induction alike with
  | nil => exact .inl ⟨rfl, rfl⟩
  | @cons r o rest more head tail ih =>
    obtain ⟨paths, providers⟩ := head
    rw [List.lookup_cons, List.lookup_cons, ← paths]
    cases path == r.1 with
    | true => exact .inr ⟨r.2, o.2, rfl, rfl, providers⟩
    | false => exact ih

end Routes

theorem map_eq_of_forall₂ {α β γ : Type} {R : α → β → Prop} {f : α → γ} {g : β → γ}
    (agree : ∀ {a b}, R a b → f a = g b) {xs : List α} {ys : List β}
    (related : List.Forall₂ R xs ys) : xs.map f = ys.map g := by
  induction related with
  | nil => rfl
  | cons head rest ih => rw [List.map_cons, List.map_cons, agree head, ih]

namespace Router

/-- Two reactions that a client cannot tell apart. -/
structure SameReaction (inStep : σ → τ → Prop) (r : Reaction σ) (o : Reaction τ) : Prop where
  response : r.response = o.response
  events : r.events.map Event.unexplained = o.events.map Event.unexplained
  state : inStep r.state o.state

structure SameHandling (inStep : σ → τ → Prop) (h : Handled σ) (o : Handled τ) : Prop where
  response : h.response = o.response
  events : h.events.map Event.unexplained = o.events.map Event.unexplained
  metrics : h.metrics = o.metrics
  state : inStep h.state o.state

structure SameExchange (inStep : σ → τ → Prop) (e : Exchange σ) (o : Exchange τ) : Prop where
  request : e.request = o.request
  handled : SameHandling inStep e.handled o.handled

/-- What a client gets. -/
def Exchange.sent (e : Exchange σ) : Sent := e.handled.response.sent e.request.method

/-- What an exchange leaves in the log, the reason of a failure aside. -/
def Exchange.unexplained (e : Exchange σ) : List Event := e.handled.events.map Event.unexplained

section TwoRuns

variable {query : Query σ P} {query' : Query τ Q} {same : P → Q → Prop} {inStep : σ → τ → Prop}
  {table : RouteTable P} {table' : RouteTable Q} {state : σ} {state' : τ}

theorem render_same (alike : query.FailsAlike query' same inStep) {p : P} {q : Q}
    (providers : same p q) (together : inStep state state') (path : String) :
    SameReaction inStep (render query path p state) (render query' path q state') := by
  have next := alike.state providers together
  have outcome := alike.outcome providers together
  unfold render
  generalize query p state = first at next outcome ⊢
  generalize query' q state' = second at next outcome ⊢
  obtain ⟨first, _⟩ := first
  obtain ⟨second, _⟩ := second
  dsimp only at outcome
  cases outcome with
  | snapshot text => exact ⟨rfl, rfl, next⟩
  | failure failure other => exact ⟨rfl, rfl, next⟩

variable (alike : query.FailsAlike query' same inStep)
  (routes : SameRoutes same table.routes table'.routes)

include alike routes

theorem respond_same (together : inStep state state') (metrics : Metrics) (path : String) :
    SameReaction inStep (table.build.respond query metrics path state)
      (table'.build.respond query' metrics path state') := by
  have listing : table.build.listing = table'.build.listing := by
    have paths : table.paths = table'.paths := routes.paths_eq
    rw [RouteTable.build, RouteTable.build, RouteTable.listing, RouteTable.listing, paths]
  unfold respond
  rcases routes.lookup_cases path with ⟨missing, missing'⟩ | ⟨p, q, found, found', providers⟩
  · simp only [RouteTable.build, missing, missing']
    split
    · exact ⟨rfl, rfl, together⟩
    · exact ⟨congrArg (fun text => Response.mk okStatus (.json text)) listing, rfl, together⟩
  · simp only [RouteTable.build, found, found']
    exact render_same alike providers together path

theorem handle_same (together : inStep state state') (metrics : Metrics) (request : Request) :
    SameHandling inStep (table.build.handle query metrics request state)
      (table'.build.handle query' metrics request state') := by
  have reaction := respond_same alike routes together metrics request.uri.path
  have series := flatMap_series_of_unexplained reaction.events
  constructor
  · exact reaction.response
  · simp only [handle, List.map_cons, reaction.events]
  · simp only [handle, series, reaction.response]
  · exact reaction.state

theorem exchanges_same (together : inStep state state') (metrics : Metrics)
    (requests : List Request) :
    List.Forall₂ (SameExchange inStep) (table.build.exchanges query metrics state requests)
      (table'.build.exchanges query' metrics state' requests) := by
  induction requests generalizing metrics state state' with
  | nil => exact .nil
  | cons request rest ih =>
    have first := handle_same alike routes together metrics request
    have later := ih first.state (table.build.handle query metrics request state).metrics
    rw [exchanges_cons, exchanges_cons]
    refine .cons ⟨rfl, first⟩ ?_
    rwa [← first.metrics]

end TwoRuns

/-- Two answers that show different counters at most. -/
inductive SameButCounters : Response → Response → Prop where
  | same (response : Response) : SameButCounters response response
  | counters (metrics other : Metrics) :
      SameButCounters ⟨okStatus, .metrics metrics⟩ ⟨okStatus, .metrics other⟩

section OneRouter

variable (query : Query σ P) (router : Router P)

theorem respond_of_counters (metrics other : Metrics) (path : String) (state : σ) :
    SameButCounters (router.respond query metrics path state).response
        (router.respond query other path state).response ∧
      (router.respond query metrics path state).state =
        (router.respond query other path state).state := by
  unfold respond
  split
  · exact ⟨.same _, rfl⟩
  · split
    · exact ⟨.counters _ _, rfl⟩
    · exact ⟨.same _, rfl⟩

/-- Counters are all that a router keeps from one request to the next, and they come up in
    the answers that show them only. -/
theorem handle_all_of_counters (metrics other : Metrics) (state : σ) (requests : List Request) :
    List.Forall₂ SameButCounters
      ((router.handleAll query metrics state requests).map (·.response))
      ((router.handleAll query other state requests).map (·.response)) := by
  induction requests generalizing metrics other state with
  | nil => exact .nil
  | cons request rest ih =>
    obtain ⟨responses, states⟩ :=
      respond_of_counters query router metrics other request.uri.path state
    have next : (router.handle query metrics request state).state =
        (router.handle query other request state).state := states
    rw [handleAll, handleAll, List.map_cons, List.map_cons, next]
    exact .cons responses (ih _ _ _)

end OneRouter

end Router

/-- Two runs of the same requests, from the same counters, whose providers fail alike. -/
theorem failures_confined {table : RouteTable P} {table' : RouteTable Q}
    (reachable : table.Reachable) {query : Query σ P} {query' : Query τ Q} {same : P → Q → Prop}
    {inStep : σ → τ → Prop} (alike : query.FailsAlike query' same inStep)
    (routes : SameRoutes same table.routes table'.routes) {state : σ} {state' : τ}
    (together : inStep state state') (metrics : Metrics) (requests : List Request) :
    let run := table.build.exchanges query metrics state requests
    let run' := table'.build.exchanges query' metrics state' requests
    run.map (·.sent) = run'.map (·.sent) ∧
      run.map (·.handled.response) = run'.map (·.handled.response) ∧
      run.map (·.unexplained) = run'.map (·.unexplained) ∧
      ∀ (request : Request) (provider : P), (request.uri.path, provider) ∈ table.routes →
        let before := table.build.after query metrics state requests
        let outcome := query provider before.2
        let handled := table.build.handle query before.1 request before.2
        (∀ text, outcome.1 = .ok text → handled.response = ⟨200, .json text⟩) ∧
          ∀ failure, outcome.1 = .error failure →
            handled.response = ⟨500, .plain "Internal Server Error"⟩ ∧
              ∀ later, List.Forall₂ Router.SameButCounters
                ((table.build.handleAll query handled.metrics handled.state later).map
                  (·.response))
                ((table.build.handleAll query before.1 outcome.2 later).map (·.response)) := by
  intro run run'
  have related := Router.exchanges_same alike routes together metrics requests
  refine ⟨?_, ?_, ?_, ?_⟩
  · apply map_eq_of_forall₂ _ related
    intro e o both
    rw [Router.Exchange.sent, Router.Exchange.sent, both.handled.response, both.request]
  · exact map_eq_of_forall₂ (fun both => both.handled.response) related
  · exact map_eq_of_forall₂ (fun both => both.handled.events) related
  · intro request provider listed before outcome handled
    have sound := RouteTable.sound_of_reachable reachable
    have reaction : table.build.respond query before.1 request.uri.path before.2 =
        Router.render query request.uri.path provider before.2 :=
      Router.respond_registered query before.1 sound listed before.2
    constructor
    · intro text ok
      rw [Router.render_of_ok query ok] at reaction
      exact congrArg Reaction.response reaction
    · intro failure error
      rw [Router.render_of_error query error] at reaction
      refine ⟨congrArg Reaction.response reaction, ?_⟩
      intro later
      have left : handled.state = outcome.2 := congrArg Reaction.state reaction
      rw [left]
      exact Router.handle_all_of_counters query _ handled.metrics before.1 outcome.2 later

/-- A provider that fails for as long as its state says, for the reason it is made of. -/
def failingFor : Query Nat SnapshotFailure
  | failure, left + 1 => (.error failure, left)
  | _, 0 => (.ok "true", 0)

theorem failing_for_alike : failingFor.FailsAlike failingFor (fun _ _ => True) Eq := by
  constructor
  · rintro p q s t - rfl
    cases s with
    | zero => exact .snapshot "true"
    | succ left => exact .failure p q
  · rintro p q s t - rfl
    cases s <;> rfl

def recoveringTable (failure : SnapshotFailure) : RouteTable SnapshotFailure :=
  ⟨[("/v1/pods", failure)]⟩

theorem recovering_table_reachable (failure : SnapshotFailure) :
    (recoveringTable failure).Reachable :=
  .registered .empty (RouteTable.register_eq_ok_iff.mpr ⟨by decide, by decide, by decide, rfl⟩)

/-- One provider fails to encode and another panics; each recovers after its first failure. -/
theorem failures_confined_recovering :
    let request : Request := ⟨"GET", ⟨none, none, "/v1/pods", none⟩, none⟩
    let scrape : Request := ⟨"GET", ⟨none, none, "/metrics", none⟩, none⟩
    let secret := recoveringTable (.encode "token 4711")
    let other := recoveringTable (.panicked "datastore poisoned")
    secret.Reachable ∧
      (secret.build.exchanges failingFor Metrics.empty 1 [request, scrape]).map (·.sent) =
        (other.build.exchanges failingFor Metrics.empty 1 [request, scrape]).map (·.sent) ∧
      let before := secret.build.after failingFor Metrics.empty 1 [request, scrape]
      (secret.build.handle failingFor before.1 request before.2).response =
        ⟨200, .json "true"⟩ := by
  intro request scrape secret other
  have routes : SameRoutes (fun _ _ => True) secret.routes other.routes :=
    .cons ⟨rfl, trivial⟩ .nil
  obtain ⟨sent, _, _, answers⟩ := failures_confined
    (recovering_table_reachable (.encode "token 4711")) failing_for_alike routes (rfl : 1 = 1)
    Metrics.empty [request, scrape]
  exact ⟨recovering_table_reachable _, sent,
    (answers request (.encode "token 4711") (.head _)).1 "true" rfl⟩

end SnapshotEndpoint
