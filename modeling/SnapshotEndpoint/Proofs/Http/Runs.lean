import SnapshotEndpoint.Proofs.Http.Answers

/-!
Runs of requests, one after the other. A request ends in one of two ways: it is answered, or
its provider fails. Either way its own log record comes first, and the counters grow by what
the ending says.
-/
namespace SnapshotEndpoint

def Request.logged (request : Request) : Event :=
  .requestHandled request.method (request.remote.getD Router.unknownRemote) request.uri.text

variable {σ P : Type}

inductive Reaction.Ends (path : String) : Reaction σ → Prop where
  | answered (body : Body) (state : σ) : Ends path ⟨⟨okStatus, body⟩, [], state⟩
  | failed (failure : SnapshotFailure) (state : σ) :
      Ends path ⟨failureAnswer, [.snapshotFailed path failure.message], state⟩

namespace Router

/-- The two endings of a request that met these counters. -/
inductive Handled.Ends (metrics : Metrics) (request : Request) : Handled σ → Prop where
  | answered (body : Body) (state : σ) :
      Ends metrics request
        ⟨⟨okStatus, body⟩, [request.logged],
          metrics.add (requestSeries request.method okStatus), state⟩
  | failed (failure : SnapshotFailure) (state : σ) :
      Ends metrics request
        ⟨failureAnswer, [request.logged, .snapshotFailed request.uri.path failure.message],
          metrics.add (.snapshotFailure request.uri.path ::
            requestSeries request.method failureStatus), state⟩

variable (query : Query σ P) (router : Router P)

theorem render_of_ok {provider : P} {state : σ} {text : String}
    (ok : (query provider state).1 = .ok text) (path : String) :
    render query path provider state = ⟨⟨okStatus, .json text⟩, [], (query provider state).2⟩ := by
  unfold render
  generalize query provider state = answer at ok ⊢
  obtain ⟨_, next⟩ := answer
  cases ok
  rfl

theorem render_of_error {provider : P} {state : σ} {failure : SnapshotFailure}
    (error : (query provider state).1 = .error failure) (path : String) :
    render query path provider state =
      ⟨failureAnswer, [.snapshotFailed path failure.message], (query provider state).2⟩ := by
  unfold render
  generalize query provider state = answer at error ⊢
  obtain ⟨_, next⟩ := answer
  cases error
  rfl

/-- The counters and the state of the providers behind a run of requests. -/
def after (metrics : Metrics) (state : σ) : List Request → Metrics × σ
  | [] => (metrics, state)
  | request :: rest =>
      let handled := router.handle query metrics request state
      after handled.metrics handled.state rest

/-- A request with what it led to. -/
structure Exchange (σ : Type) where
  request : Request
  handled : Handled σ

def exchanges (metrics : Metrics) (state : σ) (requests : List Request) : List (Exchange σ) :=
  List.zipWith Exchange.mk requests (router.handleAll query metrics state requests)

theorem exchanges_cons (metrics : Metrics) (state : σ) (request : Request)
    (rest : List Request) :
    router.exchanges query metrics state (request :: rest) =
      ⟨request, router.handle query metrics request state⟩ ::
        router.exchanges query (router.handle query metrics request state).metrics
          (router.handle query metrics request state).state rest := rfl

theorem exchanges_handled (metrics : Metrics) (state : σ) (requests : List Request) :
    (router.exchanges query metrics state requests).map (·.handled) =
      router.handleAll query metrics state requests := by
  induction requests generalizing metrics state with
  | nil => rfl
  | cons request rest ih => rw [exchanges_cons, List.map_cons, ih, handleAll]

end Router
end SnapshotEndpoint
