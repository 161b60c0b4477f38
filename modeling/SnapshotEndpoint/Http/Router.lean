import SnapshotEndpoint.Http.RouteTable
import SnapshotEndpoint.Http.Uri
import SnapshotEndpoint.Service.Metrics
import SnapshotEndpoint.SocketAddress

/-!
Answering requests. The path alone decides who answers: the provider registered under
exactly that path, the metrics, or else the list of commands. What a provider reads and
changes is its own affair; the router passes its state along.
-/
namespace SnapshotEndpoint

/-- Why a provider gives no snapshot. The details go to the log only. -/
inductive SnapshotFailure where
  | encode (detail : String)
  | panicked (detail : String)
  deriving DecidableEq, Repr

def SnapshotFailure.message : SnapshotFailure → String
  | encode detail => "failed to encode snapshot: " ++ detail
  | panicked _ => "snapshot provider panicked"

/-- What asking a provider gives, and the state of the providers after it. -/
abbrev Query (σ P : Type) := P → σ → Except SnapshotFailure String × σ

inductive Body where
  | json (text : String)
  | plain (text : String)
  | metrics (metrics : Metrics)
  deriving DecidableEq, Repr

def Body.contentType : Body → String
  | json _ => "application/json"
  | plain _ => "text/plain; charset=utf-8"
  | metrics _ => "text/plain; version=0.0.4"

structure Response where
  status : Nat
  body : Body
  deriving DecidableEq, Repr

def okStatus : Nat := 200
def failureStatus : Nat := 500

def failureAnswer : Response := ⟨failureStatus, .plain "Internal Server Error"⟩

structure Request where
  method : String
  uri : Uri
  remote : Option String
  deriving DecidableEq, Repr

/-- A request from its parts, if the method and the target are legal. A remote address is
    written in its one form; what is no address counts as unknown. -/
def Request.ofParts? (method uri : String) (remote : Option String) : Option Request :=
  if isMethod method then
    (Uri.parse? uri).map fun target =>
      ⟨method, target, (remote.bind SocketAddress.parse?).map SocketAddress.text⟩
  else none

structure Sent where
  status : Nat
  headers : List (String × String)
  body : Option Body
  deriving DecidableEq, Repr

/-- The length of a body; that of the metrics is not told, because it holds measured times. -/
def lengthHeader : Body → List (String × String)
  | .json text => [("content-length", toString text.utf8ByteSize)]
  | .plain text => [("content-length", toString text.utf8ByteSize)]
  | .metrics _ => []

/-- A response to HEAD keeps the length and loses the body; a successful one to CONNECT loses
    both. -/
def Response.sent (r : Response) (method : String) : Sent :=
  let typeHeader := [("content-type", r.body.contentType)]
  if method = "CONNECT" ∧ r.status = okStatus then ⟨r.status, typeHeader, none⟩
  else if method = "HEAD" then ⟨r.status, lengthHeader r.body ++ typeHeader, none⟩
  else ⟨r.status, lengthHeader r.body ++ typeHeader, some r.body⟩

/-- A table as it was when it was built, with its list of commands. -/
structure Router (P : Type) where
  listing : String
  routes : List (String × P)

def RouteTable.build {P : Type} (table : RouteTable P) : Router P :=
  ⟨Wire.encode table.listing, table.routes⟩

structure Reaction (σ : Type) where
  response : Response
  events : List Event
  state : σ

namespace Router

variable {σ P : Type}

def render (query : Query σ P) (path : String) (provider : P) (state : σ) : Reaction σ :=
  match query provider state with
  | (.ok text, next) => ⟨⟨okStatus, .json text⟩, [], next⟩
  | (.error failure, next) => ⟨failureAnswer, [.snapshotFailed path failure.message], next⟩

def respond (query : Query σ P) (router : Router P) (metrics : Metrics) (path : String)
    (state : σ) : Reaction σ :=
  match router.routes.lookup path with
  | some provider => render query path provider state
  | none =>
      if path = metricsPath then ⟨⟨okStatus, .metrics metrics⟩, [], state⟩
      else ⟨⟨okStatus, .json router.listing⟩, [], state⟩

def requestSeries (method : String) (status : Nat) : List Series :=
  [.request method status, .requestDuration]

/-- A request as it is handled: it is logged first, then answered, then counted. -/
structure Handled (σ : Type) where
  response : Response
  events : List Event
  metrics : Metrics
  state : σ

def unknownRemote : String := "unknown"

def handle (query : Query σ P) (router : Router P) (metrics : Metrics) (request : Request)
    (state : σ) : Handled σ :=
  let reaction := respond query router metrics request.uri.path state
  let counted := metrics.add (reaction.events.flatMap Event.series)
  { response := reaction.response
    events :=
      .requestHandled request.method (request.remote.getD unknownRemote) request.uri.text ::
        reaction.events
    metrics := counted.add (requestSeries request.method reaction.response.status)
    state := reaction.state }

/-- A run of requests with what each led to; the last state comes with it. -/
def handleAll (query : Query σ P) (router : Router P) (metrics : Metrics) (state : σ) :
    List Request → List (Handled σ)
  | [] => []
  | request :: rest =>
      let handled := handle query router metrics request state
      handled :: handleAll query router handled.metrics handled.state rest

end Router
end SnapshotEndpoint
