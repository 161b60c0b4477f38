import SnapshotEndpoint.Http.Provider

/-!
An endpoint over time: a table that grows, a router built from it at some point, and
providers whose data change.
-/
namespace SnapshotEndpoint

inductive ProviderSpec where
  | fixed (value : Json)
  | cell (name : String)
  | counter
  | failing (failure : SnapshotFailure)
  deriving Repr

structure Session where
  table : RouteTable Provider
  router : Option (Router Provider)
  sources : Sources
  metrics : Metrics

inductive SessionStep where
  | register (path : String) (provider : ProviderSpec)
  | standard (providers : StandardProviders ProviderSpec)
  | paths
  | root
  | publish (cell : String) (value : Json)
  | build
  | request (method uri : String) (remote : Option String)
  | metrics

inductive SessionAnswer where
  | paths (paths : List String)
  | refused (error : RouteRefusal)
  | root (text : String)
  | published (text : String)
  | noCell
  | built (routes : Nat)
  | noRouter
  | invalidRequest
  | answered (response : Sent) (events : List Event)
  | metrics (metrics : Metrics)

namespace Session

def start : Session := ⟨RouteTable.empty, none, Sources.empty, Metrics.empty⟩

/-- A provider with what it reads; this happens even if its route is then refused. -/
def install (sources : Sources) : ProviderSpec → Sources × Provider
  | .fixed value => (sources, .fixed value)
  | .cell name => (sources.openCell name, .cell name)
  | .counter => let (next, index) := sources.openCounter; (next, .counter index)
  | .failing failure => (sources, .failing failure)

def installStandard (sources : Sources) (specs : StandardProviders ProviderSpec) :
    Sources × StandardProviders Provider :=
  let (sources, enis) := install sources specs.enis
  let (sources, pods) := install sources specs.pods
  let (sources, networkSettings) := install sources specs.networkSettings
  let (sources, poolSettings) := install sources specs.poolSettings
  let (sources, eniConfigs) := install sources specs.eniConfigs
  (sources, ⟨enis, pods, networkSettings, poolSettings, eniConfigs⟩)

def answerRequest (s : Session) (router : Router Provider) (request : Request) :
    Session × SessionAnswer :=
  let handled := router.handle Provider.query s.metrics request s.sources
  ({ s with sources := handled.state, metrics := handled.metrics },
    .answered (handled.response.sent request.method) handled.events)

def step (s : Session) : SessionStep → Session × SessionAnswer
  | .register path spec =>
      let (sources, provider) := install s.sources spec
      match s.table.register path provider with
      | .ok table => ({ s with table := table, sources := sources }, .paths table.paths)
      | .error error => ({ s with sources := sources }, .refused error)
  | .standard specs =>
      let (sources, providers) := installStandard s.sources specs
      let table := RouteTable.standard providers
      ({ s with table := table, sources := sources }, .paths table.paths)
  | .paths => (s, .paths s.table.paths)
  | .root => (s, .root (Wire.encode s.table.listing))
  | .publish cell value =>
      match s.sources.publish cell value with
      | some sources => ({ s with sources := sources }, .published value.text)
      | none => (s, .noCell)
  | .build => ({ s with router := some s.table.build }, .built s.table.routes.length)
  | .request method uri remote =>
      match s.router, Request.ofParts? method uri remote with
      | none, _ => (s, .noRouter)
      | some _, none => (s, .invalidRequest)
      | some router, some request => s.answerRequest router request
  | .metrics => (s, .metrics s.metrics)

def run (s : Session) : List SessionStep → Session × List SessionAnswer
  | [] => (s, [])
  | first :: rest =>
      let (next, answer) := s.step first
      let (last, answers) := run next rest
      (last, answer :: answers)

end Session
end SnapshotEndpoint
