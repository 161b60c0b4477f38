import SnapshotEndpoint.Service.Event
import SnapshotEndpoint.Text.Blank

/-!
The counters of the service and the text that shows them. What is kept is the list of
increments; a counter's value is the number of its increments. Times of requests are
counted here, not measured.
-/
namespace SnapshotEndpoint

inductive Series where
  | request (method : String) (status : Nat)
  | requestDuration
  | snapshotFailure (path : String)
  | serveFailure
  deriving DecidableEq, Repr

inductive Metric where
  | requests
  | requestDuration
  | snapshotFailures
  | serveFailures
  deriving DecidableEq, Repr

def Series.metric : Series → Metric
  | request _ _ => .requests
  | requestDuration => .requestDuration
  | snapshotFailure _ => .snapshotFailures
  | serveFailure => .serveFailures

namespace Metric

def all : List Metric := [requests, requestDuration, snapshotFailures, serveFailures]

def name : Metric → String
  | requests => "introspection_requests_total"
  | requestDuration => "introspection_request_duration_seconds"
  | snapshotFailures => "introspection_snapshot_failures_total"
  | serveFailures => "introspection_serve_failures_total"

def kind : Metric → String
  | requestDuration => "summary"
  | _ => "counter"

def help : Metric → String
  | requests => "Requests handled by the introspection endpoint"
  | requestDuration => "Time spent handling introspection requests"
  | snapshotFailures => "Snapshots that could not be rendered"
  | serveFailures => "Times the introspection listener stopped serving"

def typeLine (m : Metric) : String := "# TYPE " ++ m.name ++ " " ++ m.kind
def helpLine (m : Metric) : String := "# HELP " ++ m.name ++ " " ++ m.help

end Metric

def labelChar (c : Char) : List Char :=
  if c = '\\' then ['\\', '\\']
  else if c = '"' then ['\\', '"']
  else if c = '\n' then ['\\', 'n']
  else [c]

def labelText (s : String) : String := String.ofList ('"' :: s.toList.flatMap labelChar ++ ['"'])

def Series.text : Series → String
  | request method status =>
      Metric.requests.name ++ "\x7bmethod=" ++ labelText method ++ ",status=" ++
        labelText (toString status) ++ "\x7d"
  | requestDuration => Metric.requestDuration.name ++ "_count"
  | snapshotFailure path =>
      Metric.snapshotFailures.name ++ "\x7bpath=" ++ labelText path ++ "\x7d"
  | serveFailure => Metric.serveFailures.name

def Event.series : Event → List Series
  | .serveFailed _ _ => [.serveFailure]
  | .snapshotFailed path _ => [.snapshotFailure path]
  | _ => []

structure Metrics where
  increments : List Series
  deriving DecidableEq, Repr

namespace Metrics

def empty : Metrics := ⟨[]⟩

def add (m : Metrics) (series : List Series) : Metrics := ⟨m.increments ++ series⟩

def ofEvents (events : List Event) : Metrics := ⟨events.flatMap Event.series⟩

def value (m : Metrics) (s : Series) : Nat := m.increments.count s

def recorded (m : Metrics) : List Series := m.increments.eraseDups

def present (m : Metrics) : List Metric :=
  Metric.all.filter fun metric => m.increments.any fun s => s.metric == metric

def valueLine (m : Metrics) (s : Series) : String := s.text ++ " " ++ toString (m.value s)

def sortLines (lines : List String) : List String := lines.mergeSort fun a b => decide (a ≤ b)

/-- The lines of the text that shows the counters, sorted; with descriptions where they are
    installed. -/
def lines (described : Bool) (m : Metrics) : List String :=
  sortLines ((if described then m.present.map Metric.helpLine else []) ++
    m.present.map Metric.typeLine ++ m.recorded.map m.valueLine)

end Metrics
end SnapshotEndpoint
