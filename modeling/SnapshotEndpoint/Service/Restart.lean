import SnapshotEndpoint.Service.Endpoint
import SnapshotEndpoint.Service.Listener
import SnapshotEndpoint.Service.Metrics
import SnapshotEndpoint.Service.Retry

/-!
The loop that keeps a server listening while another program may hold its port. An attempt
that finds the port held fails at once and is reported; one that finds it free serves until
the signal.
-/
namespace SnapshotEndpoint

inductive RestartEvent where
  | sample
  | release
  | signal (action : SignalAction)
  deriving DecidableEq, Repr

structure Restart where
  address : String
  maxConnections : Nat
  backoff : Backoff
  factor : Nat → Binary64
  /-- Whether the signal wins where it comes just as a delay ends. -/
  signalWinsWake : Nat → Bool := fun _ => false
  /-- How often the server is asked to serve outside the loop, before the loop starts. -/
  directCalls : Nat := 0

/-- The loop serves until it is stopped, so it never has a value. -/
abbrev ServeLoop := RetryLoop Empty ListenFailure
abbrev ServeAttempt := Attempt Empty ListenFailure

def Event.failures : Event → Nat
  | serveFailed _ _ => 1
  | _ => 0

namespace Restart

abbrev TimedRestartEvent := Nat × RestartEvent

def ofEndpoint (endpoint : Endpoint) (factor : Nat → Binary64) : Restart :=
  { address := endpoint.address.text
    maxConnections := endpoint.maxConnections
    backoff := Backoff.ofConfig endpoint.backoff
    factor := factor }

def releaseTime (events : List TimedRestartEvent) : Option Nat :=
  (events.find? fun e => e.2 == .release).map (·.1)

def signals (events : List TimedRestartEvent) : List TimedSignal :=
  events.filterMap fun e =>
    match e.2 with
    | .signal action => some (e.1, action)
    | _ => none

def isHeld (events : List TimedRestartEvent) (now : Nat) : Bool :=
  match releaseTime events with
  | some time => decide (now < time)
  | none => true

/-- Listening and serving once: a held port fails it at once, on a free port it never ends. -/
def serve (r : Restart) (held : Bool) : ServeAttempt :=
  if held then ⟨0, [], [], .failed (.addressInUse r.address)⟩
  else
    ⟨0, Listener.bindEvents r.address r.maxConnections, [],
      if (Listener.bind? r.address r.maxConnections).isSome then .pending else .panics⟩

def report (r : Restart) : AttemptResult Empty ListenFailure → List Event
  | .failed error => [.serveFailed r.address error.message]
  | _ => []

def attempt (r : Restart) (held : Bool) : ServeAttempt :=
  let served := r.serve held
  { served with events := served.events ++ r.report served.result }

/-- The calls outside the loop; nobody has freed the port yet. -/
def direct (r : Restart) : List ServeAttempt := List.replicate r.directCalls (r.serve true)

def directFailures (r : Restart) : List ListenFailure :=
  r.direct.filterMap fun call =>
    match call.result with
    | .failed error => some error
    | _ => none

def loop (r : Restart) (events : List TimedRestartEvent) : ServeLoop where
  attempt _ now := r.attempt (isHeld events now)
  worthRetry := ListenFailure.worthRetry
  factor := r.factor
  signalWinsAttempt _ := true
  signalWinsDelay _ := true
  signalWinsWake := r.signalWinsWake

/-- The run under the events so far. Delays last a millisecond or more, so up to a time there
    are no more attempts than milliseconds. -/
def runUntil (r : Restart) (events : List TimedRestartEvent) (now : Nat) :
    RetryRun Empty ListenFailure :=
  (r.loop events).run (now + 2) r.backoff [] (signals events)

def finishedBy (run : RetryRun Empty ListenFailure) (now : Nat) : Bool :=
  match run.outcome with
  | .running => false
  | _ => decide (run.endedAt ≤ now)

def endEvents (run : RetryRun Empty ListenFailure) : List TimedEvent :=
  match run.outcome with
  | .stopped => [(run.endedAt, .serverStopped)]
  | _ => []

/-- The triggers that reach nobody because the loop has ended. -/
def idleTriggers (run : RetryRun Empty ListenFailure) : List TimedEvent :=
  (run.unused.filter fun s => s.2 == .trigger).map fun s => (s.1, .shutdownTriggered 0)

def timeline (r : Restart) (run : RetryRun Empty ListenFailure) : List TimedEvent :=
  (r.direct.flatMap (·.events)).map (fun e => (0, e)) ++
    (0, .serverStarting r.address) :: run.events ++ endEvents run ++ idleTriggers run

/-- All that is reported up to a time, under the events so far. -/
def history (r : Restart) (events : List TimedRestartEvent) (now : Nat) : List Event :=
  ((r.timeline (r.runUntil events now)).filter fun e => decide (e.1 ≤ now)).map (·.2)

def failures (r : Restart) (events : List TimedRestartEvent) (now : Nat) : Nat :=
  (r.history events now).foldl (fun count event => count + event.failures) 0

structure Sample where
  failures : Nat
  finished : Bool
  events : List Event
  deriving DecidableEq, Repr

/-- The samples after each event; each shows what is new since the one before, of which so
    many events were shown already. -/
def samples (r : Restart) (past : List TimedRestartEvent) (shown : Nat) :
    List TimedRestartEvent → List Sample
  | [] => []
  | e :: rest =>
      let events := past ++ [e]
      let history := r.history events e.1
      ⟨r.failures events e.1, finishedBy (r.runUntil events e.1) e.1, history.drop shown⟩ ::
        r.samples events history.length rest

/-- The whole course: the calls outside the loop, the samples, and what a last trigger adds
    after them. -/
structure Course where
  direct : List ListenFailure
  samples : List Sample
  stopped : Bool
  failures : Nat
  rest : List Event
  metrics : Metrics

def lastTime (events : List TimedRestartEvent) : Nat := (events.getLast?.map (·.1)).getD 0

def course (r : Restart) (events : List TimedRestartEvent) : Course :=
  let last := lastTime events
  let all := events ++ [(last, .signal .trigger)]
  let shown := if events.isEmpty then 0 else (r.history events last).length
  let history := r.history all last
  { direct := r.directFailures
    samples := r.samples [] 0 events
    stopped := (r.runUntil all last).outcome == .stopped
    failures := r.failures all last
    rest := history.drop shown
    metrics := Metrics.ofEvents history }

end Restart
end SnapshotEndpoint
