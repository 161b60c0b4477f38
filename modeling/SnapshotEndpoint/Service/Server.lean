import SnapshotEndpoint.Http.Session
import SnapshotEndpoint.Service.Restart

/-!
A server on a free port, from its start to the signal. Its router is built once, before the
loop starts, and answers every request until the loop ends.
-/
namespace SnapshotEndpoint

inductive ServerStep where
  | session (step : SessionStep)
  | exchange (method uri : String)

structure Server where
  loop : Restart
  /-- The address that clients come from, if the network lets them through. -/
  clients : Option String
  signal : SignalAction

structure ServerRun where
  setup : List SessionAnswer
  start : List Event
  steps : List SessionAnswer
  stop : List Event
  stopped : Bool
  failures : Nat
  metrics : Metrics

inductive ServerCourse where
  /-- The loop ended as soon as it had a listener. -/
  | died (setup : List SessionAnswer) (start : List Event)
  | unreachable
  | ended (run : ServerRun)

namespace Server

def portEvents : List Restart.TimedRestartEvent := [(0, .release)]

def loopEvents (s : Server) : List Restart.TimedRestartEvent :=
  portEvents ++ [(1, .signal s.signal)]

def startEvents (s : Server) : List Event := s.loop.history portEvents 0

def survivesStart (s : Server) : Bool := !Restart.finishedBy (s.loop.runUntil portEvents 0) 0

def sessionStep (peer : String) : ServerStep → SessionStep
  | .session step => step
  | .exchange method uri => .request method uri (some peer)

/-- The steps as those of the session, if every client that is needed can connect. -/
def sessionSteps (s : Server) (steps : List ServerStep) : Option (List SessionStep) :=
  match s.clients with
  | some peer => some (steps.map (sessionStep peer))
  | none =>
      steps.mapM fun step =>
        match step with
        | .session step => some step
        | .exchange _ _ => none

/-- A whole run: the table is set up, the server starts, the steps are done, the signal comes. -/
def run (s : Server) (setup : List SessionStep) (steps : List ServerStep) : ServerCourse :=
  let (session, setupAnswers) := Session.start.run setup
  if !s.survivesStart then .died setupAnswers s.startEvents
  else
    match s.sessionSteps steps with
    | none => .unreachable
    | some steps =>
        let (last, answers) := (session.step .build).1.run steps
        let history := s.loop.history s.loopEvents 1
        .ended
          { setup := setupAnswers
            start := s.startEvents
            steps := answers
            stop := history.drop s.startEvents.length
            stopped := (s.loop.runUntil s.loopEvents 1).outcome == .stopped
            failures := s.loop.failures s.loopEvents 1
            metrics := last.metrics }

end Server
end SnapshotEndpoint
