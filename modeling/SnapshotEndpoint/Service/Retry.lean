import SnapshotEndpoint.Service.Backoff
import SnapshotEndpoint.Service.Shutdown

/-!
The loop that repeats an operation until it succeeds, fails for good or is told to stop.
Time is counted in whole milliseconds and passes only while the loop waits: for an attempt
to end, or for a delay to pass. The signal ends either wait. Where the signal and what the
loop waits for are ready at once, either may win. One round is an attempt and the delay
after it; a run is a number of rounds.
-/
namespace SnapshotEndpoint

inductive SignalAction where
  | trigger
  | drop
  deriving DecidableEq, Repr

/-- Where an action on the signal comes from: before the loop, from outside while the loop
    waits, or from an attempt right before its result. -/
inductive SignalOrigin where
  | before
  | outside
  | attempt
  deriving DecidableEq, Repr

inductive AttemptResult (α ε : Type) where
  | ok (value : α)
  | failed (error : ε)
  | pending
  | panics
  deriving DecidableEq, Repr

/-- An attempt: it waits, reports events, acts on the signal, and has its result. -/
structure Attempt (α ε : Type) where
  takes : Nat
  events : List Event
  actions : List SignalAction
  result : AttemptResult α ε

structure RetryLoop (α ε : Type) where
  /-- The attempt with a number that starts at a time. -/
  attempt : Nat → Nat → Attempt α ε
  worthRetry : ε → Bool
  factor : Nat → Binary64
  /-- Whether the signal wins where it is there as the wait for an attempt begins, and as the
      delay after it begins. -/
  signalWinsAttempt : Nat → Bool
  signalWinsDelay : Nat → Bool
  /-- Whether the signal wins where it comes just as an attempt ends, and as the delay ends. -/
  signalWinsResult : Nat → Bool := fun _ => false
  signalWinsWake : Nat → Bool := fun _ => false

inductive RetryOutcome (α ε : Type) where
  | returned (value : α)
  | failed (error : ε)
  | stopped
  | panicked
  | running
  deriving DecidableEq, Repr

abbrev TimedSignal := Nat × SignalAction
abbrev TimedEvent := Nat × Event

/-- One thing that happens in a run. Attempts and the delays after them have numbers. -/
inductive Mark where
  | started (index : Nat)
  | signalled (origin : SignalOrigin) (action : SignalAction)
  | reported (event : Event)
  /-- The attempt has a result. -/
  | completed (index : Nat)
  /-- The delay has passed in full. -/
  | slept (index : Nat)
  deriving DecidableEq, Repr

abbrev TimedMark := Nat × Mark

def Mark.start? (mark : TimedMark) : Option Nat :=
  match mark.2 with
  | .started _ => some mark.1
  | _ => none

def Mark.event? (mark : TimedMark) : Option TimedEvent :=
  match mark.2 with
  | .reported event => some (mark.1, event)
  | _ => none

def reports (time : Nat) (events : List Event) : List TimedMark :=
  events.map fun event => (time, .reported event)

structure RetryRun (α ε : Type) where
  outcome : RetryOutcome α ε
  trace : List TimedMark
  endedAt : Nat
  backoff : Backoff
  /-- The signals that came after the end. -/
  unused : List TimedSignal

def loopSubscriber : Nat := 0

def Shutdown.act (s : Shutdown) : SignalAction → Shutdown × List Event
  | .trigger => let (next, answer) := s.step .trigger; (next, answer.events)
  | .drop => (s.drop, [])

def Shutdown.actMarks (s : Shutdown) (origin : SignalOrigin) (time : Nat)
    (action : SignalAction) : List TimedMark :=
  (time, .signalled origin action) :: reports time (s.act action).2

/-- The signal after some actions at one time, and the actions as they happen. -/
def Shutdown.actAll (s : Shutdown) (origin : SignalOrigin) (time : Nat) :
    List SignalAction → Shutdown × List TimedMark
  | [] => (s, [])
  | action :: rest =>
      let (last, more) := (s.act action).1.actAll origin time rest
      (last, s.actMarks origin time action ++ more)

/-- The signal that ends a wait with a deadline, if one does; it may win at the deadline. -/
def firstSignal (deadline : Nat) (winsTie : Bool) :
    List TimedSignal → Option (TimedSignal × List TimedSignal)
  | [] => none
  | signal :: rest =>
      if signal.1 < deadline || (signal.1 == deadline && winsTie) then some (signal, rest)
      else none

structure RetryState where
  index : Nat
  now : Nat
  backoff : Backoff
  shutdown : Shutdown
  /-- The signals still to come from outside. -/
  signals : List TimedSignal

def RetryState.ready (s : RetryState) : Bool := s.shutdown.ready loopSubscriber

namespace RetryRun

variable {α ε : Type}

def starts (run : RetryRun α ε) : List Nat := run.trace.filterMap Mark.start?

def events (run : RetryRun α ε) : List TimedEvent := run.trace.filterMap Mark.event?

def ended (outcome : RetryOutcome α ε) (s : RetryState) : RetryRun α ε :=
  ⟨outcome, [], s.now, s.backoff, s.signals⟩

def interrupted (s : RetryState) (signal : TimedSignal) (rest : List TimedSignal) :
    RetryRun α ε :=
  ⟨.stopped, s.shutdown.actMarks .outside signal.1 signal.2, signal.1, s.backoff, rest⟩

def after (marks : List TimedMark) (run : RetryRun α ε) : RetryRun α ε :=
  { run with trace := marks ++ run.trace }

end RetryRun

/-- What a part of the loop comes to: the end of the loop, or some marks and where it stands. -/
inductive Phase (α ε : Type) where
  | finished (run : RetryRun α ε)
  | goesOn (marks : List TimedMark) (next : RetryState)

namespace Phase

variable {α ε : Type}

def after (marks : List TimedMark) : Phase α ε → Phase α ε
  | finished run => finished (run.after marks)
  | goesOn more next => goesOn (marks ++ more) next

def andThen (first : Phase α ε) (second : RetryState → Phase α ε) : Phase α ε :=
  match first with
  | finished run => finished run
  | goesOn marks next => (second next).after marks

end Phase

namespace RetryLoop

variable {α ε : Type}

/-- The outcome that the result of an attempt settles, if it does. -/
def verdict (loop : RetryLoop α ε) : AttemptResult α ε → Option (RetryOutcome α ε)
  | .ok value => some (.returned value)
  | .failed error => if loop.worthRetry error then none else some (.failed error)
  | .panics => some .panicked
  | .pending => none

def awaitSignal (s : RetryState) : Phase α ε :=
  if s.ready then .finished (.ended .stopped s)
  else
    match s.signals with
    | signal :: rest => .finished (.interrupted s signal rest)
    | [] => .finished (.ended .running s)

def finishAttempt (loop : RetryLoop α ε) (attempt : Attempt α ε) (s : RetryState) :
    Phase α ε :=
  let (shutdown, acted) := s.shutdown.actAll .attempt s.now attempt.actions
  let next := { s with shutdown := shutdown }
  Phase.after (reports s.now attempt.events ++ acted) <|
    match attempt.result with
    | .pending => awaitSignal next
    | result =>
        Phase.after [(s.now, .completed s.index)] <|
          match loop.verdict result with
          | some outcome => .finished (.ended outcome next)
          | none => .goesOn [] next

def awaitAttempt (loop : RetryLoop α ε) (s : RetryState) : Phase α ε :=
  if s.ready && loop.signalWinsAttempt s.index then .finished (.ended .stopped s)
  else
    let attempt := loop.attempt s.index s.now
    let finish := s.now + attempt.takes
    Phase.after [(s.now, .started s.index)] <|
      if s.ready && attempt.takes != 0 then .finished (.ended .stopped s)
      else
        match firstSignal finish (attempt.takes != 0 && loop.signalWinsResult s.index)
            s.signals with
        | some (signal, rest) => .finished (.interrupted s signal rest)
        | none => loop.finishAttempt attempt { s with now := finish }

/-- The delay after an attempt; drawing it may panic, when the backoff has advanced already. -/
def awaitDelay (loop : RetryLoop α ε) (s : RetryState) : Phase α ε :=
  let advanced := { s with backoff := s.backoff.advance }
  match s.backoff.nextDelay.under (loop.factor s.index) with
  | none => .finished (.ended .panicked advanced)
  | some delay =>
      let wake := s.now + Duration.ceilMillis delay
      Phase.after [(s.now, .reported (.backingOff delay))] <|
        if s.ready && (delay != 0 || loop.signalWinsDelay s.index) then
          .finished (.ended .stopped advanced)
        else
          match firstSignal wake (loop.signalWinsWake s.index) s.signals with
          | some (signal, rest) => .finished (.interrupted advanced signal rest)
          | none =>
              .goesOn [(wake, .slept s.index)] { advanced with index := s.index + 1, now := wake }

def round (loop : RetryLoop α ε) (s : RetryState) : Phase α ε :=
  (loop.awaitAttempt s).andThen loop.awaitDelay

/-- The loop from some state on. The fuel bounds the number of rounds; a loop that needs more
    is still running. -/
def runFrom (loop : RetryLoop α ε) : Nat → RetryState → RetryRun α ε
  | 0, s => .ended .running s
  | fuel + 1, s =>
      match loop.round s with
      | .finished run => run
      | .goesOn marks next => (runFrom loop fuel next).after marks

/-- A run that starts at time zero, after some actions on the signal. -/
def run (loop : RetryLoop α ε) (fuel : Nat) (backoff : Backoff) (before : List SignalAction)
    (signals : List TimedSignal) : RetryRun α ε :=
  let (shutdown, acted) := Shutdown.new.subscribe.actAll .before 0 before
  (loop.runFrom fuel ⟨0, 0, backoff, shutdown, signals⟩).after acted

end RetryLoop
end SnapshotEndpoint
