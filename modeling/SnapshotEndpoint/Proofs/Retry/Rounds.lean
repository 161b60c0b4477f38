import SnapshotEndpoint.Proofs.Backoff.Delays
import SnapshotEndpoint.Service.Retry

/-!
What one round of the loop can do, and how rounds make a run. Attempts that fail for now,
one after another, start at times that only their lengths and the delays decide.
-/
namespace SnapshotEndpoint
namespace RetryRun

variable {α ε : Type} (run : RetryRun α ε) (marks more : List TimedMark)

@[simp] theorem after_outcome : (run.after marks).outcome = run.outcome := rfl
@[simp] theorem after_trace : (run.after marks).trace = marks ++ run.trace := rfl
@[simp] theorem after_ended_at : (run.after marks).endedAt = run.endedAt := rfl
@[simp] theorem after_nil : run.after [] = run := rfl

@[simp] theorem after_after : (run.after more).after marks = run.after (marks ++ more) := by
  simp [after]

@[simp] theorem after_starts :
    (run.after marks).starts = marks.filterMap Mark.start? ++ run.starts := by
  simp [starts]

@[simp] theorem after_events :
    (run.after marks).events = marks.filterMap Mark.event? ++ run.events := by
  simp [events]

end RetryRun

theorem Duration.ceil_millis_pos {nanos : Nat} (positive : 0 < nanos) :
    0 < Duration.ceilMillis nanos := by
  simp only [Duration.ceilMillis, Duration.nanosPerMilli]
  omega

theorem positive_of_lasting {delayAt : Nat → Option Nat}
    (lasting : ∀ k, ∃ delay, delayAt k = some delay ∧ 0 < delay) (k delay : Nat)
    (drawn : delayAt k = some delay) : 0 < delay := by
  obtain ⟨other, same, lasts⟩ := lasting k
  rw [same] at drawn
  cases drawn
  exact lasts

theorem started_of_mem_starts {marks : List TimedMark} {start : Nat}
    (member : start ∈ marks.filterMap Mark.start?) : ∃ i, (start, .started i) ∈ marks := by
  obtain ⟨⟨time, mark⟩, among, is⟩ := List.mem_filterMap.mp member
  cases mark with
  | started i =>
    cases is
    exact ⟨i, among⟩
  | _ => cases is

@[simp] theorem reports_starts (time : Nat) (events : List Event) :
    (reports time events).filterMap Mark.start? = [] := by
  simp [reports, List.filterMap_map, Function.comp_def, Mark.start?]

@[simp] theorem reports_events (time : Nat) (events : List Event) :
    (reports time events).filterMap Mark.event? = events.map fun event => (time, event) := by
  simp [reports, List.filterMap_map, Function.comp_def, Mark.event?]

@[simp] theorem act_marks_starts (s : Shutdown) (origin : SignalOrigin) (time : Nat)
    (action : SignalAction) : (s.actMarks origin time action).filterMap Mark.start? = [] := by
  simp [Shutdown.actMarks, List.filterMap_cons, Mark.start?]

namespace RetryRun

variable {α ε : Type} (s : RetryState)

@[simp] theorem ended_starts (outcome : RetryOutcome α ε) : (ended outcome s).starts = [] := rfl
@[simp] theorem ended_events (outcome : RetryOutcome α ε) : (ended outcome s).events = [] := rfl

@[simp] theorem interrupted_starts (signal : TimedSignal) (rest : List TimedSignal) :
    (interrupted s signal rest : RetryRun α ε).starts = [] :=
  act_marks_starts s.shutdown .outside signal.1 signal.2

theorem interrupted_events (signal : TimedSignal) (rest : List TimedSignal) :
    (interrupted s signal rest : RetryRun α ε).events =
      (s.shutdown.actMarks .outside signal.1 signal.2).filterMap Mark.event? := rfl

end RetryRun

namespace RetryLoop

variable {α ε : Type} (loop : RetryLoop α ε) (b : Backoff)

def retries : AttemptResult α ε → Bool
  | .failed error => loop.worthRetry error
  | _ => false

theorem verdict_of_retries {result : AttemptResult α ε} (again : loop.retries result = true) :
    loop.verdict result = none := by
  cases result <;> simp_all [retries, verdict]

def delayAt (k : Nat) : Option Nat := (b.afterCalls k).nextDelay.under (loop.factor k)

/-- When an attempt with a number starts if all before it fail for now and no signal comes. -/
def startAt : Nat → Nat
  | 0 => 0
  | k + 1 =>
      startAt k + (loop.attempt k (startAt k)).takes +
        Duration.ceilMillis ((loop.delayAt b k).getD 0)

def attemptAt (k : Nat) : Attempt α ε := loop.attempt k (loop.startAt b k)

def finishAt (k : Nat) : Nat := loop.startAt b k + (loop.attemptAt b k).takes

theorem start_at_succ (k : Nat) : loop.startAt b (k + 1) =
    loop.finishAt b k + Duration.ceilMillis ((loop.delayAt b k).getD 0) := rfl

/-- Where the loop stands before an attempt if all before it failed for now. -/
def stateAt (shutdown : Shutdown) (signals : List TimedSignal) (k : Nat) : RetryState :=
  ⟨k, loop.startAt b k, b.afterCalls k, shutdown, signals⟩

/-- An attempt that fails for now, and the delay after it in full. -/
def marksAt (k : Nat) : List TimedMark :=
  (loop.startAt b k, .started k) :: reports (loop.finishAt b k) (loop.attemptAt b k).events ++
    [(loop.finishAt b k, .completed k),
     (loop.finishAt b k, .reported (.backingOff ((loop.delayAt b k).getD 0))),
     (loop.startAt b (k + 1), .slept k)]

theorem finish_attempt_of_retries {attempt : Attempt α ε} {s : RetryState}
    (still : attempt.actions = []) (again : loop.retries attempt.result = true) :
    loop.finishAttempt attempt s =
      .goesOn (reports s.now attempt.events ++ [(s.now, .completed s.index)]) s := by
  unfold retries at again
  split at again
  · rename_i error failed
    simp [finishAttempt, still, failed, Shutdown.actAll, verdict, again, Phase.after]
  · contradiction

theorem finish_attempt_of_verdict {attempt : Attempt α ε} {s : RetryState}
    {outcome : RetryOutcome α ε} (still : attempt.actions = [])
    (settled : loop.verdict attempt.result = some outcome) :
    loop.finishAttempt attempt s =
      .finished ((RetryRun.ended outcome s).after
        (reports s.now attempt.events ++ [(s.now, .completed s.index)])) := by
  cases result : attempt.result with
  | pending => simp [verdict, result] at settled
  | _ =>
    rw [result] at settled
    simp [finishAttempt, still, result, Shutdown.actAll, settled, Phase.after]

theorem finish_attempt_of_pending {attempt : Attempt α ε} {s : RetryState}
    (still : attempt.actions = []) (pending : attempt.result = .pending) :
    loop.finishAttempt attempt s =
      (awaitSignal s).after (reports s.now attempt.events) := by
  simp [finishAttempt, still, pending, Shutdown.actAll]

theorem await_attempt_of_no_signal {s : RetryState} (quiet : s.ready = false)
    (undisturbed : firstSignal (s.now + (loop.attempt s.index s.now).takes)
      ((loop.attempt s.index s.now).takes != 0 && loop.signalWinsResult s.index)
      s.signals = none) :
    loop.awaitAttempt s =
      (loop.finishAttempt (loop.attempt s.index s.now)
        { s with now := s.now + (loop.attempt s.index s.now).takes }).after
          [(s.now, .started s.index)] := by
  simp [awaitAttempt, quiet, undisturbed]

theorem await_delay_of_no_signal {s : RetryState} {delay : Nat} (quiet : s.ready = false)
    (drawn : s.backoff.nextDelay.under (loop.factor s.index) = some delay)
    (undisturbed : firstSignal (s.now + Duration.ceilMillis delay)
      (loop.signalWinsWake s.index) s.signals = none) :
    loop.awaitDelay s =
      .goesOn [(s.now, .reported (.backingOff delay)),
          (s.now + Duration.ceilMillis delay, .slept s.index)]
        ⟨s.index + 1, s.now + Duration.ceilMillis delay, s.backoff.advance, s.shutdown,
          s.signals⟩ := by
  simp [awaitDelay, drawn, quiet, undisturbed, Phase.after]

theorem await_attempt_state_at {shutdown : Shutdown} (signals : List TimedSignal) {k : Nat}
    (quiet : shutdown.ready loopSubscriber = false)
    (finished : firstSignal (loop.finishAt b k)
      ((loop.attemptAt b k).takes != 0 && loop.signalWinsResult k) signals = none) :
    loop.awaitAttempt (loop.stateAt b shutdown signals k) =
      (loop.finishAttempt (loop.attemptAt b k)
        { loop.stateAt b shutdown signals k with now := loop.finishAt b k }).after
          [(loop.startAt b k, .started k)] :=
  loop.await_attempt_of_no_signal (s := loop.stateAt b shutdown signals k) quiet finished

theorem round_of_retries {shutdown : Shutdown} {signals : List TimedSignal} {k delay : Nat}
    (quiet : shutdown.ready loopSubscriber = false) (still : (loop.attemptAt b k).actions = [])
    (again : loop.retries (loop.attemptAt b k).result = true)
    (drawn : loop.delayAt b k = some delay)
    (finished : firstSignal (loop.finishAt b k)
      ((loop.attemptAt b k).takes != 0 && loop.signalWinsResult k) signals = none)
    (slept : firstSignal (loop.startAt b (k + 1)) (loop.signalWinsWake k) signals = none) :
    loop.round (loop.stateAt b shutdown signals k) =
      .goesOn (loop.marksAt b k) (loop.stateAt b shutdown signals (k + 1)) := by
  have wake : loop.startAt b (k + 1) = loop.finishAt b k + Duration.ceilMillis delay := by
    rw [start_at_succ, drawn, Option.getD_some]
  have attempted := loop.await_attempt_state_at b signals quiet finished
  rw [loop.finish_attempt_of_retries still again] at attempted
  have delayed := loop.await_delay_of_no_signal
    (s := { loop.stateAt b shutdown signals k with now := loop.finishAt b k }) quiet drawn
    (by rwa [wake] at slept)
  rw [round, attempted]
  simp only [Phase.after, Phase.andThen]
  refine (congrArg (Phase.after _) delayed).trans ?_
  simp [Phase.after, marksAt, stateAt, wake, drawn, Backoff.afterCalls, finishAt, attemptAt]

theorem run_from_rounds (shutdown : Shutdown) (signals : List TimedSignal) (n m : Nat)
    (going : ∀ k < n, loop.round (loop.stateAt b shutdown signals k) =
      .goesOn (loop.marksAt b k) (loop.stateAt b shutdown signals (k + 1))) :
    loop.runFrom (n + m) (loop.stateAt b shutdown signals 0) =
      (loop.runFrom m (loop.stateAt b shutdown signals n)).after
        ((List.range n).flatMap (loop.marksAt b)) := by
  induction n generalizing m with
  | zero => simp
  | succ n ih =>
    have last : loop.runFrom (m + 1) (loop.stateAt b shutdown signals n) =
        (loop.runFrom m (loop.stateAt b shutdown signals (n + 1))).after (loop.marksAt b n) := by
      rw [runFrom, going n (by omega)]
    rw [show n + 1 + m = n + (m + 1) by omega, ih (m + 1) (fun k lower => going k (by omega)),
      last, RetryRun.after_after, List.range_succ, List.flatMap_append]
    simp

@[simp] theorem marks_at_starts (k : Nat) :
    (loop.marksAt b k).filterMap Mark.start? = [loop.startAt b k] := by
  simp [marksAt, Mark.start?]

theorem marks_at_events (k : Nat) :
    (loop.marksAt b k).filterMap Mark.event? =
      (loop.attemptAt b k).events.map (fun event => (loop.finishAt b k, event)) ++
        [(loop.finishAt b k, .backingOff ((loop.delayAt b k).getD 0))] := by
  simp [marksAt, List.filterMap_cons, Mark.event?]

theorem rounds_starts (n : Nat) :
    ((List.range n).flatMap (loop.marksAt b)).filterMap Mark.start? =
      (List.range n).map (loop.startAt b) := by
  induction n with
  | zero => rfl
  | succ n ih => simp [List.range_succ, ih]

end RetryLoop
end SnapshotEndpoint
