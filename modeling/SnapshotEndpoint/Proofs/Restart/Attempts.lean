import SnapshotEndpoint.Proofs.Config.Accepted
import SnapshotEndpoint.Proofs.Retry.Promptness
import SnapshotEndpoint.Service.Restart

/-!
The restart loop among all loops: an attempt takes no time and leaves the signal alone, and
fails for now exactly where the port is held. So all that a round can come to is a failure
and a delay, a server, or a panic.
-/
namespace SnapshotEndpoint

abbrev Chronological (events : List Restart.TimedRestartEvent) : Prop :=
  events.Pairwise fun earlier later => earlier.1 ≤ later.1

namespace Restart

variable (r : Restart) (events : List TimedRestartEvent)

def delayAt (k : Nat) : Option Nat := (r.backoff.afterCalls k).nextDelay.under (r.factor k)

/-- When the attempt with a number starts if all before it find the port held. -/
def startAt : Nat → Nat
  | 0 => 0
  | k + 1 => startAt k + Duration.ceilMillis ((r.delayAt k).getD 0)

def failure : Event := .serveFailed r.address (ListenFailure.addressInUse r.address).message

@[simp] theorem attempt_takes (held : Bool) : (r.attempt held).takes = 0 := by
  cases held <;> rfl

@[simp] theorem attempt_actions (held : Bool) : (r.attempt held).actions = [] := by
  cases held <;> rfl

theorem attempt_free_events : (r.attempt false).events =
    Listener.bindEvents r.address r.maxConnections := by
  simp only [attempt, serve, Bool.false_eq_true, if_false]
  split <;> simp [report]

theorem attempt_free_result : (r.attempt false).result =
    if r.maxConnections ≤ permitLimit then .pending else .panics := by
  simp only [attempt, serve, Listener.bind?, Bool.false_eq_true, if_false]
  split <;> rfl

theorem retries_attempt (held : Bool) : (r.loop events).retries (r.attempt held).result = held := by
  cases held with
  | true => rfl
  | false =>
    rw [attempt_free_result]
    split <;> rfl

theorem loop_start_at (k : Nat) : (r.loop events).startAt r.backoff k = r.startAt k := by
  induction k with
  | zero => rfl
  | succ k ih =>
    have instant : ((r.loop events).attemptAt r.backoff k).takes = 0 := attempt_takes r _
    rw [RetryLoop.start_at_succ, RetryLoop.finishAt, instant, ih]
    rfl

theorem attempted_eq (s : RetryState) : (r.loop events).attempted s = s := by
  have instant : ((r.loop events).current s).takes = 0 := attempt_takes r _
  have still : ((r.loop events).current s).actions = [] := attempt_actions r _
  simp [RetryLoop.attempted, RetryLoop.finish, instant, still, Shutdown.actAll]

theorem finish_eq (s : RetryState) : (r.loop events).finish s = s.now :=
  congrArg RetryState.now (r.attempted_eq events s)

theorem attempt_marks_eq (s : RetryState) : (r.loop events).attemptMarks s =
    (s.now, .started s.index) :: reports s.now (r.attempt (isHeld events s.now)).events := by
  have still : ((r.loop events).current s).actions = [] := attempt_actions r _
  rw [RetryLoop.attemptMarks, RetryLoop.deeds, still, finish_eq]
  simp [Shutdown.actAll]
  rfl

/-- The attempts of a round that ends the loop, by what they find. -/
inductive Ends (s : RetryState) : RetryRun Empty ListenFailure → Prop where
  /-- The signal comes in the delay after a failure. -/
  | delayed {delay : Nat} {signal : TimedSignal} {rest : List TimedSignal}
      (held : isHeld events s.now = true) (drawn : r.delayAt s.index = some delay)
      (next : s.signals = signal :: rest)
      (soon : signal.1 ≤ s.now + Duration.ceilMillis delay) :
      Ends s ((RetryRun.interrupted { s with backoff := s.backoff.advance } signal rest).after
        [(s.now, .started s.index), (s.now, .reported r.failure), (s.now, .completed s.index),
         (s.now, .reported (.backingOff delay))])
  | undrawn (held : isHeld events s.now = true) (empty : r.delayAt s.index = none) :
      Ends s ((RetryRun.ended .panicked { s with backoff := s.backoff.advance }).after
        [(s.now, .started s.index), (s.now, .reported r.failure), (s.now, .completed s.index)])
  | served {signal : TimedSignal} {rest : List TimedSignal}
      (free : isHeld events s.now = false) (room : r.maxConnections ≤ permitLimit)
      (next : s.signals = signal :: rest) :
      Ends s ((RetryRun.interrupted s signal rest).after [(s.now, .started s.index),
        (s.now, .reported (.listenerBound r.address r.maxConnections))])
  | serving (free : isHeld events s.now = false) (room : r.maxConnections ≤ permitLimit)
      (alone : s.signals = []) :
      Ends s ((RetryRun.ended .running s).after [(s.now, .started s.index),
        (s.now, .reported (.listenerBound r.address r.maxConnections))])
  | overfull (free : isHeld events s.now = false) (many : permitLimit < r.maxConnections) :
      Ends s ((RetryRun.ended .panicked s).after [(s.now, .started s.index),
        (s.now, .reported (.listenerBound r.address r.maxConnections)),
        (s.now, .completed s.index)])

variable {r events} {s last : RetryState} {tail : RetryRun Empty ListenFailure}

theorem held_of_retries
    (again : (r.loop events).retries ((r.loop events).current s).result = true) :
    isHeld events s.now = true := by
  rw [← r.retries_attempt events (isHeld events s.now)]
  exact again

theorem attempt_marks_of_held (held : isHeld events s.now = true) :
    (r.loop events).attemptMarks s =
      [(s.now, .started s.index), (s.now, .reported r.failure)] := by
  rw [attempt_marks_eq, held]
  rfl

theorem attempt_marks_of_free (free : isHeld events s.now = false) :
    (r.loop events).attemptMarks s = [(s.now, .started s.index),
      (s.now, .reported (.listenerBound r.address r.maxConnections))] := by
  rw [attempt_marks_eq, free, attempt_free_events]
  rfl

theorem free_of_pending (pending : ((r.loop events).current s).result = .pending) :
    isHeld events s.now = false ∧ r.maxConnections ≤ permitLimit := by
  have result : (r.attempt (isHeld events s.now)).result = .pending := pending
  cases held : isHeld events s.now with
  | true =>
    rw [held] at result
    cases result
  | false =>
    rw [held, attempt_free_result] at result
    split at result
    · rename_i room
      exact ⟨rfl, room⟩
    · cases result

/-- Only too many permits settle the outcome, and they make it a panic. -/
theorem overfull_of_verdict {outcome : RetryOutcome Empty ListenFailure}
    (verdict : (r.loop events).verdict ((r.loop events).current s).result = some outcome) :
    isHeld events s.now = false ∧ permitLimit < r.maxConnections ∧ outcome = .panicked := by
  have settled : (r.loop events).verdict (r.attempt (isHeld events s.now)).result =
    some outcome := verdict
  cases held : isHeld events s.now with
  | true =>
    rw [held, RetryLoop.verdict_of_retries _ (r.retries_attempt events true)] at settled
    cases settled
  | false =>
    rw [held, attempt_free_result] at settled
    split at settled
    · cases settled
    · cases settled
      exact ⟨rfl, by omega, rfl⟩

theorem ends_of_ending (ending : (r.loop events).Ending r.backoff s tail)
    (quiet : s.ready = false) : r.Ends events s tail := by
  have instant : ((r.loop events).current s).takes = 0 := attempt_takes r _
  have here := r.finish_eq events s
  have same := r.attempted_eq events s
  have asleep : (r.loop events).asleep s = { s with backoff := s.backoff.advance } := by
    rw [RetryLoop.asleep, same]
  cases ending with
  | unstarted ready => simp [quiet] at ready
  | cut lasts halts soon => exact absurd instant lasts
  | settled through verdict =>
    obtain ⟨free, many, rfl⟩ := overfull_of_verdict verdict
    rw [attempt_marks_of_free free, same, here]
    exact .overfull free many
  | hung through pending halts =>
    obtain ⟨free, room⟩ := free_of_pending pending
    rw [attempt_marks_of_free free]
    rw [same] at halts
    cases halts with
    | found ready => simp [quiet] at ready
    | reached _ next => exact .served free room next
  | endless through pending still alone =>
    obtain ⟨free, room⟩ := free_of_pending pending
    rw [attempt_marks_of_free free, same]
    exact .serving free room alone
  | delayed through again drawn halts soon =>
    have held := held_of_retries again
    rw [attempt_marks_of_held held, here]
    rw [here] at soon
    have silent : ((r.loop events).asleep s).ready = false := by
      rw [RetryLoop.asleep_ready, same, quiet]
    rw [asleep] at halts silent
    cases halts with
    | found ready => simp [silent] at ready
    | reached _ next => exact .delayed held drawn next soon
  | panicked through again empty =>
    have held := held_of_retries again
    rw [attempt_marks_of_held held, here, asleep]
    exact .undrawn held empty

theorem Ends.starts (ends : r.Ends events last tail) : tail.starts = [last.now] := by
  cases ends <;> simp [List.filterMap_cons, Mark.start?]

/-- A loop with the settings of a configuration, on some address. -/
structure Configured (config : Config) (r : Restart) : Prop where
  backoff : r.backoff = Backoff.ofConfig config.backoff
  permits : r.maxConnections = config.server.maxConnections

/-- Every draw is one that its range allows, as long as there is something to draw. -/
def Draws (r : Restart) : Prop :=
  ∀ k, (r.backoff.afterCalls k).nextDelay = .emptyRange ∨
    (r.backoff.afterCalls k).nextDelay.Allows (r.factor k)

theorem configured_of_endpoint {config : Config} {endpoint : Endpoint}
    (made : Endpoint.ofConfig config = .ok endpoint) (factor : Nat → Binary64) :
    Configured config (ofEndpoint endpoint factor) := by
  unfold Endpoint.ofConfig at made
  split at made
  · cases made
    exact ⟨rfl, rfl⟩
  · cases made

theorem waits_of_accepted {config : Config} (accepted : config.Accepted) :
    (Backoff.ofConfig config.backoff).Waits := by
  have initial := accepted.initialDelay
  apply Backoff.waits_new
  simp only [Duration.ofMillis, Duration.nanosPerMilli]
  omega

theorem ordered_signals {events : List TimedRestartEvent} (chronological : Chronological events) :
    Ordered (signals events) := by
  rw [Ordered, signals, List.pairwise_filterMap]
  refine chronological.imp fun {earlier later} before first isFirst second isSecond => ?_
  split at isFirst <;> cases isFirst
  split at isSecond <;> cases isSecond
  exact before

theorem delay_at_eq_none_iff (waits : r.backoff.Waits) (draws : r.Draws) (k : Nat) :
    r.delayAt k = none ↔ Backoff.Vanishes r.backoff.jitter := by
  have still := Backoff.waits_after_calls waits k
  have jitter := Backoff.after_calls_jitter r.backoff k
  rw [← jitter, ← still.next_delay_eq_empty_range_iff]
  constructor
  · intro none
    rcases draws k with empty | allowed
    · exact empty
    · obtain ⟨delay, drawn, _⟩ := still.delay_pos allowed
      rw [delayAt, drawn] at none
      cases none
  · intro empty
    rw [delayAt, empty]
    rfl

theorem delay_at_pos (waits : r.backoff.Waits) (draws : r.Draws) (k delay : Nat)
    (drawn : r.delayAt k = some delay) : 0 < delay := by
  rcases draws k with empty | allowed
  · rw [delayAt, empty] at drawn
    cases drawn
  · obtain ⟨other, same, lasts⟩ := (Backoff.waits_after_calls waits k).delay_pos allowed
    rw [delayAt, same] at drawn
    cases drawn
    exact lasts

/-- A run of the restart loop: attempts that find the port held and delays that pass, and at
    most one round that ends it. -/
theorem run_parts (lasting : ∀ k delay, r.delayAt k = some delay → 0 < delay)
    (chronological : Chronological events) (fuel : Nat) :
    ∃ n marks last tail,
      (r.loop events).Cut r.backoff fuel [] (signals events) n marks last tail ∧
      (r.loop events).run fuel r.backoff [] (signals events) = tail.after marks ∧
      ((n = fuel ∧ tail = .ended .running last) ∨ (n < fuel ∧ r.Ends events last tail)) := by
  have positive : ∀ k delay, (r.loop events).delayAt r.backoff k = some delay → 0 < delay :=
    lasting
  obtain ⟨n, marks, last, tail, cut, same⟩ :=
    RetryLoop.run_cut positive (ordered_signals chronological) fuel []
  refine ⟨n, marks, last, tail, cut, same, cut.ends.imp id fun ⟨lower, ending⟩ => ?_⟩
  exact ⟨lower, ends_of_ending ending cut.quiet⟩

theorem held_of_passed {n : Nat} {marks : List TimedMark} {s : RetryState}
    (rounds : (r.loop events).Rounds r.backoff n s marks last) {start : Nat}
    (member : start ∈ marks.filterMap Mark.start?) :
    isHeld events start = true ∧ ∃ i delay, r.delayAt i = some delay := by
  obtain ⟨i, started⟩ := started_of_mem_starts member
  obtain ⟨_, again, delay, drawn, _⟩ := rounds.of_started started
  rw [← r.retries_attempt events (isHeld events start)]
  exact ⟨again, i, delay, drawn⟩

/-- An attempt that finds the port free is the last one, and it is announced. -/
theorem ends_of_free (lasting : ∀ k delay, r.delayAt k = some delay → 0 < delay)
    (chronological : Chronological events) {fuel start : Nat}
    (started : start ∈ ((r.loop events).run fuel r.backoff [] (signals events)).starts)
    (free : isHeld events start = false) :
    ∃ marks last tail,
      (r.loop events).run fuel r.backoff [] (signals events) = tail.after marks ∧
        r.Ends events last tail ∧ last.now = start ∧
        (start, .reported (.listenerBound r.address r.maxConnections)) ∈ tail.trace := by
  obtain ⟨n, marks, last, tail, cut, same, ends⟩ := run_parts lasting chronological fuel
  rw [same, RetryRun.after_starts] at started
  rcases List.mem_append.mp started with passed | final
  · simp [(held_of_passed cut.rounds passed).1] at free
  · rcases ends with ⟨_, rfl⟩ | ⟨_, ends⟩
    · cases final
    · rw [ends.starts, List.mem_singleton] at final
      subst final
      refine ⟨marks, last, tail, same, ends, rfl, ?_⟩
      cases ends with
      | delayed held _ _ _ => simp [held] at free
      | undrawn held _ => simp [held] at free
      | served _ _ _ => simp
      | serving _ _ _ => simp
      | overfull _ _ => simp

end Restart
end SnapshotEndpoint
