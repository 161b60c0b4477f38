import SnapshotEndpoint.Proofs.Retry.Rounds

/-!
All that a round can come to: it passes in full, which takes a loop that no signal has
reached, or it ends the loop in one of seven ways. A run is a number of rounds that pass
and, unless they use up the fuel, one that does not.
-/
namespace SnapshotEndpoint
namespace Shutdown

/-- The loop's subscriber is there, and has read nothing that was not sent. -/
def Listening (s : Shutdown) : Prop :=
  ∃ next, s.position loopSubscriber = some next ∧ next ≤ s.sent

theorem listening_subscribe : new.subscribe.Listening := ⟨0, rfl, Nat.le_refl 0⟩

theorem Listening.listeners_ne_zero {s : Shutdown} (listening : s.Listening) :
    s.listeners ≠ 0 := by
  obtain ⟨next, position, _⟩ := listening
  rcases subscribers : s.subscribers with _ | ⟨first, rest⟩
  · simp [Shutdown.position, subscribers] at position
  · have present : first = some next := by
      simpa [Shutdown.position, subscribers, loopSubscriber] using position
    simp [listeners, subscribers, present]

theorem Listening.act {s : Shutdown} (listening : s.Listening) (action : SignalAction) :
    (s.act action).1.Listening ∧ (s.act action).1.ready loopSubscriber = true := by
  have heard := listening.listeners_ne_zero
  obtain ⟨next, position, behind⟩ := listening
  cases action with
  | trigger =>
    by_cases dropped : s.dropped = true
    · simp only [Shutdown.act, step, dropped, if_true]
      exact ⟨⟨next, position, behind⟩, by simp [ready, position, dropped]⟩
    · have sent : (s.act .trigger).1 = { s with sent := s.sent + 1 } := by
        simp [Shutdown.act, step, dropped, trigger, heard]
      have there : ({ s with sent := s.sent + 1 } : Shutdown).position loopSubscriber =
        some next := position
      rw [sent]
      refine ⟨⟨next, there, Nat.le_succ_of_le behind⟩, ?_⟩
      simp [ready, there, Nat.lt_succ_of_le behind]
  | drop =>
    have there : s.drop.position loopSubscriber = some next := position
    have dropped : s.drop.dropped = true := rfl
    exact ⟨⟨next, there, behind⟩, by simp [Shutdown.act, ready, there, dropped]⟩

theorem Listening.act_all {s : Shutdown} (listening : s.Listening) (origin : SignalOrigin)
    (time : Nat) (actions : List SignalAction) :
    (s.actAll origin time actions).1.Listening ∧
      ((s.actAll origin time actions).1.ready loopSubscriber = true ↔
        s.ready loopSubscriber = true ∨ actions ≠ []) := by
  induction actions generalizing s with
  | nil => exact ⟨listening, by simp [Shutdown.actAll]⟩
  | cons action rest ih =>
    obtain ⟨still, ready⟩ := listening.act action
    obtain ⟨last, iff⟩ := ih still
    exact ⟨last, by simp only [Shutdown.actAll, iff, ready]; simp⟩

theorem mem_act_all {s : Shutdown} {origin : SignalOrigin} {time : Nat}
    {actions : List SignalAction} {mark : TimedMark}
    (member : mark ∈ (s.actAll origin time actions).2) :
    (∃ action ∈ actions, mark = (time, .signalled origin action)) ∨
      ∃ event, mark = (time, .reported event) := by
  induction actions generalizing s with
  | nil => simp [actAll] at member
  | cons action rest ih =>
    simp only [actAll, actMarks, reports, List.cons_append, List.mem_cons, List.mem_append,
      List.mem_map] at member
    rcases member with rfl | ⟨event, _, rfl⟩ | later
    · exact Or.inl ⟨action, by simp, rfl⟩
    · exact Or.inr ⟨event, rfl⟩
    · rcases ih later with ⟨other, among, rfl⟩ | reported
      · exact Or.inl ⟨other, List.mem_cons_of_mem _ among, rfl⟩
      · exact Or.inr reported

theorem signalled_mem_act_all {s : Shutdown} (origin : SignalOrigin) (time : Nat)
    {actions : List SignalAction} {action : SignalAction} (member : action ∈ actions) :
    (time, .signalled origin action) ∈ (s.actAll origin time actions).2 := by
  induction actions generalizing s with
  | nil => cases member
  | cons first rest ih =>
    simp only [actAll, actMarks, List.cons_append, List.mem_cons, List.mem_append]
    rcases List.mem_cons.mp member with rfl | later
    · exact Or.inl rfl
    · exact Or.inr (Or.inr (ih later))

end Shutdown

abbrev Ordered (signals : List TimedSignal) : Prop :=
  signals.Pairwise fun earlier later => earlier.1 ≤ later.1

theorem first_signal_none {deadline : Nat} {winsTie : Bool} {signals : List TimedSignal}
    (ordered : Ordered signals) (none : firstSignal deadline winsTie signals = none) :
    ∀ signal ∈ signals, deadline ≤ signal.1 := by
  intro signal member
  cases signals with
  | nil => cases member
  | cons first rest =>
    have late : deadline ≤ first.1 := by
      simp only [firstSignal] at none
      split at none
      · contradiction
      · rename_i later
        simp at later
        omega
    rcases List.mem_cons.mp member with rfl | among
    · exact late
    · exact Nat.le_trans late ((List.pairwise_cons.mp ordered).1 signal among)

theorem first_signal_some {deadline : Nat} {winsTie : Bool} {signals rest : List TimedSignal}
    {signal : TimedSignal} (found : firstSignal deadline winsTie signals = some (signal, rest)) :
    signals = signal :: rest ∧ signal.1 ≤ deadline ∧
      (winsTie = false → signal.1 < deadline) := by
  cases signals with
  | nil => simp [firstSignal] at found
  | cons first others =>
    simp only [firstSignal] at found
    split at found
    · rename_i soon
      simp only [Option.some.injEq, Prod.mk.injEq] at found
      obtain ⟨rfl, rfl⟩ := found
      simp only [Bool.or_eq_true, decide_eq_true_eq, Bool.and_eq_true, beq_iff_eq] at soon
      refine ⟨rfl, by omega, ?_⟩
      rintro rfl
      simpa using soon
    · contradiction

namespace RetryState

/-- What holds of the loop between rounds. -/
structure Standing (b : Backoff) (s : RetryState) : Prop where
  backoff : s.backoff = b.afterCalls s.index
  index : s.index ≤ s.now
  listening : s.shutdown.Listening
  ordered : Ordered s.signals
  ahead : ∀ signal ∈ s.signals, s.now ≤ signal.1

/-- The runs in which the signal ends a wait: it is there, or it comes from outside. -/
inductive Halts {α ε : Type} (s : RetryState) : RetryRun α ε → Prop where
  | found (ready : s.ready = true) : Halts s (.ended .stopped s)
  | reached {signal : TimedSignal} {rest : List TimedSignal} (quiet : s.ready = false)
      (next : s.signals = signal :: rest) : Halts s (.interrupted s signal rest)

end RetryState

namespace RetryLoop

variable {α ε : Type} (loop : RetryLoop α ε) (b : Backoff)

def current (s : RetryState) : Attempt α ε := loop.attempt s.index s.now

def finish (s : RetryState) : Nat := s.now + (loop.current s).takes

/-- Where the loop stands when the attempt has its result. -/
def attempted (s : RetryState) : RetryState :=
  { s with
    now := loop.finish s
    shutdown := (s.shutdown.actAll .attempt (loop.finish s) (loop.current s).actions).1 }

def asleep (s : RetryState) : RetryState :=
  { loop.attempted s with backoff := s.backoff.advance }

/-- What an attempt that has its result reports and does to the signal. -/
def deeds (s : RetryState) : List TimedMark :=
  reports (loop.finish s) (loop.current s).events ++
    (s.shutdown.actAll .attempt (loop.finish s) (loop.current s).actions).2

def attemptMarks (s : RetryState) : List TimedMark := (s.now, .started s.index) :: loop.deeds s

/-- The attempt has its result: neither a signal before it nor one from outside cut it. -/
structure Through (s : RetryState) : Prop where
  at_once : s.ready = true → (loop.current s).takes = 0
  clear : ∀ signal ∈ s.signals, loop.finish s ≤ signal.1

inductive Ending (s : RetryState) : RetryRun α ε → Prop where
  | unstarted (ready : s.ready = true) : Ending s (.ended .stopped s)
  | cut {run : RetryRun α ε} (lasts : (loop.current s).takes ≠ 0) (halts : s.Halts run)
      (soon : run.endedAt ≤ loop.finish s) : Ending s (run.after [(s.now, .started s.index)])
  | settled {outcome : RetryOutcome α ε} (through : loop.Through s)
      (verdict : loop.verdict (loop.current s).result = some outcome) :
      Ending s ((RetryRun.ended outcome (loop.attempted s)).after
        (loop.attemptMarks s ++ [(loop.finish s, .completed s.index)]))
  | hung {run : RetryRun α ε} (through : loop.Through s)
      (pending : (loop.current s).result = .pending) (halts : (loop.attempted s).Halts run) :
      Ending s (run.after (loop.attemptMarks s))
  | endless (through : loop.Through s) (pending : (loop.current s).result = .pending)
      (quiet : (loop.attempted s).ready = false) (alone : s.signals = []) :
      Ending s ((RetryRun.ended .running (loop.attempted s)).after (loop.attemptMarks s))
  | delayed {run : RetryRun α ε} {delay : Nat} (through : loop.Through s)
      (again : loop.retries (loop.current s).result = true)
      (drawn : loop.delayAt b s.index = some delay)
      (halts : (loop.asleep s).Halts run)
      (soon : run.endedAt ≤ loop.finish s + Duration.ceilMillis delay) :
      Ending s (run.after (loop.attemptMarks s ++ [(loop.finish s, .completed s.index),
        (loop.finish s, .reported (.backingOff delay))]))
  | panicked (through : loop.Through s) (again : loop.retries (loop.current s).result = true)
      (empty : loop.delayAt b s.index = none) :
      Ending s ((RetryRun.ended .panicked (loop.asleep s)).after
        (loop.attemptMarks s ++ [(loop.finish s, .completed s.index)]))

/-- A round that passes in full. -/
structure Passes (s : RetryState) (marks : List TimedMark) (next : RetryState)
    (delay : Nat) : Prop where
  quiet : s.ready = false
  still : (loop.current s).actions = []
  again : loop.retries (loop.current s).result = true
  drawn : loop.delayAt b s.index = some delay
  next_eq : next = ⟨s.index + 1, loop.finish s + Duration.ceilMillis delay, s.backoff.advance,
    s.shutdown, s.signals⟩
  clear : ∀ signal ∈ s.signals, next.now ≤ signal.1
  marks_eq : marks = (s.now, .started s.index) ::
    (reports (loop.finish s) (loop.current s).events ++
      [(loop.finish s, .completed s.index), (loop.finish s, .reported (.backingOff delay)),
       (next.now, .slept s.index)])

variable {loop b} {s : RetryState}

theorem attempted_ready (standing : s.Standing b) :
    (loop.attempted s).ready = true ↔ s.ready = true ∨ (loop.current s).actions ≠ [] :=
  (standing.listening.act_all .attempt (loop.finish s) (loop.current s).actions).2

theorem asleep_ready : (loop.asleep s).ready = (loop.attempted s).ready := by
  simp only [RetryState.ready, asleep]

theorem await_signal_cases (t : RetryState) :
    (∃ run, awaitSignal t = (.finished run : Phase α ε) ∧ t.Halts run) ∨
      (awaitSignal t = (.finished (.ended .running t) : Phase α ε) ∧ t.ready = false ∧
        t.signals = []) := by
  unfold awaitSignal
  by_cases ready : t.ready = true
  · rw [if_pos ready]
    exact Or.inl ⟨_, rfl, .found ready⟩
  · have quiet : t.ready = false := by simpa using ready
    rw [if_neg ready]
    split
    · rename_i next
      exact Or.inl ⟨_, rfl, .reached quiet next⟩
    · rename_i alone
      exact Or.inr ⟨rfl, quiet, alone⟩

theorem finish_attempt_cases (through : loop.Through s) :
    (∃ run, (loop.finishAttempt (loop.current s) { s with now := loop.finish s }).after
        [(s.now, .started s.index)] = .finished run ∧ loop.Ending b s run) ∨
      ((loop.finishAttempt (loop.current s) { s with now := loop.finish s }).after
        [(s.now, .started s.index)] = .goesOn
          (loop.attemptMarks s ++ [(loop.finish s, .completed s.index)]) (loop.attempted s) ∧
        loop.retries (loop.current s).result = true) := by
  have marks (phase : Phase α ε) : (phase.after (reports (loop.finish s) (loop.current s).events ++
      (s.shutdown.actAll .attempt (loop.finish s) (loop.current s).actions).2)).after
        [(s.now, .started s.index)] = phase.after (loop.attemptMarks s) := by
    cases phase <;> simp [Phase.after, attemptMarks, deeds]
  unfold finishAttempt
  simp only [marks]
  cases result : (loop.current s).result with
  | pending =>
    simp only
    rcases await_signal_cases (α := α) (ε := ε) (loop.attempted s) with
      ⟨run, waits, halts⟩ | ⟨waits, quiet, alone⟩
    · refine Or.inl ⟨_, congrArg (Phase.after _) waits, .hung through result halts⟩
    · refine Or.inl ⟨_, congrArg (Phase.after _) waits, .endless through result quiet alone⟩
  | ok value =>
    have verdict : loop.verdict (loop.current s).result = some (.returned value) := by
      rw [result]; rfl
    refine Or.inl ⟨_, ?_, .settled through verdict⟩
    simp [RetryLoop.verdict, Phase.after, attempted]
  | panics =>
    have verdict : loop.verdict (loop.current s).result = some .panicked := by
      rw [result]; rfl
    refine Or.inl ⟨_, ?_, .settled through verdict⟩
    simp [RetryLoop.verdict, Phase.after, attempted]
  | failed error =>
    by_cases again : loop.worthRetry error = true
    · refine Or.inr ⟨?_, again⟩
      simp [RetryLoop.verdict, Phase.after, again, attempted]
    · have verdict : loop.verdict (loop.current s).result = some (.failed error) := by
        rw [result]; simp [RetryLoop.verdict, again]
      refine Or.inl ⟨_, ?_, .settled through verdict⟩
      simp [RetryLoop.verdict, Phase.after, again, attempted]

theorem await_attempt_eq : loop.awaitAttempt s =
    if s.ready && loop.signalWinsAttempt s.index then .finished (.ended .stopped s)
    else Phase.after [(s.now, .started s.index)] <|
      if s.ready && (loop.current s).takes != 0 then .finished (.ended .stopped s)
      else
        match firstSignal (loop.finish s)
            ((loop.current s).takes != 0 && loop.signalWinsResult s.index) s.signals with
        | some (signal, rest) => .finished (.interrupted s signal rest)
        | none => loop.finishAttempt (loop.current s) { s with now := loop.finish s } := rfl

theorem await_attempt_cases (standing : s.Standing b) :
    (∃ run, loop.awaitAttempt s = .finished run ∧ loop.Ending b s run) ∨
      (loop.awaitAttempt s = .goesOn
          (loop.attemptMarks s ++ [(loop.finish s, .completed s.index)]) (loop.attempted s) ∧
        loop.Through s ∧ loop.retries (loop.current s).result = true) := by
  rw [await_attempt_eq]
  by_cases won : (s.ready && loop.signalWinsAttempt s.index) = true
  · rw [if_pos won]
    exact Or.inl ⟨_, rfl, .unstarted (Bool.and_eq_true_iff.mp won).1⟩
  rw [if_neg won]
  by_cases interrupted : (s.ready && (loop.current s).takes != 0) = true
  · rw [if_pos interrupted]
    obtain ⟨ready, lasts⟩ := Bool.and_eq_true_iff.mp interrupted
    exact Or.inl ⟨_, rfl, .cut (by simpa using lasts) (.found ready) (Nat.le_add_right _ _)⟩
  rw [if_neg interrupted]
  have atOnce : s.ready = true → (loop.current s).takes = 0 := by
    intro ready
    simpa [ready] using interrupted
  cases found : firstSignal (loop.finish s)
      ((loop.current s).takes != 0 && loop.signalWinsResult s.index) s.signals with
  | some pair =>
    obtain ⟨signal, rest⟩ := pair
    obtain ⟨next, soon, strict⟩ := first_signal_some found
    have lasts : (loop.current s).takes ≠ 0 := by
      -- a signal before the end of an attempt that ends at once would lie in the past
      intro instant
      have before := strict (by simp [instant])
      have after := standing.ahead signal (by simp [next])
      simp only [finish, instant] at before
      omega
    have quiet : s.ready = false := Bool.eq_false_iff.mpr fun ready => lasts (atOnce ready)
    exact Or.inl ⟨_, rfl, .cut lasts (.reached quiet next) soon⟩
  | none =>
    have through : loop.Through s := ⟨atOnce, first_signal_none standing.ordered found⟩
    rcases finish_attempt_cases (b := b) through with ⟨run, ends, ending⟩ | ⟨goes, again⟩
    · exact Or.inl ⟨run, ends, ending⟩
    · exact Or.inr ⟨goes, through, again⟩

theorem await_delay_of_drawn {delay : Nat}
    (drawn : s.backoff.nextDelay.under (loop.factor s.index) = some delay) :
    loop.awaitDelay s = Phase.after [(s.now, .reported (.backingOff delay))]
      (if s.ready && (delay != 0 || loop.signalWinsDelay s.index) then
        .finished (.ended .stopped { s with backoff := s.backoff.advance })
      else
        match firstSignal (s.now + Duration.ceilMillis delay) (loop.signalWinsWake s.index)
            s.signals with
        | some (signal, rest) =>
            .finished (.interrupted { s with backoff := s.backoff.advance } signal rest)
        | none =>
            .goesOn [(s.now + Duration.ceilMillis delay, .slept s.index)]
              ⟨s.index + 1, s.now + Duration.ceilMillis delay, s.backoff.advance, s.shutdown,
                s.signals⟩) := by
  unfold awaitDelay
  split
  · rename_i empty
    simp [drawn] at empty
  · rename_i other same
    rw [drawn] at same
    cases same
    rfl

theorem await_delay_of_empty
    (empty : s.backoff.nextDelay.under (loop.factor s.index) = none) :
    loop.awaitDelay s =
      .finished (.ended .panicked { s with backoff := s.backoff.advance }) := by
  simp only [awaitDelay, empty]

theorem await_delay_cases (standing : s.Standing b) (through : loop.Through s)
    (again : loop.retries (loop.current s).result = true)
    (lasting : ∀ delay, loop.delayAt b s.index = some delay → 0 < delay) :
    (∃ run, (loop.awaitDelay (loop.attempted s)).after
        (loop.attemptMarks s ++ [(loop.finish s, .completed s.index)]) = .finished run ∧
      loop.Ending b s run) ∨
      ∃ marks next delay, (loop.awaitDelay (loop.attempted s)).after
        (loop.attemptMarks s ++ [(loop.finish s, .completed s.index)]) = .goesOn marks next ∧
        loop.Passes b s marks next delay := by
  have drawnAt : s.backoff.nextDelay.under (loop.factor s.index) = loop.delayAt b s.index := by
    rw [standing.backoff, delayAt]
  cases drawn : loop.delayAt b s.index with
  | none =>
    have empty : loop.awaitDelay (loop.attempted s) = .finished (.ended .panicked (loop.asleep s)) :=
      await_delay_of_empty (drawnAt.trans drawn)
    rw [empty]
    exact Or.inl ⟨_, rfl, .panicked through again drawn⟩
  | some delay =>
    have positive := lasting delay drawn
    have nonzero : (delay != 0) = true := by simpa using Nat.pos_iff_ne_zero.mp positive
    rw [await_delay_of_drawn (s := loop.attempted s) (drawnAt.trans drawn), nonzero, Bool.true_or,
      Bool.and_true]
    by_cases ready : (loop.attempted s).ready = true
    · have halts : (loop.asleep s).Halts (.ended .stopped (loop.asleep s) : RetryRun α ε) :=
        .found (asleep_ready.trans ready)
      have soon : loop.finish s ≤ loop.finish s + Duration.ceilMillis delay :=
        Nat.le_add_right _ _
      rw [if_pos ready]
      refine Or.inl ⟨_, ?_, .delayed through again drawn halts soon⟩
      simp [Phase.after, asleep, attempted]
    rw [if_neg ready]
    cases found : firstSignal ((loop.attempted s).now + Duration.ceilMillis delay)
        (loop.signalWinsWake (loop.attempted s).index) (loop.attempted s).signals with
    | some pair =>
      obtain ⟨signal, rest⟩ := pair
      obtain ⟨next, soon, _⟩ := first_signal_some found
      have halts : (loop.asleep s).Halts
          (.interrupted (loop.asleep s) signal rest : RetryRun α ε) :=
        .reached (asleep_ready.trans (by simpa using ready)) next
      refine Or.inl ⟨_, ?_, .delayed through again drawn halts soon⟩
      simp [Phase.after, asleep, attempted]
    | none =>
      rw [attempted_ready standing, not_or] at ready
      have still : (loop.current s).actions = [] := by simpa using ready.2
      refine Or.inr ⟨_, _, delay, rfl, ?_⟩
      exact
        { quiet := by simpa using ready.1
          still := still
          again := again
          drawn := drawn
          next_eq := by simp [attempted, still, Shutdown.actAll]
          clear := first_signal_none standing.ordered found
          marks_eq := by simp [attemptMarks, deeds, attempted, still, Shutdown.actAll] }

theorem round_cases (standing : s.Standing b)
    (lasting : ∀ delay, loop.delayAt b s.index = some delay → 0 < delay) :
    (∃ run, loop.round s = .finished run ∧ loop.Ending b s run) ∨
      ∃ marks next delay, loop.round s = .goesOn marks next ∧
        loop.Passes b s marks next delay := by
  rw [round]
  rcases await_attempt_cases standing with ⟨run, ends, ending⟩ | ⟨goes, through, again⟩
  · rw [ends]
    exact Or.inl ⟨run, rfl, ending⟩
  · rw [goes]
    exact await_delay_cases standing through again lasting

theorem Passes.standing {marks : List TimedMark} {next : RetryState} {delay : Nat}
    (passes : loop.Passes b s marks next delay) (standing : s.Standing b) (positive : 0 < delay) :
    next.Standing b := by
  have clear := passes.clear
  rw [passes.next_eq] at clear ⊢
  have lasts := Duration.ceil_millis_pos positive
  have index := standing.index
  exact
    { backoff := congrArg Backoff.advance standing.backoff
      index := by simp only [finish]; omega
      listening := standing.listening
      ordered := standing.ordered
      ahead := clear }

variable (loop b) in
/-- So many rounds that pass, one after another. -/
inductive Rounds : Nat → RetryState → List TimedMark → RetryState → Prop where
  | none (s : RetryState) : Rounds 0 s [] s
  | more {n delay : Nat} {s next last : RetryState} {marks later : List TimedMark}
      (passes : loop.Passes b s marks next delay) (rest : Rounds n next later last) :
      Rounds (n + 1) s (marks ++ later) last

/-- A run is rounds that pass, up to the end of the fuel or to a round that ends the loop. -/
theorem run_from_split (lasting : ∀ k delay, loop.delayAt b k = some delay → 0 < delay)
    (fuel : Nat) (standing : s.Standing b) :
    ∃ n marks last, loop.Rounds b n s marks last ∧ last.Standing b ∧
      ((n = fuel ∧ loop.runFrom fuel s = (RetryRun.ended .running last).after marks) ∨
        (n < fuel ∧ ∃ run, loop.Ending b last run ∧ loop.runFrom fuel s = run.after marks)) := by
  induction fuel generalizing s with
  | zero => exact ⟨0, [], s, .none s, standing, Or.inl ⟨rfl, rfl⟩⟩
  | succ fuel ih =>
    rcases round_cases standing (lasting s.index) with
      ⟨run, ends, ending⟩ | ⟨marks, next, delay, goes, passes⟩
    · exact ⟨0, [], s, .none s, standing,
        Or.inr ⟨Nat.succ_pos fuel, run, ending, by rw [runFrom, ends, RetryRun.after_nil]⟩⟩
    · have positive := lasting s.index delay passes.drawn
      obtain ⟨n, later, last, rounds, stands, rest⟩ := ih (passes.standing standing positive)
      have unfolded : loop.runFrom (fuel + 1) s = (loop.runFrom fuel next).after marks := by
        rw [runFrom, goes]
      refine ⟨n + 1, marks ++ later, last, .more passes rounds, stands, ?_⟩
      rcases rest with ⟨rfl, same⟩ | ⟨lower, run, ending, same⟩
      · exact Or.inl ⟨rfl, by rw [unfolded, same, RetryRun.after_after]⟩
      · exact Or.inr ⟨by omega, run, ending, by rw [unfolded, same, RetryRun.after_after]⟩

namespace Rounds

variable {n : Nat} {marks : List TimedMark} {last : RetryState}

theorem shutdown_eq (rounds : loop.Rounds b n s marks last) : last.shutdown = s.shutdown := by
  induction rounds with
  | none s => rfl
  | more passes rest ih => rw [ih, passes.next_eq]

theorem signals_eq (rounds : loop.Rounds b n s marks last) : last.signals = s.signals := by
  induction rounds with
  | none s => rfl
  | more passes rest ih => rw [ih, passes.next_eq]

theorem index_eq (rounds : loop.Rounds b n s marks last) : last.index = s.index + n := by
  induction rounds with
  | none s => rfl
  | more passes rest ih =>
    rw [ih, passes.next_eq]
    simp only
    omega

theorem now_le (rounds : loop.Rounds b n s marks last) : s.now ≤ last.now := by
  induction rounds with
  | none s => exact Nat.le_refl _
  | more passes rest ih =>
    rw [passes.next_eq] at ih
    simp only [finish] at ih
    omega

theorem quiet_or_none (rounds : loop.Rounds b n s marks last) : n = 0 ∧ marks = [] ∧ last = s ∨
    s.ready = false := by
  cases rounds with
  | none => exact Or.inl ⟨rfl, rfl, rfl⟩
  | more passes rest => exact Or.inr passes.quiet

/-- Every attempt of the rounds left the signal alone and failed for now, and the delay after
    it has passed. -/
theorem of_started (rounds : loop.Rounds b n s marks last) {start i : Nat}
    (member : (start, .started i) ∈ marks) :
    (loop.attempt i start).actions = [] ∧
      loop.retries (loop.attempt i start).result = true ∧ ∃ delay, loop.delayAt b i = some delay ∧
        start + (loop.attempt i start).takes + Duration.ceilMillis delay ≤ last.now := by
  induction rounds with
  | none s => cases member
  | @more n delay s next last marks later passes rest ih =>
    rcases List.mem_append.mp member with now | later
    · rw [passes.marks_eq] at now
      simp [reports] at now
      obtain ⟨rfl, rfl⟩ := now
      have passed := rest.now_le
      rw [passes.next_eq] at passed
      exact ⟨passes.still, passes.again, delay, passes.drawn, passed⟩
    · exact ih later

/-- Rounds start where the lengths of the attempts and the delays put them. -/
theorem on_time (rounds : loop.Rounds b n s marks last)
    (here : s.now = loop.startAt b s.index) :
    last.now = loop.startAt b last.index ∧
      marks.filterMap Mark.start? = (List.range' s.index n).map (loop.startAt b) := by
  induction rounds with
  | none s => exact ⟨here, rfl⟩
  | @more n delay s next last marks later passes rest ih =>
    have there : next.now = loop.startAt b next.index := by
      rw [passes.next_eq, start_at_succ, finishAt, attemptAt, passes.drawn, Option.getD_some, ← here]
      rfl
    obtain ⟨onTime, starts⟩ := ih there
    have first : marks.filterMap Mark.start? = [s.now] := by
      rw [passes.marks_eq]
      simp [List.filterMap_cons, Mark.start?]
    refine ⟨onTime, ?_⟩
    rw [List.filterMap_append, starts, first, passes.next_eq, here]
    rfl

theorem of_slept (rounds : loop.Rounds b n s marks last) {time i : Nat}
    (member : (time, .slept i) ∈ marks) : time ≤ last.now := by
  induction rounds with
  | none s => cases member
  | @more n delay s next last marks later passes rest ih =>
    rcases List.mem_append.mp member with now | later
    · rw [passes.marks_eq] at now
      simp [reports] at now
      rw [now.1]
      exact rest.now_le
    · exact ih later

end Rounds
end RetryLoop
end SnapshotEndpoint
