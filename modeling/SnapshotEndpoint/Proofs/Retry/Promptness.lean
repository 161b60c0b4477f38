import SnapshotEndpoint.Proofs.Retry.Interruption

/-!
The signal over whole runs. A run is rounds that pass without it and at most one round that
ends the loop, so what that round does with the signal is what the run does with it.
-/
namespace SnapshotEndpoint
namespace RetryLoop

variable {α ε : Type} {loop : RetryLoop α ε} {b : Backoff} {fuel : Nat}
  {before : List SignalAction} {signals : List TimedSignal}

variable (b) in
def initial (before : List SignalAction) (signals : List TimedSignal) : RetryState :=
  ⟨0, 0, b, (Shutdown.new.subscribe.actAll .before 0 before).1, signals⟩

def preface (before : List SignalAction) : List TimedMark :=
  (Shutdown.new.subscribe.actAll .before 0 before).2

theorem standing_initial (before : List SignalAction) (ordered : Ordered signals) :
    (initial b before signals).Standing b where
  backoff := rfl
  index := Nat.le_refl 0
  listening := (Shutdown.listening_subscribe.act_all .before 0 before).1
  ordered := ordered
  ahead _ _ := Nat.zero_le _

theorem ready_initial : (initial b before signals).ready = true ↔ before ≠ [] := by
  have heard := (Shutdown.listening_subscribe.act_all .before 0 before).2
  have silent : Shutdown.new.subscribe.ready loopSubscriber = false := rfl
  rw [silent] at heard
  simpa [RetryState.ready, initial] using heard

variable (loop b fuel before signals) in
/-- A run taken apart: the rounds that pass, and what ends it. -/
structure Cut (n : Nat) (marks : List TimedMark) (last : RetryState) (tail : RetryRun α ε) :
    Prop where
  rounds : loop.Rounds b n (initial b before signals) marks last
  stands : last.Standing b
  ends : (n = fuel ∧ tail = .ended .running last) ∨ (n < fuel ∧ loop.Ending b last tail)

theorem run_cut (lasting : ∀ k delay, loop.delayAt b k = some delay → 0 < delay)
    (ordered : Ordered signals) (fuel : Nat) (before : List SignalAction) :
    ∃ n marks last tail, loop.Cut b fuel before signals n marks last tail ∧
      loop.run fuel b before signals = tail.after (preface before ++ marks) := by
  obtain ⟨n, marks, last, rounds, stands, ends⟩ :=
    run_from_split lasting fuel (standing_initial before ordered)
  have run : loop.run fuel b before signals =
    (loop.runFrom fuel (initial b before signals)).after (preface before) := rfl
  rcases ends with ⟨used, same⟩ | ⟨lower, tail, ending, same⟩
  · exact ⟨n, marks, last, _, ⟨rounds, stands, Or.inl ⟨used, rfl⟩⟩,
      by rw [run, same, RetryRun.after_after]⟩
  · exact ⟨n, marks, last, tail, ⟨rounds, stands, Or.inr ⟨lower, ending⟩⟩,
      by rw [run, same, RetryRun.after_after]⟩

theorem Rounds.not_signals {n : Nat} {s last : RetryState} {marks : List TimedMark}
    (rounds : loop.Rounds b n s marks last) {mark : TimedMark} (member : mark ∈ marks) :
    ¬ mark.2.Signals := by
  induction rounds with
  | none s => cases member
  | more passes rest ih =>
    rcases List.mem_append.mp member with now | later
    · rw [passes.marks_eq] at now
      simp only [reports, List.mem_cons, List.mem_append, List.mem_map, List.not_mem_nil,
        or_false] at now
      rintro ⟨origin, action, same⟩
      rcases now with rfl | ⟨event, _, rfl⟩ | rfl | rfl | rfl <;> cases same
    · exact ih later

theorem Ending.returns {s : RetryState} {run : RetryRun α ε} (ending : loop.Ending b s run)
    (standing : s.Standing b) (drawn : loop.delayAt b s.index ≠ none)
    (woken : s.ready = true ∨ (loop.current s).actions ≠ [] ∨ s.signals ≠ []) :
    run.outcome = .stopped ∨ loop.Settled run := by
  rcases ending.outcome_cases drawn with stopped | settled | ⟨_, quiet, alone⟩
  · exact Or.inl stopped
  · exact Or.inr settled
  · have silent : ¬ (s.ready = true ∨ (loop.current s).actions ≠ []) := by
      rw [← attempted_ready standing, quiet]
      exact Bool.false_ne_true
    rw [not_or] at silent
    rcases woken with ready | acts | coming
    · exact absurd ready silent.1
    · exact absurd acts silent.2
    · exact absurd alone coming

theorem Settled.after {run : RetryRun α ε} (settled : loop.Settled run)
    (marks : List TimedMark) : loop.Settled (run.after marks) := by
  obtain ⟨i, start, started, completed, verdict⟩ := settled
  exact ⟨i, start, List.mem_append_right _ started, List.mem_append_right _ completed, verdict⟩

variable (loop b) in
/-- What a run does with the signal, wherever it comes from and however often. -/
structure Heeds (fuel : Nat) (before : List SignalAction) (signals : List TimedSignal)
    (run : RetryRun α ε) : Prop where
  order : Prompt run.trace
  /-- The loop ends at the instant of whatever is done to the signal. -/
  instant : ∀ time origin action, (time, .signalled origin action) ∈ run.trace →
    run.endedAt = time ∧ (origin = .outside → run.outcome = .stopped)
  already : before ≠ [] → 0 < fuel →
    run.starts.length ≤ 1 ∧ (∀ time i, (time, .slept i) ∉ run.trace) ∧ run.endedAt = 0 ∧
      (run.outcome = .stopped ∨ loop.Settled run)
  /-- No attempt starts after one that acts on the signal. -/
  raised : ∀ i start, (start, .started i) ∈ run.trace → (loop.attempt i start).actions ≠ [] →
    run.starts.getLast? = some start ∧ run.endedAt ≤ start + (loop.attempt i start).takes ∧
      (run.outcome = .stopped ∨ loop.Settled run)
  /-- No signal from outside is lost, if the rounds last until it comes. -/
  unlost : ∀ signal ∈ signals, signal.1 < fuel →
    (run.starts.filter fun start => signal.1 ≤ start).length ≤ 1 ∧
      (∀ time i, (time, .slept i) ∈ run.trace → time ≤ signal.1) ∧ run.endedAt ≤ signal.1 ∧
        (run.outcome = .stopped ∨ loop.Settled run)
  /-- The first signal from outside meets a loop that waits, unless another kept it from
      waiting. -/
  waiting : ∀ signal rest, signals = signal :: rest → ∀ i start,
    (start, .started i) ∈ run.trace → loop.WaitsAt b i start signal.1 →
      run.outcome = .stopped ∧ run.endedAt ≤ signal.1 ∧
        ∃ origin action, (run.endedAt, .signalled origin action) ∈ run.trace ∧
          (origin = .outside → run.endedAt = signal.1)

theorem not_started_preface (start i : Nat) : (start, .started i) ∉ preface before := by
  intro member
  rcases Shutdown.mem_act_all member with ⟨_, _, same⟩ | ⟨_, same⟩ <;> cases same

theorem preface_starts : (preface before).filterMap Mark.start? = [] := by
  rw [List.filterMap_eq_nil_iff]
  intro mark member
  rcases Shutdown.mem_act_all member with ⟨_, _, rfl⟩ | ⟨_, rfl⟩ <;> rfl

namespace Cut

variable {n : Nat} {marks : List TimedMark} {last : RetryState} {tail : RetryRun α ε}
  (cut : loop.Cut b fuel before signals n marks last tail)
include cut

theorem either : tail = .ended .running last ∨ loop.Ending b last tail :=
  cut.ends.imp And.right And.right

theorem unpassed (early : before ≠ []) :
    n = 0 ∧ marks = [] ∧ last = initial b before signals := by
  rcases cut.rounds.quiet_or_none with none | quiet
  · exact none
  · simp [ready_initial.mpr early] at quiet

theorem ended_at_of_early (early : before ≠ []) : tail.endedAt = 0 := by
  obtain ⟨_, _, atStart⟩ := cut.unpassed early
  rcases cut.either with rfl | ending
  · exact congrArg RetryState.now atStart
  · rw [atStart] at ending
    exact ending.ended_at_of_ready (atStart ▸ cut.stands) (ready_initial.mpr early)

omit cut in
/-- Without an action before it, the loop hears nothing up to its last round. -/
theorem quiet (cut : loop.Cut b fuel [] signals n marks last tail) : last.ready = false := by
  have silent : ¬ (initial b [] signals).ready = true := by simp [ready_initial]
  rw [RetryState.ready, cut.rounds.shutdown_eq]
  exact Bool.eq_false_iff.mpr silent

theorem of_started {start i : Nat}
    (started : (start, .started i) ∈ (tail.after (preface before ++ marks)).trace) :
    (start, .started i) ∈ marks ∨
      start = last.now ∧ i = last.index ∧ tail.starts = [last.now] ∧ loop.Ending b last tail := by
  rcases List.mem_append.mp started with earlier | final
  · rcases List.mem_append.mp earlier with early | passed
    · exact absurd early (not_started_preface start i)
    · exact Or.inl passed
  · rcases cut.either with rfl | ending
    · cases final
    · obtain ⟨rfl, rfl⟩ := ending.of_started cut.stands final
      have among : last.now ∈ tail.starts := List.mem_filterMap.mpr ⟨_, final, rfl⟩
      rcases ending.starts cut.stands with none | one
      · simp [none] at among
      · exact Or.inr ⟨rfl, rfl, one, ending⟩

theorem order : Prompt (tail.after (preface before ++ marks)).trace := by
  have awake : ∀ time i, (time, .slept i) ∉ tail.trace := by
    rcases cut.either with rfl | ending
    · simp [RetryRun.ended]
    · exact ending.not_slept cut.stands
  have final : Prompt tail.trace := by
    rcases cut.either with rfl | ending
    · exact List.Pairwise.nil
    · exact ending.prompt cut.stands
  rw [RetryRun.after_trace, List.append_assoc, Prompt, List.pairwise_append, List.pairwise_append]
  refine ⟨?_, ⟨?_, final, ?_⟩, ?_⟩
  · refine List.pairwise_of_forall_mem_list fun first _ second after => ?_
    rcases Shutdown.mem_act_all after with ⟨action, _, rfl⟩ | ⟨event, rfl⟩
    · exact first.2.may_follow_signalled .before action
    · exact first.2.may_follow_reported event
  · exact List.pairwise_of_forall_mem_list fun first early second _ =>
      Mark.may_follow_of_not_signals second.2 (cut.rounds.not_signals early)
  · intro first early second _
    exact Mark.may_follow_of_not_signals second.2 (cut.rounds.not_signals early)
  · intro first early second later
    rcases Shutdown.mem_act_all early with ⟨action, among, rfl⟩ | ⟨event, rfl⟩
    · -- the loop heard this action at once, so all that follows is the last round
      obtain ⟨_, rfl, _⟩ := cut.unpassed (List.ne_nil_of_mem among)
      rcases second with ⟨time, mark⟩
      cases mark with
      | slept i => exact absurd later (awake time i)
      | _ => trivial
    · exact Mark.may_follow_of_not_signals second.2 (by rintro ⟨_, _, same⟩; cases same)

theorem instant {time : Nat} {origin : SignalOrigin} {action : SignalAction}
    (member : (time, .signalled origin action) ∈ (tail.after (preface before ++ marks)).trace) :
    tail.endedAt = time ∧ (origin = .outside → tail.outcome = .stopped) := by
  rcases List.mem_append.mp member with earlier | final
  · rcases List.mem_append.mp earlier with early | passed
    · rcases Shutdown.mem_act_all early with ⟨other, among, same⟩ | ⟨_, same⟩ <;> cases same
      exact ⟨cut.ended_at_of_early (List.ne_nil_of_mem among), by simp⟩
    · exact absurd ⟨origin, action, rfl⟩ (cut.rounds.not_signals passed)
  · rcases cut.either with rfl | ending
    · cases final
    · obtain ⟨here, outside⟩ := ending.of_signalled cut.stands final
      exact ⟨here, fun is => (outside is).1⟩

theorem waiting {signal : TimedSignal} {rest : List TimedSignal}
    (first : signals = signal :: rest) {i start : Nat}
    (started : (start, .started i) ∈ (tail.after (preface before ++ marks)).trace)
    (waits : loop.WaitsAt b i start signal.1) :
    tail.outcome = .stopped ∧ tail.endedAt ≤ signal.1 ∧ ∃ origin action,
      (tail.endedAt, .signalled origin action) ∈ (tail.after (preface before ++ marks)).trace ∧
        (origin = .outside → tail.endedAt = signal.1) := by
  have coming : last.signals = signal :: rest := cut.rounds.signals_eq.trans first
  have member : signal ∈ last.signals := by rw [coming]; exact List.mem_cons_self
  rcases cut.of_started started with passed | ⟨rfl, rfl, _, ending⟩
  · -- the delay after that attempt was over before the signal
    obtain ⟨_, _, delay, drawn, passedBy⟩ := cut.rounds.of_started passed
    have ahead := cut.stands.ahead signal member
    rcases waits with ⟨_, soon | ⟨_, other, drawnToo, soon⟩⟩
    · omega
    · rw [drawn] at drawnToo
      cases drawnToo
      omega
  · have stopped := ending.stopped_of_waits member waits
    refine ⟨stopped, ending.ended_at_le cut.stands signal member, ?_⟩
    rcases ending.of_stopped cut.stands stopped with ready | ⟨origin, action, mark⟩
    · have early : before ≠ [] := by
        rw [RetryState.ready, cut.rounds.shutdown_eq] at ready
        exact ready_initial.mp ready
      obtain ⟨action, among⟩ := List.exists_mem_of_ne_nil _ early
      have mark : (0, .signalled .before action) ∈ preface before :=
        Shutdown.signalled_mem_act_all .before 0 among
      rw [cut.ended_at_of_early early]
      exact ⟨.before, action, List.mem_append_left _ (List.mem_append_left _ mark), by simp⟩
    · refine ⟨origin, action, List.mem_append_right _ mark, ?_⟩
      intro outside
      obtain ⟨_, others, next⟩ := (ending.of_signalled cut.stands mark).2 outside
      rw [coming] at next
      cases next
      rfl

section Drawable

variable (drawable : ∀ k, loop.delayAt b k ≠ none)
include drawable

theorem already (early : before ≠ []) (some_ : 0 < fuel) :
    (tail.after (preface before ++ marks)).starts.length ≤ 1 ∧
      (∀ time i, (time, .slept i) ∉ (tail.after (preface before ++ marks)).trace) ∧
        (tail.outcome = .stopped ∨ loop.Settled tail) := by
  obtain ⟨rfl, rfl, atStart⟩ := cut.unpassed early
  have ending : loop.Ending b last tail := by
    rcases cut.ends with ⟨used, _⟩ | ⟨_, ending⟩
    · omega
    · exact ending
  refine ⟨?_, ?_, ?_⟩
  · rw [RetryRun.after_starts, List.append_nil, preface_starts, List.nil_append]
    rcases ending.starts cut.stands with none | one
    · simp [none]
    · simp [one]
  · intro time i member
    rcases List.mem_append.mp member with earlier | final
    · rw [List.append_nil] at earlier
      rcases Shutdown.mem_act_all earlier with ⟨_, _, same⟩ | ⟨_, same⟩ <;> cases same
    · exact ending.not_slept cut.stands time i final
  · have ready : last.ready = true := by rw [atStart]; exact ready_initial.mpr early
    exact ending.returns cut.stands (drawable _) (Or.inl ready)

theorem raised {i start : Nat}
    (started : (start, .started i) ∈ (tail.after (preface before ++ marks)).trace)
    (acts : (loop.attempt i start).actions ≠ []) :
    (tail.after (preface before ++ marks)).starts.getLast? = some start ∧
      tail.endedAt ≤ start + (loop.attempt i start).takes ∧
        (tail.outcome = .stopped ∨ loop.Settled tail) := by
  rcases cut.of_started started with passed | ⟨rfl, rfl, one, ending⟩
  · exact absurd (cut.rounds.of_started passed).1 acts
  · exact ⟨by rw [RetryRun.after_starts, one, List.getLast?_concat],
      ending.of_actions cut.stands acts,
      ending.returns cut.stands (drawable _) (Or.inr (Or.inl acts))⟩

theorem unlost (positive : ∀ k delay, loop.delayAt b k = some delay → 0 < delay)
    {signal : TimedSignal} (member : signal ∈ signals) (soon : signal.1 < fuel) :
    ((tail.after (preface before ++ marks)).starts.filter
        fun start => signal.1 ≤ start).length ≤ 1 ∧
      (∀ time i, (time, .slept i) ∈ (tail.after (preface before ++ marks)).trace →
        time ≤ signal.1) ∧
        tail.endedAt ≤ signal.1 ∧ (tail.outcome = .stopped ∨ loop.Settled tail) := by
  have coming : last.signals = signals := cut.rounds.signals_eq
  have ahead := cut.stands.ahead signal (coming ▸ member)
  rcases cut.ends with ⟨rfl, _⟩ | ⟨_, ending⟩
  · -- so many rounds take so many milliseconds at least
    have passed := cut.rounds.index_eq
    have behind := cut.stands.index
    simp only [initial] at passed
    omega
  · have some_ : last.signals ≠ [] := by rw [coming]; exact List.ne_nil_of_mem member
    refine ⟨?_, ?_, ending.ended_at_le cut.stands signal (coming ▸ member),
      ending.returns cut.stands (drawable _) (Or.inr (Or.inr some_))⟩
    · have earlier : (marks.filterMap Mark.start?).filter (fun start => signal.1 ≤ start) = [] := by
        rw [List.filter_eq_nil_iff]
        intro start started
        obtain ⟨i, passed⟩ := started_of_mem_starts started
        obtain ⟨_, _, delay, drawn, passedBy⟩ := cut.rounds.of_started passed
        have lasts := Duration.ceil_millis_pos (positive i delay drawn)
        simp only [decide_eq_true_eq]
        omega
      rw [RetryRun.after_starts, List.filterMap_append, preface_starts, List.nil_append,
        List.filter_append, earlier, List.nil_append]
      refine Nat.le_trans (List.length_filter_le _ _) ?_
      rcases ending.starts cut.stands with none | one
      · simp [none]
      · simp [one]
    · intro time i slept
      rcases List.mem_append.mp slept with earlier | final
      · rcases List.mem_append.mp earlier with early | passed
        · rcases Shutdown.mem_act_all early with ⟨_, _, same⟩ | ⟨_, same⟩ <;> cases same
        · exact Nat.le_trans (cut.rounds.of_slept passed) ahead
      · exact absurd final (ending.not_slept cut.stands time i)

end Drawable
end Cut

/-- No run loses the signal or puts it off, as long as every delay lasts. -/
theorem heeds_of_lasting (lasting : ∀ k, ∃ delay, loop.delayAt b k = some delay ∧ 0 < delay)
    (ordered : Ordered signals) (fuel : Nat) (before : List SignalAction) :
    loop.Heeds b fuel before signals (loop.run fuel b before signals) := by
  have positive := positive_of_lasting lasting
  have drawable : ∀ k, loop.delayAt b k ≠ none := by
    intro k none
    obtain ⟨delay, same, _⟩ := lasting k
    simp [none] at same
  obtain ⟨n, marks, last, tail, cut, same⟩ := run_cut positive ordered fuel before
  rw [same]
  constructor
  case order => exact cut.order
  case instant => exact fun _ _ _ member => cut.instant member
  case already =>
    intro early some_
    obtain ⟨starts, awake, returns⟩ := cut.already drawable early some_
    exact ⟨starts, awake, cut.ended_at_of_early early, returns.imp id (·.after _)⟩
  case raised =>
    intro i start started acts
    obtain ⟨final, soon, returns⟩ := cut.raised drawable started acts
    exact ⟨final, soon, returns.imp id (·.after _)⟩
  case unlost =>
    intro signal member soon
    obtain ⟨starts, slept, ended, returns⟩ := cut.unlost drawable positive member soon
    exact ⟨starts, slept, ended, returns.imp id (·.after _)⟩
  case waiting => exact fun _ _ first _ _ started waits => cut.waiting first started waits

/-- Under any backoff that starts at a millisecond or more, and any draws it allows, the signal
    is heeded. -/
theorem run_heeds_signal {min max : Nat} {jitter multiplier : Binary64}
    (initial : Duration.nanosPerMilli ≤ min)
    (reachable : Backoff.Reachable (Backoff.new min max jitter multiplier) b)
    (draws : ∀ k, (b.afterCalls k).nextDelay.Allows (loop.factor k)) (ordered : Ordered signals)
    (fuel : Nat) (before : List SignalAction) :
    loop.Heeds b fuel before signals (loop.run fuel b before signals) := by
  have waits := Backoff.waits_reachable (Backoff.waits_new jitter multiplier initial) reachable
  exact heeds_of_lasting
    (fun k => (Backoff.waits_after_calls waits k).delay_pos (draws k)) ordered fuel before

/-- Every attempt fails at once and for now; the second one tells the loop to stop. -/
def selfStopping : RetryLoop Unit Unit where
  attempt index _ := ⟨0, [], if index = 1 then [.trigger, .trigger] else [], .failed ()⟩
  worthRetry _ := true
  factor _ := Binary64.one
  signalWinsAttempt _ := false
  signalWinsDelay _ := false

theorem run_heeds_signal_self_stopping :
    selfStopping.Heeds (Backoff.ofConfig BackoffSection.default) 9 [] [(1500, .drop)]
      (selfStopping.run 9 (Backoff.ofConfig BackoffSection.default) [] [(1500, .drop)]) :=
  run_heeds_signal (by decide) .start Backoff.default_allows_one (by decide) 9 []

example : (selfStopping.run 9 (Backoff.ofConfig BackoffSection.default) []
    [(1500, .drop)]).starts = [0, 1000] := by
  decide +kernel

end RetryLoop
end SnapshotEndpoint
