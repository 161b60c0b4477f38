import SnapshotEndpoint.Proofs.Restart.Attempts

/-!
When the restart loop dies. The checks of a configuration let two settings through that kill
it: a jitter that rounds away, at the first failure, and more permits than a listener can
have, at the first free port. Nothing else does.
-/
namespace SnapshotEndpoint

namespace Restart

section Chances

variable {r : Restart} {events : List TimedRestartEvent} {last : RetryState}
  {tail : RetryRun Empty ListenFailure}

/-- The signal that ends the last round, if one does. -/
theorem Ends.outcome (ends : r.Ends events last tail) :
    tail.outcome = .panicked ∨ tail.outcome = .running ∨ tail.outcome = .stopped ∧
      ∃ action, (tail.endedAt, .signalled .outside action) ∈ tail.trace := by
  cases ends with
  | @delayed _ signal rest held drawn next soon =>
    refine Or.inr (Or.inr ⟨rfl, signal.2, List.mem_append_right _ ?_⟩)
    simp [RetryRun.interrupted, Shutdown.actMarks]
  | undrawn held empty => exact Or.inl rfl
  | @served signal rest free room next =>
    refine Or.inr (Or.inr ⟨rfl, signal.2, List.mem_append_right _ ?_⟩)
    simp [RetryRun.interrupted, Shutdown.actMarks]
  | serving free room alone => exact Or.inr (Or.inl rfl)
  | overfull free many => exact Or.inl rfl

theorem Ends.panicked_iff (ends : r.Ends events last tail) : tail.outcome = .panicked ↔
    (r.delayAt last.index = none ∧ isHeld events last.now = true) ∨
      (permitLimit < r.maxConnections ∧ isHeld events last.now = false) := by
  cases ends with
  | delayed held drawn next soon => simp [RetryRun.interrupted, held, drawn]
  | undrawn held empty => simp [RetryRun.ended, held, empty]
  | served free room next => simp [RetryRun.interrupted, free]; omega
  | serving free room alone => simp [RetryRun.ended, free]; omega
  | overfull free many => simp [RetryRun.ended, free, many]

/-- Exactly two things kill the loop: a failure under a jitter that leaves nothing to draw, and
    a free port under too many permits. Otherwise only the signal ends it. -/
theorem panics_iff (waits : r.backoff.Waits) (draws : r.Draws)
    (chronological : Chronological events) (fuel : Nat) (run : RetryRun Empty ListenFailure)
    (runs : (r.loop events).run fuel r.backoff [] (signals events) = run) :
    (run.outcome = .panicked ↔
      (Backoff.Vanishes r.backoff.jitter ∧ ∃ start ∈ run.starts, isHeld events start = true) ∨
        (permitLimit < r.maxConnections ∧ ∃ start ∈ run.starts, isHeld events start = false)) ∧
      (run.outcome = .panicked ∨ run.outcome = .running ∨ run.outcome = .stopped ∧
        ∃ action, (run.endedAt, .signalled .outside action) ∈ run.trace) := by
  obtain ⟨n, marks, last, tail, cut, same, ends⟩ :=
    run_parts (delay_at_pos waits draws) chronological fuel
  have none_iff := delay_at_eq_none_iff waits draws
  rw [← runs, same]
  have passed {start : Nat} (member : start ∈ marks.filterMap Mark.start?) :
      isHeld events start = true ∧ ¬ Backoff.Vanishes r.backoff.jitter := by
    obtain ⟨held, i, delay, drawn⟩ := held_of_passed cut.rounds member
    refine ⟨held, ?_⟩
    intro vanishes
    simp [(none_iff i).mpr vanishes] at drawn
  rcases ends with ⟨_, rfl⟩ | ⟨_, ends⟩
  · refine ⟨⟨by simp [RetryRun.ended], ?_⟩, Or.inr (Or.inl rfl)⟩
    have only : (RetryRun.ended .running last : RetryRun Empty ListenFailure).starts = [] := rfl
    rw [RetryRun.after_starts, only, List.append_nil]
    rintro (⟨vanishes, start, member, _⟩ | ⟨_, start, member, free⟩)
    · exact absurd vanishes (passed member).2
    · simp [(passed member).1] at free
  · refine ⟨?_, ?_⟩
    · rw [RetryRun.after_outcome, ends.panicked_iff, none_iff, RetryRun.after_starts, ends.starts]
      constructor
      · rintro (⟨vanishes, held⟩ | ⟨many, free⟩)
        · exact Or.inl ⟨vanishes, last.now, by simp, held⟩
        · exact Or.inr ⟨many, last.now, by simp, free⟩
      · rintro (⟨vanishes, start, member, held⟩ | ⟨many, start, member, free⟩)
        · rcases List.mem_append.mp member with earlier | final
          · exact absurd vanishes (passed earlier).2
          · exact Or.inl ⟨vanishes, List.mem_singleton.mp final ▸ held⟩
        · rcases List.mem_append.mp member with earlier | final
          · simp [(passed earlier).1] at free
          · exact Or.inr ⟨many, List.mem_singleton.mp final ▸ free⟩
    · rcases ends.outcome with panicked | running | ⟨stopped, action, mark⟩
      · exact Or.inl panicked
      · exact Or.inr (Or.inl running)
      · exact Or.inr (Or.inr ⟨stopped, action, List.mem_append_right _ mark⟩)

end Chances

/-- What an accepted configuration promises, and what it does not: its loop dies exactly of a
    jitter in the last places of one, or of too many permits. -/
theorem panics_iff_of_accepted {config : Config} (accepted : config.violations = []) :
    (∃ endpoint, Endpoint.ofConfig config = .ok endpoint ∧
        ∀ factor, Configured config (ofEndpoint endpoint factor)) ∧
      (∀ calls, ((Backoff.ofConfig config.backoff).afterCalls calls).nextDelay = .emptyRange ↔
        Backoff.Vanishes config.backoff.jitter) ∧
      ∀ r : Restart, Configured config r → r.Draws → ∀ events, Chronological events →
        ∀ fuel run, (r.loop events).run fuel r.backoff [] (signals events) = run →
          (run.outcome = .panicked ↔
            (Backoff.Vanishes config.backoff.jitter ∧
              ∃ start ∈ run.starts, isHeld events start = true) ∨
            (permitLimit < config.server.maxConnections ∧
              ∃ start ∈ run.starts, isHeld events start = false)) ∧
          (run.outcome = .panicked ∨ run.outcome = .running ∨ run.outcome = .stopped ∧
            ∃ action, (run.endedAt, .signalled .outside action) ∈ run.trace) := by
  have checked := Config.violations_eq_nil_iff.mp accepted
  have waits := waits_of_accepted checked
  have jitter : Backoff.Vanishes (Backoff.ofConfig config.backoff).jitter ↔
      Backoff.Vanishes config.backoff.jitter := Backoff.vanishes_clamp_jitter config.backoff.jitter
  obtain ⟨endpoint, made⟩ := checked.endpoint
  refine ⟨⟨endpoint, made, configured_of_endpoint made⟩, ?_, ?_⟩
  · intro calls
    have still := Backoff.waits_after_calls waits calls
    rw [still.next_delay_eq_empty_range_iff, Backoff.after_calls_jitter, jitter]
  · intro r configured draws events chronological fuel run runs
    have dies := panics_iff (configured.backoff ▸ waits) draws chronological fuel run runs
    rwa [configured.backoff, configured.permits, jitter] at dies

/-- The default settings but for a jitter of 10^-17. -/
def fragile : Config :=
  { Config.default with
    backoff := { BackoffSection.default with jitter := Binary64.ofDecimal false 1 (-17) } }

/-- A loop under them, on a port that is never freed. -/
def fragileLoop : Restart where
  address := "0.0.0.0:61678"
  maxConnections := 64
  backoff := Backoff.ofConfig fragile.backoff
  factor _ := Binary64.one

theorem panics_iff_of_accepted_fragile : fragile.violations = [] ∧
    ((fragileLoop.loop []).run 1 fragileLoop.backoff [] (signals [])).outcome = .panicked := by
  have accepted : fragile.violations = [] := by decide +kernel
  have vanishes : Backoff.Vanishes fragile.backoff.jitter :=
    ⟨by decide +kernel, by decide +kernel⟩
  obtain ⟨_, empty_iff, dies⟩ := panics_iff_of_accepted accepted
  have draws : fragileLoop.Draws := fun k => Or.inl ((empty_iff k).mpr vanishes)
  obtain ⟨panics, _⟩ := dies fragileLoop ⟨rfl, rfl⟩ draws [] List.Pairwise.nil 1 _ rfl
  exact ⟨accepted, panics.mpr (Or.inl ⟨vanishes, 0, by decide +kernel, rfl⟩)⟩

end Restart
end SnapshotEndpoint
