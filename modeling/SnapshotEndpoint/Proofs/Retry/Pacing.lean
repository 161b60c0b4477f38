import SnapshotEndpoint.Proofs.Retry.Rounds

/-!
A loop that nobody tells to stop, under a backoff without jitter. Everything about a run is
read off one number: how many attempts fail for now before one that does not.
-/
namespace SnapshotEndpoint
namespace RetryLoop

variable {α ε : Type} (loop : RetryLoop α ε) (b : Backoff)

theorem delay_at_of_no_jitter (plain : Binary64.le b.jitter Binary64.zero = true) (k : Nat) :
    loop.delayAt b k = some (b.afterCalls k).base := by
  simp [delayAt, Backoff.nextDelay, plain, Delay.under, Backoff.base]

def lastMarksAt (k : Nat) : List TimedMark :=
  (loop.startAt b k, .started k) :: reports (loop.finishAt b k) (loop.attemptAt b k).events ++
    if (loop.verdict (loop.attemptAt b k).result).isSome then [(loop.finishAt b k, .completed k)]
    else []

/-- What a run reports of one attempt, and of the delay after it where there is one. -/
def noticesAt (k : Nat) : List TimedEvent :=
  (loop.attemptAt b k).events.map (fun event => (loop.finishAt b k, event)) ++
    if loop.retries (loop.attemptAt b k).result then
      [(loop.finishAt b k, .backingOff (b.afterCalls k).base)]
    else []

theorem pending_of_undecided {result : AttemptResult α ε} (settled : loop.verdict result = none)
    (last : loop.retries result = false) : result = .pending := by
  cases result <;> simp_all [retries, verdict]

theorem round_of_last {shutdown : Shutdown} {k : Nat}
    (quiet : shutdown.ready loopSubscriber = false) (still : (loop.attemptAt b k).actions = [])
    (last : loop.retries (loop.attemptAt b k).result = false) :
    loop.round (loop.stateAt b shutdown [] k) =
      .finished ⟨(loop.verdict (loop.attemptAt b k).result).getD .running, loop.lastMarksAt b k,
        loop.finishAt b k, b.afterCalls k, []⟩ := by
  have attempted := loop.await_attempt_state_at b [] (k := k) quiet rfl
  cases settled : loop.verdict (loop.attemptAt b k).result with
  | some outcome =>
    rw [loop.finish_attempt_of_verdict still settled] at attempted
    rw [round, attempted]
    simp [Phase.after, Phase.andThen, RetryRun.after, RetryRun.ended, lastMarksAt, settled,
      stateAt]
  | none =>
    have pending := loop.pending_of_undecided settled last
    rw [loop.finish_attempt_of_pending still pending] at attempted
    have waiting : RetryState.ready { loop.stateAt b shutdown [] k with
        now := loop.finishAt b k } = false := quiet
    rw [round, attempted, awaitSignal, waiting]
    simp [Phase.after, Phase.andThen, RetryRun.after, RetryRun.ended, lastMarksAt, settled,
      stateAt]

section Undisturbed

variable (plain : Binary64.le b.jitter Binary64.zero = true)
  (still : ∀ k time, (loop.attempt k time).actions = [])
include plain still

theorem round_of_failure {k : Nat} (again : loop.retries (loop.attemptAt b k).result = true) :
    loop.round (loop.stateAt b Shutdown.new.subscribe [] k) =
      .goesOn (loop.marksAt b k) (loop.stateAt b Shutdown.new.subscribe [] (k + 1)) :=
  loop.round_of_retries b rfl (still _ _) again (loop.delay_at_of_no_jitter b plain k) rfl rfl

/-- The run whose first attempt that does not fail for now is within reach. -/
theorem run_of_last {n fuel : Nat} (inReach : n < fuel)
    (again : ∀ k < n, loop.retries (loop.attemptAt b k).result = true)
    (last : loop.retries (loop.attemptAt b n).result = false) :
    loop.run fuel b [] [] =
      ⟨(loop.verdict (loop.attemptAt b n).result).getD .running,
        (List.range n).flatMap (loop.marksAt b) ++ loop.lastMarksAt b n,
        loop.finishAt b n, b.afterCalls n, []⟩ := by
  have split : fuel = n + (fuel - n - 1 + 1) := by omega
  have rounds := loop.run_from_rounds b Shutdown.new.subscribe [] n (fuel - n - 1 + 1)
    (fun k lower => loop.round_of_failure b plain still (again k lower))
  have ending : loop.runFrom (fuel - n - 1 + 1) (loop.stateAt b Shutdown.new.subscribe [] n) =
      ⟨(loop.verdict (loop.attemptAt b n).result).getD .running, loop.lastMarksAt b n,
        loop.finishAt b n, b.afterCalls n, []⟩ := by
    rw [runFrom, loop.round_of_last b rfl (still _ _) last]
  rw [← split, ending] at rounds
  exact rounds

theorem run_of_failures {fuel : Nat}
    (again : ∀ k < fuel, loop.retries (loop.attemptAt b k).result = true) :
    loop.run fuel b [] [] =
      ⟨.running, (List.range fuel).flatMap (loop.marksAt b), loop.startAt b fuel,
        b.afterCalls fuel, []⟩ := by
  have rounds := loop.run_from_rounds b Shutdown.new.subscribe [] fuel 0
    (fun k lower => loop.round_of_failure b plain still (again k lower))
  rw [Nat.add_zero] at rounds
  refine rounds.trans ?_
  simp [runFrom, RetryRun.after, RetryRun.ended, stateAt]

end Undisturbed

/-- What holds of a run of so many rounds that nobody tells to stop. Each started attempt but
    the last fails for now, and the next one starts a base delay after its end. -/
structure Paced (fuel : Nat) (run : RetryRun α ε) : Prop where
  first : run.starts[0]? = if fuel = 0 then none else some 0
  next : ∀ i time, run.starts[i + 1]? = some time ↔
    i + 1 < fuel ∧ ∃ start, run.starts[i]? = some start ∧
      loop.retries (loop.attempt i start).result = true ∧
      time = start + (loop.attempt i start).takes + Duration.ceilMillis (b.afterCalls i).base
  /-- The failures before an attempt are all that it takes to start it. -/
  reached : ∀ i < fuel, (∀ j < i, loop.retries (loop.attemptAt b j).result = true) →
    run.starts[i]? = some (loop.startAt b i)
  settled : ∀ i start outcome, run.starts[i]? = some start →
    loop.verdict (loop.attempt i start).result = some outcome →
      run.outcome = outcome ∧ run.starts.length = i + 1 ∧
        run.endedAt = start + (loop.attempt i start).takes
  unsettled : (∀ i start, run.starts[i]? = some start →
    loop.verdict (loop.attempt i start).result = none) → run.outcome = .running
  /-- One call for each failure. -/
  advanced : run.backoff = b.afterCalls
    ((List.range run.starts.length).countP fun i => loop.retries (loop.attemptAt b i).result)
  notices : run.events = (List.range run.starts.length).flatMap (loop.noticesAt b)

theorem failures_or_first (fuel : Nat) :
    (∀ k < fuel, loop.retries (loop.attemptAt b k).result = true) ∨
      ∃ n < fuel, (∀ k < n, loop.retries (loop.attemptAt b k).result = true) ∧
        loop.retries (loop.attemptAt b n).result = false := by
  induction fuel with
  | zero => exact Or.inl (by simp)
  | succ fuel ih =>
    rcases ih with again | ⟨n, lower, found⟩
    · cases last : loop.retries (loop.attemptAt b fuel).result with
      | true =>
        left
        intro k lower
        rcases Nat.lt_succ_iff_lt_or_eq.mp lower with before | rfl
        · exact again k before
        · exact last
      | false => exact Or.inr ⟨fuel, by omega, again, last⟩
    · exact Or.inr ⟨n, by omega, found⟩

theorem starts_entry {len i time : Nat} :
    ((List.range len).map (loop.startAt b))[i]? = some time ↔
      i < len ∧ time = loop.startAt b i := by
  rw [List.getElem?_map]
  by_cases inside : i < len
  · simp [inside, eq_comm]
  · simp [inside]

theorem rounds_notices (plain : Binary64.le b.jitter Binary64.zero = true) {n : Nat}
    (again : ∀ k < n, loop.retries (loop.attemptAt b k).result = true) :
    ((List.range n).flatMap (loop.marksAt b)).filterMap Mark.event? =
      (List.range n).flatMap (loop.noticesAt b) := by
  induction n with
  | zero => rfl
  | succ n ih =>
    have failed := again n (by omega)
    rw [List.range_succ, List.flatMap_append, List.flatMap_append, List.filterMap_append,
      ih (fun k lower => again k (by omega))]
    simp [marks_at_events, noticesAt, failed, loop.delay_at_of_no_jitter b plain]

theorem next_of_starts {len fuel : Nat} (plain : Binary64.le b.jitter Binary64.zero = true)
    (within : ∀ i, i < len ↔ i < fuel ∧
      ∀ j < i, loop.retries (loop.attemptAt b j).result = true) (i time : Nat) :
    ((List.range len).map (loop.startAt b))[i + 1]? = some time ↔
      i + 1 < fuel ∧ ∃ start, ((List.range len).map (loop.startAt b))[i]? = some start ∧
        loop.retries (loop.attempt i start).result = true ∧
        time = start + (loop.attempt i start).takes + Duration.ceilMillis (b.afterCalls i).base := by
  have wake : loop.startAt b (i + 1) = loop.startAt b i + (loop.attemptAt b i).takes +
      Duration.ceilMillis (b.afterCalls i).base := by
    rw [start_at_succ, loop.delay_at_of_no_jitter b plain, Option.getD_some, finishAt]
  simp only [starts_entry, within]
  constructor
  · intro started
    obtain ⟨⟨inReach, again⟩, rfl⟩ := started
    exact ⟨inReach, loop.startAt b i,
      ⟨⟨by omega, fun j lower => again j (by omega)⟩, rfl⟩, again i (by omega), wake⟩
  · intro followed
    obtain ⟨inReach, start, ⟨⟨_, again⟩, rfl⟩, last, rfl⟩ := followed
    refine ⟨⟨inReach, ?_⟩, wake.symm⟩
    intro j lower
    rcases Nat.lt_succ_iff_lt_or_eq.mp lower with before | rfl
    · exact again j before
    · exact last

/-- What the starts of a run show once it is known how many there are. -/
theorem starts_paced {run : RetryRun α ε} {len fuel : Nat}
    (plain : Binary64.le b.jitter Binary64.zero = true)
    (starts : run.starts = (List.range len).map (loop.startAt b))
    (within : ∀ i, i < len ↔ i < fuel ∧
      ∀ j < i, loop.retries (loop.attemptAt b j).result = true) :
    run.starts[0]? = (if fuel = 0 then none else some 0) ∧
      (∀ i time, run.starts[i + 1]? = some time ↔
        i + 1 < fuel ∧ ∃ start, run.starts[i]? = some start ∧
          loop.retries (loop.attempt i start).result = true ∧ time =
            start + (loop.attempt i start).takes + Duration.ceilMillis (b.afterCalls i).base) ∧
      ∀ i < fuel, (∀ j < i, loop.retries (loop.attemptAt b j).result = true) →
        run.starts[i]? = some (loop.startAt b i) := by
  have reached : ∀ i < fuel, (∀ j < i, loop.retries (loop.attemptAt b j).result = true) →
      run.starts[i]? = some (loop.startAt b i) := by
    intro i inside failed
    rw [starts, starts_entry]
    exact ⟨(within i).mpr ⟨inside, failed⟩, rfl⟩
  refine ⟨?_, ?_, reached⟩
  · split
    · rename_i none
      have empty : len = 0 := by
        have zero := within 0
        omega
      simp [starts, empty]
    · exact reached 0 (by omega) (by simp)
  · rw [starts]
    exact loop.next_of_starts b plain within

theorem count_failures {n : Nat}
    (again : ∀ k < n, loop.retries (loop.attemptAt b k).result = true) :
    ((List.range n).countP fun i => loop.retries (loop.attemptAt b i).result) = n := by
  have all := List.countP_eq_length.mpr fun k (member : k ∈ List.range n) =>
    again k (List.mem_range.mp member)
  rwa [List.length_range] at all

theorem last_marks_at_starts (k : Nat) :
    (loop.lastMarksAt b k).filterMap Mark.start? = [loop.startAt b k] := by
  unfold lastMarksAt
  split <;> simp [List.filterMap_cons, Mark.start?]

theorem last_marks_at_events {k : Nat} (last : loop.retries (loop.attemptAt b k).result = false) :
    (loop.lastMarksAt b k).filterMap Mark.event? = loop.noticesAt b k := by
  unfold lastMarksAt noticesAt
  split <;> simp [List.filterMap_cons, Mark.event?, last]

section Undisturbed

variable (plain : Binary64.le b.jitter Binary64.zero = true)
  (still : ∀ k time, (loop.attempt k time).actions = [])
include plain still

theorem paced_of_last {n fuel : Nat} (inReach : n < fuel)
    (again : ∀ k < n, loop.retries (loop.attemptAt b k).result = true)
    (last : loop.retries (loop.attemptAt b n).result = false) :
    loop.Paced b fuel (loop.run fuel b [] []) := by
  have run := loop.run_of_last b plain still inReach again last
  have starts : (loop.run fuel b [] []).starts = (List.range (n + 1)).map (loop.startAt b) := by
    rw [run]
    simp [RetryRun.starts, rounds_starts, last_marks_at_starts, List.range_succ]
  have events : (loop.run fuel b [] []).events =
      (List.range (n + 1)).flatMap (loop.noticesAt b) := by
    rw [run, List.range_succ]
    simp [RetryRun.events, loop.rounds_notices b plain again, loop.last_marks_at_events b last]
  have within : ∀ i, i < n + 1 ↔ i < fuel ∧
      ∀ j < i, loop.retries (loop.attemptAt b j).result = true := by
    intro i
    constructor
    · intro inside
      exact ⟨by omega, fun j lower => again j (by omega)⟩
    · rintro ⟨_, failed⟩
      rcases Nat.lt_or_ge n i with past | inside
      · simp [failed n past] at last
      · omega
  have count : (loop.run fuel b [] []).starts.length = n + 1 := by simp [starts]
  obtain ⟨first, next, reached⟩ := loop.starts_paced b plain starts within
  refine ⟨first, next, reached, ?_, ?_, ?_, ?_⟩
  · intro i start outcome started settled
    rw [starts, starts_entry] at started
    obtain ⟨inside, rfl⟩ := started
    have here : loop.verdict (loop.attemptAt b i).result = some outcome := settled
    rcases Nat.lt_succ_iff_lt_or_eq.mp inside with before | rfl
    · simp [loop.verdict_of_retries (again i before)] at here
    · exact ⟨by rw [run, here, Option.getD_some], count, by rw [run]; rfl⟩
  · intro unsettled
    have here : loop.verdict (loop.attemptAt b n).result = none :=
      unsettled n _ (by rw [starts, starts_entry]; exact ⟨by omega, rfl⟩)
    rw [run, here, Option.getD_none]
  · rw [count, List.range_succ, List.countP_append, loop.count_failures b again, run]
    simp [last]
  · rw [events, count]

theorem paced_of_failures {fuel : Nat}
    (again : ∀ k < fuel, loop.retries (loop.attemptAt b k).result = true) :
    loop.Paced b fuel (loop.run fuel b [] []) := by
  have run := loop.run_of_failures b plain still again
  have starts : (loop.run fuel b [] []).starts = (List.range fuel).map (loop.startAt b) := by
    rw [run]
    simp [RetryRun.starts, rounds_starts]
  have events : (loop.run fuel b [] []).events =
      (List.range fuel).flatMap (loop.noticesAt b) := by
    rw [run]
    simp [RetryRun.events, loop.rounds_notices b plain again]
  have within : ∀ i, i < fuel ↔ i < fuel ∧
      ∀ j < i, loop.retries (loop.attemptAt b j).result = true :=
    fun i => ⟨fun inside => ⟨inside, fun j lower => again j (by omega)⟩, And.left⟩
  have count : (loop.run fuel b [] []).starts.length = fuel := by simp [starts]
  obtain ⟨first, next, reached⟩ := loop.starts_paced b plain starts within
  refine ⟨first, next, reached, ?_, ?_, ?_, ?_⟩
  · intro i start outcome started settled
    rw [starts, starts_entry] at started
    obtain ⟨inside, rfl⟩ := started
    have here : loop.verdict (loop.attemptAt b i).result = some outcome := settled
    simp [loop.verdict_of_retries (again i inside)] at here
  · intro _
    rw [run]
  · rw [count, loop.count_failures b again, run]
  · rw [events, count]

/-- The run of any script, whatever it lasts and however many of its attempts fail. -/
theorem run_paced (fuel : Nat) : loop.Paced b fuel (loop.run fuel b [] []) := by
  rcases loop.failures_or_first b fuel with again | ⟨n, inReach, again, last⟩
  · exact loop.paced_of_failures b plain still again
  · exact loop.paced_of_last b plain still inReach again last

end Undisturbed

/-- Two attempts of three milliseconds fail for now, and the third succeeds. -/
def thirdTimeLucky : RetryLoop String Unit where
  attempt index _ := ⟨3, [], [], if index < 2 then .failed () else .ok "up"⟩
  worthRetry _ := true
  factor _ := Binary64.one
  signalWinsAttempt _ := false
  signalWinsDelay _ := false

theorem run_paced_third_time_lucky :
    thirdTimeLucky.Paced (Backoff.new 1000000 1500000 Binary64.zero (Binary64.ofNat 2)) 5
      (thirdTimeLucky.run 5 (Backoff.new 1000000 1500000 Binary64.zero (Binary64.ofNat 2)) [] []) :=
  thirdTimeLucky.run_paced _ (by decide +kernel) (fun _ _ => rfl) 5

example : (thirdTimeLucky.run 5
    (Backoff.new 1000000 1500000 Binary64.zero (Binary64.ofNat 2)) [] []).starts = [0, 4, 9] := by
  decide +kernel

end RetryLoop
end SnapshotEndpoint
