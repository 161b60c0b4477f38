import SnapshotEndpoint.Proofs.Retry.Endings

/-!
The signal is never lost and never put off. Only a round that ends the loop holds actions on
the signal, and it ends at the instant of each of them. That no delay is zero matters: the
signal wins against every delay that lasts, and only against those for sure.
-/
namespace SnapshotEndpoint

/-- Which marks may come after which: after an action on the signal no delay passes, and no
    attempt starts save where the loop had not begun. A signal from outside also keeps the
    attempt it meets from a result. -/
def Mark.MayFollow : Mark → Mark → Prop
  | .signalled _ _, .slept _ => False
  | .signalled .outside _, .started _ => False
  | .signalled .attempt _, .started _ => False
  | .signalled .outside _, .completed _ => False
  | _, _ => True

def Mark.Signals (mark : Mark) : Prop := ∃ origin action, mark = .signalled origin action

theorem Mark.may_follow_of_not_signals {first : Mark} (second : Mark) (other : ¬ first.Signals) :
    first.MayFollow second := by
  cases first with
  | signalled origin action => exact absurd ⟨origin, action, rfl⟩ other
  | _ => trivial

theorem Mark.may_follow_reported (first : Mark) (event : Event) :
    first.MayFollow (.reported event) := by
  cases first with
  | signalled origin action => cases origin <;> trivial
  | _ => trivial

theorem Mark.may_follow_signalled (first : Mark) (origin : SignalOrigin) (action : SignalAction) :
    first.MayFollow (.signalled origin action) := by
  cases first with
  | signalled origin action => cases origin <;> trivial
  | _ => trivial

abbrev Prompt (trace : List TimedMark) : Prop :=
  trace.Pairwise fun earlier later => earlier.2.MayFollow later.2

namespace RetryLoop

variable {α ε : Type} {loop : RetryLoop α ε} {b : Backoff} {s : RetryState}
  {run : RetryRun α ε} {mark : TimedMark}

variable (loop s run) in
/-- What comes of an attempt that has its result, up to the delay after it. An action of the
    attempt ends the loop then. -/
def Inner (mark : TimedMark) : Prop :=
  (∃ event, mark = (loop.finish s, .reported event)) ∨
    mark = (loop.finish s, .completed s.index) ∨
    ∃ action ∈ (loop.current s).actions,
      mark = (loop.finish s, .signalled .attempt action) ∧ run.endedAt = loop.finish s

/-- What comes of a signal from outside, which is the first of those to come. -/
def Outer (signals : List TimedSignal) (run : RetryRun α ε) (mark : TimedMark) : Prop :=
  (∃ event, mark = (run.endedAt, .reported event)) ∨
    ∃ signal rest, signals = signal :: rest ∧ mark = (signal.1, .signalled .outside signal.2) ∧
      run.endedAt = signal.1 ∧ run.outcome = .stopped

theorem outcome_of_halts (halts : s.Halts run) : run.outcome = .stopped := by
  cases halts <;> rfl

theorem outer_of_halts (halts : s.Halts run) (member : mark ∈ run.trace) :
    Outer s.signals run mark := by
  cases halts with
  | found => cases member
  | @reached signal rest _ next =>
    have parts : mark = (signal.1, .signalled .outside signal.2) ∨
        ∃ event ∈ (s.shutdown.act signal.2).2, (signal.1, Mark.reported event) = mark := by
      simpa [RetryRun.interrupted, Shutdown.actMarks, reports] using member
    rcases parts with rfl | ⟨event, _, rfl⟩
    · exact Or.inr ⟨signal, rest, next, rfl, rfl, rfl⟩
    · exact Or.inl ⟨event, rfl⟩

theorem ended_at_of_halts (halts : s.Halts run) (ready : s.ready = true) :
    run.endedAt = s.now := by
  cases halts with
  | found => rfl
  | reached quiet => simp [ready] at quiet

theorem ended_at_le_of_halts (halts : s.Halts run) (ordered : Ordered s.signals)
    (ahead : ∀ signal ∈ s.signals, s.now ≤ signal.1) :
    ∀ signal ∈ s.signals, run.endedAt ≤ signal.1 := by
  cases halts with
  | found => exact ahead
  | reached quiet next =>
    rw [next] at ordered ⊢
    intro other member
    rcases List.mem_cons.mp member with rfl | later
    · exact Nat.le_refl _
    · exact (List.pairwise_cons.mp ordered).1 other later

theorem ready_of_actions (standing : s.Standing b) {action : SignalAction}
    (acted : action ∈ (loop.current s).actions) : (loop.attempted s).ready = true :=
  (attempted_ready standing).mpr (Or.inr (List.ne_nil_of_mem acted))

theorem inner_of_deeds
    (ends : ∀ action ∈ (loop.current s).actions, run.endedAt = loop.finish s)
    (member : mark ∈ loop.deeds s) : Inner loop s run mark := by
  rcases List.mem_append.mp member with reported | acted
  · obtain ⟨event, _, rfl⟩ := List.mem_map.mp reported
    exact Or.inl ⟨event, rfl⟩
  · rcases Shutdown.mem_act_all acted with ⟨action, among, rfl⟩ | reported
    · exact Or.inr (Or.inr ⟨action, among, rfl, ends action among⟩)
    · exact Or.inl reported

theorem inner_of_completed
    (ends : ∀ action ∈ (loop.current s).actions, run.endedAt = loop.finish s)
    (member : mark ∈ loop.deeds s ++ [(loop.finish s, .completed s.index)]) :
    Inner loop s run mark := by
  rcases List.mem_append.mp member with attempted | completed
  · exact inner_of_deeds ends attempted
  · exact Or.inr (Or.inl (List.mem_singleton.mp completed))

theorem Ending.trace_cases (ending : loop.Ending b s run) (standing : s.Standing b) :
    run.trace = [] ∨ ∃ inner outer,
      run.trace = (s.now, .started s.index) :: (inner ++ outer) ∧
        (∀ mark ∈ inner, Inner loop s run mark) ∧ ∀ mark ∈ outer, Outer s.signals run mark := by
  cases ending with
  | unstarted ready => exact Or.inl rfl
  | @cut run lasts halts soon =>
    have outer : ∀ mark ∈ run.trace, Outer s.signals run mark :=
      fun _ member => (outer_of_halts halts member :)
    exact Or.inr ⟨[], run.trace, rfl, by simp, outer⟩
  | settled through verdict =>
    refine Or.inr ⟨loop.deeds s ++ [(loop.finish s, .completed s.index)], [],
      by simp [attemptMarks, RetryRun.ended], fun mark => ?_, by simp⟩
    exact inner_of_completed fun _ _ => rfl
  | @hung run through pending halts =>
    have outer : ∀ mark ∈ run.trace, Outer s.signals run mark :=
      fun _ member => (outer_of_halts halts member :)
    refine Or.inr ⟨loop.deeds s, run.trace, rfl, ?_, outer⟩
    intro mark
    apply inner_of_deeds
    intro action acted
    exact ended_at_of_halts halts (ready_of_actions standing acted)
  | endless through pending quiet alone =>
    refine Or.inr ⟨loop.deeds s, [], rfl, ?_, by simp⟩
    intro mark
    exact inner_of_deeds fun _ _ => rfl
  | @delayed run delay through again drawn halts soon =>
    have outer : ∀ mark ∈ run.trace, Outer s.signals run mark :=
      fun _ member => (outer_of_halts halts member :)
    refine Or.inr ⟨loop.deeds s ++ [(loop.finish s, .completed s.index)] ++
      [(loop.finish s, .reported (.backingOff delay))], run.trace, by simp [attemptMarks],
      fun mark member => ?_, outer⟩
    rcases List.mem_append.mp member with completed | delayed
    · refine inner_of_completed (fun action acted => ?_) completed
      exact ended_at_of_halts halts (asleep_ready.trans (ready_of_actions standing acted))
    · exact Or.inl ⟨_, List.mem_singleton.mp delayed⟩
  | panicked through again empty =>
    refine Or.inr ⟨loop.deeds s ++ [(loop.finish s, .completed s.index)], [],
      by simp [attemptMarks, RetryRun.ended], fun mark => ?_, by simp⟩
    exact inner_of_completed fun _ _ => rfl

theorem may_follow_of_outer {signals : List TimedSignal} (first : Mark)
    (outer : Outer signals run mark) : first.MayFollow mark.2 := by
  rcases outer with ⟨event, rfl⟩ | ⟨signal, _, _, rfl, _⟩
  · exact first.may_follow_reported event
  · exact first.may_follow_signalled .outside signal.2

theorem may_follow_of_inner {first : TimedMark} (earlier : Inner loop s run first)
    (later : Inner loop s run mark) : first.2.MayFollow mark.2 := by
  rcases later with ⟨event, rfl⟩ | rfl | ⟨action, _, rfl, _⟩
  · exact first.2.may_follow_reported event
  · rcases earlier with ⟨_, rfl⟩ | rfl | ⟨_, _, rfl, _⟩ <;> trivial
  · exact first.2.may_follow_signalled .attempt action

namespace Ending

variable (ending : loop.Ending b s run) (standing : s.Standing b)
include ending standing

theorem prompt : Prompt run.trace := by
  rcases ending.trace_cases standing with empty | ⟨inner, outer, trace, inside, outside⟩
  · rw [empty]
    exact List.Pairwise.nil
  · rw [trace, Prompt, List.pairwise_cons, List.pairwise_append]
    refine ⟨fun _ _ => trivial, ?_, ?_, ?_⟩
    · exact List.pairwise_of_forall_mem_list fun first before second after =>
        may_follow_of_inner (inside first before) (inside second after)
    · exact List.pairwise_of_forall_mem_list fun first _ second after =>
        may_follow_of_outer first.2 (outside second after)
    · intro first _ second after
      exact may_follow_of_outer first.2 (outside second after)

theorem not_slept (time i : Nat) : (time, .slept i) ∉ run.trace := by
  intro member
  rcases ending.trace_cases standing with empty | ⟨inner, outer, trace, inside, outside⟩
  · rw [empty] at member
    cases member
  · rw [trace, List.mem_cons, List.mem_append] at member
    rcases member with head | within | beyond
    · cases head
    · rcases inside _ within with ⟨_, same⟩ | same | ⟨_, _, same, _⟩ <;> cases same
    · rcases outside _ beyond with ⟨_, same⟩ | ⟨_, _, _, same, _⟩ <;> cases same

theorem starts : run.starts = [] ∨ run.starts = [s.now] := by
  rcases ending.trace_cases standing with empty | ⟨inner, outer, trace, inside, outside⟩
  · exact Or.inl (by rw [RetryRun.starts, empty]; rfl)
  · right
    have none : (inner ++ outer).filterMap Mark.start? = [] := by
      rw [List.filterMap_eq_nil_iff]
      intro mark member
      rcases List.mem_append.mp member with within | beyond
      · rcases inside _ within with ⟨_, rfl⟩ | rfl | ⟨_, _, rfl, _⟩ <;> rfl
      · rcases outside _ beyond with ⟨_, rfl⟩ | ⟨_, _, _, rfl, _⟩ <;> rfl
    rw [RetryRun.starts, trace, List.filterMap_cons, none]
    rfl

theorem of_started {start i : Nat} (member : (start, .started i) ∈ run.trace) :
    start = s.now ∧ i = s.index := by
  rcases ending.trace_cases standing with empty | ⟨inner, outer, trace, inside, outside⟩
  · rw [empty] at member
    cases member
  · rw [trace, List.mem_cons, List.mem_append] at member
    rcases member with head | within | beyond
    · cases head
      exact ⟨rfl, rfl⟩
    · rcases inside _ within with ⟨_, same⟩ | same | ⟨_, _, same, _⟩ <;> cases same
    · rcases outside _ beyond with ⟨_, same⟩ | ⟨_, _, _, same, _⟩ <;> cases same

theorem of_signalled {time : Nat} {origin : SignalOrigin} {action : SignalAction}
    (member : (time, .signalled origin action) ∈ run.trace) :
    run.endedAt = time ∧
      (origin = .outside → run.outcome = .stopped ∧
        ∃ rest, s.signals = (time, action) :: rest) := by
  rcases ending.trace_cases standing with empty | ⟨inner, outer, trace, inside, outside⟩
  · rw [empty] at member
    cases member
  · rw [trace, List.mem_cons, List.mem_append] at member
    rcases member with head | within | beyond
    · cases head
    · rcases inside _ within with ⟨_, same⟩ | same | ⟨_, _, same, ends⟩ <;> cases same
      exact ⟨ends, by simp⟩
    · rcases outside _ beyond with ⟨_, same⟩ | ⟨signal, rest, next, same, ends, stopped⟩ <;>
        cases same
      exact ⟨ends, fun _ => ⟨stopped, rest, next⟩⟩

theorem ended_at_le : ∀ signal ∈ s.signals, run.endedAt ≤ signal.1 := by
  cases ending with
  | unstarted ready => exact standing.ahead
  | cut lasts halts soon =>
    exact (ended_at_le_of_halts halts standing.ordered standing.ahead :)
  | settled through verdict => exact through.clear
  | hung through pending halts =>
    exact (ended_at_le_of_halts halts standing.ordered through.clear :)
  | endless through pending quiet alone => exact through.clear
  | delayed through again drawn halts soon =>
    exact (ended_at_le_of_halts halts standing.ordered through.clear :)
  | panicked through again empty => exact through.clear

theorem ended_at_of_ready (ready : s.ready = true) : run.endedAt = s.now := by
  have heard : (loop.attempted s).ready = true := (attempted_ready standing).mpr (Or.inl ready)
  have here (through : loop.Through s) : loop.finish s = s.now := by
    rw [finish, through.at_once ready, Nat.add_zero]
  cases ending with
  | unstarted _ => rfl
  | cut lasts halts soon => exact (ended_at_of_halts halts ready :)
  | settled through verdict => exact here through
  | hung through pending halts => exact (ended_at_of_halts halts heard).trans (here through)
  | endless through pending quiet alone => simp [heard] at quiet
  | delayed through again drawn halts soon =>
    exact (ended_at_of_halts halts (asleep_ready.trans heard)).trans (here through)
  | panicked through again empty => exact here through

end Ending

variable (loop run) in
/-- Whether the outcome is that of an attempt that has its result. -/
def Settled : Prop :=
  ∃ i start, (start, .started i) ∈ run.trace ∧
    (start + (loop.attempt i start).takes, .completed i) ∈ run.trace ∧
      loop.verdict (loop.attempt i start).result = some run.outcome

variable (loop b) in
/-- Whether an attempt, or the delay after it, is not over at a time. -/
def WaitsAt (i start time : Nat) : Prop :=
  start ≤ time ∧ (time < start + (loop.attempt i start).takes ∨
    loop.retries (loop.attempt i start).result = true ∧ ∃ delay, loop.delayAt b i = some delay ∧
      time < start + (loop.attempt i start).takes + Duration.ceilMillis delay)

theorem verdict_ne_stopped (result : AttemptResult α ε) :
    loop.verdict result ≠ some .stopped := by
  cases result with
  | failed error => simp only [verdict]; split <;> simp
  | _ => simp [verdict]

theorem signalled_of_halts (halts : s.Halts run) :
    s.ready = true ∧ run.endedAt = s.now ∨
      ∃ action, (run.endedAt, .signalled .outside action) ∈ run.trace := by
  cases halts with
  | found ready => exact Or.inl ⟨ready, rfl⟩
  | @reached signal rest quiet next =>
    exact Or.inr ⟨signal.2, by simp [RetryRun.interrupted, Shutdown.actMarks]⟩

theorem signalled_mem_deeds {action : SignalAction}
    (member : action ∈ (loop.current s).actions) :
    (loop.finish s, .signalled .attempt action) ∈ loop.deeds s :=
  List.mem_append_right _ (Shutdown.signalled_mem_act_all .attempt _ member)

/-- A loop that stops where an attempt left it has heard the signal by then. -/
theorem signalled_of_halts_after (standing : s.Standing b) {t : RetryState}
    (heard : t.ready = (loop.attempted s).ready) (here : t.now = loop.finish s)
    (halts : t.Halts run) :
    s.ready = true ∨ ∃ origin action,
      (run.endedAt, .signalled origin action) ∈ loop.deeds s ++ run.trace := by
  rcases signalled_of_halts halts with ⟨ready, ended⟩ | ⟨action, member⟩
  · rw [heard, attempted_ready standing] at ready
    rcases ready with already | acts
    · exact Or.inl already
    · obtain ⟨action, among⟩ := List.exists_mem_of_ne_nil _ acts
      rw [ended, here]
      exact Or.inr ⟨.attempt, action, List.mem_append_left _ (signalled_mem_deeds among)⟩
  · exact Or.inr ⟨.outside, action, List.mem_append_right _ member⟩

namespace Ending

/-- The loop ends by the signal or by a result, or it waits with nothing to wake it. -/
theorem outcome_cases (ending : loop.Ending b s run) (drawn : loop.delayAt b s.index ≠ none) :
    run.outcome = .stopped ∨ loop.Settled run ∨
      (run.outcome = .running ∧ (loop.attempted s).ready = false ∧ s.signals = []) := by
  cases ending with
  | unstarted ready => exact Or.inl rfl
  | cut lasts halts soon => exact Or.inl (outcome_of_halts halts :)
  | settled through verdict =>
    refine Or.inr (Or.inl ⟨s.index, s.now, ?_, ?_, verdict⟩)
    · simp [attemptMarks]
    · simp [finish, current]
  | hung through pending halts => exact Or.inl (outcome_of_halts halts :)
  | endless through pending quiet alone => exact Or.inr (Or.inr ⟨rfl, quiet, alone⟩)
  | delayed through again drawn halts soon => exact Or.inl (outcome_of_halts halts :)
  | panicked through again empty => exact absurd empty drawn

/-- What stops the loop is an action on the signal at that instant, or one before the round. -/
theorem of_stopped (ending : loop.Ending b s run) (standing : s.Standing b)
    (stopped : run.outcome = .stopped) :
    s.ready = true ∨
      ∃ origin action, (run.endedAt, .signalled origin action) ∈ run.trace := by
  cases ending with
  | unstarted ready => exact Or.inl ready
  | cut lasts halts soon =>
    rcases signalled_of_halts halts with ⟨ready, _⟩ | ⟨action, member⟩
    · exact Or.inl ready
    · exact Or.inr ⟨.outside, action, List.mem_append_right _ member⟩
  | settled through verdict =>
    have never : loop.verdict (loop.current s).result ≠ some .stopped := verdict_ne_stopped _
    exact absurd (verdict.trans (congrArg some stopped)) never
  | hung through pending halts =>
    rcases signalled_of_halts_after standing rfl rfl halts with ready | ⟨origin, action, member⟩
    · exact Or.inl ready
    · exact Or.inr ⟨origin, action, List.mem_cons_of_mem _ member⟩
  | endless through pending quiet alone => simp [RetryRun.ended] at stopped
  | delayed through again drawn halts soon =>
    rcases signalled_of_halts_after standing asleep_ready rfl halts with
      ready | ⟨origin, action, member⟩
    · exact Or.inl ready
    · refine Or.inr ⟨origin, action, ?_⟩
      rcases List.mem_append.mp member with acted | outside
      · exact List.mem_append_left _ (List.mem_append_left _ (List.mem_cons_of_mem _ acted))
      · exact List.mem_append_right _ outside
  | panicked through again empty => simp [RetryRun.ended] at stopped

/-- The first signal from outside stops the loop in whatever it waits for. -/
theorem stopped_of_waits (ending : loop.Ending b s run) {signal : TimedSignal}
    (coming : signal ∈ s.signals) (waits : loop.WaitsAt b s.index s.now signal.1) :
    run.outcome = .stopped := by
  obtain ⟨_, waits⟩ := waits
  have unfinished (through : loop.Through s) : loop.retries (loop.current s).result = true ∧
      ∃ delay, loop.delayAt b s.index = some delay := by
    have late := through.clear signal coming
    rcases waits with early | ⟨again, delay, drawn, _⟩
    · simp only [finish, current] at late
      omega
    · exact ⟨again, delay, drawn⟩
  cases ending with
  | unstarted ready => rfl
  | cut lasts halts soon => exact (outcome_of_halts halts :)
  | settled through verdict =>
    simp [loop.verdict_of_retries (unfinished through).1] at verdict
  | hung through pending halts => exact (outcome_of_halts halts :)
  | endless through pending quiet alone => simp [alone] at coming
  | delayed through again drawn halts soon => exact (outcome_of_halts halts :)
  | panicked through again empty =>
    obtain ⟨_, delay, drawn⟩ := unfinished through
    simp [empty] at drawn

theorem of_actions (ending : loop.Ending b s run) (standing : s.Standing b)
    (acts : (loop.current s).actions ≠ []) :
    run.endedAt ≤ loop.finish s := by
  have heard : (loop.attempted s).ready = true := (attempted_ready standing).mpr (Or.inr acts)
  cases ending with
  | unstarted ready => exact Nat.le_add_right _ _
  | cut lasts halts soon => exact soon
  | settled through verdict => exact Nat.le_refl _
  | hung through pending halts => exact Nat.le_of_eq (ended_at_of_halts halts heard :)
  | endless through pending quiet alone => exact Nat.le_refl _
  | delayed through again drawn halts soon =>
    exact Nat.le_of_eq (ended_at_of_halts halts (asleep_ready.trans heard) :)
  | panicked through again empty => exact Nat.le_refl _

end Ending
end RetryLoop
end SnapshotEndpoint
