import SnapshotEndpoint.Proofs.Restart.Schedule

/-!
Three observers of the restart loop, the count of failures, the error records and the
counter, against the attempts that found the port held. Each sees an attempt through its one
report, so it is enough that every held attempt makes one and nothing else does.
-/
namespace SnapshotEndpoint

def Event.isFailure : Event → Bool
  | serveFailed _ _ => true
  | _ => false

theorem Event.failures_eq (event : Event) :
    event.failures = if event.isFailure then 1 else 0 := by
  cases event <;> rfl

def Event.logsFailure (event : Event) : Bool :=
  event.record.level == .error && event.record.message == "Error running http api"

theorem Event.logs_failure_eq (event : Event) : event.logsFailure = event.isFailure := by
  cases event <;> rfl

theorem foldl_failures (events : List Event) (count : Nat) :
    events.foldl (fun count event => count + event.failures) count =
      count + events.countP Event.isFailure := by
  induction events generalizing count with
  | nil => rfl
  | cons event rest ih =>
    rw [List.foldl_cons, ih, List.countP_cons, Event.failures_eq]
    omega

theorem value_serve_failure (events : List Event) :
    (Metrics.ofEvents events).value .serveFailure = events.countP Event.isFailure := by
  induction events with
  | nil => rfl
  | cons event rest ih =>
    have split : (Metrics.ofEvents (event :: rest)).value .serveFailure =
        event.series.count .serveFailure + (Metrics.ofEvents rest).value .serveFailure := by
      simp [Metrics.ofEvents, Metrics.value]
    rw [split, ih, List.countP_cons, Nat.add_comm]
    cases event <;> rfl

namespace Restart

variable {r : Restart} {events : List TimedRestartEvent} {now : Nat}

def failedBy (now : Nat) (event : TimedEvent) : Bool :=
  decide (event.1 ≤ now) && event.2.isFailure

def heldBy (events : List TimedRestartEvent) (now start : Nat) : Bool :=
  decide (start ≤ now) && isHeld events start

theorem count_acted (s : Shutdown) (time : Nat) (action : SignalAction) :
    ((s.actMarks .outside time action).filterMap Mark.event?).countP (failedBy now) = 0 := by
  cases action with
  | drop => rfl
  | trigger =>
    simp only [Shutdown.actMarks, Shutdown.act, Shutdown.step]
    split <;> simp [reports, List.filterMap_cons, Mark.event?, Shutdown.Answer.events, failedBy,
      Event.isFailure]

theorem count_rounds {n : Nat} {marks : List TimedMark} {s last : RetryState}
    (rounds : (r.loop events).Rounds r.backoff n s marks last) :
    (marks.filterMap Mark.event?).countP (failedBy now) =
      (marks.filterMap Mark.start?).countP (heldBy events now) := by
  induction rounds with
  | none s => rfl
  | @more n delay s next last marks later passes rest ih =>
    have held := held_of_retries passes.again
    have event : ((r.loop events).current s).events = [r.failure] := by
      have same : ((r.loop events).current s).events = (r.attempt (isHeld events s.now)).events :=
        rfl
      rw [same, held]
      rfl
    rw [List.filterMap_append, List.filterMap_append, List.countP_append, List.countP_append, ih,
      passes.marks_eq, event, finish_eq]
    simp [List.filterMap_cons, Mark.event?, Mark.start?, failedBy, heldBy, held, failure,
      Event.isFailure, List.countP_cons]

theorem count_ends {last : RetryState} {tail : RetryRun Empty ListenFailure}
    (ends : r.Ends events last tail) :
    tail.events.countP (failedBy now) = tail.starts.countP (heldBy events now) := by
  rw [ends.starts]
  cases ends with
  | delayed held drawn next soon =>
    simp [RetryRun.interrupted_events, List.filterMap_cons, Mark.event?, count_acted, failedBy,
      heldBy, held, failure, Event.isFailure, List.countP_cons]
  | undrawn held empty =>
    simp [List.filterMap_cons, Mark.event?, failedBy, heldBy, held, failure, Event.isFailure,
      List.countP_cons]
  | served free room next =>
    simp [RetryRun.interrupted_events, List.filterMap_cons, Mark.event?, count_acted, failedBy,
      heldBy, free, Event.isFailure]
  | serving free room alone =>
    simp [List.filterMap_cons, Mark.event?, failedBy, heldBy, free, Event.isFailure]
  | overfull free many =>
    simp [List.filterMap_cons, Mark.event?, failedBy, heldBy, free, Event.isFailure]

theorem direct_events : r.direct.flatMap (·.events) = [] := by
  rw [List.flatMap_eq_nil_iff]
  intro call member
  rw [List.eq_of_mem_replicate member]
  rfl

/-- Nothing but the loop reports a failure; a failed call outside it is reported to its caller
    alone. -/
theorem count_history (events : List TimedRestartEvent) (now : Nat) :
    (r.history events now).countP Event.isFailure =
      (r.runUntil events now).events.countP (failedBy now) := by
  have ending : (endEvents (r.runUntil events now)).countP (failedBy now) = 0 := by
    unfold endEvents
    split <;> simp [failedBy, Event.isFailure]
  have idle : (idleTriggers (r.runUntil events now)).countP (failedBy now) = 0 := by
    simp [idleTriggers, List.countP_eq_zero, failedBy, Event.isFailure]
  have timed : (r.history events now).countP Event.isFailure =
      (r.timeline (r.runUntil events now)).countP (failedBy now) := by
    rw [history, List.countP_map, List.countP_filter]
    apply List.countP_congr
    intro event _
    simp [failedBy, and_comm]
  rw [timed, timeline, direct_events]
  simp [List.countP_append, ending, idle, failedBy, Event.isFailure]

theorem failures_eq (steady : r.Steady) (chronological : Chronological events) (now : Nat) :
    r.failures events now = (r.runUntil events now).starts.countP (heldBy events now) := by
  obtain ⟨n, marks, last, tail, cut, same, ends⟩ :=
    run_parts steady.lasting chronological (now + 2)
  have run : r.runUntil events now = tail.after marks := same
  have final : tail.events.countP (failedBy now) = tail.starts.countP (heldBy events now) := by
    rcases ends with ⟨_, rfl⟩ | ⟨_, ends⟩
    · rfl
    · exact count_ends ends
  rw [failures, foldl_failures, Nat.zero_add, count_history, run, RetryRun.after_events,
    RetryRun.after_starts, List.countP_append, List.countP_append, count_rounds cut.rounds, final]

theorem lt_count_range {holds : Nat → Bool}
    (downward : ∀ j k, j < k → holds k = true → holds j = true) (count k : Nat) :
    k < (List.range count).countP holds ↔ k < count ∧ holds k = true := by
  induction count with
  | zero => simp
  | succ count ih =>
    rw [List.range_succ, List.countP_append, List.countP_singleton]
    by_cases last : holds count = true
    · have all : (List.range count).countP holds = count := by
        have every := List.countP_eq_length.mpr fun j (member : j ∈ List.range count) =>
          downward j count (List.mem_range.mp member) last
        rwa [List.length_range] at every
      rw [all, if_pos last]
      constructor
      · intro within
        refine ⟨within, ?_⟩
        rcases Nat.lt_succ_iff_lt_or_eq.mp within with before | rfl
        · exact downward k count before last
        · exact last
      · exact And.left
    · rw [if_neg last, Nat.add_zero, ih]
      constructor
      · intro inside
        exact ⟨Nat.lt_succ_of_lt inside.1, inside.2⟩
      · intro inside
        refine ⟨?_, inside.2⟩
        rcases Nat.lt_succ_iff_lt_or_eq.mp inside.1 with before | rfl
        · exact before
        · exact absurd inside.2 last

variable (r) in
/-- What a sample shows after some events, the last of which happens now. -/
structure Accounts (past : List TimedRestartEvent) (now : Nat) (sample : Sample) : Prop where
  records : sample.failures = (r.history past now).countP Event.logsFailure
  counter : sample.failures = (Metrics.ofEvents (r.history past now)).value .serveFailure
  attempts : sample.failures = (r.runUntil past now).starts.countP (heldBy past now)
  /-- The failures are the attempts before now, before every release and every signal. -/
  failed : ∀ k, k < sample.failures ↔
    r.startAt k < now ∧ ∀ e ∈ past, e.2 ≠ .sample → r.startAt k < e.1
  /-- An attempt starts where all before it failed and no signal has come. -/
  started : ∀ start ≤ now, start ∈ (r.runUntil past now).starts ↔ ∃ k, start = r.startAt k ∧
    start < now ∧ (∀ signal ∈ signals past, start < signal.1) ∧
      ∀ j < k, ∀ e ∈ past, e.2 = .release → r.startAt j < e.1
  /-- An attempt on a free port listens, and is the last. -/
  bound : ∀ start ∈ (r.runUntil past now).starts, isHeld past start = false →
    (start, .listenerBound r.address r.maxConnections) ∈ (r.runUntil past now).events ∧
      (r.runUntil past now).starts.getLast? = some start
  alive : (r.runUntil past now).outcome = .running ∨ (r.runUntil past now).outcome = .stopped
  finished : sample.finished = true ↔ signals past ≠ []

section Sample

variable {earlier past : List TimedRestartEvent} {e : TimedRestartEvent} {count : Nat}

theorem is_held_downward (chronological : Chronological past) {j k : Nat} (before : j ≤ k)
    (held : isHeld past k = true) : isHeld past j = true := by
  rw [is_held_iff chronological] at held ⊢
  exact fun e member frees => Nat.lt_of_le_of_lt before (held e member frees)

/-- The attempts up to the last event, which they never meet. -/
theorem reached_iff (steady : r.Steady) (chronological : Chronological past)
    (undisturbed : r.Undisturbed past) (member : e ∈ past)
    (makes : r.Makes past (e.1 + 2) count) (k : Nat) :
    (k < count ∧ r.startAt k ≤ e.1) ↔ r.startAt k < e.1 ∧
      (∀ signal ∈ signals past, r.startAt k < signal.1) ∧
        ∀ j < k, isHeld past (r.startAt j) = true := by
  constructor
  · intro reached
    obtain ⟨before, started⟩ := reached
    have apart := start_at_ne_event steady chronological undisturbed makes before
    refine ⟨?_, ?_, makes.held k before⟩
    · have here := apart e member
      omega
    · intro signal heard
      have there := apart _ (mem_signals.mp heard)
      have late := makes.unheard k before signal heard
      simp only at there
      omega
  · intro reached
    obtain ⟨started, unheard, held⟩ := reached
    have index := steady.le_start_at k
    exact ⟨makes.enough k (by omega) unheard held, by omega⟩

theorem failed_iff (steady : r.Steady) (chronological : Chronological past)
    (undisturbed : r.Undisturbed past) (member : e ∈ past) (k : Nat) :
    k < r.failures past e.1 ↔
      r.startAt k < e.1 ∧ ∀ x ∈ past, x.2 ≠ .sample → r.startAt k < x.1 := by
  obtain ⟨count, makes⟩ := makes_some steady chronological (e.1 + 2)
  have counted : r.failures past e.1 =
      (List.range count).countP fun k => heldBy past e.1 (r.startAt k) := by
    rw [failures_eq steady chronological]
    exact (congrArg (List.countP _) makes.starts).trans List.countP_map
  have downward : ∀ j k, j < k → heldBy past e.1 (r.startAt k) = true →
      heldBy past e.1 (r.startAt j) = true := by
    intro j k before holds
    have earlier := steady.start_at_lt before
    simp only [heldBy, Bool.and_eq_true, decide_eq_true_eq] at holds ⊢
    exact ⟨by omega, is_held_downward chronological (Nat.le_of_lt earlier) holds.2⟩
  have reached := reached_iff steady chronological undisturbed member makes k
  rw [counted, lt_count_range downward, heldBy, Bool.and_eq_true, decide_eq_true_eq, ← and_assoc,
    reached, is_held_iff chronological]
  constructor
  · intro failed
    obtain ⟨⟨before, unheard, _⟩, held⟩ := failed
    refine ⟨before, ?_⟩
    intro x among shows
    obtain ⟨time, event⟩ := x
    cases event with
    | sample => exact absurd rfl shows
    | release => exact held _ among rfl
    | signal action => exact unheard (time, action) (mem_signals.mpr among)
  · intro clear
    obtain ⟨before, ahead⟩ := clear
    have held : ∀ x ∈ past, x.2 = .release → r.startAt k < x.1 := by
      intro x among frees
      exact ahead x among (by simp [frees])
    refine ⟨⟨before, ?_, ?_⟩, held⟩
    · intro signal heard
      exact ahead _ (mem_signals.mp heard) (by simp)
    · intro j lower
      exact is_held_downward chronological (Nat.le_of_lt (steady.start_at_lt lower))
        ((is_held_iff chronological _).mpr held)

theorem started_iff (steady : r.Steady) (chronological : Chronological past)
    (undisturbed : r.Undisturbed past) (member : e ∈ past) {start : Nat} (soon : start ≤ e.1) :
    start ∈ (r.runUntil past e.1).starts ↔ ∃ k, start = r.startAt k ∧
      start < e.1 ∧ (∀ signal ∈ signals past, start < signal.1) ∧
        ∀ j < k, ∀ x ∈ past, x.2 = .release → r.startAt j < x.1 := by
  obtain ⟨count, makes⟩ := makes_some steady chronological (e.1 + 2)
  have reached := reached_iff steady chronological undisturbed member makes
  refine (mem_starts_iff makes).trans ⟨?_, ?_⟩
  · rintro ⟨k, before, rfl⟩
    obtain ⟨early, unheard, held⟩ := (reached k).mp ⟨before, soon⟩
    refine ⟨k, rfl, early, unheard, ?_⟩
    intro j lower
    exact (is_held_iff chronological _).mp (held j lower)
  · rintro ⟨k, rfl, early, unheard, held⟩
    have inReach := (reached k).mpr
      ⟨early, unheard, fun j lower => (is_held_iff chronological _).mpr (held j lower)⟩
    exact ⟨k, inReach.1, rfl⟩

theorem bound_of_free (steady : r.Steady) (chronological : Chronological past) {now start : Nat}
    (started : start ∈ (r.runUntil past now).starts) (free : isHeld past start = false) :
    (start, .listenerBound r.address r.maxConnections) ∈ (r.runUntil past now).events ∧
      (r.runUntil past now).starts.getLast? = some start := by
  obtain ⟨marks, last, tail, same, ends, rfl, bound⟩ :=
    ends_of_free steady.lasting chronological started free
  have run : r.runUntil past now = tail.after marks := same
  rw [run, RetryRun.after_events, RetryRun.after_starts, ends.starts, List.getLast?_concat]
  exact ⟨List.mem_append_right _ (List.mem_filterMap.mpr ⟨_, bound, rfl⟩), rfl⟩

/-- With nothing to panic about, the loop is running or the signal has stopped it, and it has
    stopped as soon as there was one. -/
theorem stopped_iff (steady : r.Steady) (room : r.maxConnections ≤ permitLimit)
    (chronological : Chronological past) {now : Nat} (latest : ∀ x ∈ past, x.1 ≤ now) :
    ((r.runUntil past now).outcome = .running ∧ signals past = []) ∨
      ((r.runUntil past now).outcome = .stopped ∧ (r.runUntil past now).endedAt ≤ now ∧
        signals past ≠ []) := by
  obtain ⟨n, marks, last, tail, cut, same, ends⟩ :=
    run_parts steady.lasting chronological (now + 2)
  have run : r.runUntil past now = tail.after marks := same
  have coming : last.signals = signals past := cut.rounds.signals_eq
  have soon : ∀ signal ∈ signals past, signal.1 ≤ now :=
    fun signal heard => latest _ (mem_signals.mp heard)
  have stops {signal : TimedSignal} {rest : List TimedSignal}
      (next : last.signals = signal :: rest) : signal.1 ≤ now ∧ signals past ≠ [] := by
    rw [← coming, next]
    exact ⟨soon signal (by rw [← coming, next]; exact List.mem_cons_self), List.cons_ne_nil _ _⟩
  rw [run, RetryRun.after_outcome, RetryRun.after_ended_at]
  rcases ends with ⟨used, rfl⟩ | ⟨_, ends⟩
  · left
    refine ⟨rfl, List.eq_nil_iff_forall_not_mem.mpr ?_⟩
    intro signal heard
    -- as many rounds as there is fuel outlast every signal
    have index := (rounds_on_time cut.rounds).1
    have behind := cut.stands.index
    have ahead := cut.stands.ahead signal (coming ▸ heard)
    have early := soon signal heard
    omega
  · cases ends with
    | delayed held drawn next late => exact Or.inr ⟨rfl, stops next⟩
    | undrawn held empty =>
      obtain ⟨delay, drawn, _⟩ := steady last.index
      simp [empty] at drawn
    | served free _ next => exact Or.inr ⟨rfl, stops next⟩
    | serving free _ alone => exact Or.inl ⟨rfl, coming ▸ alone⟩
    | overfull free many => omega

theorem accounts_of_sample (steady : r.Steady) (room : r.maxConnections ≤ permitLimit)
    (chronological : Chronological past) (undisturbed : r.Undisturbed past) (member : e ∈ past)
    (latest : ∀ x ∈ past, x.1 ≤ e.1) (news : List Event) :
    r.Accounts past e.1 ⟨r.failures past e.1, finishedBy (r.runUntil past e.1) e.1, news⟩ := by
  have count : r.failures past e.1 = (r.history past e.1).countP Event.isFailure := by
    rw [failures, foldl_failures, Nat.zero_add]
  have logged : Event.logsFailure = Event.isFailure := funext Event.logs_failure_eq
  constructor
  case records => rw [count, logged]
  case counter => rw [count, value_serve_failure]
  case attempts => exact failures_eq steady chronological e.1
  case failed => exact failed_iff steady chronological undisturbed member
  case started =>
    exact fun start soon => started_iff steady chronological undisturbed member soon
  case bound => exact fun start started free => bound_of_free steady chronological started free
  case alive =>
    rcases stopped_iff steady room chronological latest with ⟨running, _⟩ | ⟨stopped, _⟩
    · exact Or.inl running
    · exact Or.inr stopped
  case finished =>
    rcases stopped_iff steady room chronological latest with
      ⟨running, alone⟩ | ⟨stopped, ended, heard⟩
    · simp [finishedBy, running, alone]
    · simp [finishedBy, stopped, ended, heard]

end Sample

theorem samples_entry (past : List TimedRestartEvent) (shown : Nat)
    (events : List TimedRestartEvent) {i : Nat} {e : TimedRestartEvent}
    (here : events[i]? = some e) : ∃ news, (r.samples past shown events)[i]? =
      some ⟨r.failures (past ++ events.take (i + 1)) e.1,
        finishedBy (r.runUntil (past ++ events.take (i + 1)) e.1) e.1, news⟩ := by
  induction events generalizing past shown i with
  | nil => simp at here
  | cons first rest ih =>
    cases i with
    | zero =>
      cases here
      exact ⟨_, rfl⟩
    | succ i =>
      obtain ⟨news, later⟩ := ih (past ++ [first]) (r.history (past ++ [first]) first.1).length here
      refine ⟨news, ?_⟩
      rw [List.append_assoc] at later
      exact later

theorem length_samples (past : List TimedRestartEvent) (shown : Nat)
    (events : List TimedRestartEvent) : (r.samples past shown events).length = events.length := by
  induction events generalizing past shown with
  | nil => rfl
  | cons first rest ih => simp [samples, ih]

theorem direct_failures_eq :
    r.directFailures = List.replicate r.directCalls (.addressInUse r.address) := by
  rw [directFailures, direct]
  exact List.filterMap_replicate_of_some rfl

theorem start_at_succ_of_no_jitter (plain : Binary64.le r.backoff.jitter Binary64.zero = true)
    (k : Nat) :
    r.startAt (k + 1) = r.startAt k + Duration.ceilMillis (r.backoff.afterCalls k).base := by
  simp [startAt, delayAt, Backoff.nextDelay, plain, Delay.under, Backoff.base]

theorem take_of_entry {i : Nat} {e : TimedRestartEvent} (here : events[i]? = some e) :
    events.take (i + 1) = events.take i ++ [e] := by
  rw [List.take_add_one, here]
  rfl

theorem mem_take_of_entry {i : Nat} {e : TimedRestartEvent} (here : events[i]? = some e) :
    e ∈ events.take (i + 1) := by
  rw [take_of_entry here]
  simp

theorem latest_of_entry (chronological : Chronological events) {i : Nat}
    {e : TimedRestartEvent} (here : events[i]? = some e) :
    ∀ x ∈ events.take (i + 1), x.1 ≤ e.1 := by
  have earlier := chronological.sublist (List.take_sublist (i + 1) events)
  rw [take_of_entry here] at earlier ⊢
  intro x among
  rcases List.mem_append.mp among with head | final
  · exact (List.pairwise_append.mp earlier).2.2 x head e (by simp)
  · exact Nat.le_of_eq (congrArg Prod.fst (List.mem_singleton.mp final))

theorem event_of_sample {i : Nat} {sample : Sample}
    (shown : (r.course events).samples[i]? = some sample) : ∃ e, events[i]? = some e := by
  obtain ⟨within, _⟩ := List.getElem?_eq_some_iff.mp shown
  rw [course, length_samples] at within
  exact ⟨events[i], List.getElem?_eq_getElem within⟩

theorem failures_settled {first later : Sample} {i j : Nat} {before after : TimedRestartEvent}
    (chronological : Chronological events) (order : i ≤ j) (isBefore : events[i]? = some before)
    (isAfter : events[j]? = some after) (early : r.Accounts (events.take (i + 1)) before.1 first)
    (late : r.Accounts (events.take (j + 1)) after.1 later) {e : TimedRestartEvent}
    (member : e ∈ events.take (i + 1)) (shows : e.2 ≠ .sample) :
    later.failures = first.failures := by
  have split := List.take_append_drop (i + 1) events
  have ordered := chronological
  rw [← split] at ordered
  have across := (List.pairwise_append.mp ordered).2.2
  have latest := latest_of_entry chronological isBefore
  have here := mem_take_of_entry isBefore
  have extended : ∀ x ∈ events.take (j + 1), x ∈ events.take (i + 1) ∨ before.1 ≤ x.1 := by
    intro x among
    have anywhere := List.mem_of_mem_take among
    rw [← split] at anywhere
    exact (List.mem_append.mp anywhere).imp id (across before here x)
  have kept : events.take (i + 1) ⊆ events.take (j + 1) :=
    (List.take_prefix_take_left (by omega)).subset
  have same : ∀ k, k < later.failures ↔ k < first.failures := by
    intro k
    rw [early.failed, late.failed]
    constructor
    · intro failed
      obtain ⟨_, ahead⟩ := failed
      have stopped := ahead e (kept member) shows
      have soon := latest e member
      exact ⟨by omega, fun x among => ahead x (kept among)⟩
    · intro failed
      obtain ⟨started, ahead⟩ := failed
      have beyond : ∀ x ∈ events.take (j + 1), x.2 ≠ .sample → r.startAt k < x.1 := by
        intro x among isShown
        rcases extended x among with inside | after
        · exact ahead x inside isShown
        · omega
      have following : before.1 ≤ after.1 := by
        rcases Nat.eq_or_lt_of_le order with rfl | beyond
        · rw [isBefore] at isAfter
          cases isAfter
          exact Nat.le_refl _
        · apply across before here after
          refine List.mem_of_getElem? (i := j - (i + 1)) ?_
          rw [List.getElem?_drop, ← isAfter]
          congr 1
          omega
      exact ⟨by omega, beyond⟩
  have atFirst := same first.failures
  have atLater := same later.failures
  omega

variable (r) in
/-- What the samples of a whole course show. -/
structure CourseAccounts (config : Config) (events : List TimedRestartEvent) : Prop where
  /-- The calls outside the loop fail, all of them, and are in no count below. -/
  direct : (r.course events).direct = List.replicate r.directCalls (.addressInUse r.address)
  complete : (r.course events).samples.length = events.length
  each : ∀ i e sample, events[i]? = some e → (r.course events).samples[i]? = some sample →
    r.Accounts (events.take (i + 1)) e.1 sample
  settled : ∀ i j first later, i ≤ j → (r.course events).samples[i]? = some first →
    (r.course events).samples[j]? = some later → (∃ e ∈ events.take (i + 1), e.2 ≠ .sample) →
      later.failures = first.failures
  begins : r.startAt 0 = 0
  spaced : Binary64.le config.backoff.jitter Binary64.zero = true → ∀ k,
    r.startAt (k + 1) = r.startAt k + Duration.ceilMillis (r.backoff.afterCalls k).base

/-- The restart loop of an accepted configuration that does not panic, after any number of calls
    outside it and under any schedule of events that do not meet its attempts. -/
theorem course_accounts {config : Config} (accepted : config.violations = [])
    (configured : Configured config r)
    (draws : ∀ k, (r.backoff.afterCalls k).nextDelay.Allows (r.factor k))
    (room : config.server.maxConnections ≤ permitLimit) (chronological : Chronological events)
    (undisturbed : r.Undisturbed events) : r.CourseAccounts config events := by
  have waits : r.backoff.Waits := by
    rw [configured.backoff]
    exact waits_of_accepted (Config.violations_eq_nil_iff.mp accepted)
  have steady : r.Steady := fun k => (Backoff.waits_after_calls waits k).delay_pos (draws k)
  have room : r.maxConnections ≤ permitLimit := configured.permits ▸ room
  have each : ∀ i e sample, events[i]? = some e → (r.course events).samples[i]? = some sample →
      r.Accounts (events.take (i + 1)) e.1 sample := by
    intro i e sample here shown
    obtain ⟨news, same⟩ := samples_entry (r := r) [] 0 events here
    rw [course, same] at shown
    cases shown
    have split := List.take_append_drop (i + 1) events
    have ordered := chronological
    rw [← split] at ordered undisturbed
    exact accounts_of_sample steady room (List.pairwise_append.mp ordered).1 undisturbed.earlier
      (mem_take_of_entry here) (latest_of_entry chronological here) news
  exact
    { direct := direct_failures_eq
      complete := length_samples [] 0 events
      each := each
      settled := by
        intro i j first later order isFirst isLater shown
        obtain ⟨e, member, shows⟩ := shown
        obtain ⟨before, isBefore⟩ := event_of_sample isFirst
        obtain ⟨after, isAfter⟩ := event_of_sample isLater
        exact failures_settled chronological order isBefore isAfter
          (each i before first isBefore isFirst) (each j after later isAfter isLater) member shows
      begins := rfl
      spaced := fun plain => by
        apply start_at_succ_of_no_jitter
        rw [configured.backoff]
        exact Backoff.le_clamp_jitter_zero plain }

/-- A loop under the default settings that draws ones, after two calls outside it. -/
def steadfast : Restart where
  address := "0.0.0.0:61678"
  maxConnections := 64
  backoff := Backoff.ofConfig BackoffSection.default
  factor _ := Binary64.one
  directCalls := 2

/-- Two failures, a free port, and the signal to the server. -/
def handover : List TimedRestartEvent :=
  [(5, .sample), (1500, .release), (3500, .sample), (4000, .signal .trigger), (4000, .sample)]

theorem course_accounts_handover : Config.default.violations = [] ∧
    steadfast.CourseAccounts Config.default handover := by
  have accepted : Config.default.violations = [] := by decide +kernel
  have draws : ∀ k, (steadfast.backoff.afterCalls k).nextDelay.Allows (steadfast.factor k) :=
    Backoff.default_allows_one
  have waits := waits_of_accepted (Config.violations_eq_nil_iff.mp accepted)
  have steady : steadfast.Steady := fun k => (Backoff.waits_after_calls waits k).delay_pos (draws k)
  have chronological : Chronological handover := by decide
  have first : steadfast.startAt 1 = 1000 := by decide +kernel
  have second : steadfast.startAt 2 = 3000 := by decide +kernel
  have third : steadfast.startAt 3 = 7000 := by decide +kernel
  have missed : ∀ e ∈ handover, ∀ k, e.1 ≠ steadfast.startAt k := by
    intro e member
    have between : (0 < e.1 ∧ e.1 < 1000) ∨ (1000 < e.1 ∧ e.1 < 3000) ∨
        (3000 < e.1 ∧ e.1 < 7000) := by
      revert e
      decide
    rcases between with ⟨after, before⟩ | ⟨after, before⟩ | ⟨after, before⟩
    · exact ne_start_at_of_between (k := 0) after (first ▸ before)
    · exact ne_start_at_of_between (first ▸ after) (second ▸ before)
    · exact ne_start_at_of_between (second ▸ after) (third ▸ before)
  exact ⟨accepted, course_accounts accepted ⟨rfl, rfl⟩ draws (by decide) chronological
    (undisturbed_of_missed steady chronological missed)⟩

end Restart
end SnapshotEndpoint
