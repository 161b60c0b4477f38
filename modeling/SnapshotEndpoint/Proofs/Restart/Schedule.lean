import SnapshotEndpoint.Proofs.Restart.Attempts

/-!
When the restart loop makes its attempts. They start at times that the draws alone decide;
what happens around the loop only cuts the list short, at the first attempt that finds the
port free or at the signal.
-/
namespace SnapshotEndpoint
namespace Restart

variable {r : Restart} {events : List TimedRestartEvent} {fuel : Nat}

def Steady (r : Restart) : Prop := ∀ k, ∃ delay, r.delayAt k = some delay ∧ 0 < delay

theorem start_at_le {j k : Nat} (before : j ≤ k) : r.startAt j ≤ r.startAt k := by
  induction before with
  | refl => exact Nat.le_refl _
  | step _ ih => exact Nat.le_trans ih (Nat.le_add_right _ _)

namespace Steady

variable (steady : r.Steady)
include steady

theorem start_at_lt_succ (k : Nat) : r.startAt k < r.startAt (k + 1) := by
  obtain ⟨delay, drawn, lasts⟩ := steady k
  have positive := Duration.ceil_millis_pos lasts
  rw [startAt, drawn, Option.getD_some]
  omega

theorem le_start_at (k : Nat) : k ≤ r.startAt k := by
  induction k with
  | zero => exact Nat.le_refl 0
  | succ k ih =>
    have later := steady.start_at_lt_succ k
    omega

theorem start_at_lt {j k : Nat} (before : j < k) : r.startAt j < r.startAt k :=
  Nat.lt_of_lt_of_le (steady.start_at_lt_succ j) (start_at_le before)

theorem lasting (k delay : Nat) (drawn : r.delayAt k = some delay) : 0 < delay :=
  positive_of_lasting steady k delay drawn

end Steady

variable (r events fuel) in
/-- How many attempts a run makes, which is what cuts the list of their times short. -/
structure Makes (count : Nat) : Prop where
  starts : ((r.loop events).run fuel r.backoff [] (signals events)).starts =
    (List.range count).map r.startAt
  unheard : ∀ k < count, ∀ signal ∈ signals events, r.startAt k ≤ signal.1
  held : ∀ k < count, ∀ j < k, isHeld events (r.startAt j) = true
  enough : ∀ k < fuel, (∀ signal ∈ signals events, r.startAt k < signal.1) →
    (∀ j < k, isHeld events (r.startAt j) = true) → k < count

theorem rounds_on_time {n : Nat} {marks : List TimedMark} {last : RetryState}
    (rounds : (r.loop events).Rounds r.backoff n
      (RetryLoop.initial r.backoff [] (signals events)) marks last) :
    last.index = n ∧ last.now = r.startAt n ∧
      marks.filterMap Mark.start? = (List.range n).map r.startAt := by
  have index : last.index = n := rounds.index_eq.trans (Nat.zero_add n)
  obtain ⟨now, starts⟩ := rounds.on_time rfl
  have same : (r.loop events).startAt r.backoff = r.startAt :=
    funext fun k => r.loop_start_at events k
  rw [index, same] at now
  rw [same] at starts
  exact ⟨index, now, starts.trans (by rw [List.range_eq_range']; rfl)⟩

theorem makes_of_parts (steady : r.Steady) {n : Nat} {marks : List TimedMark} {last : RetryState}
    {tail : RetryRun Empty ListenFailure}
    (cut : (r.loop events).Cut r.backoff fuel [] (signals events) n marks last tail)
    (same : (r.loop events).run fuel r.backoff [] (signals events) = tail.after marks)
    (ends : (n = fuel ∧ tail = .ended .running last) ∨ (n < fuel ∧ r.Ends events last tail)) :
    r.Makes events fuel (if n = fuel then n else n + 1) := by
  obtain ⟨index, now, starts⟩ := rounds_on_time cut.rounds
  have ahead : ∀ k ≤ n, ∀ signal ∈ signals events, r.startAt k ≤ signal.1 := by
    intro k before signal member
    have first := cut.stands.ahead signal (cut.rounds.signals_eq ▸ member)
    have early := start_at_le (r := r) before
    omega
  have passed : ∀ j < n, isHeld events (r.startAt j) = true := by
    intro j before
    refine (held_of_passed cut.rounds ?_).1
    rw [starts]
    exact List.mem_map.mpr ⟨j, List.mem_range.mpr before, rfl⟩
  rcases ends with ⟨used, rfl⟩ | ⟨lower, ends⟩
  · rw [if_pos used]
    have none : (RetryRun.ended .running last : RetryRun Empty ListenFailure).starts = [] := rfl
    exact
      { starts := by rw [same, RetryRun.after_starts, starts, none, List.append_nil]
        unheard := fun k before => ahead k (by omega)
        held := fun k before j earlier => passed j (by omega)
        enough := fun k before _ _ => by omega }
  · rw [if_neg (by omega)]
    have first : tail.starts = [r.startAt n] := by rw [ends.starts, now]
    refine
      { starts := by
          rw [same, RetryRun.after_starts, starts, first, List.range_succ, List.map_append]
          rfl
        unheard := fun k before => ahead k (by omega)
        held := fun k before j earlier => passed j (by omega)
        enough := fun k before unheard held => ?_ }
    -- a round that ends the loop needs a free port, or the signal before the next attempt
    rcases Nat.lt_or_ge k (n + 1) with within | beyond
    · exact within
    · have heldHere := held n (by omega)
      rw [← now] at heldHere
      cases ends with
      | @delayed delay signal rest _ drawn next soon =>
        have member : signal ∈ signals events := by
          rw [← show last.signals = signals events from cut.rounds.signals_eq, next]
          exact List.mem_cons_self
        have late := unheard signal member
        have after := start_at_le (r := r) beyond
        rw [startAt, ← index, drawn, Option.getD_some, index, ← now] at after
        omega
      | undrawn _ empty =>
        obtain ⟨delay, drawn, _⟩ := steady last.index
        simp [empty] at drawn
      | served free _ _ => simp [heldHere] at free
      | serving free _ _ => simp [heldHere] at free
      | overfull free _ => simp [heldHere] at free

theorem makes_some (steady : r.Steady) (chronological : Chronological events) (fuel : Nat) :
    ∃ count, r.Makes events fuel count := by
  obtain ⟨n, marks, last, tail, cut, same, ends⟩ := run_parts steady.lasting chronological fuel
  exact ⟨_, makes_of_parts steady cut same ends⟩

theorem mem_starts_iff {count start : Nat} (makes : r.Makes events fuel count) :
    start ∈ ((r.loop events).run fuel r.backoff [] (signals events)).starts ↔
      ∃ k < count, start = r.startAt k := by
  rw [makes.starts, List.mem_map]
  constructor
  · intro listed
    obtain ⟨k, member, rfl⟩ := listed
    exact ⟨k, List.mem_range.mp member, rfl⟩
  · intro started
    obtain ⟨k, before, rfl⟩ := started
    exact ⟨k, List.mem_range.mpr before, rfl⟩

variable (r) in
/-- No event falls on an instant at which the loop acts: on the start of an attempt, under the
    events before it. -/
def Undisturbed (events : List TimedRestartEvent) : Prop :=
  ∀ past e later, events = past ++ e :: later → e.1 ∉ (r.runUntil past e.1).starts

theorem ne_start_at_of_between {time k : Nat} (after : r.startAt k < time)
    (before : time < r.startAt (k + 1)) (j : Nat) : time ≠ r.startAt j := by
  rcases Nat.lt_or_ge k j with beyond | within
  · exact Nat.ne_of_lt (Nat.lt_of_lt_of_le before (start_at_le beyond))
  · exact Nat.ne_of_gt (Nat.lt_of_le_of_lt (start_at_le within) after)

theorem undisturbed_of_missed (steady : r.Steady) (chronological : Chronological events)
    (missed : ∀ e ∈ events, ∀ k, e.1 ≠ r.startAt k) : r.Undisturbed events := by
  rintro past e later rfl
  obtain ⟨count, makes⟩ := makes_some steady (List.pairwise_append.mp chronological).1 (e.1 + 2)
  intro started
  obtain ⟨k, _, meets⟩ := (mem_starts_iff makes).mp started
  exact missed e (List.mem_append_right past List.mem_cons_self) k meets

theorem Undisturbed.earlier {past later : List TimedRestartEvent}
    (undisturbed : r.Undisturbed (past ++ later)) : r.Undisturbed past := by
  intro before e after same
  apply undisturbed before e (after ++ later)
  rw [same, List.append_assoc]
  rfl

theorem is_held_iff (chronological : Chronological events) (now : Nat) :
    isHeld events now = true ↔ ∀ e ∈ events, e.2 = .release → now < e.1 := by
  induction events with
  | nil => simp [isHeld, releaseTime]
  | cons first rest ih =>
    obtain ⟨ahead, ordered⟩ := List.pairwise_cons.mp chronological
    by_cases frees : first.2 = .release
    · have time : releaseTime (first :: rest) = some first.1 := by
        simp [releaseTime, frees]
      simp only [isHeld, time, decide_eq_true_eq, List.mem_cons]
      constructor
      · rintro early e (rfl | member) _
        · exact early
        · exact Nat.lt_of_lt_of_le early (ahead e member)
      · intro early
        exact early first (Or.inl rfl) frees
    · have time : releaseTime (first :: rest) = releaseTime rest := by
        simp [releaseTime, frees]
      have same : isHeld (first :: rest) now = isHeld rest now := by simp only [isHeld, time]
      rw [same, ih ordered]
      simp [frees]

theorem is_held_earlier {past later : List TimedRestartEvent} {now : Nat}
    (chronological : Chronological (past ++ later)) (held : isHeld (past ++ later) now = true) :
    isHeld past now = true := by
  rw [is_held_iff chronological] at held
  rw [is_held_iff (List.pairwise_append.mp chronological).1]
  intro e member
  exact held e (List.mem_append_left _ member)

theorem mem_signals {signal : TimedSignal} :
    signal ∈ signals events ↔ (signal.1, RestartEvent.signal signal.2) ∈ events := by
  rw [signals, List.mem_filterMap]
  constructor
  · rintro ⟨⟨time, event⟩, member, is⟩
    cases event <;> simp at is
    rw [← is]
    exact member
  · intro member
    exact ⟨_, member, rfl⟩

/-- Attempts and events never meet, whatever the loop has made of the events. -/
theorem start_at_ne_event (steady : r.Steady) (chronological : Chronological events)
    (undisturbed : r.Undisturbed events)
    {count k : Nat} (makes : r.Makes events fuel count) (before : k < count) :
    ∀ e ∈ events, e.1 ≠ r.startAt k := by
  intro e member meets
  -- the first event at that time finds the loop as if no signal were to come
  have found : (events.find? fun e => e.1 == r.startAt k).isSome = true := by
    rw [List.find?_isSome]
    exact ⟨e, member, by simpa using meets⟩
  obtain ⟨first, isFirst⟩ := Option.isSome_iff_exists.mp found
  obtain ⟨atStart, past, later, same, others⟩ := List.find?_eq_some_iff_append.mp isFirst
  have time : first.1 = r.startAt k := by simpa using atStart
  rw [same] at chronological
  have ordered := (List.pairwise_append.mp chronological).1
  obtain ⟨reach, earlier⟩ := makes_some steady ordered (first.1 + 2)
  have index := steady.le_start_at k
  refine undisturbed past first later same ((mem_starts_iff earlier).mpr ⟨k, ?_, time⟩)
  apply earlier.enough k (by omega)
  · intro signal heard
    have among := mem_signals.mp heard
    have after := makes.unheard k before signal
      (mem_signals.mpr (by rw [same]; exact List.mem_append_left _ among))
    have apart := others _ among
    simp only [Bool.not_eq_true', beq_eq_false_iff_ne] at apart
    omega
  · intro j lower
    have held := makes.held k before j lower
    rw [same] at held
    exact is_held_earlier chronological held

end Restart
end SnapshotEndpoint
