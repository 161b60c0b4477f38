import Mathlib.Data.List.Count
import SnapshotEndpoint.Proofs.Lists
import SnapshotEndpoint.Service.Shutdown

/-!
What each subscriber of the signal reads. The steps taken so far leave it the triggers sent since
it came that it has not read. Their number decides what it reads next, and whether the signal was
dropped matters only when there are none. Nothing that another subscriber does changes the number.
-/
namespace SnapshotEndpoint.Shutdown

/-- The steps taken so far, the latest first. -/
abbrev History := List Step

namespace History

def subscriptions : History → Nat
  | [] => 0
  | latest :: earlier =>
      subscriptions earlier + (if latest = .subscribe ∧ .drop ∉ earlier then 1 else 0)

/-- One reading takes the only trigger there is, or all but the last. -/
def left (unread : Nat) : Nat := min (unread - 1) 1

/-- The triggers that a subscriber has not read; none is told of one that is not there. -/
def unread (i : Nat) : History → Option Nat
  | [] => none
  | latest :: earlier =>
      match latest with
      | .subscribe =>
          if .drop ∉ earlier ∧ subscriptions earlier = i then some 0 else unread i earlier
      | .trigger => (unread i earlier).map fun k => if .drop ∈ earlier then k else k + 1
      | .unsubscribe j => if j = i then none else unread i earlier
      | .receive j => if j = i then (unread i earlier).map left else unread i earlier
      | .drop => unread i earlier

/-- What a subscriber reads next. -/
def reading (past : History) : Option Nat → Reading
  | none => .absent
  | some 0 => if .drop ∈ past then .closed else .empty
  | some 1 => .signal
  | some (k + 2) => .lagged (k + 1)

def live (past : History) : Nat :=
  (List.range past.subscriptions).countP fun i => (unread i past).isSome

/-- The state after the steps. -/
def state : History → Shutdown
  | [] => new
  | latest :: earlier => ((state earlier).step latest).1

/-- The steps that concern one subscriber, which is the first of them. -/
def alone (i : Nat) : History → History
  | [] => []
  | latest :: earlier =>
      match latest with
      | .subscribe =>
          if .drop ∉ earlier ∧ subscriptions earlier = i then .subscribe :: alone i earlier
          else alone i earlier
      | .trigger => .trigger :: alone i earlier
      | .unsubscribe j => if j = i then .unsubscribe 0 :: alone i earlier else alone i earlier
      | .receive j => if j = i then .receive 0 :: alone i earlier else alone i earlier
      | .drop => .drop :: alone i earlier

end History

/-- A step that neither sends a trigger nor is the subscriber's own. -/
def Step.Leaves (i : Nat) (a : Step) : Prop :=
  a ≠ .trigger ∧ a ≠ .unsubscribe i ∧ a ≠ .receive i

section Positions

variable (s : Shutdown)

theorem position_subscribe (i : Nat) :
    s.subscribe.position i = if i = s.subscribers.length then some s.sent else s.position i := by
  unfold position subscribe
  rw [entry_concat]
  split
  · rfl
  · rfl

theorem position_unsubscribe (i j : Nat) :
    (s.unsubscribe j).position i = if j = i then none else s.position i := by
  unfold position unsubscribe
  rw [List.getElem?_set]
  by_cases same : j = i
  · subst same
    by_cases there : j < s.subscribers.length
    · simp [there]
    · simp [there]
  · simp [same]

theorem position_move_to {i next : Nat} (there : (s.position i).isSome) (j : Nat) :
    (s.moveTo i next).position j = if i = j then some next else s.position j := by
  unfold position moveTo at *
  rw [List.getElem?_set]
  by_cases same : i = j
  · subst same
    have within : i < s.subscribers.length := by
      by_contra beyond
      rw [List.getElem?_eq_none (by omega)] at there
      cases there
    simp [within]
  · simp [same]

end Positions

/-- A reading moves its subscriber alone, to where as much is left as a reading leaves. -/
theorem receive_moves {s : Shutdown} {i next : Nat} (there : s.position i = some next)
    (behind : next ≤ s.sent) : ∃ later subscribers, later ≤ s.sent ∧
      s.sent - later = History.left (s.sent - next) ∧
      (s.receive i).1 = { s with subscribers := subscribers } ∧
      subscribers.length = s.subscribers.length ∧
      ∀ j, (s.receive i).1.position j = if i = j then some later else s.position j := by
  have is_some : (s.position i).isSome := by rw [there]; rfl
  unfold receive
  rw [there]
  dsimp only
  by_cases none : next = s.sent
  · rw [if_pos none]
    refine ⟨next, s.subscribers, behind, by simp [none, History.left], rfl, rfl, ?_⟩
    intro j
    by_cases same : i = j
    · rw [if_pos same, ← same, there]
    · rw [if_neg same]
  · rw [if_neg none]
    by_cases one : next + 1 = s.sent
    · rw [if_pos one]
      refine ⟨s.sent, _, Nat.le_refl _, ?_, rfl, List.length_set, s.position_move_to is_some⟩
      unfold History.left
      omega
    · rw [if_neg one]
      refine ⟨s.sent - 1, _, Nat.sub_le _ _, ?_, rfl, List.length_set, s.position_move_to is_some⟩
      unfold History.left
      omega

theorem listens_of_position {s : Shutdown} {i next : Nat} (there : s.position i = some next) :
    s.listeners ≠ 0 := by
  have member : some next ∈ s.subscribers := by
    unfold position at there
    exact List.mem_of_getElem? (Option.join_eq_some_iff.mp there)
  have counted : 0 < s.subscribers.countP Option.isSome := List.countP_pos_iff.mpr ⟨_, member, rfl⟩
  exact Nat.ne_of_gt counted

/-- Whoever is there when a trigger is sent has one more to read. -/
theorem trigger_position (s : Shutdown) (i : Nat) : s.trigger.position i = s.position i ∧
    ∀ next, s.position i = some next → s.trigger.sent = s.sent + 1 := by
  unfold trigger
  split
  · rename_i idle
    refine ⟨rfl, ?_⟩
    intro next there
    exact absurd idle (listens_of_position there)
  · exact ⟨rfl, fun _ _ => rfl⟩

theorem trigger_rest (s : Shutdown) :
    s.trigger.dropped = s.dropped ∧ s.trigger.subscribers = s.subscribers := by
  unfold trigger
  split <;> exact ⟨rfl, rfl⟩

theorem state_subscribe (s : Shutdown) :
    (s.step .subscribe).1 = if s.dropped then s else s.subscribe := by
  cases dropped : s.dropped <;> simp [step, dropped]

theorem state_trigger (s : Shutdown) :
    (s.step .trigger).1 = if s.dropped then s else s.trigger := by
  cases dropped : s.dropped <;> simp [step, dropped]

/-- A state is what a history leads to: each subscriber stands as many triggers back as it has not
    read. -/
structure Tracks (past : History) (s : Shutdown) : Prop where
  dropped_iff : s.dropped = true ↔ .drop ∈ past
  number : s.subscribers.length = past.subscriptions
  behind : ∀ i next, s.position i = some next → next ≤ s.sent
  unread : ∀ i, (s.position i).map (s.sent - ·) = past.unread i

theorem tracks_new : Tracks [] new := by
  constructor
  · simp [new]
  · rfl
  · intro i next there
    cases there
  · intro i
    rfl

section Steps

variable {past : History} {s : Shutdown} (tracks : Tracks past s)
include tracks

theorem Tracks.subscribe : Tracks (.subscribe :: past) (s.step .subscribe).1 := by
  rw [state_subscribe]
  by_cases gone : .drop ∈ past
  · rw [if_pos (tracks.dropped_iff.mpr gone)]
    constructor
    · simp [tracks.dropped_iff]
    · simp [History.subscriptions, gone, tracks.number]
    · exact tracks.behind
    · intro i
      rw [tracks.unread]
      simp [History.unread, gone]
  · rw [if_neg (mt tracks.dropped_iff.mp gone)]
    constructor
    · simp [Shutdown.subscribe, tracks.dropped_iff]
    · simp [Shutdown.subscribe, History.subscriptions, gone, tracks.number]
    · intro i next there
      rw [position_subscribe] at there
      split at there
      · cases there
        exact Nat.le_refl s.sent
      · exact tracks.behind i next there
    · intro i
      rw [position_subscribe, tracks.number, History.unread]
      by_cases own : past.subscriptions = i
      · simp [own, gone, Shutdown.subscribe]
      · simp only [own, Ne.symm own, if_false, and_false]
        exact tracks.unread i

theorem Tracks.trigger : Tracks (.trigger :: past) (s.step .trigger).1 := by
  rw [state_trigger]
  by_cases gone : .drop ∈ past
  · rw [if_pos (tracks.dropped_iff.mpr gone)]
    constructor
    · simp [tracks.dropped_iff]
    · simp [History.subscriptions, tracks.number]
    · exact tracks.behind
    · intro i
      rw [tracks.unread]
      simp [History.unread, gone]
  · rw [if_neg (mt tracks.dropped_iff.mp gone)]
    obtain ⟨dropped, subscribers⟩ := trigger_rest s
    constructor
    · simp [dropped, tracks.dropped_iff]
    · simp [subscribers, History.subscriptions, tracks.number]
    · intro i next there
      obtain ⟨position, sent⟩ := trigger_position s i
      rw [position] at there
      rw [sent next there]
      exact Nat.le_succ_of_le (tracks.behind i next there)
    · intro i
      obtain ⟨position, sent⟩ := trigger_position s i
      rw [position, History.unread, ← tracks.unread i]
      cases there : s.position i with
      | none => rfl
      | some next =>
        have behind := tracks.behind i next there
        simp only [sent next there, Option.map_some, gone, if_false]
        rw [Nat.succ_sub behind]

theorem Tracks.unsubscribe (j : Nat) :
    Tracks (.unsubscribe j :: past) (s.step (.unsubscribe j)).1 := by
  constructor
  · simp [step, Shutdown.unsubscribe, tracks.dropped_iff]
  · simp [step, Shutdown.unsubscribe, History.subscriptions, tracks.number]
  · intro i next there
    rw [step, position_unsubscribe] at there
    split at there
    · cases there
    · exact tracks.behind i next there
  · intro i
    rw [step, position_unsubscribe, History.unread]
    split
    · rfl
    · exact tracks.unread i

theorem Tracks.receive (j : Nat) : Tracks (.receive j :: past) (s.step (.receive j)).1 := by
  have state : (s.step (.receive j)).1 = (s.receive j).1 := rfl
  rw [state]
  cases there : s.position j with
  | none =>
    have still : (s.receive j).1 = s := by simp [Shutdown.receive, there]
    rw [still]
    constructor
    · simp [tracks.dropped_iff]
    · simp [History.subscriptions, tracks.number]
    · exact tracks.behind
    · intro i
      rw [History.unread, ← tracks.unread i]
      by_cases own : j = i
      · rw [if_pos own, ← own, there]
        rfl
      · rw [if_neg own]
  | some next =>
    obtain ⟨later, subscribers, within, rest, moved, length, position⟩ :=
      receive_moves there (tracks.behind j next there)
    have sent : (s.receive j).1.sent = s.sent := by rw [moved]
    constructor
    · simp [moved, tracks.dropped_iff]
    · simp [moved, length, History.subscriptions, tracks.number]
    · intro i found at'
      rw [position] at at'
      rw [sent]
      split at at'
      · cases at'
        exact within
      · exact tracks.behind i found at'
    · intro i
      rw [position, sent, History.unread, ← tracks.unread i]
      by_cases own : j = i
      · rw [if_pos own, if_pos own, ← own, there]
        exact congrArg some rest
      · rw [if_neg own, if_neg own]

theorem Tracks.drop : Tracks (.drop :: past) (s.step .drop).1 := by
  constructor
  · simp [step, Shutdown.drop]
  · simp [step, Shutdown.drop, History.subscriptions, tracks.number]
  · exact tracks.behind
  · exact tracks.unread

end Steps

theorem tracks_state (past : History) : Tracks past past.state := by
  induction past with
  | nil => exact tracks_new
  | cons latest earlier ih =>
    cases latest with
    | subscribe => exact ih.subscribe
    | trigger => exact ih.trigger
    | unsubscribe j => exact ih.unsubscribe j
    | receive j => exact ih.receive j
    | drop => exact ih.drop

theorem count_range_eq_count {α : Type} (p : α → Bool) (xs : List α) :
    ((List.range xs.length).countP fun i => (xs[i]?).any p) = xs.countP p := by
  induction xs with
  | nil => rfl
  | cons x rest ih =>
    rw [List.length_cons, List.range_succ_eq_map, List.countP_cons, List.countP_cons,
      List.countP_map, ← ih]
    rfl

theorem listeners_eq_live (past : History) : past.state.listeners = past.live := by
  have tracks := tracks_state past
  unfold listeners History.live
  rw [← count_range_eq_count, tracks.number]
  apply List.countP_congr
  intro i _
  rw [← tracks.unread i]
  unfold position
  cases past.state.subscribers[i]? with
  | none => simp
  | some there => cases there <;> simp

theorem receive_eq (past : History) (i : Nat) :
    (past.state.receive i).2 = past.reading (past.unread i) := by
  have tracks := tracks_state past
  rw [← tracks.unread i]
  unfold receive
  cases there : past.state.position i with
  | none => rfl
  | some next =>
    have behind := tracks.behind i next there
    simp only [Option.map_some]
    by_cases none : next = past.state.sent
    · rw [if_pos none, none, Nat.sub_self, History.reading]
      simp only [tracks.dropped_iff]
    · rw [if_neg none]
      by_cases one : next + 1 = past.state.sent
      · rw [if_pos one, ← one, Nat.add_sub_cancel_left, History.reading]
      · obtain ⟨k, several⟩ : ∃ k, past.state.sent - next = k + 2 :=
          ⟨past.state.sent - next - 2, by omega⟩
        rw [if_neg one, several, History.reading]
        exact congrArg Reading.lagged (by omega)

theorem subscribed_of_unread {past : History} {i k : Nat} (there : past.unread i = some k) :
    i < past.subscriptions := by
  have tracks := tracks_state past
  rw [← tracks.unread i] at there
  obtain ⟨next, position, _⟩ := Option.map_eq_some_iff.mp there
  rw [← tracks.number]
  by_contra beyond
  unfold Shutdown.position at position
  rw [List.getElem?_eq_none (by omega)] at position
  cases position

theorem unread_of_leaves {past : History} {i k : Nat} (there : past.unread i = some k) {a : Step}
    (leaves : a.Leaves i) : History.unread i (a :: past) = some k := by
  obtain ⟨quiet, stays, waits⟩ := leaves
  cases a with
  | subscribe =>
    have earlier := subscribed_of_unread there
    rw [History.unread, if_neg (by omega), there]
  | trigger => exact absurd rfl quiet
  | unsubscribe j =>
    have other : j ≠ i := by
      rintro rfl
      exact stays rfl
    rw [History.unread, if_neg other, there]
  | receive j =>
    have other : j ≠ i := by
      rintro rfl
      exact waits rfl
    rw [History.unread, if_neg other, there]
  | drop => exact there

/-- What others do, and the end of the signal, leaves a subscriber as much to read. -/
theorem unread_after_others {past : History} {i k : Nat} (there : past.unread i = some k)
    {others : History} (leave : ∀ a ∈ others, a.Leaves i) :
    History.unread i (others ++ past) = some k := by
  induction others with
  | nil => exact there
  | cons a rest ih =>
    have earlier := ih fun b member => leave b (List.mem_cons_of_mem a member)
    exact unread_of_leaves earlier (leave a List.mem_cons_self)

/-- A new subscriber counts the triggers from its subscription on. -/
theorem unread_since {past since : History} (opened : .drop ∉ since ++ past)
    (still : ∀ a ∈ since, a ≠ .unsubscribe past.subscriptions ∧ a ≠ .receive past.subscriptions) :
    History.unread past.subscriptions (since ++ .subscribe :: past) =
      some (since.count .trigger) := by
  induction since with
  | nil =>
    rw [List.nil_append, History.unread, if_pos ⟨opened, rfl⟩]
    rfl
  | cons a since ih =>
    rw [List.cons_append, List.mem_cons, not_or] at opened
    have earlier := ih opened.2 fun b member => still b (List.mem_cons_of_mem a member)
    by_cases trigger : a = .trigger
    · have kept : .drop ∉ since ++ Step.subscribe :: past := by
        simpa [List.mem_append, List.mem_cons] using opened.2
      rw [trigger, List.cons_append, History.unread, earlier, List.count_cons_self]
      simp [kept]
    · rw [List.cons_append, List.count_cons_of_ne trigger]
      obtain ⟨stays, waits⟩ := still a List.mem_cons_self
      exact unread_of_leaves earlier ⟨trigger, stays, waits⟩

theorem drop_mem_alone_iff (i : Nat) (past : History) : .drop ∈ past.alone i ↔ .drop ∈ past := by
  induction past with
  | nil => exact Iff.rfl
  | cons latest earlier ih =>
    cases latest with
    | subscribe =>
      rw [History.alone]
      split <;> simp [ih]
    | trigger => simp [History.alone, ih]
    | unsubscribe j =>
      rw [History.alone]
      split <;> simp [ih]
    | receive j =>
      rw [History.alone]
      split <;> simp [ih]
    | drop => simp [History.alone]

theorem subscriptions_alone (i : Nat) (past : History) :
    History.subscriptions (past.alone i) = if i < past.subscriptions then 1 else 0 := by
  induction past with
  | nil => rfl
  | cons latest earlier ih =>
    cases latest with
    | subscribe =>
      have drops := drop_mem_alone_iff i earlier
      rw [History.alone]
      by_cases gone : .drop ∈ earlier
      · simp [gone, History.subscriptions, ih]
      · by_cases own : History.subscriptions earlier = i
        · simp [gone, own, History.subscriptions, ih, drops]
        · simp only [gone, own, not_false_eq_true, and_false, if_false, ih, History.subscriptions,
            and_true, if_true]
          have same : i < History.subscriptions earlier ↔
              i < History.subscriptions earlier + 1 := by
            omega
          simp only [same]
    | trigger => simp [History.alone, History.subscriptions, ih]
    | unsubscribe j =>
      rw [History.alone]
      split <;> simp [History.subscriptions, ih]
    | receive j =>
      rw [History.alone]
      split <;> simp [History.subscriptions, ih]
    | drop => simp [History.alone, History.subscriptions, ih]

/-- A subscriber is left as much to read as if it were the only one. -/
theorem unread_alone (i : Nat) (past : History) :
    History.unread 0 (past.alone i) = past.unread i := by
  induction past with
  | nil => rfl
  | cons latest earlier ih =>
    have drops := drop_mem_alone_iff i earlier
    cases latest with
    | subscribe =>
      rw [History.alone, History.unread]
      by_cases own : .drop ∉ earlier ∧ History.subscriptions earlier = i
      · have first : History.subscriptions (History.alone i earlier) = 0 := by
          rw [subscriptions_alone, if_neg (by omega)]
        rw [if_pos own, if_pos own, History.unread, if_pos ⟨mt drops.mp own.1, first⟩]
      · rw [if_neg own, if_neg own, ih]
    | trigger => simp only [History.alone, History.unread, ih, drops]
    | unsubscribe j =>
      rw [History.alone, History.unread]
      by_cases own : j = i
      · simp [own, History.unread]
      · simp [own, ih]
    | receive j =>
      rw [History.alone, History.unread]
      by_cases own : j = i
      · simp [own, History.unread, ih]
      · simp [own, ih]
    | drop => exact ih

theorem run_entry (s : Shutdown) (before : List Step) (a : Step) (rest : List Step) :
    (s.run (before ++ a :: rest))[before.length]? =
      some ((before.foldl (fun t b => (t.step b).1) s).step a) := by
  induction before generalizing s with
  | nil => rfl
  | cons first before ih => exact ih (s.step first).1

theorem state_eq_foldl (past : History) :
    past.state = past.reverse.foldl (fun s a => (s.step a).1) new := by
  induction past with
  | nil => rfl
  | cons latest earlier ih =>
    rw [List.reverse_cons, List.foldl_append, ← ih]
    rfl

/-- What holds after any steps. A trigger is told to as many as are there; a subscriber with
    nothing to read finds the signal empty or closed, one with one trigger reads it, and one with
    more first hears how many it has missed and then reads one. Each reads as if it were alone. -/
structure Delivered (past : History) : Prop where
  runs : ∀ a rest, (new.run (past.reverse ++ a :: rest))[past.length]? = some (past.state.step a)
  counted : past.state.listeners = past.live
  triggered : .drop ∉ past → (past.state.step .trigger).2 = .triggered past.live ∧
    (past.state.step .trigger).2.events = [.shutdownTriggered past.live]
  nothing : ∀ i, past.unread i = some 0 → (past.state.step (.receive i)).2 =
    .received (if .drop ∈ past then .closed else .empty)
  single : ∀ i, past.unread i = some 1 → (past.state.step (.receive i)).2 = .received .signal ∧
    ∀ others : History, (∀ a ∈ others, a.Leaves i) →
      History.unread i (others ++ .receive i :: past) = some 0
  several : ∀ i k, 2 ≤ k → past.unread i = some k →
    (past.state.step (.receive i)).2 = .received (.lagged (k - 1)) ∧
      ∀ others : History, (∀ a ∈ others, a.Leaves i) →
        ((History.state (others ++ .receive i :: past)).step (.receive i)).2 = .received .signal
  since : ∀ later : History, .drop ∉ later ++ past →
    (∀ a ∈ later, a ≠ .unsubscribe past.subscriptions ∧ a ≠ .receive past.subscriptions) →
      History.unread past.subscriptions (later ++ .subscribe :: past) = some (later.count .trigger)
  undisturbed : ∀ i a, past.unread i ≠ none → a.Leaves i → a ≠ .drop →
    ((History.state (a :: past)).receive i).2 = (past.state.receive i).2
  alone : ∀ i, (past.state.receive i).2 = ((History.state (past.alone i)).receive 0).2

theorem signal_delivered (past : History) : Delivered past where
  runs := by
    intro a rest
    have entry := run_entry new past.reverse a rest
    rwa [List.length_reverse, ← state_eq_foldl] at entry
  counted := listeners_eq_live past
  triggered := by
    intro opened
    have kept := mt (tracks_state past).dropped_iff.mp opened
    have answer : (past.state.step .trigger).2 = .triggered past.live := by
      simp [step, kept, listeners_eq_live]
    rw [answer]
    exact ⟨rfl, rfl⟩
  nothing := by
    intro i none
    have reading := receive_eq past i
    rw [none, History.reading] at reading
    exact congrArg Answer.received reading
  single := by
    intro i one
    have reading := receive_eq past i
    rw [one] at reading
    refine ⟨congrArg Answer.received reading, ?_⟩
    intro others leave
    refine unread_after_others ?_ leave
    rw [History.unread, if_pos rfl, one]
    rfl
  several := by
    intro i k many unread
    obtain ⟨n, rfl⟩ := Nat.exists_eq_add_of_le' many
    have reading := receive_eq past i
    rw [unread] at reading
    refine ⟨congrArg Answer.received reading, ?_⟩
    intro others leave
    have one : History.unread i (others ++ .receive i :: past) = some 1 := by
      refine unread_after_others ?_ leave
      rw [History.unread, if_pos rfl, unread, Option.map_some, History.left]
      exact congrArg some (by omega)
    have next := receive_eq (others ++ .receive i :: past) i
    rw [one] at next
    exact congrArg Answer.received next
  since := fun _ opened still => unread_since opened still
  undisturbed := by
    intro i a there leaves kept
    obtain ⟨k, unread⟩ := Option.ne_none_iff_exists'.mp there
    have drops : .drop ∈ a :: past ↔ .drop ∈ past := by
      rw [List.mem_cons]
      exact or_iff_right (Ne.symm kept)
    rw [receive_eq, receive_eq, unread_of_leaves unread leaves, unread]
    unfold History.reading
    simp only [drops]
  alone := by
    intro i
    rw [receive_eq, receive_eq, unread_alone]
    unfold History.reading
    simp only [drop_mem_alone_iff]

example : (new.run [.subscribe, .trigger, .trigger, .subscribe, .drop, .receive 1, .receive 0,
    .receive 0, .receive 0]).map (·.2) =
      [.subscribed 0, .triggered 1, .triggered 1, .subscribed 1, .done, .received .closed,
        .received (.lagged 1), .received .signal, .received .closed] := by
  decide

end SnapshotEndpoint.Shutdown
