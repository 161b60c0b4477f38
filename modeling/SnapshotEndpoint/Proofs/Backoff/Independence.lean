import SnapshotEndpoint.Proofs.Backoff.Growth
import SnapshotEndpoint.Proofs.Backoff.Histories

/-!
What the bases of a backoff depend on. A call moves the base on, by the multiplier and up to the
bound, before it draws anything, so neither the jitter nor a factor nor a call that panics can be
seen in a later base. All that counts is how many calls there were since the last reset, where a
copy has the calls of its original.
-/
namespace SnapshotEndpoint.Backoff
open Binary64

/-- What a call under a factor gives, which is nothing if it panics, and the backoff after it. -/
def call (factor : Binary64) (b : Backoff) : Option Nat × Backoff :=
  (b.nextDelay.under factor, b.advance)

/-- A use of a backoff at hand, under the factor drawn if it has one to draw, or the return of a
    backoff to what another one is. -/
inductive Step where
  | under (factor : Binary64) (use : Use)
  | restore (place source : Nat)
  deriving DecidableEq, Repr

namespace Step

def act {α : Type} (call : Binary64 → α → α) (reset : α → α) (pool : List α) : Step → List α
  | .under factor use => use.act (call factor) reset pool
  | .restore place source => (pool[source]?).elim pool fun kept => pool.set place kept

/-- What a step gives if it calls a backoff. -/
def delay? (pool : List Backoff) : Step → Option (Option Nat)
  | .under factor (.call place) => pool[place]?.map fun b => (b.call factor).1
  | _ => none

/-- The place whose backoff a step changes. -/
def changes : Step → Option Nat
  | .under _ (.call place) => some place
  | .under _ (.reset place) => some place
  | .under _ (.clone _) => none
  | .restore place _ => some place

theorem map_act {α β : Type} {f : α → β} {call : Binary64 → α → α} {call' : Binary64 → β → β}
    {reset : α → α} {reset' : β → β} (calls : ∀ factor x, f (call factor x) = call' factor (f x))
    (resets : ∀ x, f (reset x) = reset' (f x)) (pool : List α) (step : Step) :
    (step.act call reset pool).map f = step.act call' reset' (pool.map f) := by
  cases step with
  | under factor use => exact Backoff.map_act (calls factor) resets pool use
  | restore place source =>
    rw [act, act, List.getElem?_map]
    cases pool[source]? with
    | none => rfl
    | some kept => exact List.map_set

/-- A step leaves alone what is at the other places. -/
theorem entry_act {α : Type} (call : Binary64 → α → α) (reset : α → α) {pool : List α} {step : Step}
    {place : Nat} {entry : α} (there : pool[place]? = some entry)
    (other : step.changes ≠ some place) : (step.act call reset pool)[place]? = some entry := by
  have modified : ∀ {at_} (change : α → α), some at_ ≠ some place →
      (pool.modify at_ change)[place]? = some entry := by
    intro at_ change apart
    rw [List.getElem?_modify_ne _ _ fun same => apart (congrArg some same), there]
  cases step with
  | under factor use =>
    cases use with
    | call at_ => exact modified (call factor) other
    | reset at_ => exact modified reset other
    | clone source => exact entry_kept (List.prefix_append pool _) there
  | restore at_ source =>
    rw [act]
    cases pool[source]? with
    | none => exact there
    | some kept => exact (List.getElem?_set_ne fun same => other (congrArg some same)).trans there

end Step

/-- The backoffs at hand, and what the calls so far have given. -/
structure Course where
  pool : List Backoff
  delays : List (Option Nat)
  deriving DecidableEq, Repr

namespace Course

def next (c : Course) (step : Step) : Course :=
  ⟨step.act (fun factor b => (b.call factor).2) reset c.pool,
    c.delays ++ (step.delay? c.pool).toList⟩

def bases (c : Course) : List Nat := c.pool.map base

theorem entry_next {c : Course} {later : List Step} {place : Nat} {b : Backoff}
    (there : c.pool[place]? = some b) (others : ∀ step ∈ later, step.changes ≠ some place) :
    (later.foldl next c).pool[place]? = some b := by
  induction later generalizing c with
  | nil => exact there
  | cons step rest ih =>
    rw [List.forall_mem_cons] at others
    have kept : (c.next step).pool[place]? = some b := Step.entry_act _ _ there others.1
    exact ih kept others.2

end Course

/-- The backoffs at hand after some steps from a first one. -/
def course (first : Backoff) (steps : List Step) : Course := steps.foldl Course.next ⟨[first], []⟩

/-- How often each backoff at hand has been called since it, or the one it is a copy of, was new or
    last reset. -/
def callsOf (steps : List Step) : List Nat :=
  steps.foldl (Step.act (fun _ calls => calls + 1) fun _ => 0) [0]

theorem course_pool {first : Backoff} (fresh : first.reset = first) (steps : List Step) :
    (first.course steps).pool = (callsOf steps).map first.afterCalls := by
  have moves : ∀ (c : Course) (step : Step),
      step.act (fun _ => advance) reset c.pool = (c.next step).pool := fun _ _ => rfl
  have counts : ∀ calls (step : Step),
      step.act (fun _ => advance) reset (calls.map first.afterCalls) =
        (step.act (fun _ calls => calls + 1) (fun _ => 0) calls).map first.afterCalls := by
    intro calls step
    have called : ∀ (_ : Binary64) n, first.afterCalls (n + 1) = (first.afterCalls n).advance :=
      fun _ _ => rfl
    have resets : ∀ n, first.afterCalls 0 = (first.afterCalls n).reset := fun n =>
      (reset_of_fresh fresh n).symm
    exact (Step.map_act called resets calls step).symm
  rw [course, callsOf, ← List.foldl_hom Course.pool moves,
    ← List.foldl_hom (List.map first.afterCalls) counts]
  rfl

theorem after_calls_with_jitter (b : Backoff) (jitter : Binary64) (n : Nat) :
    afterCalls { b with jitter := jitter } n = { b.afterCalls n with jitter := jitter } := by
  induction n with
  | zero => rfl
  | succ n ih => rw [afterCalls, ih, afterCalls, advance, advance]

/-- A jitter is nowhere in the bases. -/
theorem base_new (min max : Nat) (jitter jitter' multiplier : Binary64) (n : Nat) :
    ((new min max jitter multiplier).afterCalls n).base =
      ((new min max jitter' multiplier).afterCalls n).base := by
  have alike : new min max jitter multiplier =
      { new min max jitter' multiplier with jitter := clampJitter jitter } := rfl
  rw [alike, after_calls_with_jitter]
  rfl

/-- Backoffs that differ in their jitters at most, in any two courses: those with as many calls
    since the last reset have the same base. And what is done with other backoffs, its copies among
    them, changes none. -/
structure Independent (min max : Nat) (multiplier : Binary64) : Prop where
  bases : ∀ jitter jitter' steps steps' (place place' n : Nat),
    (callsOf steps)[place]? = some n → (callsOf steps')[place']? = some n →
    ∃ base, ((new min max jitter multiplier).course steps).bases[place]? = some base ∧
      ((new min max jitter' multiplier).course steps').bases[place']? = some base
  originals : ∀ jitter steps later (place : Nat) b,
    ((new min max jitter multiplier).course steps).pool[place]? = some b →
    (∀ step ∈ later, step.changes ≠ some place) →
    ((new min max jitter multiplier).course (steps ++ later)).pool[place]? = some b

theorem bases_independent (min max : Nat) (multiplier : Binary64) :
    Independent min max multiplier where
  bases := by
    intro jitter jitter' steps steps' place place' n counted counted'
    have based : ∀ {jitter steps} {place : Nat}, (callsOf steps)[place]? = some n →
        ((new min max jitter multiplier).course steps).bases[place]? =
          some ((new min max jitter multiplier).afterCalls n).base := by
      intro jitter steps place counted
      rw [Course.bases, course_pool (reset_new _ _ _ _), List.getElem?_map, List.getElem?_map,
        counted]
      rfl
    refine ⟨_, based counted, ?_⟩
    rw [base_new min max jitter jitter' multiplier n]
    exact based counted'
  originals := by
    intro jitter steps later place b there others
    rw [course, List.foldl_append]
    exact Course.entry_next there others

/-- Two calls that panic, one of them undone by a return to a copy, against two that draw: the
    factors drawn and the jitter leave no trace in the bases. -/
theorem bases_independent_panicking :
    let panicking := (new 3 10 (ofDecimal false 1 (-17)) (ofNat 2)).course
      [.under one (.call 0), .under one (.clone 0), .under one (.call 0), .restore 0 1,
        .under nan (.call 0)]
    let drawing := (new 3 10 (ofDecimal false 2 (-1)) (ofNat 2)).course
      [.under one (.reset 0), .under one (.call 0), .under (ofDecimal false 9 (-1)) (.call 0)]
    panicking.delays = [none, none, none] ∧ drawing.delays = [some 3, some 5] ∧
      panicking.bases[0]? = drawing.bases[0]? ∧ panicking.bases[1]? = some 6 := by
  intro panicking drawing
  refine ⟨by decide +kernel, by decide +kernel, ?_, by decide +kernel⟩
  obtain ⟨base, first, second⟩ := (bases_independent 3 10 (ofNat 2)).bases
    (ofDecimal false 1 (-17)) (ofDecimal false 2 (-1))
    [.under one (.call 0), .under one (.clone 0), .under one (.call 0), .restore 0 1,
      .under nan (.call 0)]
    [.under one (.reset 0), .under one (.call 0), .under (ofDecimal false 9 (-1)) (.call 0)] 0 0 2
    (by decide) (by decide)
  exact first.trans second.symm

end SnapshotEndpoint.Backoff
