import SnapshotEndpoint.Proofs.Backoff.Delays
import SnapshotEndpoint.Proofs.Lists

/-!
Backoffs in use. Whatever is called, reset and cloned, a backoff is its first state after as many
calls as it has seen since it was new or last reset, where a clone has seen those of its original.
-/
namespace SnapshotEndpoint.Backoff

/-- What is done with one of the backoffs at hand, named by its place among them. -/
inductive Use where
  | call (place : Nat)
  | reset (place : Nat)
  /-- A copy joins the backoffs at hand, at the end. -/
  | clone (place : Nat)
  deriving DecidableEq, Repr

/-- A use of things that can be called, reset and copied; a place that holds none is passed over. -/
def Use.act {α : Type} (call reset : α → α) (pool : List α) : Use → List α
  | .call place => pool.modify place call
  | .reset place => pool.modify place reset
  | .clone place => pool ++ pool[place]?.toList

/-- The backoffs at hand after uses of one and of its clones. -/
def history (first : Backoff) (uses : List Use) : List Backoff :=
  uses.foldl (Use.act advance reset) [first]

/-- How often each backoff at hand has been called since it was new or last reset. -/
def calls (uses : List Use) : List Nat := uses.foldl (Use.act (· + 1) fun _ => 0) [0]

theorem map_act {α β : Type} {f : α → β} {call reset : α → α} {call' reset' : β → β}
    (calls : ∀ x, f (call x) = call' (f x)) (resets : ∀ x, f (reset x) = reset' (f x))
    (pool : List α) (use : Use) :
    (use.act call reset pool).map f = use.act call' reset' (pool.map f) := by
  cases use with
  | call place => exact map_modify calls pool place
  | reset place => exact map_modify resets pool place
  | clone place =>
    rw [Use.act, List.map_append, Use.act, List.getElem?_map]
    cases pool[place]? with
    | none => rfl
    | some x => rfl

variable {first : Backoff}

theorem reset_advance (b : Backoff) : b.advance.reset = b.reset := by
  rw [reset, reset, advance_min, advance_max, advance_multiplier, advance_jitter]

theorem reset_after_calls (first : Backoff) (n : Nat) :
    (first.afterCalls n).reset = first.reset := by
  induction n with
  | zero => rfl
  | succ n ih => rw [afterCalls, reset_advance, ih]

theorem reset_of_fresh (fresh : first.reset = first) (n : Nat) :
    (first.afterCalls n).reset = first.afterCalls 0 := by
  rw [reset_after_calls, fresh, afterCalls]

/-- The calls since the last reset are all that a history leaves in a backoff. -/
theorem history_eq (fresh : first.reset = first) (uses : List Use) :
    first.history uses = (calls uses).map first.afterCalls := by
  have called : ∀ n, first.afterCalls (n + 1) = (first.afterCalls n).advance := fun _ => rfl
  have reset : ∀ n, first.afterCalls 0 = (first.afterCalls n).reset := fun n =>
    (reset_of_fresh fresh n).symm
  have step : ∀ counts use, Use.act advance Backoff.reset (counts.map first.afterCalls) use =
      (use.act (· + 1) (fun _ => 0) counts).map first.afterCalls := by
    intro counts use
    exact (map_act called reset counts use).symm
  rw [history, calls, ← List.foldl_hom (List.map first.afterCalls) step]
  rfl

theorem reset_new (min max : Nat) (jitter multiplier : Binary64) :
    (new min max jitter multiplier).reset = new min max jitter multiplier := rfl

theorem new_max (min max : Nat) (jitter multiplier : Binary64) :
    (new min max jitter multiplier).max = Max.max min max := Nat.max_def.symm

theorem new_multiplier (min max : Nat) (jitter multiplier : Binary64) :
    (new min max jitter multiplier).multiplier = clampMultiplier multiplier := rfl

theorem after_calls_of_mem_history (fresh : first.reset = first) {uses : List Use} {b : Backoff}
    (known : b ∈ first.history uses) : ∃ n, b = first.afterCalls n := by
  rw [history_eq fresh] at known
  obtain ⟨n, _, rfl⟩ := List.mem_map.mp known
  exact ⟨n, rfl⟩

end SnapshotEndpoint.Backoff
