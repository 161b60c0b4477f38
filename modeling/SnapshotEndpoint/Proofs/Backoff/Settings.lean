import SnapshotEndpoint.Proofs.Backoff.Growth

/-!
Which settings a backoff takes over as they are. The check of a configuration and the clamps of
a backoff state their ranges apart. They agree on the delays and on the multiplier, but the
clamp ends the jitter at 0.999, where the check goes on up to one.
-/
namespace SnapshotEndpoint.Backoff
open Binary64

/-- A backoff at its start, with exactly the settings given. -/
structure Keeps (b : Backoff) (settings : BackoffSection) : Prop where
  current : b.current = Duration.ofMillis settings.initialDelayMs
  first : b.min = Duration.ofMillis settings.initialDelayMs
  bound : b.max = Duration.ofMillis settings.maxDelayMs
  multiplier : b.multiplier = settings.multiplier
  jitter : b.jitter = settings.jitter

/-- A jitter from zero on can only be too large; minus zero is kept as it is. -/
theorem clamp_jitter_of_nonnegative {jitter : Binary64} (low : le zero jitter = true) :
    clampJitter jitter = if lt jitterLimit jitter then jitterLimit else jitter := by
  have number : jitter.isNan = false := by
    cases jitter with
    | nan => cases low
    | infinite _ => rfl
    | finite _ _ => rfl
  have nonnegative : lt jitter zero = false := by
    rw [lt, low, Bool.not_true, Bool.and_false]
  simp only [clampJitter, number, nonnegative, Bool.false_eq_true, if_false]

theorem not_lt_self (x : Binary64) : lt x x = false := by
  rw [lt, Bool.and_not_self]

theorem clamp_jitter_eq_self_iff {jitter : Binary64} (low : le zero jitter = true) :
    clampJitter jitter = jitter ↔ lt jitterLimit jitter = false := by
  rw [clamp_jitter_of_nonnegative low]
  cases above : lt jitterLimit jitter with
  | false => simp
  | true =>
    constructor
    · intro same
      rw [if_pos rfl] at same
      rw [← same, not_lt_self] at above
      cases above
    · intro impossible
      cases impossible

/-- A backoff takes over every setting of an accepted configuration but the jitter, of which it
    keeps at most 0.999. -/
theorem settings_kept_iff_of_accepted {config : Config} (accepted : config.violations = []) :
    let b := ofConfig config.backoff
    let jitter := config.backoff.jitter
    b.Keeps { config.backoff with
      jitter := if lt jitterLimit jitter then jitterLimit else jitter } ∧
      (b.Keeps config.backoff ↔ lt jitterLimit jitter = false) := by
  have checked := Config.violations_eq_nil_iff.mp accepted
  intro b jitter
  have order : Duration.ofMillis config.backoff.initialDelayMs ≤
      Duration.ofMillis config.backoff.maxDelayMs := Nat.mul_le_mul_right _ checked.delayOrder
  have bound : b.max = Duration.ofMillis config.backoff.maxDelayMs := if_pos order
  have multiplier : b.multiplier = config.backoff.multiplier :=
    clamp_multiplier_of_one_le checked.multiplier
  have clamped : b.jitter = if lt jitterLimit jitter then jitterLimit else jitter :=
    clamp_jitter_of_nonnegative checked.jitter.1
  refine ⟨⟨rfl, rfl, bound, multiplier, by rw [clamped]⟩, ?_⟩
  rw [← clamp_jitter_eq_self_iff checked.jitter.1]
  constructor
  · intro kept
    exact kept.jitter
  · intro same
    exact ⟨rfl, rfl, bound, multiplier, same⟩

/-- The default settings but for a jitter between the clamp and one. -/
def jittery : Config :=
  { Config.default with
    backoff := { BackoffSection.default with jitter := ofDecimal false 9995 (-4) } }

theorem settings_kept_iff_of_accepted_jittery : jittery.violations = [] ∧
    ¬ (ofConfig jittery.backoff).Keeps jittery.backoff ∧
    (ofConfig jittery.backoff).Keeps { jittery.backoff with jitter := jitterLimit } := by
  have accepted : jittery.violations = [] := by decide +kernel
  have above : lt jitterLimit jittery.backoff.jitter = true := by decide +kernel
  obtain ⟨made, kept_iff⟩ := settings_kept_iff_of_accepted accepted
  rw [if_pos above] at made
  refine ⟨accepted, ?_, made⟩
  intro kept
  rw [kept_iff.mp kept] at above
  cases above

end SnapshotEndpoint.Backoff
