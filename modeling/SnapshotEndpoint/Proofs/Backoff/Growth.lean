import SnapshotEndpoint.Proofs.Backoff.Delays
import SnapshotEndpoint.Proofs.Binary64.Order
import SnapshotEndpoint.Proofs.Config.Accepted

/-!
How the base of the delays moves. Growth keeps the order of delays, so the first step
settles the direction of the whole course. A first delay that its nearest double holds, or
that a factor above one raises, never shrinks; one above the largest product always does.
-/
namespace SnapshotEndpoint.Backoff
open Binary64

theorem scale_zero (factor : Binary64) : scale 0 factor = 0 := by
  have zero : ofNat 0 = finite false 0 := by decide +kernel
  rw [scale, zero]
  cases factor with
  | nan => rfl
  | infinite s => rfl
  | finite s v =>
    have grid := round_units_of_on_grid units_per_one_pos (n := 0) ⟨0, rfl⟩
    have product : mul (finite false 0) (finite s v) = finite s 0 := by
      have small : 0 < unitsLimit := by decide +kernel
      simp only [mul, Bool.false_xor, ofQuotient, Nat.zero_mul] at grid ⊢
      rw [grid]
      exact if_pos small
    rw [product, to_nat_within_zero]

theorem scale_mono {n m g : Nat} {x y : Binary64} (positive : 0 < g)
    (above : le (finite false g) x = true) (delays : n ≤ m) (factors : le x y = true) :
    scale n x ≤ scale m y := by
  -- Zero times infinity is no number, so a delay of zero stands apart.
  by_cases none : n = 0
  · rw [none, scale_zero]
    exact Nat.zero_le _
  · have whole : le (finite false unitsPerOne) (ofNat n) = true :=
      le_of_nat on_grid_units_per_one (Nat.le_mul_of_pos_left _ (by omega))
    exact to_nat_within_mono _
      (mul_mono units_per_one_pos positive whole above (of_nat_mono delays) factors)

theorem scale_one (n : Nat) : scale n one = toNatWithin scaleLimit (ofNat n) := by
  rw [scale, Binary64.mul_one (is_double_of_nat n)]

theorem scale_le (n : Nat) (factor : Binary64) : scale n factor ≤ scaleLimit :=
  to_nat_within_le _ _

/-- A delay that a double holds loses nothing to a factor of at least one. -/
theorem le_scale_of_on_grid {n : Nat} {factor : Binary64} (fits : n ≤ scaleLimit)
    (grid : OnGrid (n * unitsPerOne)) (grows : le one factor = true) : n ≤ scale n factor := by
  by_cases none : n = 0
  · omega
  · have positive : 0 < n * unitsPerOne := Nat.mul_pos (by omega) units_per_one_pos
    exact le_to_nat_within (by omega) fits (le_mul positive units_per_one_pos grid
      (Nat.le_refl _) (le_of_nat grid (Nat.le_refl _)) grows)

theorem le_scale_of_one_lt {n : Nat} {factor : Binary64} (fits : n ≤ scaleLimit)
    (double : factor.IsDouble) (above : lt one factor = true) : n ≤ scale n factor := by
  by_cases none : n = 0
  · omega
  · exact le_to_nat_within (by omega) fits (le_of_nat_mul (by omega) double above)

theorem clamp_multiplier_of_one_le {multiplier : Binary64}
    (grows : le one multiplier = true) : clampMultiplier multiplier = multiplier := by
  rcases le_finite_cases units_per_one_pos grows with rfl | ⟨v, rfl, reach⟩
  · rfl
  · have above : lt (finite false v) one = false := by
      rw [one, Bool.eq_false_iff, Ne, lt_finite_iff]
      omega
    simp only [clampMultiplier, isNan, Binary64.max, above, Bool.false_eq_true, ↓reduceIte]

theorem eq_one_of_not_lt {factor : Binary64} (grows : le one factor = true)
    (above : lt one factor = false) : factor = one := by
  rcases le_finite_cases units_per_one_pos grows with rfl | ⟨v, rfl, reach⟩
  · simp [lt, le, one] at above
  · have below : ¬ unitsPerOne < v := by
      rw [← lt_finite_iff]
      simpa [one] using above
    rw [show v = unitsPerOne by omega, one]

/-- Which delays a growth never shrinks: those that fit a product, if the factor is above one
    or their nearest double is not below them. -/
theorem le_scale_iff {n : Nat} {factor : Binary64} (double : factor.IsDouble)
    (grows : le one factor = true) :
    n ≤ scale n factor ↔
      n ≤ scaleLimit ∧ (lt one factor = true ∨ n ≤ toNatWithin scaleLimit (ofNat n)) := by
  constructor
  · intro held
    refine ⟨Nat.le_trans held (scale_le n factor), ?_⟩
    cases above : lt one factor with
    | true => exact Or.inl rfl
    | false =>
      rw [eq_one_of_not_lt grows above, scale_one] at held
      exact Or.inr held
  · rintro ⟨fits, above | held⟩
    · exact le_scale_of_one_lt fits double above
    · rw [← scale_one] at held
      have self : le one one = true := le_finite_iff.mpr (Nat.le_refl _)
      exact Nat.le_trans held (scale_mono units_per_one_pos self (Nat.le_refl n) grows)

/-- Up to eighteen years of whole milliseconds are a double of nanoseconds. -/
theorem on_grid_millis {ms : Nat} (small : ms ≤ 576460752303) :
    OnGrid (Duration.ofMillis ms * unitsPerOne) := by
  obtain ⟨k, _, one⟩ := vanishing_power
  have parts : Duration.ofMillis ms * unitsPerOne = ms * 15625 * 2 ^ (6 + (k + 54)) := by
    rw [one, Nat.pow_add 2 6, ← Nat.mul_assoc, Duration.ofMillis, Duration.nanosPerMilli,
      Nat.mul_assoc ms 15625]
  rw [parts]
  -- The count of odd parts stays below 2^53, the digits of a double.
  exact on_grid_mul_pow _ (by omega)

section Course

variable {b : Backoff}

@[simp] theorem after_calls_max (b : Backoff) (calls : Nat) :
    (b.afterCalls calls).max = b.max := by
  induction calls with
  | zero => rfl
  | succ calls ih => rw [afterCalls, advance_max, ih]

@[simp] theorem after_calls_multiplier (b : Backoff) (calls : Nat) :
    (b.afterCalls calls).multiplier = b.multiplier := by
  induction calls with
  | zero => rfl
  | succ calls ih => rw [afterCalls, advance_multiplier, ih]

/-- The step from one base to the next. -/
def grown (b : Backoff) (base : Nat) : Nat := Min.min (scale base b.multiplier) b.max

theorem base_succ (b : Backoff) (calls : Nat) :
    (b.afterCalls (calls + 1)).base = b.grown (b.afterCalls calls).base := by
  rw [afterCalls, base, advance_current, after_calls_multiplier, after_calls_max]
  rfl

theorem grown_mono (grows : le one b.multiplier = true) {n m : Nat} (le : n ≤ m) :
    b.grown n ≤ b.grown m := by
  have self : Binary64.le b.multiplier b.multiplier = true := by
    rcases le_finite_cases units_per_one_pos grows with top | ⟨v, units, _⟩
    · rw [top]
      rfl
    · rw [units]
      exact le_finite_iff.mpr (Nat.le_refl v)
  have scaled := scale_mono units_per_one_pos grows le self
  rw [grown, grown]
  omega

theorem base_le_max (start : b.current ≤ b.max) (calls : Nat) :
    (b.afterCalls calls).base ≤ b.max := by
  cases calls with
  | zero => exact start
  | succ calls =>
    rw [base_succ]
    exact Nat.min_le_right _ _

/-- The base never goes down, and so never below where it started. -/
def Rises (b : Backoff) : Prop :=
  ∀ calls, b.base ≤ (b.afterCalls calls).base ∧
    (b.afterCalls calls).base ≤ (b.afterCalls (calls + 1)).base

theorem rises_of_first (grows : le one b.multiplier = true) (first : b.base ≤ b.grown b.base) :
    b.Rises := by
  intro calls
  induction calls with
  | zero => exact ⟨Nat.le_refl _, by rw [base_succ]; exact first⟩
  | succ calls ih =>
    refine ⟨Nat.le_trans ih.1 ih.2, ?_⟩
    have step := grown_mono grows ih.2
    rwa [← base_succ, ← base_succ] at step

theorem falls_of_first (grows : le one b.multiplier = true) (first : b.grown b.base < b.base)
    (calls : Nat) : (b.afterCalls (calls + 1)).base < b.base ∧
      (b.afterCalls (calls + 1)).base ≤ (b.afterCalls calls).base := by
  induction calls with
  | zero =>
    rw [base_succ]
    exact ⟨first, Nat.le_of_lt first⟩
  | succ calls ih =>
    have step := grown_mono grows ih.2
    rw [← base_succ, ← base_succ] at step
    exact ⟨Nat.lt_of_le_of_lt step ih.1, step⟩

theorem rises_iff (grows : le one b.multiplier = true) (start : b.base ≤ b.max) :
    b.Rises ↔ b.base ≤ scale b.base b.multiplier := by
  constructor
  · intro rises
    have step := (rises 0).2
    rw [base_succ, grown] at step
    exact Nat.le_trans step (Nat.min_le_left _ _)
  · intro held
    exact rises_of_first grows (Nat.le_min.mpr ⟨held, start⟩)

end Course

/-- The bases of an accepted configuration. They never pass the bound. They rise from the first
    delay on if that delay fits a product and either the multiplier is above one or the nearest
    double is not below it; else the first step goes down and none goes up again. -/
theorem rises_iff_of_accepted {config : Config} (accepted : config.violations = []) :
    let b := ofConfig config.backoff
    let first := Duration.ofMillis config.backoff.initialDelayMs
    b.base = first ∧
      (∀ calls, (b.afterCalls calls).base ≤ Duration.ofMillis config.backoff.maxDelayMs) ∧
      (config.backoff.multiplier.IsDouble →
        (b.Rises ↔ first ≤ scaleLimit ∧
          (lt one config.backoff.multiplier = true ∨
            first ≤ toNatWithin scaleLimit (ofNat first)))) ∧
      (config.backoff.initialDelayMs ≤ 576460752303 → b.Rises) ∧
      (¬ b.Rises → ∀ calls, (b.afterCalls (calls + 1)).base < first ∧
        (b.afterCalls (calls + 1)).base ≤ (b.afterCalls calls).base) := by
  have checked := Config.violations_eq_nil_iff.mp accepted
  intro b first
  have order : first ≤ Duration.ofMillis config.backoff.maxDelayMs :=
    Nat.mul_le_mul_right _ checked.delayOrder
  have base : b.base = first := rfl
  have bound : b.max = Duration.ofMillis config.backoff.maxDelayMs := if_pos order
  have multiplier : b.multiplier = config.backoff.multiplier :=
    clamp_multiplier_of_one_le checked.multiplier
  have grows : le one b.multiplier = true := le_one_clamp_multiplier config.backoff.multiplier
  have start : b.base ≤ b.max := by rw [base, bound]; exact order
  refine ⟨base, ?_, ?_, ?_, ?_⟩
  · intro calls
    rw [← bound]
    exact base_le_max start calls
  · intro double
    rw [rises_iff grows start, multiplier, base]
    exact le_scale_iff double checked.multiplier
  · intro small
    have fits : first ≤ scaleLimit := by
      have limit : scaleLimit = 18446744073709551615 := by decide
      simp only [first, Duration.ofMillis, Duration.nanosPerMilli, limit]
      omega
    rw [rises_iff grows start, base]
    exact le_scale_of_on_grid fits (on_grid_millis small) grows
  · intro falls calls
    have first : b.grown b.base < b.base := by
      rw [rises_iff grows start] at falls
      rw [grown]
      omega
    exact falls_of_first grows first calls

/-- The default settings but for delays that no product of nanoseconds can give. -/
def overlong : Config :=
  { Config.default with
    backoff :=
      { BackoffSection.default with
        initialDelayMs := 18446744073710
        maxDelayMs := 18446744073710 } }

theorem rises_iff_of_accepted_overlong : overlong.violations = [] ∧
    ¬ (ofConfig overlong.backoff).Rises ∧
    ((ofConfig overlong.backoff).afterCalls 1).base = 18446744073709551615 ∧
    ((ofConfig overlong.backoff).afterCalls 1).base <
      Duration.ofMillis overlong.backoff.initialDelayMs := by
  have accepted : overlong.violations = [] := by decide +kernel
  obtain ⟨_, _, rises_iff, _, falls⟩ := rises_iff_of_accepted accepted
  have large : ¬ Duration.ofMillis overlong.backoff.initialDelayMs ≤ scaleLimit := by decide
  have double : overlong.backoff.multiplier.IsDouble := by
    have two : overlong.backoff.multiplier = ofNat 2 := by
      simp only [overlong, BackoffSection.default]
    rw [two]
    exact is_double_of_nat 2
  have never : ¬ (ofConfig overlong.backoff).Rises := by
    intro rises
    exact large ((rises_iff double).mp rises).1
  exact ⟨accepted, never, by decide +kernel, (falls never 0).1⟩

end SnapshotEndpoint.Backoff
