import SnapshotEndpoint.Proofs.Binary64.Rounding
import SnapshotEndpoint.Service.Backoff

/-!
Which delays a backoff can draw. A jitter up to 2^-54 leaves nothing to draw from; under any
other, and from a first delay of a millisecond on, no growth, bound or draw ever gives a
delay of zero.
-/
namespace SnapshotEndpoint
open Binary64

def Delay.Allows (factor : Binary64) : Delay → Prop
  | exact _ => True
  | drawn _ low high => le low factor = true ∧ lt factor high = true
  | emptyRange => False

namespace Backoff

/-- A jitter above zero that both sums with one round away: at most 2^-54. -/
def Vanishes (jitter : Binary64) : Prop :=
  lt zero jitter = true ∧ le jitter (finite false vanishing) = true

/-- A jitter as a backoff keeps it: minus zero, or a part of one that leaves some of it. -/
def Tame (jitter : Binary64) : Prop :=
  jitter = finite true 0 ∨
    ∃ v, jitter = finite false v ∧ v + 2 ^ 44 * vanishing ≤ unitsPerOne

/-- A backoff whose delays all last: nothing in it is below a millisecond, and no growth or
    jitter takes it down. -/
structure Waits (b : Backoff) : Prop where
  current : Duration.nanosPerMilli ≤ b.current
  first : Duration.nanosPerMilli ≤ b.min
  bound : Duration.nanosPerMilli ≤ b.max
  grows : le one b.multiplier = true
  jitter : Tame b.jitter

theorem allows_of_range {b : Backoff} {factor : Binary64}
    (range : lt (sub one b.jitter) (add one b.jitter) = true)
    (low : le (sub one b.jitter) factor = true) (high : lt factor (add one b.jitter) = true) :
    b.nextDelay.Allows factor := by
  simp only [nextDelay, range, if_true]
  split
  · trivial
  · exact ⟨low, high⟩

theorem jitter_limit_units : ∃ v, jitterLimit = finite false v ∧ vanishing < v ∧
    v + 2 ^ 44 * vanishing ≤ unitsPerOne :=
  ⟨17996384110972502 * vanishing, by decide +kernel, by decide +kernel, by decide +kernel⟩

/-- What clamping does to a jitter: nothing in range, and the nearest bound out of it. -/
theorem clamp_jitter_cases (jitter : Binary64) :
    (clampJitter jitter = jitter ∧ Tame jitter) ∨
      (clampJitter jitter = zero ∧ lt zero jitter = false) ∨
      (clampJitter jitter = jitterLimit ∧ lt jitterLimit jitter = true) := by
  obtain ⟨limit, eq, _, room⟩ := jitter_limit_units
  unfold clampJitter
  split
  · rename_i nan
    cases jitter <;> simp_all [isNan, lt, le, zero]
  · split
    · rename_i number negative
      cases jitter with
      | nan => simp [isNan] at number
      | infinite s => cases s <;> simp_all [lt, le, zero]
      | finite s v => simp_all [lt, le, zero]
    · split
      · rename_i large
        exact Or.inr (Or.inr ⟨rfl, large⟩)
      · rename_i number nonnegative inside
        refine Or.inl ⟨rfl, ?_⟩
        rw [eq] at inside
        cases jitter with
        | nan => simp [isNan] at number
        | infinite s => cases s <;> simp_all [lt, le, zero]
        | finite s v =>
          cases s with
          | true =>
            have none : v = 0 := by
              simp [lt, le, zero, signedUnits] at nonnegative
              omega
            exact Or.inl (by rw [none])
          | false =>
            rw [lt_finite_iff] at inside
            exact Or.inr ⟨v, rfl, by omega⟩

theorem clamp_jitter_tame (jitter : Binary64) : Tame (clampJitter jitter) := by
  obtain ⟨limit, eq, _, room⟩ := jitter_limit_units
  rcases clamp_jitter_cases jitter with ⟨same, tame⟩ | ⟨cut, _⟩ | ⟨cut, _⟩
  · rwa [same]
  · rw [cut]
    exact Or.inr ⟨0, rfl, by have := units_per_one_eq; omega⟩
  · rw [cut, eq]
    exact Or.inr ⟨limit, rfl, room⟩

theorem le_clamp_jitter_zero {jitter : Binary64} (plain : le jitter zero = true) :
    le (clampJitter jitter) zero = true := by
  obtain ⟨limit, eq, large, _⟩ := jitter_limit_units
  rcases clamp_jitter_cases jitter with ⟨same, _⟩ | ⟨cut, _⟩ | ⟨_, above⟩
  · rw [same]
    exact plain
  · rw [cut]
    exact le_finite_iff.mpr (Nat.le_refl 0)
  · rw [eq, lt, Bool.and_eq_true] at above
    rcases le_finite_cases (by omega) above.1 with rfl | ⟨v, rfl, reach⟩
    · simp [le, zero] at plain
    · have nothing := le_finite_iff.mp plain
      omega

theorem vanishes_iff (jitter : Binary64) :
    Vanishes jitter ↔ ∃ v, jitter = finite false v ∧ 0 < v ∧ v ≤ vanishing := by
  constructor
  · rintro ⟨above, below⟩
    cases jitter with
    | nan => simp [lt, le, zero] at above
    | infinite s => cases s <;> simp_all [lt, le, zero]
    | finite s v =>
      cases s with
      | true => simp [lt, le, zero, signedUnits] at above
      | false => exact ⟨v, rfl, lt_finite_iff.mp above, le_finite_iff.mp below⟩
  · rintro ⟨v, rfl, positive, small⟩
    exact ⟨lt_finite_iff.mpr positive, le_finite_iff.mpr small⟩

theorem not_vanishes {jitter : Binary64} (low : le jitter zero = true) : ¬ Vanishes jitter := by
  rw [vanishes_iff]
  rintro ⟨v, rfl, positive, _⟩
  have := le_finite_iff.mp low
  omega

theorem vanishes_clamp_jitter (jitter : Binary64) :
    Vanishes (clampJitter jitter) ↔ Vanishes jitter := by
  obtain ⟨limit, eq, large, _⟩ := jitter_limit_units
  rcases clamp_jitter_cases jitter with ⟨same, _⟩ | ⟨cut, below⟩ | ⟨cut, above⟩
  · rw [same]
  · have none : ¬ Vanishes zero := by simp [Vanishes, lt, le, zero]
    have low : ¬ Vanishes jitter := by simp [Vanishes, below]
    rw [cut]
    simp [none, low]
  · rw [cut, eq]
    have limitLarge : ¬ Vanishes (finite false limit) := by
      intro vanishes
      have := le_finite_iff.mp vanishes.2
      omega
    have jitterLarge : ¬ Vanishes jitter := by
      rw [vanishes_iff]
      rintro ⟨v, rfl, _, small⟩
      rw [eq, lt_finite_iff] at above
      omega
    simp [limitLarge, jitterLarge]

theorem le_one_clamp_multiplier (multiplier : Binary64) :
    le one (clampMultiplier multiplier) = true := by
  have self : le one one = true := le_finite_iff.mpr (Nat.le_refl _)
  unfold clampMultiplier
  split
  · exact self
  · rename_i number
    unfold Binary64.max
    split
    · exact self
    · rename_i above
      cases low : le one multiplier with
      | true => rfl
      | false =>
        have below := le_of_not_le (x := one) rfl (by simpa using number) low
        simp [lt, below, low] at above

/-- The ends of the range around one. The lower end keeps 2^-10, and there is something between
    them unless the jitter is none or rounded away. -/
theorem range_of_tame {jitter : Binary64} (tame : Tame jitter) :
    ∃ low high, sub one jitter = finite false low ∧ add one jitter = finite false high ∧
      2 ^ 44 * vanishing ≤ low ∧ (low < high ↔ le jitter zero = false ∧ ¬ Vanishes jitter) := by
  have units := units_per_one_eq
  have positive := vanishing_pos
  rcases tame with rfl | ⟨v, rfl, room⟩
  · refine ⟨unitsPerOne, unitsPerOne, by decide +kernel, by decide +kernel, by omega, ?_⟩
    simp [le, zero, signedUnits]
  · refine ⟨_, _, sub_one (by omega), add_one (by omega), ?_, ?_⟩
    · have grid : OnGrid (2 ^ 44 * vanishing) := by
        obtain ⟨k, power, _⟩ := vanishing_power
        rw [power]
        exact on_grid_mul_pow k (by decide)
      exact le_round_units (by decide) grid (by omega)
    · rw [Bool.eq_false_iff, Ne, zero, le_finite_iff, vanishes_iff]
      by_cases small : v ≤ vanishing
      · have met : roundUnits (unitsPerOne - v) 1 = roundUnits (unitsPerOne + v) 1 := by
          rcases Nat.eq_zero_or_pos v with rfl | some_
          · rw [Nat.sub_zero, Nat.add_zero]
          · rw [round_one_sub some_ (by omega), if_pos small, round_one_add small]
        rw [met]
        constructor
        · exact fun apart => absurd apart (Nat.lt_irrefl _)
        · rintro ⟨some_, keeps⟩
          exact absurd ⟨v, rfl, Nat.lt_of_not_le some_, small⟩ keeps
      · have below := round_one_sub_lt (u := v) (by omega) (by omega)
        have above : unitsPerOne ≤ roundUnits (unitsPerOne + v) 1 :=
          le_round_units (by decide) on_grid_units_per_one (by omega)
        refine ⟨fun _ => ⟨by omega, ?_⟩, fun _ => Nat.lt_of_lt_of_le below above⟩
        rintro ⟨w, same, _, smallToo⟩
        cases same
        exact small smallToo

theorem next_delay_of_plain {b : Backoff} (plain : le b.jitter zero = true ∨ b.base = 0) :
    b.nextDelay = .exact b.base := by
  rcases plain with none | nothing
  · simp only [nextDelay, none, Bool.true_or, ↓reduceIte, base]
  · rw [base] at nothing
    simp only [nextDelay, nothing, beq_self_eq_true, Bool.or_true, ↓reduceIte, base]

theorem next_delay_of_jitter {b : Backoff} (some_ : le b.jitter zero = false)
    (lasts : b.base ≠ 0) : b.nextDelay =
      if lt (sub one b.jitter) (add one b.jitter) = true then
        .drawn b.base (sub one b.jitter) (add one b.jitter)
      else .emptyRange := by
  have nonzero : (b.current == 0) = false := beq_eq_false_iff_ne.mpr lasts
  simp only [nextDelay, some_, nonzero, Bool.or_self, Bool.false_eq_true, ↓reduceIte, base]

theorem waits_new {min max : Nat} (jitter multiplier : Binary64)
    (initial : Duration.nanosPerMilli ≤ min) : (new min max jitter multiplier).Waits where
  current := initial
  first := initial
  bound := by simp only [new]; split <;> omega
  grows := le_one_clamp_multiplier multiplier
  jitter := clamp_jitter_tame jitter

/-- A delay is scaled down no further than the factor says, up to whole nanoseconds. -/
theorem le_scale {a n g k : Nat} {factor : Binary64} (positive : 0 < a) (wait : a ≤ n)
    (small : a < 2 ^ 53) (some_ : 0 < g) (factorAbove : le (finite false g) factor = true)
    (kept : 0 < k) (kSmall : k < 2 ^ 53) (product : k * unitsPerOne ≤ a * g) :
    k ≤ scale n factor := by
  have units := units_per_one_pos
  apply le_to_nat_within kept
  · have limit : 2 ^ 53 ≤ scaleLimit := by decide
    omega
  · refine le_mul (Nat.mul_pos positive units) some_ (on_grid_whole (Nat.le_of_lt kSmall)) ?_
      (le_of_nat (on_grid_whole (Nat.le_of_lt small)) (Nat.mul_le_mul_right _ wait)) factorAbove
    calc k * unitsPerOne * unitsPerOne ≤ a * g * unitsPerOne := Nat.mul_le_mul_right _ product
      _ = a * unitsPerOne * g := Nat.mul_right_comm a g unitsPerOne

theorem advance_current (b : Backoff) :
    b.advance.current = Min.min (scale b.current b.multiplier) b.max := rfl

@[simp] theorem advance_min (b : Backoff) : b.advance.min = b.min := by rw [advance]
@[simp] theorem advance_max (b : Backoff) : b.advance.max = b.max := by rw [advance]
@[simp] theorem advance_multiplier (b : Backoff) : b.advance.multiplier = b.multiplier := by
  rw [advance]
@[simp] theorem advance_jitter (b : Backoff) : b.advance.jitter = b.jitter := by rw [advance]

namespace Waits

variable {b : Backoff}

theorem advance (waits : b.Waits) : b.advance.Waits where
  current := by
    have grown : Duration.nanosPerMilli ≤ scale b.current b.multiplier :=
      le_scale (a := Duration.nanosPerMilli) (g := unitsPerOne) (by decide) waits.current
        (by decide) units_per_one_pos waits.grows (by decide) (by decide) (Nat.le_refl _)
    have both := Nat.le_min.mpr ⟨grown, waits.bound⟩
    rwa [← advance_current] at both
  first := by rw [advance_min]; exact waits.first
  bound := by rw [advance_max]; exact waits.bound
  grows := by rw [advance_multiplier]; exact waits.grows
  jitter := by rw [advance_jitter]; exact waits.jitter

theorem reset (waits : b.Waits) : b.reset.Waits where
  current := waits.first
  first := waits.first
  bound := waits.bound
  grows := waits.grows
  jitter := waits.jitter

/-- The next delay: the base alone without jitter; else the base under a factor of at least
    2^-10, where the jitter is not rounded away. -/
theorem next_delay_cases (waits : b.Waits) :
    (b.nextDelay = .exact b.current ∧ ¬ Vanishes b.jitter) ∨
      (b.nextDelay = .emptyRange ∧ Vanishes b.jitter) ∨
      (∃ low high, b.nextDelay = .drawn b.current (finite false low) high ∧
        2 ^ 44 * vanishing ≤ low ∧ ¬ Vanishes b.jitter) := by
  cases some_ : le b.jitter zero with
  | true => exact Or.inl ⟨next_delay_of_plain (Or.inl some_), not_vanishes some_⟩
  | false =>
    have lasts : b.current ≠ 0 := Nat.ne_of_gt (Nat.lt_of_lt_of_le (by decide) waits.current)
    have delay := next_delay_of_jitter some_ lasts
    obtain ⟨low, high, lower, upper, large, wide⟩ := range_of_tame waits.jitter
    have apart : lt (sub one b.jitter) (add one b.jitter) = true ↔ ¬ Vanishes b.jitter := by
      rw [lower, upper, lt_finite_iff, wide, and_iff_right some_]
    by_cases vanishes : Vanishes b.jitter
    · rw [if_neg (fun drawn => apart.mp drawn vanishes)] at delay
      exact Or.inr (Or.inl ⟨delay, vanishes⟩)
    · rw [if_pos (apart.mpr vanishes), lower] at delay
      exact Or.inr (Or.inr ⟨low, _, delay, large, vanishes⟩)

theorem next_delay_eq_empty_range_iff (waits : b.Waits) :
    b.nextDelay = .emptyRange ↔ Vanishes b.jitter := by
  rcases waits.next_delay_cases with ⟨delay, fine⟩ | ⟨delay, vanishes⟩ | ⟨_, _, delay, _, fine⟩
  · simp [delay, fine]
  · simp [delay, vanishes]
  · simp [delay, fine]

theorem delay_pos (waits : b.Waits) {factor : Binary64} (allowed : b.nextDelay.Allows factor) :
    ∃ delay, b.nextDelay.under factor = some delay ∧ 0 < delay := by
  have milli := waits.current
  rcases waits.next_delay_cases with ⟨delay, _⟩ | ⟨delay, _⟩ | ⟨low, high, delay, large, _⟩
  · refine ⟨b.current, by rw [delay]; rfl, ?_⟩
    simp only [Duration.nanosPerMilli] at milli
    omega
  · rw [delay] at allowed
    exact absurd allowed id
  · rw [delay] at allowed ⊢
    have units := units_per_one_eq
    have positive := vanishing_pos
    obtain ⟨lowAbove, _⟩ := allowed
    have lasts : 1 ≤ scale b.current factor :=
      le_scale (a := Duration.nanosPerMilli) (g := low) (by decide) milli (by decide) (by omega)
        lowAbove (by decide) (by decide) (by simp only [Duration.nanosPerMilli]; omega)
    exact ⟨_, rfl, lasts⟩

end Waits

def afterCalls (b : Backoff) : Nat → Backoff
  | 0 => b
  | calls + 1 => (b.afterCalls calls).advance

/-- What calls and resets, in any order, can make of a backoff. -/
inductive Reachable (first : Backoff) : Backoff → Prop where
  | start : Reachable first first
  | call {b : Backoff} (before : Reachable first b) : Reachable first b.advance
  | reset {b : Backoff} (before : Reachable first b) : Reachable first b.reset

theorem waits_after_calls {b : Backoff} (waits : b.Waits) (calls : Nat) :
    (b.afterCalls calls).Waits := by
  induction calls with
  | zero => exact waits
  | succ calls ih => exact ih.advance

theorem waits_reachable {first b : Backoff} (waits : first.Waits)
    (reach : Reachable first b) : b.Waits := by
  induction reach with
  | start => exact waits
  | call before ih => exact ih.advance
  | reset before ih => exact ih.reset

@[simp] theorem after_calls_jitter (b : Backoff) (calls : Nat) :
    (b.afterCalls calls).jitter = b.jitter := by
  induction calls with
  | zero => rfl
  | succ calls ih => rw [afterCalls, advance_jitter, ih]

/-- A factor of one can be drawn at any time under the default settings. -/
theorem default_allows_one (calls : Nat) :
    ((ofConfig BackoffSection.default).afterCalls calls).nextDelay.Allows one := by
  apply allows_of_range <;> rw [after_calls_jitter] <;> decide +kernel

end Backoff
end SnapshotEndpoint
