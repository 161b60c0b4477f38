import SnapshotEndpoint.Proofs.Backoff.Growth
import SnapshotEndpoint.Proofs.Backoff.Histories
import SnapshotEndpoint.Proofs.Binary64.Whole

/-!
The bases under a whole multiplier are its powers times the first delay, until the bound cuts them.
Below 2^53 no product is rounded, and one that reaches 2^53 stays there whatever becomes of it, so
a bound below 2^53 is met on the dot.
-/
namespace SnapshotEndpoint.Backoff
open Binary64

theorem scale_whole {n m : Nat} (small : n ≤ 2 ^ 53) (product : n * m ≤ 2 ^ 53) :
    scale n (whole m) = n * m := by
  have limit : 2 ^ 53 ≤ scaleLimit := by decide
  rw [scale, of_nat_eq_whole small, mul_whole product, to_nat_within_whole]
  exact Nat.min_eq_left (Nat.le_trans product limit)

/-- A product that leaves the exact range may be rounded, or overflow, or be cut to a word; it does
    not come back. -/
theorem le_scale_whole {n m : Nat} (small : n ≤ 2 ^ 53) (product : 2 ^ 53 ≤ n * m) :
    2 ^ 53 ≤ scale n (whole m) := by
  have units := units_per_one_pos
  have some_ : 0 < n * m := Nat.lt_of_lt_of_le (by decide) product
  rw [scale, of_nat_eq_whole small]
  apply le_to_nat_within (by decide) (by decide)
  refine le_mul (Nat.mul_pos (Nat.pos_of_mul_pos_right some_) units)
    (Nat.mul_pos (Nat.pos_of_mul_pos_left some_) units) (on_grid_whole (Nat.le_refl _)) ?_
    (le_finite_iff.mpr (Nat.le_refl _)) (le_finite_iff.mpr (Nat.le_refl _))
  calc 2 ^ 53 * unitsPerOne * unitsPerOne ≤ n * m * unitsPerOne * unitsPerOne :=
        Nat.mul_le_mul_right _ (Nat.mul_le_mul_right _ product)
    _ = n * unitsPerOne * (m * unitsPerOne) := by
        rw [← Nat.mul_assoc, Nat.mul_right_comm n]

/-- Below a bound that doubles hold exactly, a step is that of whole numbers. -/
theorem min_scale_whole {n m bound : Nat} (within : n ≤ bound) (small : bound < 2 ^ 53) :
    Min.min (scale n (whole m)) bound = Min.min (n * m) bound := by
  have exact : n ≤ 2 ^ 53 := by omega
  rcases Nat.le_total (n * m) (2 ^ 53) with product | product
  · rw [scale_whole exact product]
  · have large := le_scale_whole exact product
    omega

/-- A bound that cuts a number cuts its multiples. -/
theorem min_mul_min {n m bound : Nat} (grows : 1 ≤ m) :
    Min.min (Min.min n bound * m) bound = Min.min (n * m) bound := by
  by_cases inside : n ≤ bound
  · rw [Nat.min_eq_left inside]
  · have above : bound ≤ bound * m := Nat.le_mul_of_pos_right bound grows
    have more : bound * m ≤ n * m := Nat.mul_le_mul_right m (Nat.le_of_not_le inside)
    rw [Nat.min_eq_right (Nat.le_of_not_le inside), Nat.min_eq_right above,
      Nat.min_eq_right (Nat.le_trans above more)]

theorem base_after_calls {min max m : Nat} (minSmall : min < 2 ^ 53) (maxSmall : max < 2 ^ 53)
    (grows : 1 ≤ m) (jitter : Binary64) (k : Nat) :
    ((new min max jitter (whole m)).afterCalls k).base =
      Min.min (min * m ^ k) (Max.max min max) := by
  have above : le one (whole m) = true := by
    rw [one, whole, le_finite_iff]
    exact Nat.le_mul_of_pos_left unitsPerOne grows
  have multiplier : (new min max jitter (whole m)).multiplier = whole m := by
    rw [new_multiplier, clamp_multiplier_of_one_le above]
  have small : Max.max min max < 2 ^ 53 := Nat.max_lt.mpr ⟨minSmall, maxSmall⟩
  induction k with
  | zero =>
    rw [Nat.pow_zero, Nat.mul_one, Nat.min_eq_left (Nat.le_max_left min max)]
    rfl
  | succ k ih =>
    rw [base_succ, grown, multiplier, new_max, ih, min_scale_whole (Nat.min_le_right _ _) small,
      min_mul_min grows, Nat.pow_succ, Nat.mul_assoc]

/-- Whatever was called, reset and cloned, each base is the first delay times the multiplier to the
    power of the calls since the last reset, or the bound if that is less. -/
theorem bases_multiply {min max m : Nat} (minSmall : min < 2 ^ 53) (maxSmall : max < 2 ^ 53)
    (grows : 1 ≤ m) (jitter : Binary64) :
    (∀ k, ((new min max jitter (whole m)).afterCalls k).base =
      Min.min (min * m ^ k) (Max.max min max)) ∧
    ∀ uses, ((new min max jitter (whole m)).history uses).map base =
      (calls uses).map fun k => Min.min (min * m ^ k) (Max.max min max) := by
  have power := base_after_calls minSmall maxSmall grows jitter
  refine ⟨power, ?_⟩
  intro uses
  rw [history_eq (reset_new _ _ _ _), List.map_map]
  exact List.map_congr_left fun k _ => power k

/-- A multiplier that takes three nanoseconds past 2^64 in two calls. -/
theorem bases_multiply_leaping :
    (3 < 2 ^ 53 ∧ 2 ^ 53 - 1 < 2 ^ 53 ∧ 1 ≤ 2 ^ 40) ∧ ofNat (2 ^ 40) = whole (2 ^ 40) ∧
      ((new 3 (2 ^ 53 - 1) nan (ofNat (2 ^ 40))).history
        [.call 0, .clone 0, .call 0, .call 1, .reset 1, .clone 0, .reset 0, .call 0]).map base =
        [3 * 2 ^ 40, 3, 2 ^ 53 - 1] := by
  have exact : ofNat (2 ^ 40) = whole (2 ^ 40) := of_nat_eq_whole (by decide)
  refine ⟨by decide, exact, ?_⟩
  rw [exact]
  exact ((bases_multiply (by decide) (by decide) (by decide) nan).2 _).trans (by decide)

end SnapshotEndpoint.Backoff
