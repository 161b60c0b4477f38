import SnapshotEndpoint.Proofs.Binary64.Order

/-!
Whole numbers among the doubles. Up to 2^53 each is one, and products that stay there are exact.
-/
namespace SnapshotEndpoint.Binary64

/-- A whole number as it is. It is a double if it lies on the grid of its size, below the limit. -/
def whole (n : Nat) : Binary64 := finite false (n * unitsPerOne)

theorem whole_lt_limit {n : Nat} (small : n ≤ 2 ^ 53) : n * unitsPerOne < unitsLimit := by
  have room : 2 ^ 53 * unitsPerOne < unitsLimit := by decide +kernel
  exact Nat.lt_of_le_of_lt (Nat.mul_le_mul_right unitsPerOne small) room

theorem of_quotient_whole {n d : Nat} (positive : 0 < d) (small : n ≤ 2 ^ 53) :
    ofQuotient false (n * unitsPerOne * d) d = whole n := by
  rw [ofQuotient, round_units_of_on_grid positive (on_grid_whole small)]
  exact if_pos (whole_lt_limit small)

theorem of_nat_eq_whole {n : Nat} (small : n ≤ 2 ^ 53) : ofNat n = whole n := by
  have rounded := of_quotient_whole (d := 1) (by decide) small
  rwa [Nat.mul_one] at rounded

theorem mul_whole {n m : Nat} (small : n * m ≤ 2 ^ 53) :
    mul (whole n) (whole m) = whole (n * m) := by
  have product : n * unitsPerOne * (m * unitsPerOne) = n * m * unitsPerOne * unitsPerOne := by
    rw [← Nat.mul_assoc, Nat.mul_right_comm n]
  rw [whole, whole, mul, product]
  exact of_quotient_whole units_per_one_pos small

theorem to_nat_within_whole (limit n : Nat) : toNatWithin limit (whole n) = min n limit := by
  have units := units_per_one_pos
  have rounded : (2 * (n * unitsPerOne) + unitsPerOne) / (2 * unitsPerOne) = n := by
    rw [Nat.mul_left_comm, Nat.mul_comm n, Nat.mul_add_div (by omega),
      Nat.div_eq_of_lt (by omega), Nat.add_zero]
  rw [whole, toNatWithin, rounded]
  rfl

end SnapshotEndpoint.Binary64
