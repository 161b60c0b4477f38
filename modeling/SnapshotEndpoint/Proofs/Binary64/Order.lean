import SnapshotEndpoint.Proofs.Binary64.Rounding

/-!
Rounded arithmetic keeps the order. Rounding is monotone across binades as well as inside
one, so products of positive doubles and the cut to whole numbers are. What rounding gives
is a double again, and between one and the next double lies nothing.
-/
namespace SnapshotEndpoint.Binary64

theorem nearest_even_mono {n m d : Nat} (positive : 0 < d) (le : n ≤ m) :
    nearestEven n d ≤ nearestEven m d := by
  have quotients := Nat.div_le_div_right (c := d) le
  by_cases same : n / d = m / d
  · have partsN := Nat.div_add_mod n d
    have partsM := Nat.div_add_mod m d
    rw [same] at partsN
    simp only [nearestEven, same, gt_iff_lt, Bool.or_eq_true, decide_eq_true_eq,
      Bool.and_eq_true, beq_iff_eq]
    split <;> split <;> omega
  · have below : n ≤ m / d * d := by
      have reach := Nat.lt_mul_div_succ n positive
      have room := Nat.mul_le_mul_left d (show n / d + 1 ≤ m / d by omega)
      rw [Nat.mul_comm (m / d)]
      omega
    exact Nat.le_trans (nearest_even_le positive below)
      (le_nearest_even positive (Nat.div_mul_le_self m d))

theorem round_units_mono {n m d : Nat} (positive : 0 < d) (le : n ≤ m) :
    roundUnits n d ≤ roundUnits m d := by
  have quotients := Nat.div_le_div_right (c := d) le
  by_cases same : (n / d).log2 = (m / d).log2
  · have step : spacing (n / d) = spacing (m / d) := by rw [spacing, same, ← spacing]
    unfold roundUnits
    rw [step]
    exact Nat.mul_le_mul_right _
      (nearest_even_mono (Nat.mul_pos positive (spacing_pos _)) le)
  · -- The power of two that starts the higher binade lies between the two results.
    have lower : (n / d).log2 < (m / d).log2 := by have := log2_le_log2 quotients; omega
    have nonzero : m / d ≠ 0 := by intro zero; simp [zero] at lower
    have reached : n / d < 2 ^ (m / d).log2 :=
      Nat.lt_of_lt_of_le Nat.lt_log2_self (Nat.pow_le_pow_right (by decide) lower)
    have below : n ≤ 2 ^ (m / d).log2 * d :=
      Nat.le_of_lt ((Nat.div_lt_iff_lt_mul positive).mp reached)
    have above : 2 ^ (m / d).log2 * d ≤ m :=
      (Nat.le_div_iff_mul_le positive).mp (Nat.log2_self_le nonzero)
    exact Nat.le_trans (round_units_le positive (on_grid_pow _) below)
      (le_round_units positive (on_grid_pow _) above)

theorem on_grid_round_units {n d : Nat} (positive : 0 < d) : OnGrid (roundUnits n d) := by
  have small : nearestEven n (d * spacing (n / d)) ≤ 2 ^ 53 := by
    refine nearest_even_le (Nat.mul_pos positive (spacing_pos _)) ?_
    have reach : n / d < 2 ^ 53 * spacing (n / d) := by
      rw [spacing, Nat.pow_eq, ← Nat.pow_add]
      exact Nat.lt_of_lt_of_le Nat.lt_log2_self (Nat.pow_le_pow_right (by decide) (by omega))
    have whole := Nat.le_of_lt ((Nat.div_lt_iff_lt_mul positive).mp reach)
    rwa [Nat.mul_comm d, ← Nat.mul_assoc]
  unfold roundUnits
  dsimp only
  -- Rounding may carry to the power of two that starts the next binade.
  rcases Nat.lt_or_eq_of_le small with less | top
  · exact on_grid_mul_pow _ less
  · rw [top, spacing, Nat.pow_eq, ← Nat.pow_add]
    exact on_grid_pow _

theorem round_units_of_on_grid {n d : Nat} (positive : 0 < d) (grid : OnGrid n) :
    roundUnits (n * d) d = n :=
  Nat.le_antisymm (round_units_le positive grid (Nat.le_refl _))
    (le_round_units positive grid (Nat.le_refl _))

/-- What a double can hold: NaN, an infinity, or a count of units on the grid below the limit. -/
inductive IsDouble : Binary64 → Prop where
  | nan : IsDouble nan
  | infinite (negative : Bool) : IsDouble (infinite negative)
  | finite (negative : Bool) {units : Nat} (grid : OnGrid units) (small : units < unitsLimit) :
      IsDouble (finite negative units)

theorem is_double_of_quotient (negative : Bool) {n d : Nat} (positive : 0 < d) :
    (ofQuotient negative n d).IsDouble := by
  simp only [ofQuotient]
  split
  · rename_i small
    exact .finite negative (on_grid_round_units positive) small
  · exact .infinite negative

theorem is_double_of_nat (n : Nat) : (ofNat n).IsDouble :=
  is_double_of_quotient false Nat.one_pos

theorem of_quotient_mono {n m d : Nat} (positive : 0 < d) (le : n ≤ m) :
    Binary64.le (ofQuotient false n d) (ofQuotient false m d) = true := by
  have rounded := round_units_mono positive le
  simp only [ofQuotient]
  split
  · split
    · exact le_finite_iff.mpr rounded
    · rfl
  · rw [if_neg (by omega)]
    rfl

theorem of_nat_mono {n m : Nat} (le : n ≤ m) : Binary64.le (ofNat n) (ofNat m) = true :=
  of_quotient_mono (by decide) (Nat.mul_le_mul_right _ le)

theorem le_of_le_finite {u v : Nat} {x : Binary64} (less : u ≤ v)
    (le : Binary64.le (finite false v) x = true) : Binary64.le (finite false u) x = true := by
  by_cases zero : v = 0
  · rwa [show u = v by omega]
  · rcases le_finite_cases (by omega) le with rfl | ⟨w, rfl, above⟩
    · rfl
    · exact le_finite_iff.mpr (by omega)

theorem le_infinite {a : Nat} {x : Binary64} (le : Binary64.le (finite false a) x = true) :
    Binary64.le x (infinite false) = true := by
  cases x with
  | nan => simp [Binary64.le] at le
  | infinite s => cases s <;> rfl
  | finite s u => rfl

/-- What stands in order: an infinity at its end, or two counts of units. -/
theorem le_cases {x y : Binary64} (le : Binary64.le x y = true) :
    x = infinite true ∨ y = infinite false ∨
      ∃ s u t v, x = finite s u ∧ y = finite t v ∧ signedUnits s u ≤ signedUnits t v := by
  cases x with
  | nan => simp [Binary64.le] at le
  | infinite s =>
    cases s with
    | true => exact Or.inl rfl
    | false =>
      cases y with
      | nan => simp [Binary64.le] at le
      | infinite t =>
        cases t with
        | true => simp [Binary64.le] at le
        | false => exact Or.inr (Or.inl rfl)
      | finite t v => simp [Binary64.le] at le
  | finite s u =>
    cases y with
    | nan => simp [Binary64.le] at le
    | infinite t =>
      cases t with
      | true => simp [Binary64.le] at le
      | false => exact Or.inr (Or.inl rfl)
    | finite t v =>
      simp only [Binary64.le, decide_eq_true_eq] at le
      exact Or.inr (Or.inr ⟨s, u, t, v, rfl, rfl, le⟩)

theorem le_positive_cases {a : Nat} {x y : Binary64} (positive : 0 < a)
    (above : Binary64.le (finite false a) x = true) (le : Binary64.le x y = true) :
    y = infinite false ∨
      ∃ u v, x = finite false u ∧ y = finite false v ∧ 0 < u ∧ u ≤ v := by
  rcases le_finite_cases positive above with rfl | ⟨u, rfl, hu⟩
  · rcases le_cases le with bottom | top | ⟨_, _, _, _, counted, _⟩
    · cases bottom
    · exact Or.inl top
    · cases counted
  · rcases le_finite_cases (by omega) le with rfl | ⟨v, rfl, hv⟩
    · exact Or.inl rfl
    · exact Or.inr ⟨u, v, rfl, rfl, by omega, hv⟩

/-- Products of positive doubles keep the order in both factors. -/
theorem mul_mono {a b : Nat} {x y x' y' : Binary64} (ha : 0 < a) (hb : 0 < b)
    (hx : Binary64.le (finite false a) x = true) (hy : Binary64.le (finite false b) y = true)
    (left : Binary64.le x x' = true) (right : Binary64.le y y' = true) :
    Binary64.le (mul x y) (mul x' y') = true := by
  have number : Binary64.le (finite false 0) (mul x y) = true :=
    le_mul ha hb ⟨0, rfl⟩ (by simp) hx hy
  rcases le_positive_cases ha hx left with rfl | ⟨u, u', rfl, rfl, hu, leU⟩ <;>
    rcases le_positive_cases hb hy right with rfl | ⟨v, v', rfl, rfl, hv, leV⟩
  · exact le_infinite number
  · have top : mul (infinite false) (finite false v') = infinite false := by
      simp [mul, show v' ≠ 0 by omega]
    rw [top]
    exact le_infinite number
  · have top : mul (finite false u') (infinite false) = infinite false := by
      simp [mul, show u' ≠ 0 by omega]
    rw [top]
    exact le_infinite number
  · simp only [mul, Bool.xor_false]
    exact of_quotient_mono units_per_one_pos (Nat.mul_le_mul leU leV)

theorem mul_one {x : Binary64} (double : x.IsDouble) : mul x one = x := by
  cases double with
  | nan => rfl
  | infinite s =>
    have nonzero : unitsPerOne ≠ 0 := Nat.pos_iff_ne_zero.mp units_per_one_pos
    simp [mul, one, nonzero]
  | @finite s u grid small =>
    simp only [mul, one, Bool.xor_false, ofQuotient, round_units_of_on_grid units_per_one_pos grid]
    exact if_pos small

theorem to_nat_within_le (limit : Nat) (x : Binary64) : toNatWithin limit x ≤ limit := by
  cases x with
  | nan => exact Nat.zero_le _
  | infinite s => cases s <;> simp [toNatWithin]
  | finite s u =>
    simp only [toNatWithin]
    split
    · exact Nat.zero_le _
    · exact Nat.min_le_right _ _

theorem to_nat_within_zero (limit : Nat) (negative : Bool) :
    toNatWithin limit (finite negative 0) = 0 := by
  have half : (2 * 0 + unitsPerOne) / (2 * unitsPerOne) = 0 :=
    Nat.div_eq_of_lt (by have := units_per_one_pos; omega)
  simp only [toNatWithin, half, Nat.zero_min, ite_self]

theorem to_nat_within_mono {x y : Binary64} (limit : Nat) (le : Binary64.le x y = true) :
    toNatWithin limit x ≤ toNatWithin limit y := by
  rcases le_cases le with rfl | rfl | ⟨s, u, t, v, rfl, rfl, units⟩
  · exact Nat.zero_le _
  · exact to_nat_within_le limit x
  · cases s with
    | true => exact Nat.zero_le _
    | false =>
      cases t with
      | true =>
        -- Only zero lies between zero and minus zero.
        have none : u = 0 := by
          simp only [signedUnits, Bool.false_eq_true, ↓reduceIte] at units
          omega
        rw [none, to_nat_within_zero]
        exact Nat.zero_le _
      | false =>
        have units : u ≤ v := le_finite_iff.mp le
        have quotient : (2 * u + unitsPerOne) / (2 * unitsPerOne) ≤
            (2 * v + unitsPerOne) / (2 * unitsPerOne) := Nat.div_le_div_right (by omega)
        simp only [toNatWithin, Bool.false_eq_true, ↓reduceIte]
        omega

/-- A double above one is at least the next one, which is 2^-52 further. -/
theorem next_le_of_one_lt {x : Binary64} (double : x.IsDouble) (above : lt one x = true) :
    Binary64.le (finite false (unitsPerOne + 4 * vanishing)) x = true := by
  have reach : Binary64.le one x = true := by
    rw [lt, Bool.and_eq_true] at above
    exact above.1
  rcases le_finite_cases units_per_one_pos reach with rfl | ⟨v, rfl, _⟩
  · rfl
  · have strict : unitsPerOne < v := lt_finite_iff.mp above
    have one : unitsPerOne = 2 ^ 52 * (4 * vanishing) := by have := units_per_one_eq; omega
    have positive := vanishing_pos
    refine le_finite_iff.mpr ?_
    by_cases large : 2 * unitsPerOne ≤ v
    · omega
    · cases double with
      | finite _ grid _ =>
        rw [OnGrid, spacing_above_one (by omega) (by omega)] at grid
        obtain ⟨m, parts⟩ := grid
        rw [Nat.mul_comm] at one
        rw [one, parts] at strict
        rw [one, parts, ← Nat.mul_succ]
        exact Nat.mul_le_mul_left _ (Nat.lt_of_mul_lt_mul_left strict)

/-- A count lies between two doubles that are no further apart than 2^-52 of the lower. -/
theorem exists_neighbours {n : Nat} (large : 2 ^ 52 ≤ n) :
    ∃ low high, OnGrid low ∧ OnGrid high ∧ low ≤ n ∧ n < high ∧
      2 ^ 52 * high ≤ (2 ^ 52 + 1) * low := by
  have nonzero : n ≠ 0 := by omega
  have binade : 52 ≤ n.log2 := (Nat.le_log2 nonzero).mpr large
  obtain ⟨k, log⟩ := Nat.exists_eq_add_of_le binade
  have lower : 2 ^ 52 ≤ n / 2 ^ k := by
    rw [Nat.le_div_iff_mul_le (Nat.two_pow_pos k), ← Nat.pow_add, ← log]
    exact Nat.log2_self_le nonzero
  have upper : n / 2 ^ k < 2 ^ 53 := by
    rw [Nat.div_lt_iff_lt_mul (Nat.two_pow_pos k), ← Nat.pow_add,
      show 53 + k = n.log2 + 1 by omega]
    exact Nat.lt_log2_self
  have top : OnGrid ((n / 2 ^ k + 1) * 2 ^ k) := by
    by_cases inside : n / 2 ^ k + 1 < 2 ^ 53
    · exact on_grid_mul_pow k inside
    · rw [show n / 2 ^ k + 1 = 2 ^ 53 by omega, ← Nat.pow_add]
      exact on_grid_pow _
  refine ⟨n / 2 ^ k * 2 ^ k, (n / 2 ^ k + 1) * 2 ^ k, on_grid_mul_pow k upper, top,
    Nat.div_mul_le_self n _, ?_, ?_⟩
  · have reach := Nat.lt_mul_div_succ n (Nat.two_pow_pos k)
    rwa [Nat.mul_comm]
  · rw [← Nat.mul_assoc, ← Nat.mul_assoc]
    exact Nat.mul_le_mul_right _ (by omega)

/-- A factor above one makes up for what a whole number loses when it becomes a double. -/
theorem le_of_nat_mul {n : Nat} {x : Binary64} (positive : 0 < n) (double : x.IsDouble)
    (above : lt one x = true) :
    Binary64.le (finite false (n * unitsPerOne)) (mul (ofNat n) x) = true := by
  have units := units_per_one_pos
  have large : 2 ^ 52 ≤ n * unitsPerOne := by
    have coarse : 2 ^ 52 ≤ unitsPerOne := by decide +kernel
    exact Nat.le_trans coarse (Nat.le_mul_of_pos_left _ positive)
  obtain ⟨low, high, gridLow, gridHigh, below, reach, near⟩ := exists_neighbours large
  have lowest : 0 < low := by omega
  -- Even the double below is carried past the one above by the least factor above one.
  have product : high * unitsPerOne ≤ low * (unitsPerOne + 4 * vanishing) := by
    have one : unitsPerOne = 2 ^ 52 * (4 * vanishing) := by have := units_per_one_eq; omega
    calc high * unitsPerOne = 2 ^ 52 * high * (4 * vanishing) := by
          rw [one, ← Nat.mul_assoc, Nat.mul_comm high]
      _ ≤ (2 ^ 52 + 1) * low * (4 * vanishing) := Nat.mul_le_mul_right _ near
      _ = low * (unitsPerOne + 4 * vanishing) := by
          rw [one, Nat.mul_comm (2 ^ 52 + 1), Nat.mul_assoc, Nat.add_mul, Nat.one_mul]
  have grown := le_mul lowest (by omega) gridHigh product (le_of_nat gridLow below)
    (next_le_of_one_lt double above)
  exact le_of_le_finite (Nat.le_of_lt reach) grown

end SnapshotEndpoint.Binary64
