import Mathlib.Algebra.Group.Nat.Defs
import SnapshotEndpoint.Binary64

/-!
Rounding never passes a double: what lies at or above a double is rounded to one at or
above it, and likewise below. Around one the places are fine enough to say exactly which
amounts are rounded away.
-/
namespace SnapshotEndpoint.Binary64

theorem nearest_even_le {n d a : Nat} (positive : 0 < d) (above : n ≤ a * d) :
    nearestEven n d ≤ a := by
  have quotient : n / d ≤ a := Nat.div_le_of_le_mul (by rwa [Nat.mul_comm])
  have parts := Nat.div_add_mod n d
  unfold nearestEven
  dsimp only
  split
  · rename_i up
    have remainder : 0 < n % d := by
      simp only [gt_iff_lt, Bool.or_eq_true, decide_eq_true_eq, Bool.and_eq_true,
        beq_iff_eq] at up
      omega
    have strict : n / d ≠ a := by
      intro same
      rw [same, Nat.mul_comm] at parts
      omega
    omega
  · exact quotient

theorem le_nearest_even {n d a : Nat} (positive : 0 < d) (below : a * d ≤ n) :
    a ≤ nearestEven n d := by
  have quotient : a ≤ n / d := (Nat.le_div_iff_mul_le positive).mpr below
  unfold nearestEven
  dsimp only
  split <;> omega

theorem spacing_pos (count : Nat) : 0 < spacing count := Nat.pow_pos (by decide)

/-- A count of units that a double can have, if it is not too large. -/
def OnGrid (count : Nat) : Prop := spacing count ∣ count

theorem spacing_dvd_pow {count k : Nat} (low : count.log2 ≤ k) : spacing count ∣ 2 ^ k :=
  Nat.pow_dvd_pow 2 (by omega)

theorem log2_le_log2 {a b : Nat} (le : a ≤ b) : a.log2 ≤ b.log2 := by
  by_cases zero : a = 0
  · simp [zero]
  · exact (Nat.le_log2 (by omega)).mpr (Nat.le_trans (Nat.log2_self_le zero) le)

/-- From a double up to a larger one the coarser grid of the larger has a point. -/
theorem exists_multiple_below {c v : Nat} (grid : OnGrid v) (le : c ≤ v) :
    ∃ m, spacing c ∣ m ∧ m ≤ v ∧ (m = v ∨ c < m) := by
  by_cases same : c.log2 = v.log2
  · exact ⟨v, by simpa only [OnGrid, spacing, same] using grid, Nat.le_refl v, Or.inl rfl⟩
  · have lower : c.log2 + 1 ≤ v.log2 := by have := log2_le_log2 le; omega
    have nonzero : v ≠ 0 := by rintro rfl; simp at lower
    refine ⟨2 ^ (c.log2 + 1), spacing_dvd_pow (by omega), ?_, Or.inr Nat.lt_log2_self⟩
    exact Nat.le_trans (Nat.pow_le_pow_right (by decide) lower) (Nat.log2_self_le nonzero)

theorem exists_multiple_above {c v : Nat} (grid : OnGrid v) (le : v ≤ c) :
    ∃ m, spacing c ∣ m ∧ v ≤ m ∧ m ≤ c := by
  by_cases same : v.log2 = c.log2
  · exact ⟨v, by simpa only [OnGrid, spacing, same] using grid, Nat.le_refl v, le⟩
  · have lower : v.log2 + 1 ≤ c.log2 := by have := log2_le_log2 le; omega
    have nonzero : c ≠ 0 := by rintro rfl; simp at lower
    refine ⟨2 ^ c.log2, spacing_dvd_pow (Nat.le_refl _), ?_, Nat.log2_self_le nonzero⟩
    exact Nat.le_trans (Nat.le_of_lt Nat.lt_log2_self) (Nat.pow_le_pow_right (by decide) lower)

theorem round_units_le {n d v : Nat} (positive : 0 < d) (grid : OnGrid v)
    (above : n ≤ v * d) : roundUnits n d ≤ v := by
  have step := Nat.mul_pos positive (spacing_pos (n / d))
  have whole : n / d ≤ v := Nat.div_le_of_le_mul (by rwa [Nat.mul_comm])
  obtain ⟨m, ⟨a, rfl⟩, fits, covers⟩ := exists_multiple_below grid whole
  have bound : n ≤ a * (d * spacing (n / d)) := by
    have reached : n ≤ spacing (n / d) * a * d := by
      rcases covers with same | more
      · rwa [same]
      · exact Nat.le_of_lt ((Nat.div_lt_iff_lt_mul positive).mp more)
    rwa [Nat.mul_comm d, ← Nat.mul_assoc, Nat.mul_comm a]
  have rounded := Nat.mul_le_mul_right (spacing (n / d)) (nearest_even_le step bound)
  rw [Nat.mul_comm a] at rounded
  exact Nat.le_trans rounded fits

theorem le_round_units {n d v : Nat} (positive : 0 < d) (grid : OnGrid v)
    (below : v * d ≤ n) : v ≤ roundUnits n d := by
  have step := Nat.mul_pos positive (spacing_pos (n / d))
  have whole : v ≤ n / d := (Nat.le_div_iff_mul_le positive).mpr below
  obtain ⟨m, ⟨a, rfl⟩, covers, fits⟩ := exists_multiple_above grid whole
  have bound : a * (d * spacing (n / d)) ≤ n := by
    have reached := Nat.mul_le_of_le_div d _ n fits
    rwa [Nat.mul_comm d, ← Nat.mul_assoc, Nat.mul_comm a]
  have rounded := Nat.mul_le_mul_right (spacing (n / d)) (le_nearest_even step bound)
  rw [Nat.mul_comm a] at rounded
  exact Nat.le_trans covers rounded

theorem on_grid_mul_pow {m : Nat} (k : Nat) (mantissa : m < 2 ^ 53) : OnGrid (m * 2 ^ k) := by
  by_cases zero : m = 0
  · simp [zero, OnGrid]
  · have small : (m * 2 ^ k).log2 < 53 + k := by
      rw [Nat.log2_lt (Nat.mul_ne_zero zero (by simp)), Nat.pow_add]
      exact Nat.mul_lt_mul_of_pos_right mantissa (Nat.two_pow_pos k)
    exact Nat.dvd_trans (Nat.pow_dvd_pow 2 (by omega)) (Nat.dvd_mul_left (2 ^ k) m)

theorem on_grid_pow (k : Nat) : OnGrid (2 ^ k) := by
  have grid := on_grid_mul_pow (m := 1) k (by decide)
  rwa [Nat.one_mul] at grid

theorem nearest_even_of_parts {q d r : Nat} (small : r < d) :
    nearestEven (q * d + r) d =
      if d < 2 * r ∨ (2 * r = d ∧ q % 2 = 1) then q + 1 else q := by
  have quotient : (q * d + r) / d = q := by
    rw [Nat.mul_comm, Nat.mul_add_div (by omega), Nat.div_eq_of_lt small, Nat.add_zero]
  have remainder : (q * d + r) % d = r := by
    rw [Nat.mul_comm, Nat.mul_add_mod, Nat.mod_eq_of_lt small]
  simp only [nearestEven, quotient, remainder, gt_iff_lt, Bool.or_eq_true, decide_eq_true_eq,
    Bool.and_eq_true, beq_iff_eq]

theorem spacing_eq {n k : Nat} (low : 2 ^ (k + 52) ≤ n) (high : n < 2 ^ (k + 53)) :
    spacing n = 2 ^ k := by
  have nonzero : n ≠ 0 := by have := Nat.two_pow_pos (k + 52); omega
  have log : n.log2 = k + 52 := (Nat.log2_eq_iff nonzero).mpr ⟨low, high⟩
  rw [spacing, log, Nat.add_sub_cancel]
  rfl

/-- The largest amount, in units, that is rounded away when it is taken from one: 2^-54. -/
def vanishing : Nat := Nat.pow 2 1020

theorem vanishing_power : ∃ k, vanishing = 2 ^ k ∧ unitsPerOne = 2 ^ (k + 54) :=
  ⟨1020, by decide +kernel, by decide +kernel⟩

theorem vanishing_pos : 0 < vanishing := by
  obtain ⟨k, power, _⟩ := vanishing_power
  rw [power]
  exact Nat.two_pow_pos k

theorem units_per_one_eq : unitsPerOne = 2 ^ 54 * vanishing := by
  obtain ⟨k, power, one⟩ := vanishing_power
  rw [power, one, Nat.pow_add, Nat.mul_comm]

theorem units_per_one_pos : 0 < unitsPerOne := by
  have := units_per_one_eq
  have := vanishing_pos
  omega

/-- Whole numbers up to 2^53 are doubles. -/
theorem on_grid_whole {n : Nat} (small : n ≤ 2 ^ 53) : OnGrid (n * unitsPerOne) := by
  obtain ⟨k, _, one⟩ := vanishing_power
  rw [one]
  rcases Nat.lt_or_eq_of_le small with less | rfl
  · exact on_grid_mul_pow (k + 54) less
  · rw [← Nat.pow_add]
    exact on_grid_pow _

theorem on_grid_units_per_one : OnGrid unitsPerOne := by
  have grid := on_grid_whole (n := 1) (by decide)
  rwa [Nat.one_mul] at grid

theorem spacing_below_one {n : Nat} (low : 2 ^ 53 * vanishing ≤ n) (high : n < unitsPerOne) :
    spacing n = 2 * vanishing := by
  obtain ⟨k, power, one⟩ := vanishing_power
  rw [power] at low ⊢
  rw [one] at high
  rw [Nat.mul_comm, ← Nat.pow_succ]
  refine spacing_eq ?_ high
  rwa [← Nat.pow_add, Nat.add_comm] at low

theorem spacing_above_one {n : Nat} (low : unitsPerOne ≤ n) (high : n < 2 * unitsPerOne) :
    spacing n = 4 * vanishing := by
  obtain ⟨k, power, one⟩ := vanishing_power
  rw [one] at low high
  rw [Nat.mul_comm, ← Nat.pow_succ] at high
  rw [power, Nat.mul_comm, show 4 = 2 ^ 2 from rfl, ← Nat.pow_add]
  exact spacing_eq low high

theorem round_one_sub {u : Nat} (positive : 0 < u) (small : u ≤ 2 * vanishing) :
    roundUnits (unitsPerOne - u) 1 =
      if u ≤ vanishing then unitsPerOne else unitsPerOne - 2 * vanishing := by
  have one := units_per_one_eq
  have step : spacing ((unitsPerOne - u) / 1) = 2 * vanishing := by
    rw [Nat.div_one]
    exact spacing_below_one (by omega) (by omega)
  have parts : unitsPerOne - u = (2 ^ 53 - 1) * (2 * vanishing) + (2 * vanishing - u) := by omega
  have rounded := nearest_even_of_parts (q := 2 ^ 53 - 1) (d := 2 * vanishing)
    (r := 2 * vanishing - u) (by omega)
  unfold roundUnits
  rw [step]
  dsimp only
  rw [Nat.one_mul, parts, rounded]
  split <;> split <;> omega

theorem round_one_add {u : Nat} (small : u ≤ vanishing) :
    roundUnits (unitsPerOne + u) 1 = unitsPerOne := by
  have one := units_per_one_eq
  have positive := vanishing_pos
  have step : spacing ((unitsPerOne + u) / 1) = 4 * vanishing := by
    rw [Nat.div_one]
    exact spacing_above_one (by omega) (by omega)
  have parts : unitsPerOne + u = 2 ^ 52 * (4 * vanishing) + u := by omega
  have rounded := nearest_even_of_parts (q := 2 ^ 52) (d := 4 * vanishing) (r := u) (by omega)
  unfold roundUnits
  rw [step]
  dsimp only
  rw [Nat.one_mul, parts, rounded]
  split <;> omega

theorem round_one_sub_lt {u : Nat} (large : vanishing < u) (below : u ≤ unitsPerOne) :
    roundUnits (unitsPerOne - u) 1 < unitsPerOne := by
  have one := units_per_one_eq
  have positive := vanishing_pos
  by_cases small : u ≤ 2 * vanishing
  · rw [round_one_sub (by omega) small]
    split <;> omega
  · have grid : OnGrid ((2 ^ 53 - 1) * (2 * vanishing)) := by
      obtain ⟨k, power, _⟩ := vanishing_power
      rw [power, Nat.mul_comm 2, ← Nat.pow_succ]
      exact on_grid_mul_pow (k + 1) (by decide)
    have bound := round_units_le (n := unitsPerOne - u) (d := 1) (by decide) grid (by omega)
    omega

theorem le_of_not_le {x y : Binary64} (hx : x.isNan = false) (hy : y.isNan = false)
    (above : Binary64.le x y = false) : Binary64.le y x = true := by
  cases x with
  | nan => simp [isNan] at hx
  | infinite s =>
    cases y with
    | nan => simp [isNan] at hy
    | infinite t => cases s <;> cases t <;> simp_all [Binary64.le]
    | finite t v => cases s <;> simp_all [Binary64.le]
  | finite s u =>
    cases y with
    | nan => simp [isNan] at hy
    | infinite t => cases t <;> simp_all [Binary64.le]
    | finite t v =>
      simp only [Binary64.le, decide_eq_false_iff_not, decide_eq_true_eq] at above ⊢
      omega

/-- At or above a positive double lie only larger ones and infinity. -/
theorem le_finite_cases {u : Nat} {x : Binary64} (positive : 0 < u)
    (le : Binary64.le (finite false u) x = true) :
    x = infinite false ∨ ∃ v, x = finite false v ∧ u ≤ v := by
  cases x with
  | nan => simp [Binary64.le] at le
  | infinite negative => cases negative <;> simp_all [Binary64.le]
  | finite negative v =>
    cases negative with
    | true =>
      simp only [Binary64.le, signedUnits, decide_eq_true_eq] at le
      simp only [Bool.false_eq_true, ↓reduceIte] at le
      omega
    | false =>
      simp only [Binary64.le, signedUnits, Bool.false_eq_true, ↓reduceIte, decide_eq_true_eq,
        Int.ofNat_le] at le
      exact Or.inr ⟨v, rfl, le⟩

theorem le_finite_iff {u v : Nat} : Binary64.le (finite false u) (finite false v) = true ↔ u ≤ v := by
  simp [Binary64.le, signedUnits]

theorem lt_finite_iff {u v : Nat} : lt (finite false u) (finite false v) = true ↔ u < v := by
  simp [lt, Binary64.le, signedUnits]
  omega

theorem le_of_quotient {w n d : Nat} (le : w ≤ roundUnits n d) :
    Binary64.le (finite false w) (ofQuotient false n d) = true := by
  simp only [ofQuotient]
  split
  · exact le_finite_iff.mpr le
  · simp [Binary64.le]

theorem le_of_nat {w n : Nat} (grid : OnGrid w) (le : w ≤ n * unitsPerOne) :
    Binary64.le (finite false w) (ofNat n) = true :=
  le_of_quotient (le_round_units (by decide) grid (by omega))

theorem le_mul {u v w : Nat} {x y : Binary64} (hu : 0 < u) (hv : 0 < v) (grid : OnGrid w)
    (product : w * unitsPerOne ≤ u * v) (hx : Binary64.le (finite false u) x = true)
    (hy : Binary64.le (finite false v) y = true) :
    Binary64.le (finite false w) (mul x y) = true := by
  rcases le_finite_cases hu hx with rfl | ⟨a, rfl, ha⟩ <;>
    rcases le_finite_cases hv hy with rfl | ⟨b, rfl, hb⟩
  · simp [mul, Binary64.le]
  · simp [mul, Binary64.le, show b ≠ 0 by omega]
  · simp [mul, Binary64.le, show a ≠ 0 by omega]
  · have rounded := le_round_units units_per_one_pos grid
      (Nat.le_trans product (Nat.mul_le_mul ha hb))
    simp only [mul, Bool.xor_false]
    exact le_of_quotient rounded

theorem le_to_nat_within {n limit : Nat} {x : Binary64} (positive : 0 < n) (fits : n ≤ limit)
    (le : Binary64.le (finite false (n * unitsPerOne)) x = true) :
    n ≤ toNatWithin limit x := by
  have one := units_per_one_pos
  rcases le_finite_cases (Nat.mul_pos positive one) le with rfl | ⟨v, rfl, hv⟩
  · simpa [toNatWithin] using fits
  · have half : n ≤ (2 * v + unitsPerOne) / (2 * unitsPerOne) := by
      rw [Nat.le_div_iff_mul_le (by omega)]
      have twice : n * (2 * unitsPerOne) = 2 * (n * unitsPerOne) := Nat.mul_left_comm n 2 _
      omega
    simp only [toNatWithin, Bool.false_eq_true, ↓reduceIte]
    exact Nat.le_min.mpr ⟨half, fits⟩

theorem on_grid_two_units : OnGrid (2 * unitsPerOne) := on_grid_whole (by decide)

theorem two_units_lt_limit : 2 * unitsPerOne < unitsLimit := by decide +kernel

/-- A sum of at most two does not overflow. -/
theorem of_quotient_of_le_two {n : Nat} (small : n ≤ 2 * unitsPerOne) :
    ofQuotient false n 1 = finite false (roundUnits n 1) := by
  have rounded := round_units_le (n := n) (d := 1) (by decide) on_grid_two_units (by omega)
  rw [ofQuotient]
  rw [if_pos (Nat.lt_of_le_of_lt rounded two_units_lt_limit)]

theorem sub_one {u : Nat} (small : u < unitsPerOne) :
    sub one (finite false u) = finite false (roundUnits (unitsPerOne - u) 1) := by
  have sum : signedUnits false unitsPerOne + signedUnits true u =
      ((unitsPerOne - u : Nat) : Int) := by
    simp only [signedUnits, Bool.false_eq_true, ↓reduceIte]
    omega
  rw [sub, neg, one, Bool.not_false, add, sum]
  rw [if_neg (by omega), Int.natAbs_natCast, decide_eq_false (by omega)]
  exact of_quotient_of_le_two (by omega)

theorem add_one {u : Nat} (small : u ≤ unitsPerOne) :
    add one (finite false u) = finite false (roundUnits (unitsPerOne + u) 1) := by
  have positive := units_per_one_pos
  have sum : signedUnits false unitsPerOne + signedUnits false u =
      ((unitsPerOne + u : Nat) : Int) := by
    simp only [signedUnits, Bool.false_eq_true, ↓reduceIte]
    omega
  rw [one, add, sum]
  rw [if_neg (by omega), Int.natAbs_natCast, decide_eq_false (by omega)]
  exact of_quotient_of_le_two (by omega)

end SnapshotEndpoint.Binary64
