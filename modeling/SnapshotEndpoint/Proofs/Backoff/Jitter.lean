import SnapshotEndpoint.Proofs.Backoff.Growth
import SnapshotEndpoint.Proofs.Backoff.Histories

/-!
Where the delays of a backoff lie. A factor that can be drawn keeps a delay between the base under
the two ends of the range, whatever is rounded on the way, since each step keeps the order. Without
a jitter nothing is drawn or rounded: the delay is the base itself.
-/
namespace SnapshotEndpoint.Backoff
open Binary64

/-- How the next delay lies around the base. Nothing is drawn without a jitter or a base; under a
    factor of the range the delay lies between the base under its ends, and so below the bound
    under the upper one. -/
structure Spreads (b : Backoff) (jitter : Binary64) (bound : Nat) : Prop where
  exact : (∃ negative, jitter = finite negative 0) ∨ b.base = 0 → b.nextDelay = .exact b.base
  drawn : ∀ factor, le (sub one jitter) factor = true → lt factor (add one jitter) = true →
    ∃ delay, b.nextDelay.under factor = some delay ∧ scale b.base (sub one jitter) ≤ delay ∧
      delay ≤ scale b.base (add one jitter) ∧ delay ≤ scale bound (add one jitter)

theorem factor_of_range {low high : Nat} {factor : Binary64} (positive : 0 < low)
    (above : le (finite false low) factor = true) (below : lt factor (finite false high) = true) :
    ∃ units, factor = finite false units ∧ low ≤ units ∧ units < high := by
  rcases le_finite_cases positive above with rfl | ⟨units, rfl, reach⟩
  · simp [lt, le] at below
  · exact ⟨units, rfl, reach, lt_finite_iff.mp below⟩

theorem scale_finite_mono {n m units units' : Nat} (positive : 0 < units) (delays : n ≤ m)
    (factors : units ≤ units') : scale n (finite false units) ≤ scale m (finite false units') :=
  scale_mono positive (le_finite_iff.mpr (Nat.le_refl units)) delays (le_finite_iff.mpr factors)

theorem spreads_of_tame {b : Backoff} {bound : Nat} (tame : Tame b.jitter)
    (bounded : b.base ≤ bound) : b.Spreads b.jitter bound where
  exact := by
    rintro (⟨negative, none⟩ | nothing)
    · apply next_delay_of_plain
      rw [none]
      cases negative <;> exact Or.inl rfl
    · exact next_delay_of_plain (Or.inr nothing)
  drawn := by
    intro factor above below
    obtain ⟨low, high, lower, upper, large, apart⟩ := range_of_tame tame
    have positive : 0 < low := Nat.lt_of_lt_of_le (Nat.mul_pos (by decide) vanishing_pos) large
    rw [lower] at above ⊢
    rw [upper] at below ⊢
    obtain ⟨units, rfl, reach, short⟩ := factor_of_range positive above below
    have wide : low < high := Nat.lt_of_le_of_lt reach short
    have some_ : 0 < units := Nat.lt_of_lt_of_le positive reach
    have brief := scale_finite_mono positive (Nat.le_refl b.base) reach
    have long := scale_finite_mono some_ (Nat.le_refl b.base) (Nat.le_of_lt short)
    have longest := scale_finite_mono some_ bounded (Nat.le_of_lt short)
    by_cases nothing : b.base = 0
    · rw [next_delay_of_plain (Or.inr nothing)]
      rw [nothing, scale_zero, scale_zero]
      exact ⟨0, rfl, Nat.le_refl 0, Nat.le_refl 0, Nat.zero_le _⟩
    · rw [next_delay_of_jitter (apart.mp wide).1 nothing, lower, upper,
        if_pos (lt_finite_iff.mpr wide)]
      exact ⟨_, rfl, brief, long, longest⟩

/-- Whatever was called, reset and cloned, a factor drawn from the range around one moves the next
    delay no further from the base than the ends of the range do, and so never above the bound under
    the upper end. Without a jitter or from a base of zero the delay is the base. -/
theorem delays_spread (min max : Nat) (jitter multiplier : Binary64) (uses : List Use) :
    ∀ b ∈ (new min max jitter multiplier).history uses,
      b.Spreads (clampJitter jitter) (Max.max min max) := by
  intro b known
  obtain ⟨n, rfl⟩ := after_calls_of_mem_history (reset_new min max jitter multiplier) known
  have kept : ((new min max jitter multiplier).afterCalls n).jitter = clampJitter jitter := by
    rw [after_calls_jitter, new]
  have start : min ≤ (new min max jitter multiplier).max := by
    rw [new_max]
    exact Nat.le_max_left min max
  rw [← kept, ← new_max min max jitter multiplier]
  refine spreads_of_tame ?_ (base_le_max start n)
  rw [kept]
  exact clamp_jitter_tame jitter

/-- A clone that was called on its own, under a factor near the upper end. -/
theorem delays_spread_cloned :
    let first := new 100000000 1000000000 (ofDecimal false 2 (-1)) (ofNat 2)
    let factor := ofDecimal false 11 (-1)
    first.afterCalls 2 ∈ first.history [.call 0, .clone 0, .reset 0, .call 1] ∧
      (first.afterCalls 2).base = 400000000 ∧
      ∃ delay, (first.afterCalls 2).nextDelay.under factor = some delay ∧
        scale 400000000 (sub one (clampJitter (ofDecimal false 2 (-1)))) ≤ delay ∧
        delay ≤ scale 1000000000 (add one (clampJitter (ofDecimal false 2 (-1)))) := by
  intro first factor
  have known : first.afterCalls 2 ∈ first.history [.call 0, .clone 0, .reset 0, .call 1] := by
    rw [history_eq (reset_new _ _ _ _)]
    exact List.mem_map_of_mem (by decide)
  have base : (first.afterCalls 2).base = 400000000 := by decide +kernel
  obtain ⟨delay, drawn, low, _, high⟩ :=
    (delays_spread _ _ _ _ _ _ known).drawn factor (by decide +kernel) (by decide +kernel)
  rw [base] at low
  exact ⟨known, base, delay, drawn, low, high⟩

end SnapshotEndpoint.Backoff
