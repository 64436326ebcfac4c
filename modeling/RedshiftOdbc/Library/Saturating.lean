import Mathlib.Algebra.BigOperators.Intervals
import Mathlib.Algebra.Order.BigOperators.Group.Finset

/-!
# Counters that stop at zero

A counter that is raised and lowered but never goes below zero stands at the
largest sum of the steps of a final stretch.  It is up exactly when some final
stretch raises more than it lowers.
-/

namespace RedshiftOdbc.Saturating

def level (step : Nat → Int) : Nat → Int
  | 0 => 0
  | count + 1 => max 0 (level step count + step count)

variable (step : Nat → Int)

theorem level_nonneg (count : Nat) : 0 ≤ level step count := by
  cases count with
  | zero => exact le_refl 0
  | succ count => exact le_max_left _ _

/-- No final stretch sums to more than the level. -/
theorem sum_le_level {start count : Nat} (le : start ≤ count) :
    ∑ index ∈ Finset.Ico start count, step index ≤ level step count := by
  induction count with
  | zero =>
      have zero : start = 0 := by omega
      simp [zero, level]
  | succ count ih =>
      by_cases all : start = count + 1
      · rw [all, Finset.Ico_self, Finset.sum_empty]
        exact level_nonneg step _
      · have before : start ≤ count := by omega
        rw [Finset.sum_Ico_succ_top before, level]
        have bound := ih before
        omega

/-- Some final stretch sums to the level. -/
theorem exists_sum_eq_level (count : Nat) :
    ∃ start ≤ count, ∑ index ∈ Finset.Ico start count, step index = level step count := by
  induction count with
  | zero => exact ⟨0, le_refl 0, by simp [level]⟩
  | succ count ih =>
      obtain ⟨start, le, sum⟩ := ih
      by_cases up : 0 ≤ level step count + step count
      · refine ⟨start, by omega, ?_⟩
        rw [Finset.sum_Ico_succ_top le, sum, level]
        omega
      · refine ⟨count + 1, le_refl _, ?_⟩
        rw [Finset.Ico_self, Finset.sum_empty, level]
        omega

/-- The counter is up when a final stretch raises more than it lowers. -/
theorem level_pos {count : Nat} : 0 < level step count ↔
    ∃ start ≤ count, 0 < ∑ index ∈ Finset.Ico start count, step index := by
  constructor
  · intro up
    obtain ⟨start, le, sum⟩ := exists_sum_eq_level step count
    exact ⟨start, le, by omega⟩
  · rintro ⟨start, le, up⟩
    have bound := sum_le_level step le
    omega

end RedshiftOdbc.Saturating
