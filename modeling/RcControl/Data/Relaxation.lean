import Mathlib

namespace RcControl.Data

/-! A value that moves towards a target by a fraction of the distance.

A fraction of at most one keeps it between where it was and the target.  A larger one
overshoots, and what counts is how much room there is behind the target. -/

namespace Relaxation

variable {𝕜 : Type*} [Field 𝕜]

def step (value target factor : 𝕜) : 𝕜 := value + (target - value) * factor

theorem step_eq (value target factor : 𝕜) :
    step value target factor = target + (factor - 1) * (target - value) := by
  unfold step
  ring

@[simp] theorem step_self (value factor : 𝕜) : step value value factor = value := by
  rw [step, sub_self, zero_mul, add_zero]

variable [LinearOrder 𝕜]

/-- The step is a fraction, or it overshoots by no more than the room behind the target. -/
def StaysWithin (lower upper value target factor : 𝕜) : Prop :=
  factor ≤ 1 ∨
    (factor - 1) * (target - value) ≤ upper - target ∧
      (factor - 1) * (value - target) ≤ target - lower

variable [IsStrictOrderedRing 𝕜]

theorem step_mem_of_le_one {lower upper value target factor : 𝕜}
    (inside : value ∈ Set.Icc lower upper) (aimed : target ∈ Set.Icc lower upper)
    (nonneg : 0 ≤ factor) (fraction : factor ≤ 1) :
    step value target factor ∈ Set.Icc lower upper := by
  have between := (convex_Icc lower upper).lineMap_mem inside aimed ⟨nonneg, fraction⟩
  rwa [AffineMap.lineMap_apply_ring', mul_comm, add_comm] at between

theorem step_mem_iff {lower upper value target factor : 𝕜}
    (inside : value ∈ Set.Icc lower upper) (aimed : target ∈ Set.Icc lower upper)
    (nonneg : 0 ≤ factor) :
    StaysWithin lower upper value target factor ↔
      step value target factor ∈ Set.Icc lower upper := by
  apply Iff.intro
  · intro within
    rcases within with fraction | ⟨above, below⟩
    · exact step_mem_of_le_one inside aimed nonneg fraction
    · rw [step_eq]
      exact ⟨by linarith, by linarith⟩
  · intro stays
    rw [step_eq, Set.mem_Icc] at stays
    exact .inr ⟨by linarith [stays.2], by linarith [stays.1]⟩

/-- However a span is cut into steps, the distance shrinks at least as it would if the value
approached the target exponentially. -/
theorem distance_step_le {value target factor : ℝ} (fraction : factor ≤ 1) :
    |step value target factor - target| ≤ |value - target| * Real.exp (-factor) := by
  have moved : step value target factor - target = (value - target) * (1 - factor) := by
    rw [step_eq]
    ring
  rw [moved, abs_mul, abs_of_nonneg (sub_nonneg.mpr fraction)]
  exact mul_le_mul_of_nonneg_left (Real.one_sub_le_exp_neg factor) (abs_nonneg _)

end Relaxation

end RcControl.Data
