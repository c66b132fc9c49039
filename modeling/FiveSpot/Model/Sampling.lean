import Mathlib.Algebra.Field.Periodic
import Mathlib.Order.Bounds.Basic

/-! # Samples of a step function

A function of the integers is looked at on a grid. If it changes on the grid only, the samples tell its
values in between; if it is periodic as well, those of one period tell all of them.
-/

namespace FiveSpot.Sampling

set_option autoImplicit false

/-- The last point of the grid up to `t`. -/
def gridFloor (step t : ℤ) : ℤ := t - t % step

/-- Between `start` and `stop` the function is what it was at the last grid point, or at `start`. -/
def SteadyOn {β : Type*} (f : ℤ → β) (step start stop : ℤ) : Prop :=
  ∀ u, start ≤ u → u < stop → f u = f (max start (gridFloor step u))

section

variable {β : Type*} {f : ℤ → β} {step start stop : ℤ}

theorem gridFloor_le (hstep : 0 < step) (t : ℤ) : gridFloor step t ≤ t := by
  have hnonneg := Int.emod_nonneg t (ne_of_gt hstep)
  rw [gridFloor]
  omega

theorem lt_gridFloor_add (hstep : 0 < step) (t : ℤ) : t < gridFloor step t + step := by
  have hlt := Int.emod_lt_of_pos t hstep
  rw [gridFloor]
  omega

theorem gridFloor_eq_mul (step t : ℤ) : gridFloor step t = step * (t / step) := by
  rw [gridFloor]
  have hdiv := Int.emod_add_mul_ediv t step
  omega

theorem gridFloor_emod (step t : ℤ) : gridFloor step t % step = 0 := by
  rw [gridFloor_eq_mul, Int.mul_emod_right]

theorem gridFloor_mono (hstep : 0 < step) {t u : ℤ} (h : t ≤ u) : gridFloor step t ≤ gridFloor step u := by
  rw [gridFloor_eq_mul, gridFloor_eq_mul]
  exact Int.mul_le_mul_of_nonneg_left (Int.ediv_le_ediv hstep h) (le_of_lt hstep)

/-- Grid points are apart by whole steps. -/
theorem exists_steps_of_grid {base t : ℤ} (hbase : base % step = 0) (ht : t % step = 0) (hle : base ≤ t)
    (hstep : 0 < step) : ∃ j : ℕ, t = base + j * step := by
  obtain ⟨m, rfl⟩ := Int.dvd_of_emod_eq_zero hbase
  obtain ⟨n, rfl⟩ := Int.dvd_of_emod_eq_zero ht
  have hmn : m ≤ n := le_of_mul_le_mul_left hle hstep
  refine ⟨(n - m).toNat, ?_⟩
  rw [Int.toNat_of_nonneg (Int.sub_nonneg_of_le hmn)]
  ring

theorem SteadyOn.eq_start (hf : SteadyOn f step start stop) (hstep : 0 < step)
    (hgrid : ∀ u, start ≤ u → u < stop → u % step = 0 → f u = f start) :
    ∀ u, start ≤ u → u < stop → f u = f start := by
  intro u hstart hstop
  rw [hf u hstart hstop]
  rcases le_total (gridFloor step u) start with hle | hle
  · rw [max_eq_left hle]
  · rw [max_eq_right hle]
    exact hgrid _ hle (lt_of_le_of_lt (gridFloor_le hstep u) hstop) (gridFloor_emod step u)

/-- The first sample that differs is the first instant that differs. -/
theorem SteadyOn.isLeast (hf : SteadyOn f step start stop) (hstep : 0 < step) (hstop : start < stop)
    (hgrid : ∀ u, start ≤ u → u < stop → u % step = 0 → f u = f start) (hflip : f stop ≠ f start) :
    IsLeast {u | start < u ∧ f u ≠ f start} stop := by
  refine ⟨⟨hstop, hflip⟩, ?_⟩
  rintro u ⟨hstart, hu⟩
  by_contra hlt
  exact hu (hf.eq_start hstep hgrid u (le_of_lt hstart) (lt_of_not_ge hlt))

/-- The samples of one period are all the values there are. -/
theorem eq_of_periodic {n : ℕ} {base : ℤ} {b : β} (hstep : 0 < step) (hn : 0 < n)
    (hf : Function.Periodic f (n * step)) (hsteady : ∀ u, f u = f (gridFloor step u)) (hbase : base % step = 0)
    (hgrid : ∀ j < n, f (base + j * step) = b) (u : ℤ) : f u = b := by
  have hperiod : 0 < (n : ℤ) * step := mul_pos (by exact_mod_cast hn) hstep
  obtain ⟨v, ⟨hlow, hhigh⟩, huv⟩ := hf.exists_mem_Ico hperiod u base
  have hfloor : base ≤ gridFloor step v := by
    have hmono := gridFloor_mono hstep hlow
    rwa [gridFloor, hbase, sub_zero] at hmono
  obtain ⟨j, hj⟩ := exists_steps_of_grid hbase (gridFloor_emod step v) hfloor hstep
  rw [huv, hsteady v, hj]
  apply hgrid
  have hle := gridFloor_le hstep v
  rw [hj] at hle
  have hlt : (j : ℤ) * step < n * step := by omega
  exact_mod_cast lt_of_mul_lt_mul_right hlt (le_of_lt hstep)

end

end FiveSpot.Sampling
