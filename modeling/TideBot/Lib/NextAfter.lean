/-
  The next time after a time.

  `IsNext S now r`: `r` is the least time of `S` later than `now`, and nothing if there is none.  The times that
  come in equal steps are a grid, on both sides without end, or a series, which has a first time and
  perhaps a last one (`isNext_grid`, `isNext_series`).
-/
import Mathlib

namespace Lib

/-- The least element of `S` later than `now`, if there is one. -/
def IsNext {α : Type*} [LinearOrder α] (S : Set α) (now : α) : Option α → Prop
  | some t => IsLeast {u | u ∈ S ∧ now < u} t
  | none => ∀ u ∈ S, u ≤ now

section
variable {α : Type*} [LinearOrder α] {S : Set α} {now t : α} {r r' : Option α}

theorem IsNext.lt (h : IsNext S now (some t)) : now < t := h.1.2

theorem IsNext.unique (h : IsNext S now r) (h' : IsNext S now r') : r = r' := by
  match r, r', h, h' with
  | none, none, _, _ => rfl
  | some t, some t', h, h' => rw [IsLeast.unique h h']
  | some t, none, h, h' => exact absurd (h' t h.1.1) (not_le.2 h.1.2)
  | none, some t', h, h' => exact absurd (h t' h'.1.1) (not_le.2 h'.1.2)

end

/-- The first time later than `now` that is a whole number of steps from `start`. -/
def nextStep (start step now : ℤ) : ℤ := start + ((now - start) / step + 1) * step

/-- The times that are a whole number of steps from `start`, in some interval. -/
def Grid (start step : ℤ) (I : Set ℤ) : Set ℤ := {u | u ∈ I ∧ ∃ k : ℤ, u = start + k * step}

/-- The times that are a whole number of steps after `start`, fewer than `count`, up to `last`. -/
def Series (start step : ℤ) (count : Option ℤ) (last : ℤ) : Set ℤ :=
  {u | u ≤ last ∧ ∃ k : ℤ, 0 ≤ k ∧ (∀ c ∈ count, k < c) ∧ u = start + k * step}

/-- The next time of a series. -/
def nextInSeries (start step : ℤ) (count : Option ℤ) (last now : ℤ) : Option ℤ :=
  let k := max 0 ((now - start) / step + 1)
  if (∀ c ∈ count, k < c) ∧ start + k * step ≤ last then some (start + k * step) else none

variable {start step now last k : ℤ} {count : Option ℤ}

theorem lt_nextStep (start now : ℤ) (hstep : 0 < step) : now < nextStep start step now := by
  have := Int.lt_ediv_add_one_mul_self (now - start) hstep
  rw [nextStep]
  omega

theorem ediv_lt_of_lt (hstep : 0 < step) (h : now < start + k * step) : (now - start) / step < k :=
  Int.ediv_lt_of_lt_mul hstep (by omega)

theorem nextStep_le_of_lt (hstep : 0 < step) (h : now < start + k * step) :
    nextStep start step now ≤ start + k * step := by
  have hk := ediv_lt_of_lt hstep h
  rw [nextStep]
  have := Int.mul_le_mul_of_nonneg_right (show (now - start) / step + 1 ≤ k by omega) hstep.le
  omega

theorem isNext_grid (hstep : 0 < step) {first : ℤ} (hnow : first ≤ now) :
    IsNext (Grid start step (Set.Icc first last)) now
      (if nextStep start step now ≤ last then some (nextStep start step now) else none) := by
  have hlt := lt_nextStep start now hstep
  split_ifs with hlast
  · refine ⟨⟨⟨⟨by omega, hlast⟩, _, rfl⟩, hlt⟩, ?_⟩
    rintro u ⟨⟨-, k, rfl⟩, hu⟩
    exact nextStep_le_of_lt hstep hu
  · rintro u ⟨⟨-, hu⟩, k, rfl⟩
    by_contra hlater
    have := nextStep_le_of_lt hstep (not_le.1 hlater)
    omega

theorem isNext_series (hstep : 0 < step) :
    IsNext (Series start step count last) now (nextInSeries start step count last now) := by
  have hlt := lt_nextStep start now hstep
  -- the number of the next time
  have hfirst : ∀ k : ℤ, 0 ≤ k → now < start + k * step → max 0 ((now - start) / step + 1) ≤ k := by
    intro k hk h
    have := ediv_lt_of_lt hstep h
    omega
  have hle : ∀ k : ℤ, 0 ≤ k → now < start + k * step →
      start + max 0 ((now - start) / step + 1) * step ≤ start + k * step := by
    intro k hk h
    have := Int.mul_le_mul_of_nonneg_right (hfirst k hk h) hstep.le
    omega
  rw [nextInSeries]
  split_ifs with hin
  · refine ⟨⟨⟨hin.2, _, le_max_left _ _, hin.1, rfl⟩, ?_⟩, ?_⟩
    · have := Int.mul_le_mul_of_nonneg_right (le_max_right 0 ((now - start) / step + 1)) hstep.le
      rw [nextStep] at hlt
      omega
    · rintro u ⟨⟨-, k, hk, -, rfl⟩, hu⟩
      exact hle k hk hu
  · rintro u ⟨hu, k, hk, hcount, rfl⟩
    by_contra hlater
    rw [not_le] at hlater
    have hstart := hfirst k hk hlater
    have := hle k hk hlater
    exact hin ⟨fun c hc => lt_of_le_of_lt hstart (hcount c hc), by omega⟩

end Lib
