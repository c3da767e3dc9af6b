/-
  Clocks that show the local time of a zone.

  The offset of a zone changes at some instants.  Where it falls, local times are shown twice, where it rises
  some are left out.  A local time that does not say which of the two it is (`fold=0`) is read with the offset
  before the change, in both cases (`instant`).  The changes are so far apart that the local times around
  one of them all come before those around the next (`Spaced`).

  What a local time is read as is later than an instant `now` that shows less, exactly if the time has not been
  shown until then (`lt_instant_iff`).
-/
import Mathlib

namespace Lib

/-- The instants of the changes are that far apart; `before` is the offset before the first one. -/
def Spaced : (before : ℤ) → List (ℤ × ℤ) → Prop
  | _, [] => True
  | before, (i, after) :: rest =>
    (∀ c ∈ rest.head?, i + max before after < c.1 + min after c.2) ∧ Spaced after rest

/-- A zone: the offset before all changes, and the changes, each with its instant and the offset after it. -/
structure Zone where
  before : ℤ
  changes : List (ℤ × ℤ)
  spaced : Spaced before changes

/-- The offset at an instant. -/
def offsetAt (before : ℤ) : List (ℤ × ℤ) → ℤ → ℤ
  | [], _ => before
  | (i, after) :: rest, u => if u < i then before else offsetAt after rest u

/-- The offset with which a local time is read. -/
def foldOffset (before : ℤ) : List (ℤ × ℤ) → ℤ → ℤ
  | [], _ => before
  | (i, after) :: rest, t => if t < i + max before after then before else foldOffset after rest t

/-- What the clock shows at an instant. -/
def Zone.localTime (z : Zone) (u : ℤ) : ℤ := u + offsetAt z.before z.changes u

/-- The instant that a local time is read as. -/
def Zone.instant (z : Zone) (t : ℤ) : ℤ := t - foldOffset z.before z.changes t

variable {before i after t u now : ℤ} {rest changes : List (ℤ × ℤ)}

theorem le_local_of_le (h : Spaced before ((i, after) :: rest)) (hu : i ≤ u) : i + after ≤ u + offsetAt after rest u := by
  induction rest generalizing before i after with
  | nil =>
    rw [offsetAt]
    omega
  | cons c rest ih =>
    obtain ⟨j, next⟩ := c
    have hgap := h.1 _ rfl
    rw [offsetAt]
    split_ifs with hj
    · omega
    · have := ih h.2 (not_lt.1 hj)
      dsimp only at hgap
      omega

theorem le_instant_of_le (h : Spaced before ((i, after) :: rest)) (ht : i + max before after ≤ t) :
    i ≤ t - foldOffset after rest t := by
  induction rest generalizing before i after with
  | nil =>
    rw [foldOffset]
    omega
  | cons c rest ih =>
    obtain ⟨j, next⟩ := c
    have hgap := h.1 _ rfl
    dsimp only at hgap
    rw [foldOffset]
    split_ifs with hj
    · omega
    · have := ih h.2 (not_lt.1 hj)
      omega

theorem not_shown_before (h : Spaced before ((i, after) :: rest)) (ht : i + max before after ≤ t) (hu : u < i) :
    u + offsetAt after rest u ≠ t := by
  cases rest with
  | nil =>
    rw [offsetAt]
    omega
  | cons c rest =>
    have hgap := h.1 _ rfl
    rw [offsetAt, if_pos (by omega)]
    omega

theorem lt_sub_foldOffset_iff (h : Spaced before changes) (hnow : now + offsetAt before changes now < t) :
    now < t - foldOffset before changes t ↔ ∀ u ≤ now, u + offsetAt before changes u ≠ t := by
  induction changes generalizing before with
  | nil =>
    rw [offsetAt] at hnow
    simp only [foldOffset, offsetAt]
    exact ⟨fun _ u hu => by omega, fun _ => by omega⟩
  | cons c rest ih =>
    obtain ⟨i, after⟩ := c
    simp only [offsetAt, foldOffset] at hnow ⊢
    by_cases ht : t < i + max before after
    · rw [if_pos ht]
      by_cases hi : now < i
      · rw [if_pos hi] at hnow
        refine ⟨fun _ u hu => ?_, fun _ => by omega⟩
        rw [if_pos (by omega)]
        omega
      · -- the time is shown a second time: it is read as the first
        rw [if_neg hi] at hnow
        have hle := le_local_of_le h (not_lt.1 hi)
        refine ⟨fun _ => by omega, fun hall => absurd ?_ (hall (t - before) (by omega))⟩
        rw [if_pos (by omega)]
        omega
    · rw [if_neg ht]
      have hread := le_instant_of_le h (not_lt.1 ht)
      by_cases hi : now < i
      · rw [if_pos hi] at hnow
        refine ⟨fun _ u hu => ?_, fun _ => by omega⟩
        rw [if_pos (by omega)]
        omega
      · rw [if_neg hi] at hnow
        rw [ih h.2 hnow]
        refine forall₂_congr fun u _ => ?_
        split_ifs with hu
        · have := not_shown_before h (not_lt.1 ht) hu
          exact iff_of_true this (by omega)
        · rfl

/-- **The first instant of a local time** is yet to come exactly if the time has not been shown. -/
theorem Zone.lt_instant_iff (z : Zone) (h : z.localTime now < t) :
    now < z.instant t ↔ ∀ u ≤ now, z.localTime u ≠ t :=
  lt_sub_foldOffset_iff z.spaced h

end Lib
