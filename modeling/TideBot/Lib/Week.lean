/-
  Times of the week.

  A pattern asks for some days of the week, for an hour and for a minute, each or none.  Which steps in time
  lead from every time of a pattern to another one is decided by the step alone (`matches_add_iff`):
  it must be whole hours if there is a minute, whole days if there is an hour, and whole weeks
  if there are days, unless these are all seven.

  Times are in minutes since the epoch, which is a Thursday; the days are counted from Monday.
-/
import Mathlib

namespace Lib

/-- The day of the week of a time. -/
def weekday (m : ℤ) : ZMod 7 := ((m / 1440 : ℤ) : ZMod 7) + 3

/-- Days, an hour and a minute, each if it is given. -/
structure WeekPattern where
  days : Option (Finset (ZMod 7))
  hour : Option (Fin 24)
  minute : Option (Fin 60)
  nonempty : ∀ D ∈ days, D.Nonempty

namespace WeekPattern

/-- A time of the pattern. -/
structure Matches (p : WeekPattern) (m : ℤ) : Prop where
  day : ∀ D ∈ p.days, weekday m ∈ D
  hour : ∀ h ∈ p.hour, m / 60 % 24 = h
  minute : ∀ k ∈ p.minute, m % 60 = k

/-- A step that keeps what the pattern asks for. -/
structure Fits (p : WeekPattern) (n : ℤ) : Prop where
  day : ∀ D ∈ p.days, D ≠ Finset.univ → 10080 ∣ n
  hour : p.hour.isSome → 1440 ∣ n
  minute : p.minute.isSome → 60 ∣ n

variable {p : WeekPattern} {m n q : ℤ} {d : ZMod 7}

theorem weekday_add_of_dvd (h : 10080 ∣ n) (m : ℤ) : weekday (m + n) = weekday m := by
  obtain ⟨i, rfl⟩ := h
  have hdiv : (m + 10080 * i) / 1440 = m / 1440 + 7 * i := by omega
  have hseven : (7 : ZMod 7) = 0 := by decide
  rw [weekday, hdiv]
  push_cast
  rw [hseven, zero_mul, add_zero, weekday]

/-- **A step that fits keeps the pattern.** -/
theorem Matches.add (h : p.Matches m) (hn : p.Fits n) : p.Matches (m + n) where
  day D hD := by
    by_cases hall : D = Finset.univ
    · exact hall ▸ Finset.mem_univ _
    · rw [weekday_add_of_dvd (hn.day D hD hall)]
      exact h.day D hD
  hour i hi := by
    have hm := h.hour i hi
    obtain ⟨j, rfl⟩ := hn.hour (Option.isSome_iff_exists.2 ⟨i, hi⟩)
    omega
  minute i hi := by
    have hm := h.minute i hi
    obtain ⟨j, rfl⟩ := hn.minute (Option.isSome_iff_exists.2 ⟨i, hi⟩)
    omega

/-! ## Steps that do not fit -/

/-- Days that a step leads from one to another are all, or the step is whole weeks. -/
theorem eq_zero_of_closed {D : Finset (ZMod 7)} {s : ZMod 7} (hne : D.Nonempty) (hall : D ≠ Finset.univ)
    (hclosed : ∀ d ∈ D, d + s ∈ D) : s = 0 := by
  by_contra hs
  have : Fact (Nat.Prime 7) := ⟨by norm_num⟩
  obtain ⟨d, hd⟩ := hne
  have hmul : ∀ i : ℕ, d + i * s ∈ D := by
    intro i
    induction i with
    | zero => simpa using hd
    | succ i ih =>
      have := hclosed _ ih
      push_cast
      rwa [add_mul, one_mul, ← add_assoc]
  refine hall (Finset.eq_univ_of_forall ?_)
  intro x
  have hx := hmul ((x - d) / s).val
  rwa [ZMod.natCast_zmod_val, div_mul_cancel₀ _ hs, add_sub_cancel] at hx

/-- The time of a day, an hour and a minute. -/
def time (d : ZMod 7) (h k : ℤ) : ℤ := 1440 * ((d - 3).val : ℤ) + 60 * h + k

theorem matches_time {h k : ℤ} (hd : ∀ D ∈ p.days, d ∈ D) (hh : 0 ≤ h ∧ h < 24) (hk : 0 ≤ k ∧ k < 60)
    (hhour : ∀ i ∈ p.hour, h = i) (hminute : ∀ i ∈ p.minute, k = i) : p.Matches (time d h k) where
  day D hD := by
    have hdiv : time d h k / 1440 = ((d - 3).val : ℤ) := by
      unfold time
      omega
    rw [weekday, hdiv, Int.cast_natCast, ZMod.natCast_zmod_val, sub_add_cancel]
    exact hd D hD
  hour i hi := by
    rw [← hhour i hi]
    unfold time
    omega
  minute i hi := by
    rw [← hminute i hi]
    unfold time
    omega

theorem weekday_time_add {h k : ℤ} (hq : (60 * h + k + n) / 1440 = q) : weekday (time d h k + n) = d + q := by
  have hdiv : (time d h k + n) / 1440 = ((d - 3).val : ℤ) + q := by
    unfold time
    omega
  rw [weekday, hdiv]
  push_cast
  rw [ZMod.natCast_zmod_val]
  ring

theorem exists_day (p : WeekPattern) : ∃ d : ZMod 7, ∀ D ∈ p.days, d ∈ D := by
  cases hp : p.days with
  | none => exact ⟨0, by simp⟩
  | some D =>
    obtain ⟨d, hd⟩ := p.nonempty D hp
    exact ⟨d, by simpa using hd⟩

section

variable (hkeep : ∀ m, p.Matches m → p.Matches (m + n))
include hkeep

theorem dvd_of_minute (hp : p.minute.isSome) : 60 ∣ n := by
  obtain ⟨k, hk⟩ := Option.isSome_iff_exists.1 hp
  obtain ⟨d, hd⟩ := p.exists_day
  have hbound := k.isLt
  have hm : p.Matches (time d ((p.hour.getD 0 : Fin 24) : ℤ) k) := by
    refine matches_time hd ⟨by omega, by omega⟩ ⟨by omega, by omega⟩ ?_ ?_
    · intro i hi
      rw [hi, Option.getD_some]
    · intro i hi
      rw [hk] at hi
      rw [Option.some.inj hi]
  have hstep := (hkeep _ hm).minute k hk
  unfold time at hstep
  omega

theorem dvd_of_hour (hp : p.hour.isSome) : 1440 ∣ n := by
  obtain ⟨h, hh⟩ := Option.isSome_iff_exists.1 hp
  obtain ⟨d, hd⟩ := p.exists_day
  have hbound := h.isLt
  have hour : ∀ k : ℤ, 0 ≤ k → k < 60 → (∀ i ∈ p.minute, k = i) → (time d h k + n) / 60 % 24 = h := by
    intro k hk hlt hminute
    refine (hkeep _ (matches_time hd ⟨by omega, by omega⟩ ⟨hk, hlt⟩ ?_ hminute)).hour h hh
    intro i hi
    rw [hh] at hi
    rw [Option.some.inj hi]
  cases hm : p.minute with
  | none =>
    -- the first and the last minute of the hour stay in the hour
    have hfirst := hour 0 (by omega) (by omega) (by simp [hm])
    have hlast := hour 59 (by omega) (by omega) (by simp [hm])
    unfold time at hfirst hlast
    omega
  | some k =>
    have hdvd := dvd_of_minute hkeep (by simp [hm])
    have hlt := k.isLt
    have hstep := hour k (by omega) (by omega) (by simp [hm])
    unfold time at hstep
    omega

theorem dvd_of_days {D : Finset (ZMod 7)} (hD : D ∈ p.days) (hall : D ≠ Finset.univ) : 10080 ∣ n := by
  have hweek : ∀ {h k q : ℤ}, 0 ≤ h ∧ h < 24 → 0 ≤ k ∧ k < 60 → (∀ i ∈ p.hour, h = i) → (∀ i ∈ p.minute, k = i) →
      (60 * h + k + n) / 1440 = q → (q : ZMod 7) = 0 := by
    intro h k q hh hk hhour hminute hq
    refine eq_zero_of_closed (p.nonempty D hD) hall ?_
    intro d hd
    have hday : ∀ D' ∈ p.days, d ∈ D' := by
      intro D' hD'
      rw [Option.mem_unique hD' hD]
      exact hd
    have hstep := (hkeep _ (matches_time hday hh hk hhour hminute)).day D hD
    rwa [weekday_time_add hq] at hstep
  have hdvd : ∀ {q : ℤ}, (q : ZMod 7) = 0 → 7 ∣ q := by
    intro q hq
    exact_mod_cast (ZMod.intCast_zmod_eq_zero_iff_dvd q 7).1 hq
  have hminute : ∀ {k : Fin 60}, p.minute = some k → 60 ∣ n := fun hk => dvd_of_minute hkeep (by simp [hk])
  obtain ⟨K, hK⟩ : ∃ K : ℤ, K = ((p.minute.getD 0 : Fin 60) : ℤ) := ⟨_, rfl⟩
  have hKrange : 0 ≤ K ∧ K < 60 := by
    have := (p.minute.getD 0).isLt
    omega
  have hKmem : ∀ i ∈ p.minute, K = i := by
    intro i hi
    rw [hK, hi, Option.getD_some]
  cases hh : p.hour with
  | some h =>
    obtain ⟨i, rfl⟩ := dvd_of_hour hkeep (by simp [hh])
    have hlt := h.isLt
    have hq := hdvd (hweek (h := h) (q := i) ⟨by omega, by omega⟩ hKrange (by simp [hh]) hKmem (by omega))
    omega
  | none =>
    -- from an early time of the day to the same number of days on, from a late one to a day more
    have hearly : K + n % 1440 < 1440 := by
      cases hm : p.minute with
      | none =>
        rw [hm] at hK
        simp only [Option.getD_none, Fin.val_zero, Nat.cast_zero] at hK
        omega
      | some k =>
        have := hminute hm
        omega
    have hq := hdvd (hweek (h := 0) (q := n / 1440) ⟨by omega, by omega⟩ hKrange (by simp [hh]) hKmem (by omega))
    by_cases hr : n % 1440 = 0
    · omega
    · exfalso
      obtain ⟨k, hkrange, hkmem, hlate⟩ : ∃ k : ℤ, (0 ≤ k ∧ k < 60) ∧ (∀ i ∈ p.minute, k = i) ∧
          1440 ≤ 60 * 23 + k + n % 1440 := by
        cases hm : p.minute with
        | none => exact ⟨59, ⟨by omega, by omega⟩, by simp, by omega⟩
        | some k =>
          have := hminute hm
          exact ⟨K, hKrange, hm ▸ hKmem, by omega⟩
      have hq' := hdvd (hweek (h := 23) (q := n / 1440 + 1) ⟨by omega, by omega⟩ hkrange (by simp [hh]) hkmem (by omega))
      omega

end

/-- **The steps that keep a pattern.** -/
theorem matches_add_iff : (∀ m, p.Matches m → p.Matches (m + n)) ↔ p.Fits n :=
  ⟨fun h => ⟨fun _ => dvd_of_days h, dvd_of_hour h, dvd_of_minute h⟩, fun h _ hm => hm.add h⟩

end WeekPattern

end Lib
