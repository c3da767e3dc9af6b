/-
  How often a credential that was rotated away is accepted again.

  A restoration makes the old hash current and clears the previous one, so the
  same credential can be rotated away, and restored, any number of times
  (`restored_twice`).  What holds in every run is that each rotation is
  forgiven at most once (`restored_once_per_rotation`).

  The invariant counts a hash that the row keeps as its previous one as a
  restoration still to come (`World.owes`).
-/
import TideBot.Devices.Refresh

namespace TideBot

open Lib

variable {env : RefreshEnv} {w w' w₀ : World} {a : Act} {c : Option Commit} {d h : Text}
  {tr : List (Act × Option Commit)}

/-- Commit `c` restores a credential with hash `h` on device `d`. -/
def isRestoreOf (env : RefreshEnv) (d h : Text) (c : Option Commit) : Bool :=
  ∃ k ∈ c, k.deviceId = d ∧ env.hashBrowserToken k.credential = h ∧ k.newHash = none

/-- Commit `c` rotates away from a credential with hash `h` on device `d`. -/
def isRotateFrom (env : RefreshEnv) (d h : Text) (c : Option Commit) : Bool :=
  ∃ k ∈ c, k.deviceId = d ∧ env.hashBrowserToken k.credential = h ∧ k.newHash ≠ none

/-- How often a credential with hash `h` took the restore path. -/
def timesRestored (env : RefreshEnv) (d h : Text) (tr : List (Act × Option Commit)) : ℕ :=
  tr.countP fun e => isRestoreOf env d h e.2

/-- How often device `d` was rotated away from hash `h`. -/
def timesRotatedAway (env : RefreshEnv) (d h : Text) (tr : List (Act × Option Commit)) : ℕ :=
  tr.countP fun e => isRotateFrom env d h e.2

/-- 1 if `h` is the previous hash of device `d`. -/
def World.owes (w : World) (d h : Text) : ℕ :=
  if (w.device d).bind PairedDevice.previousRefreshTokenHash = some h then 1 else 0

theorem World.owes_le_one (w : World) (d h : Text) : w.owes d h ≤ 1 := by
  unfold World.owes; split_ifs <;> omega

theorem owes_of_hashes (hh : (w'.device d).map (fun r => (r.previousRefreshTokenHash,
      r.refreshTokenHash)) = (w.device d).map fun r => (r.previousRefreshTokenHash,
      r.refreshTokenHash)) : w'.owes d h = w.owes d h := by
  have hp : ∀ v : World, (v.device d).bind PairedDevice.previousRefreshTokenHash =
      ((v.device d).map fun r => (r.previousRefreshTokenHash, r.refreshTokenHash)).bind Prod.fst := by
    intro v
    rcases v.device d with _ | r <;> rfl
  rw [World.owes, World.owes, hp, hp, hh]

/-- A step restores a hash only if the row owes it, and owes a hash only
    if it did so before or has just rotated away from it. -/
theorem owes_step (hs : World.step env w a = some (w', c)) (d h : Text) :
    (isRestoreOf env d h c).toNat + w'.owes d h ≤ (isRotateFrom env d h c).toNat + w.owes d h := by
  by_cases hc : ∃ k ∈ c, k.deviceId = d
  · obtain ⟨k, rfl, rfl⟩ := hc
    rcases commit_cases hs with ⟨i, token, now, r, rfl, hk⟩ | ⟨i, clock, now, r, rfl, hk⟩
    · obtain ⟨form, device, -, -, hrow'⟩ := hk.request
      have h1 : isRestoreOf env k.deviceId h (some k) = false := by
        simp [isRestoreOf, hk.newHash]
      by_cases hh : env.hashBrowserToken k.credential = h
      · have h2 : isRotateFrom env k.deviceId h (some k) = true := by
          simp [isRotateFrom, hk.newHash, hh]
        have := w'.owes_le_one k.deviceId h
        simp only [h1, h2, Bool.toNat_false, Bool.toNat_true]
        omega
      · have : w'.owes k.deviceId h = 0 := by
          simp [World.owes, hrow', PairedDevice.rotated, hh]
        simp only [h1, this, Bool.toNat_false]
        omega
    · have h' : w'.owes k.deviceId h = 0 := by
        simp [World.owes, hk.row', PairedDevice.restored]
      by_cases hh : env.hashBrowserToken k.credential = h
      · have h1 : w.owes k.deviceId h = 1 := by
          simp [World.owes, hk.row, hk.previous, hh]
        have := Bool.toNat_le (isRestoreOf env k.deviceId h (some k))
        omega
      · have h2 : isRestoreOf env k.deviceId h (some k) = false := by simp [isRestoreOf, hh]
        simp only [h2, h', Bool.toNat_false]
        omega
  · push Not at hc
    have h1 : isRestoreOf env d h c = false := by
      simp only [isRestoreOf, decide_eq_false_iff_not, not_exists, not_and]
      exact fun k hk hd => absurd hd (hc k hk)
    rw [h1, owes_of_hashes (hashes_of_step hs hc), Bool.toNat_false]
    omega

/-- Over a run, the restorations, and the one still owed, are paid for by
    rotations. -/
theorem timesRestored_add_owes (hr : (refreshMachine env).Run w₀ tr w) (d h : Text) :
    timesRestored env d h tr + w.owes d h ≤ timesRotatedAway env d h tr + w₀.owes d h := by
  refine hr.traceInvariant (I := fun tr w => timesRestored env d h tr + w.owes d h ≤
    timesRotatedAway env d h tr + w₀.owes d h) ?_ (by simp [timesRestored, timesRotatedAway])
  intro tr w a w' c _ ih hs
  have hstep := owes_step hs d h
  have hcount : ∀ (p : Act × Option Commit → Bool) e,
      (tr ++ [e]).countP p = tr.countP p + (p e).toNat := by
    intro p e
    rw [List.countP_append, List.countP_singleton]
    cases p e <;> rfl
  simp only [timesRestored, timesRotatedAway, hcount] at ih ⊢
  omega

theorem owes_after_restore (hs : World.step env w a = some (w', c))
    (hc : isRestoreOf env d h c) : w'.owes d h = 0 := by
  obtain ⟨k, rfl, rfl, -, hnew⟩ := of_decide_eq_true hc
  rcases commit_cases hs with ⟨i, token, now, r, -, hk⟩ | ⟨i, clock, now, r, -, hk⟩
  · rw [hk.newHash] at hnew; cases hnew
  · simp [World.owes, hk.row', PairedDevice.restored]

/-- **Each rotation away from a credential is forgiven at most once.**  In
    every run, from a state in which `h` is not the previous hash of the device,
    a credential with hash `h` is restored at most as often as the device was
    rotated away from it, and between two restorations of it there is such a
    rotation. -/
theorem restored_once_per_rotation (h₀ : (w₀.device d).bind
      PairedDevice.previousRefreshTokenHash ≠ some h) (hr : (refreshMachine env).Run w₀ tr w) :
    timesRestored env d h tr ≤ timesRotatedAway env d h tr ∧
    ∀ xs ys zs e e', tr = xs ++ e :: ys ++ e' :: zs → isRestoreOf env d h e.2 →
      isRestoreOf env d h e'.2 → ∃ e'' ∈ ys, isRotateFrom env d h e''.2 := by
  constructor
  · have hle := timesRestored_add_owes hr d h
    have h0 : w₀.owes d h = 0 := by rw [World.owes, if_neg h₀]
    omega
  · rintro xs ys zs ⟨a, c⟩ ⟨a', c'⟩ rfl he he'
    rw [List.append_assoc, List.cons_append] at hr
    obtain ⟨t, t', -, -, hs, hr⟩ := hr.split
    obtain ⟨u, u', hys, -, hs', -⟩ := hr.split
    have hle := timesRestored_add_owes (hys.snoc trivial hs') d h
    rw [owes_after_restore hs he] at hle
    have hone : 0 < timesRestored env d h (ys ++ [(a', c')]) := by
      rw [timesRestored, List.countP_pos_iff]
      exact ⟨_, List.mem_append_right _ (List.mem_singleton.2 rfl), he'⟩
    have hrot : 0 < timesRotatedAway env d h (ys ++ [(a', c')]) := by omega
    rw [timesRotatedAway, List.countP_pos_iff] at hrot
    obtain ⟨e, hm, he⟩ := hrot
    rcases List.mem_append.1 hm with hm | hm
    · exact ⟨e, hm, he⟩
    · -- the last step is a restoration, not a rotation
      obtain rfl := List.mem_singleton.1 hm
      obtain ⟨k, hk, -, -, hnew⟩ := of_decide_eq_true he'
      obtain ⟨k', hk', -, -, hnew'⟩ := of_decide_eq_true he
      cases hk.symm.trans hk'
      exact absurd hnew hnew'

/-- The requests, one after the other, of a client that loses two responses. -/
def Sample.lostTwice : List Act :=
  rotation 0 "c0" "c1" 5 ++ restoration 1 "c0" 6 ++ rotation 2 "c0" "c2" 7 ++
    restoration 3 "c0" 8

/-- A credential that is rotated away twice is restored twice. -/
theorem restored_twice :
    ∃ tr w, (refreshMachine Sample.env).Run Sample.world tr w ∧
      tr.map Prod.fst = Sample.lostTwice ∧
      timesRestored Sample.env (.lit "d") (Sample.env.hashBrowserToken (.lit "c0")) tr = 2 := by
  obtain ⟨⟨tr, w⟩, hm, h⟩ : ∃ r ∈ (refreshMachine Sample.env).exec (fun _ _ => True) Sample.world
      Sample.lostTwice, r.1.map Prod.fst = Sample.lostTwice ∧
      timesRestored Sample.env (.lit "d") (Sample.env.hashBrowserToken (.lit "c0")) r.1 = 2 := by
    decide
  exact ⟨tr, w, Machine.runIn_of_exec hm, h⟩

/-- In that run both restorations are paid for by a rotation. -/
theorem restored_once_per_rotation_lostTwice :
    ∃ tr w, (refreshMachine Sample.env).Run Sample.world tr w ∧
      timesRestored Sample.env (.lit "d") (.lit "h:c0") tr = 2 ∧
      timesRestored Sample.env (.lit "d") (.lit "h:c0") tr ≤
        timesRotatedAway Sample.env (.lit "d") (.lit "h:c0") tr := by
  obtain ⟨⟨tr, w⟩, hm, h⟩ : ∃ r ∈ (refreshMachine Sample.env).exec (fun _ _ => True) Sample.world
      Sample.lostTwice, timesRestored Sample.env (.lit "d") (.lit "h:c0") r.1 = 2 := by
    decide
  have hr := Machine.runIn_of_exec hm
  exact ⟨tr, w, hr, h, (restored_once_per_rotation (by decide) hr).1⟩

end TideBot
