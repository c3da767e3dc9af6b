/-
  The lock of the periodic cleanups (`RedisLock` in `socket/utils.py`, and the loops of `socket/main.py`).

  The lock is a key with the id of its holder and a time to live.  A process that has it does its cleanup, renews it
  in between, and releases it when a renewal fails or the cleanup raises; a process may also crash.  Nothing tells a
  process that its time has run out.

  The ids of the processes are different (`uuid4`), and the clock, which is that of Redis, does not go backwards.
-/
import TideBot.Lib.Machine
import TideBot.Lib.Text
import TideBot.Lib.Timed

namespace TideBot

open Lib

/-- What a process that has taken the lock thinks of it. -/
inductive LeasePhase where
  /-- It is in its cleanup, and has got or renewed the lock at a time. -/
  | holding (since : ℚ)
  /-- A renewal has failed. -/
  | releasing
deriving DecidableEq

structure LeaseWorld where
  store : Timed Text Text ℚ
  /-- The processes between `aquire_lock` and `release_lock`. -/
  holders : Dict ℕ LeasePhase
  clock : ℚ

inductive LeaseStep where
  | aquire (process : ℕ) (now : ℚ)
  | renew (process : ℕ) (now : ℚ)
  | release (process : ℕ) (now : ℚ)
  | crash (process : ℕ)
deriving DecidableEq

/-- The lock of a name as a machine, which answers what the call returns. -/
def leaseMachine (lockId : ℕ → Text) (name : Text) (timeout : ℕ) : Machine LeaseWorld LeaseStep Bool where
  step w
    | .aquire process now =>
      if (w.holders.get process).isSome then none
      -- `SET` with `NX` and `EX`
      else if Timed.live w.store now name = none then
        some (⟨w.store.set name (lockId process, some (now + timeout)), w.holders.set process (.holding now), now⟩, true)
      else some ({ w with clock := now }, false)
    | .renew process now =>
      match w.holders.get process with
      | some (.holding _) =>
        if Timed.live w.store now name = some (lockId process) then
          some (⟨w.store.set name (lockId process, some (now + timeout)), w.holders.set process (.holding now), now⟩,
            true)
        else some (⟨w.store, w.holders.set process .releasing, now⟩, false)
      | _ => none
    | .release process now => (w.holders.get process).map fun _ =>
      if Timed.live w.store now name = some (lockId process) then
        (⟨w.store.erase name, w.holders.erase process, now⟩, true)
      else (⟨w.store, w.holders.erase process, now⟩, false)
    | .crash process => some ({ w with holders := w.holders.erase process }, false)

/-- The clock does not go backwards. -/
def LeaseForward (w : LeaseWorld) : LeaseStep → Prop
  | .aquire _ now | .renew _ now | .release _ now => w.clock ≤ now
  | .crash _ => True

instance (w : LeaseWorld) : (i : LeaseStep) → Decidable (LeaseForward w i)
  | .aquire .. | .renew .. | .release .. => inferInstanceAs (Decidable (_ ≤ _))
  | .crash _ => inferInstanceAs (Decidable True)

variable {lockId : ℕ → Text} {name : Text} {timeout : ℕ} {w w' : LeaseWorld} {tr : List (LeaseStep × Bool)}
  {i : LeaseStep} {o : Bool}

/-- The time of a holder has run out, or the key is its own until then; times of two holders do not overlap. -/
structure LeaseInv (lockId : ℕ → Text) (name : Text) (timeout : ℕ) (w : LeaseWorld) : Prop where
  owned : ∀ p t, w.holders.get p = some (.holding t) →
    w.store.get name = some (lockId p, some (t + timeout)) ∨ t + timeout ≤ w.clock
  apart : ∀ p q t t', p ≠ q → w.holders.get p = some (.holding t) → w.holders.get q = some (.holding t') →
    t + timeout ≤ t' ∨ t' + timeout ≤ t

theorem LeaseInv.hold {p : ℕ} {now : ℚ} (h : LeaseInv lockId name timeout w)
    (hothers : ∀ q t, q ≠ p → w.holders.get q = some (.holding t) → t + timeout ≤ now) :
    LeaseInv lockId name timeout
      ⟨w.store.set name (lockId p, some (now + timeout)), w.holders.set p (.holding now), now⟩ where
  owned q t hq := by
    by_cases heq : q = p
    · subst heq
      rw [Dict.get_set_self, Option.some.injEq, LeasePhase.holding.injEq] at hq
      subst hq
      exact .inl (Dict.get_set_self ..)
    · exact .inr (hothers q t heq (Dict.get_set_of_ne _ heq ▸ hq))
  apart q r t t' hne hq hr := by
    rcases Dict.eq_or_get_of_set hq with ⟨rfl, ht⟩ | hq' <;> rcases Dict.eq_or_get_of_set hr with ⟨rfl, ht'⟩ | hr'
    · exact absurd rfl hne
    · cases ht
      exact .inr (hothers r t' hne.symm hr')
    · cases ht'
      exact .inl (hothers q t hne hq')
    · exact h.apart q r t t' hne hq' hr'

theorem LeaseInv.fewer (h : LeaseInv lockId name timeout w) (hclock : w.clock ≤ w'.clock)
    (hholders : ∀ p t, w'.holders.get p = some (.holding t) → w.holders.get p = some (.holding t))
    (hstore : ∀ p t, w'.holders.get p = some (.holding t) → w.store.get name = some (lockId p, some (t + timeout)) →
      w'.store.get name = some (lockId p, some (t + timeout)) ∨ t + timeout ≤ w'.clock) :
    LeaseInv lockId name timeout w' where
  owned p t hp := by
    rcases h.owned p t (hholders p t hp) with hget | hle
    · exact hstore p t hp hget
    · exact .inr (hle.trans hclock)
  apart p q t t' hne hp hq := h.apart p q t t' hne (hholders p t hp) (hholders q t' hq)

theorem LeaseInv.step (hid : Function.Injective lockId) (hC : LeaseForward w i) (h : LeaseInv lockId name timeout w)
    (hs : (leaseMachine lockId name timeout).step w i = some (w', o)) : LeaseInv lockId name timeout w' := by
  cases i with
  | aquire p now =>
    obtain ⟨hfree, hs⟩ := Option.ite_none_left_eq_some.1 hs
    split_ifs at hs with hlive
    · cases hs
      refine h.hold fun q t hne hq => ?_
      rcases h.owned q t hq with hget | hle
      · rw [Timed.live_of_get hget] at hlive
        split_ifs at hlive with hbefore
        obtain ⟨e, he, hle⟩ := Timed.not_before.1 hbefore
        exact Option.some.inj he ▸ hle
      · exact hle.trans hC
    · cases hs
      exact h.fewer hC (fun _ _ hp => hp) fun _ _ _ hget => .inl hget
  | renew p now =>
    simp only [leaseMachine] at hs
    split at hs
    · split_ifs at hs with hlive
      · cases hs
        refine h.hold fun q t hne hq => ?_
        rcases h.owned q t hq with hget | hle
        · rw [Timed.live_of_get hget] at hlive
          split_ifs at hlive
          exact absurd (hid (Option.some.inj hlive)) hne
        · exact hle.trans hC
      · cases hs
        refine h.fewer hC (fun q t hq => ?_) fun _ _ _ hget => .inl hget
        rcases Dict.eq_or_get_of_set hq with ⟨-, hphase⟩ | hq
        · cases hphase
        · exact hq
    · cases hs
  | release p now =>
    obtain ⟨phase, hp, hs⟩ := Option.map_eq_some_iff.1 hs
    split_ifs at hs with hlive
    · cases hs
      refine h.fewer hC (fun q t hq => Dict.get_of_erase hq) fun q t hq hget => ?_
      -- the key is that of the process which releases it
      rw [Timed.live_of_get hget] at hlive
      split_ifs at hlive
      obtain rfl := hid (Option.some.inj hlive)
      rw [Dict.get_erase_self] at hq
      cases hq
    · cases hs
      exact h.fewer hC (fun q t hq => Dict.get_of_erase hq) fun _ _ _ hget => .inl hget
  | crash p =>
    cases hs
    exact h.fewer le_rfl (fun q t hq => Dict.get_of_erase hq) fun _ _ _ hget => .inl hget

/-- **No two processes have the lock at a time**: in every run, the times for which two holders have got or last renewed
    the lock do not overlap, and until its time is out the key is that of the holder, whoever renews or releases. -/
theorem leases_apart (hid : Function.Injective lockId)
    (hrun : (leaseMachine lockId name timeout).RunIn LeaseForward w tr w') (hholders : w.holders = .empty) :
    (∀ p q t t', p ≠ q → w'.holders.get p = some (.holding t) → w'.holders.get q = some (.holding t') →
      t + timeout ≤ t' ∨ t' + timeout ≤ t) ∧
    ∀ p t now, w'.holders.get p = some (.holding t) → w'.clock ≤ now → now < t + timeout →
      Timed.live w'.store now name = some (lockId p) := by
  have h : LeaseInv lockId name timeout w' := by
    refine hrun.invariant (fun _ _ _ _ hC h hs => h.step hid hC hs) ⟨?_, ?_⟩
    · rintro p t hp
      rw [hholders] at hp
      cases hp
    · rintro p q t t' - hp
      rw [hholders] at hp
      cases hp
  refine ⟨h.apart, fun p t now hp hclock hnow => ?_⟩
  rcases h.owned p t hp with hget | hle
  · rw [Timed.live_of_get hget, if_pos]
    rintro _ ⟨⟩
    exact hnow
  · exact absurd (hle.trans hclock) (not_le.2 hnow)

/-- One process does not renew in time, and another takes the lock. -/
theorem leases_apart_late : ∃ tr w', (leaseMachine (fun p => List.replicate p 0) (.lit "l") 60).RunIn LeaseForward
    ⟨.empty, .empty, 0⟩ tr w' ∧ tr.map Prod.snd = [true, false, true, true] ∧ (0 : ℚ) + (60 : ℕ) ≤ 61 := by
  obtain ⟨⟨tr, w'⟩, hm, htr, h₀, h₁⟩ : ∃ r ∈ (leaseMachine (fun p => List.replicate p 0) (.lit "l") 60).exec LeaseForward
      ⟨.empty, .empty, 0⟩ [.aquire 0 0, .aquire 1 59, .aquire 1 60, .renew 1 61],
      r.1.map Prod.snd = [true, false, true, true] ∧ r.2.holders.get 0 = some (.holding 0) ∧
        r.2.holders.get 1 = some (.holding 61) := by
    decide +kernel
  have hrun := Machine.runIn_of_exec hm
  have h := (leases_apart (fun p q hpq => by simpa using congrArg List.length hpq) hrun rfl).1 0 1 0 61 (by decide) h₀ h₁
  exact ⟨tr, w', hrun, htr, h.resolve_right (by norm_num)⟩

end TideBot
