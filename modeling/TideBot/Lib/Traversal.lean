/-
  Going through a table in an order that is not known.

  * `scanMax`: a loop that keeps the best element so far, from a value that every
    element should beat; it finds what `List.argmax` finds (`scanMax_eq_argmax`), and
    if no two elements tie, the order does not matter (`argmax_perm`);
  * `sweep`: an operation run on some keys one after the other.  If it acts on each
    key alone and does nothing the second time, neither the order nor repetitions
    matter (`sweep_spec`).
-/
import Mathlib

namespace Lib

section
variable {α β : Type*} [LinearOrder β]

/-- One turn of the loop: a better element replaces the best so far. -/
def scanStep (f : α → β) (best : β × Option α) (a : α) : β × Option α :=
  if best.1 < f a then (f a, some a) else best

/-- The best element, starting from a value to beat. -/
def scanMax (f : α → β) (start : β) (l : List α) : Option α := (l.foldl (scanStep f) (start, none)).2

/-- **The loop finds the first maximum** if every element beats the start value. -/
theorem scanMax_eq_argmax {f : α → β} {start : β} {l : List α} (h : ∀ a ∈ l, start < f a) :
    scanMax f start l = l.argmax f := by
  have key : l.foldl (scanStep f) (start, none) =
      ((l.argmax f).elim start f, l.argmax f) := by
    induction l using List.reverseRecOn with
    | nil => rfl
    | append_singleton l a ih =>
      rw [List.foldl_append, ih fun b hb => h b (List.mem_append_left _ hb), List.foldl_cons,
        List.foldl_nil, List.argmax_concat]
      have ha : start < f a := h a (by simp)
      cases hmax : l.argmax f with
      | none => simp [scanStep, ha]
      | some b =>
        by_cases hb : f b < f a
        · simp [scanStep, hb]
        · simp [scanStep, hb]
  rw [scanMax, key]

theorem mem_argmax_of_injOn {f : α → β} {l : List α} (h : ∀ a ∈ l, ∀ b ∈ l, f a = f b → a = b)
    {m : α} : m ∈ l.argmax f ↔ m ∈ l ∧ ∀ a ∈ l, f a ≤ f m := by
  classical
  rw [List.mem_argmax_iff]
  constructor
  · rintro ⟨hm, hmax, -⟩
    exact ⟨hm, hmax⟩
  · rintro ⟨hm, hmax⟩
    refine ⟨hm, hmax, ?_⟩
    intro a ha hle
    rw [h a ha m hm (le_antisymm (hmax a ha) hle)]

/-- **Without ties the order does not matter.** -/
theorem argmax_perm {f : α → β} {l l' : List α} (h : ∀ a ∈ l, ∀ b ∈ l, f a = f b → a = b)
    (hp : l.Perm l') : l.argmax f = l'.argmax f := by
  have h' : ∀ a ∈ l', ∀ b ∈ l', f a = f b → a = b := by
    intro a ha b hb
    exact h a (hp.mem_iff.2 ha) b (hp.mem_iff.2 hb)
  ext m
  rw [← Option.mem_def, ← Option.mem_def, mem_argmax_of_injOn h, mem_argmax_of_injOn h', hp.mem_iff]
  simp only [hp.mem_iff]

end

section
variable {σ κ ν ρ : Type*} (act : σ → κ → σ × Option ρ)

/-- Run `act` on each key, and collect what it answers. -/
def sweep : σ → List κ → σ × List (κ × ρ)
  | s, [] => (s, [])
  | s, k :: ks =>
    let r := act s k
    let rest := sweep r.1 ks
    (rest.1, (r.2.map (Prod.mk k)).toList ++ rest.2)

variable {act}

/-- **What a sweep does**, if `act` is `next` on the key alone, answers `ans`, and has
    nothing to do the second time, as long as `P` holds. -/
theorem sweep_spec [DecidableEq κ] (P : σ → Prop) (view : σ → κ → ν) (next : ν → ν)
    (ans : κ → ν → Option ρ) (hP : ∀ s k, P s → P (act s k).1)
    (hself : ∀ s k, P s → view (act s k).1 k = next (view s k))
    (hother : ∀ s k k', P s → k' ≠ k → view (act s k).1 k' = view s k')
    (hans : ∀ s k, P s → (act s k).2 = ans k (view s k))
    (hnext : ∀ v, next (next v) = next v) (hdone : ∀ k v, ans k (next v) = none)
    {s : σ} (hs : P s) (ks : List κ) :
    P (sweep act s ks).1 ∧
      (∀ k, view (sweep act s ks).1 k = if k ∈ ks then next (view s k) else view s k) ∧
      ∀ k a, (k, a) ∈ (sweep act s ks).2 ↔ k ∈ ks ∧ ans k (view s k) = some a := by
  induction ks generalizing s with
  | nil => simpa [sweep] using hs
  | cons j ks ih =>
    obtain ⟨hlast, hview, hmem⟩ := ih (hP s j hs)
    refine ⟨hlast, ?_, ?_⟩
    · intro k
      rw [sweep, hview]
      by_cases hk : k = j
      · subst hk
        rw [hself s k hs, hnext, if_pos List.mem_cons_self]
        split_ifs <;> rfl
      · simp [hother s j k hs hk, hk]
    · intro k a
      simp only [sweep, List.mem_append, hmem, Option.mem_toList]
      by_cases hk : k = j
      · subst hk
        simp [hself s k hs, hdone, hans s k hs]
      · simp [hother s j k hs hk, hk, Ne.symm hk]

end

end Lib
