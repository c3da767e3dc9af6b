/-
  A partial function over a list: `List.mapM` at `Option`.

  It has a value iff the function has one at every element (`mapM_isSome_iff`), and the values are those of the
  elements, one by one (`mapM_eq_some_iff`).
-/
import Mathlib.Data.List.Forall2

namespace Lib

variable {α β : Type} {f : α → Option β} {as : List α} {bs : List β}

theorem mapM_eq_some_iff : as.mapM f = some bs ↔ List.Forall₂ (fun a b => f a = some b) as bs := by
  induction as generalizing bs with
  | nil => simp [eq_comm]
  | cons a as ih =>
    simp only [List.mapM_cons, Option.bind_eq_bind, Option.bind_eq_some_iff, Option.pure_def, Option.some.injEq]
    constructor
    · rintro ⟨b, hb, bs, hbs, rfl⟩
      exact .cons hb (ih.1 hbs)
    · rintro (_ | ⟨hb, hbs⟩)
      exact ⟨_, hb, _, ih.2 hbs, rfl⟩

theorem mapM_isSome_iff : (as.mapM f).isSome ↔ ∀ a ∈ as, (f a).isSome := by
  induction as with
  | nil => simp
  | cons a as ih =>
    rw [List.forall_mem_cons, ← ih, List.mapM_cons]
    cases f a <;> cases as.mapM f <;> simp

theorem length_of_mapM (h : as.mapM f = some bs) : bs.length = as.length :=
  (mapM_eq_some_iff.1 h).length_eq.symm

theorem mem_mapM_iff (h : as.mapM f = some bs) {b : β} : b ∈ bs ↔ ∃ a ∈ as, f a = some b := by
  have hall := mapM_eq_some_iff.1 h
  clear h
  induction hall with
  | nil => simp
  | cons hab _ ih =>
    simp only [List.mem_cons, exists_eq_or_imp, ih, hab, Option.some.injEq]
    exact or_congr_left eq_comm

end Lib
