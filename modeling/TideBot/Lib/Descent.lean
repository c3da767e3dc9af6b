/-
  Walks that do not look where they have been.

  `climb` follows a pointer until there is none; `visit` goes down a tree and does something at each node.
  Neither remembers what it has met, so both come to an end because the pointers run in no circle: on
  a finite set the number of nodes that can be reached gets smaller with each step (`reach_lt`).  Both run on
  fuel, and give `none` when it runs out.
-/
import Mathlib

namespace Lib

open Relation

variable {κ σ : Type*}

/-- The nodes on the way up. -/
def climb (up : κ → Option κ) : ℕ → Option κ → Option (List κ)
  | _, none => some []
  | 0, some _ => none
  | n + 1, some k => (climb up n (up k)).map (k :: ·)

/-- What is done at a node, and then at each of its children and below. -/
def visit (next : κ → List κ) (act : κ → σ → σ) : ℕ → κ → σ → Option σ
  | 0, _, _ => none
  | n + 1, k, s => (next k).foldlM (fun s c => visit next act n c s) (act k s)

/-! ## Heights -/

section
open Classical

variable {r : κ → κ → Prop} {U : Finset κ} {k a : κ}

/-- How many nodes of `U` can be reached from `k`. -/
noncomputable def reach (r : κ → κ → Prop) (U : Finset κ) (k : κ) : ℕ := (U.filter fun c => TransGen r k c).card

theorem reach_lt (hr : ∀ k, ¬ TransGen r k k) (hk : r k a) (ha : a ∈ U) : reach r U a < reach r U k := by
  refine Finset.card_lt_card ⟨fun c hc => ?_, fun hsub => ?_⟩
  · obtain ⟨hU, hac⟩ := Finset.mem_filter.1 hc
    exact Finset.mem_filter.2 ⟨hU, .head hk hac⟩
  · exact hr a (Finset.mem_filter.1 (hsub (Finset.mem_filter.2 ⟨ha, .single hk⟩))).2

theorem reach_lt_card (hr : ∀ k, ¬ TransGen r k k) (hk : k ∈ U) : reach r U k < U.card := by
  refine Finset.card_lt_card ⟨Finset.filter_subset _ _, fun hsub => ?_⟩
  exact hr k (Finset.mem_filter.1 (hsub hk)).2

end

/-! ## The way up -/

section
variable {up : κ → Option κ} {U : Finset κ} {n : ℕ} {k : κ} {o : Option κ}

theorem climb_isSome_aux (hU : ∀ k ∈ U, ∀ a, up k = some a → a ∈ U)
    (hup : ∀ k, ¬ TransGen (fun a b => up a = some b) k k)
    (ho : ∀ k ∈ o, k ∈ U ∧ reach (fun a b => up a = some b) U k < n) : (climb up n o).isSome := by
  induction n generalizing o with
  | zero =>
    cases o with
    | none => rfl
    | some k => exact absurd (ho k rfl).2 (Nat.not_lt_zero _)
  | succ n ih =>
    cases o with
    | none => rfl
    | some k =>
      obtain ⟨hk, hlt⟩ := ho k rfl
      rw [climb, Option.isSome_map]
      refine ih fun a ha => ⟨hU k hk a ha, ?_⟩
      exact (reach_lt hup ha (hU k hk a ha)).trans_le (Nat.lt_succ_iff.1 hlt)

/-- **The way up comes to an end if the pointers run in no circle.** -/
theorem climb_isSome (hU : ∀ k ∈ U, ∀ a, up k = some a → a ∈ U) (hup : ∀ k, ¬ TransGen (fun a b => up a = some b) k k)
    (ho : ∀ k ∈ o, k ∈ U) (hn : U.card ≤ n) : (climb up n o).isSome :=
  climb_isSome_aux hU hup fun k hk => ⟨ho k hk, (reach_lt_card hup (ho k hk)).trans_le hn⟩

end

/-! ## The way down -/

section
variable {next : κ → List κ} {U : Finset κ} {n : ℕ} {k c : κ}

theorem visit_all {r : κ → κ → Prop} {ks : List κ}
    (h : ∀ k ∈ ks, ∃ ids : List κ, (∀ c, c ∈ ids ↔ ReflTransGen r k c) ∧
      ∀ {σ : Type} (act : κ → σ → σ) (s : σ), visit next act n k s = some (ids.foldl (fun s c => act c s) s)) :
    ∃ ids : List κ, (∀ c, c ∈ ids ↔ ∃ k ∈ ks, ReflTransGen r k c) ∧
      ∀ {σ : Type} (act : κ → σ → σ) (s : σ),
        ks.foldlM (fun s c => visit next act n c s) s = some (ids.foldl (fun s c => act c s) s) := by
  induction ks with
  | nil => exact ⟨[], by simp, fun _ _ => rfl⟩
  | cons k ks ih =>
    obtain ⟨ids, hids, hvisit⟩ := h k List.mem_cons_self
    obtain ⟨rest, hrest, hvisits⟩ := ih fun k hk => h k (List.mem_cons_of_mem _ hk)
    refine ⟨ids ++ rest, ?_, ?_⟩
    · intro c
      rw [List.mem_append, hids, hrest]
      simp
    · intro σ act s
      rw [List.foldlM_cons, hvisit, List.foldl_append]
      exact hvisits act _

theorem visit_eq_aux (hU : ∀ k ∈ U, ∀ c ∈ next k, c ∈ U) (hnext : ∀ k, ¬ TransGen (fun a b => b ∈ next a) k k)
    (hk : k ∈ U) (hn : reach (fun a b => b ∈ next a) U k < n) :
    ∃ ids : List κ, (∀ c, c ∈ ids ↔ ReflTransGen (fun a b => b ∈ next a) k c) ∧
      ∀ {σ : Type} (act : κ → σ → σ) (s : σ), visit next act n k s = some (ids.foldl (fun s c => act c s) s) := by
  induction n generalizing k with
  | zero => exact absurd hn (Nat.not_lt_zero _)
  | succ n ih =>
    have hchildren := fun c hc => ih (hU k hk c hc)
      ((reach_lt hnext hc (hU k hk c hc)).trans_le (Nat.lt_succ_iff.1 hn))
    obtain ⟨ids, hids, hvisits⟩ := visit_all hchildren
    refine ⟨k :: ids, ?_, ?_⟩
    · intro c
      rw [List.mem_cons, hids, ReflTransGen.cases_head_iff, eq_comm]
    · intro σ act s
      rw [visit, hvisits]
      rfl

/-- **A visit comes to an end if the pointers run in no circle, and comes to what is at or below the node.** -/
theorem visit_eq (hU : ∀ k ∈ U, ∀ c ∈ next k, c ∈ U) (hnext : ∀ k, ¬ TransGen (fun a b => b ∈ next a) k k) (hk : k ∈ U)
    (hn : U.card ≤ n) : ∃ ids : List κ, (∀ c, c ∈ ids ↔ ReflTransGen (fun a b => b ∈ next a) k c) ∧
      ∀ {σ : Type} (act : κ → σ → σ) (s : σ), visit next act n k s = some (ids.foldl (fun s c => act c s) s) :=
  visit_eq_aux hU hnext hk ((reach_lt_card hnext hk).trans_le hn)

end

end Lib
