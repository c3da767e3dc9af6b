/-
  What is reachable, by a worklist and by a walk.

  `spread` takes a node off the worklist and enters those of its successors that it has not seen; what
  it has seen in the end is what can be reached (`mem_spread`).  `trail` follows a pointer until there is
  none, or a node comes up again; it meets what can be reached (`mem_trail`).  Both run on fuel, of which
  there is enough if there is as much as there are nodes.
-/
import Mathlib

namespace Lib

open Relation

variable {κ : Type*} [DecidableEq κ]

/-- Nodes that have not been seen are seen, and go onto the worklist. -/
def enter (ks : List κ) (state : List κ × List κ) : List κ × List κ :=
  ks.foldl (fun s k => if k ∈ s.2 then s else (k :: s.1, k :: s.2)) state

/-- The nodes that have been seen when the worklist is empty. -/
def spread (next : κ → List κ) : ℕ → List κ × List κ → List κ
  | n + 1, (k :: todo, seen) => spread next n (enter (next k) (todo, seen))
  | _, (_, seen) => seen

/-- The nodes on the way up, until there is none or one comes up again. -/
def trail (up : κ → Option κ) : ℕ → List κ → Option κ → List κ
  | n + 1, seen, some k => if k ∈ seen then [] else k :: trail up n (k :: seen) (up k)
  | _, _, _ => []

variable {next : κ → List κ} {up : κ → Option κ} {ks todo seen : List κ} {n : ℕ} {k c root : κ} {U : Finset κ}

theorem enter_spec (ks todo seen : List κ) : ∃ new, enter ks (todo, seen) = (new ++ todo, new ++ seen) ∧ (new ++ seen).Nodup = seen.Nodup ∧
    (∀ k ∈ new, k ∈ ks) ∧ ∀ k ∈ ks, k ∈ new ++ seen := by
  induction ks generalizing todo seen with
  | nil => exact ⟨[], rfl, rfl, by simp, by simp⟩
  | cons k ks ih =>
    rw [enter, List.foldl_cons]
    split_ifs with hk
    · obtain ⟨new, heq, hnodup, hnew, hall⟩ := ih todo seen
      refine ⟨new, heq, hnodup, fun c hc => List.mem_cons_of_mem _ (hnew c hc), ?_⟩
      rintro c (- | ⟨_, hc⟩)
      · exact List.mem_append_right _ hk
      · exact hall c hc
    · obtain ⟨new, heq, hnodup, hnew, hall⟩ := ih (k :: todo) (k :: seen)
      refine ⟨new ++ [k], ?_, ?_, ?_, ?_⟩
      · rw [List.append_assoc, List.append_assoc]
        exact heq
      · rw [List.append_assoc, List.singleton_append, hnodup, List.nodup_cons]
        simp [hk]
      · intro c hc
        rcases List.mem_append.1 hc with hc | hc
        · exact List.mem_cons_of_mem _ (hnew c hc)
        · exact List.mem_singleton.1 hc ▸ List.mem_cons_self
      · rintro c (- | ⟨_, hc⟩)
        · simp
        · simpa using hall c hc

/-- What the loop keeps: the worklist has been seen, and what has been seen and is not on it has all its
    successors seen. -/
structure Spreading (next : κ → List κ) (U : Finset κ) (root : κ) (todo seen : List κ) : Prop where
  nodup : seen.Nodup
  inside : ∀ k ∈ seen, k ∈ U
  todo_sub : ∀ k ∈ todo, k ∈ seen
  reached : ∀ k ∈ seen, ReflTransGen (fun a b => b ∈ next a) root k
  closed : ∀ k ∈ seen, k ∉ todo → ∀ c ∈ next k, c ∈ seen

/-- **One round of the loop.** -/
theorem Spreading.step (h : Spreading next U root (k :: todo) seen) (hU : ∀ k ∈ U, ∀ c ∈ next k, c ∈ U) :
    ∃ new, enter (next k) (todo, seen) = (new ++ todo, new ++ seen) ∧
      Spreading next U root (new ++ todo) (new ++ seen) := by
  obtain ⟨new, heq, hnodup, hnew, hall⟩ := enter_spec (next k) todo seen
  have hk : k ∈ seen := h.todo_sub k List.mem_cons_self
  refine ⟨new, heq, ?_, ?_, ?_, ?_, ?_⟩
  · rw [hnodup]
    exact h.nodup
  · intro c hc
    rcases List.mem_append.1 hc with hc | hc
    · exact hU k (h.inside k hk) c (hnew c hc)
    · exact h.inside c hc
  · intro c hc
    rcases List.mem_append.1 hc with hc | hc
    · exact List.mem_append_left _ hc
    · exact List.mem_append_right _ (h.todo_sub c (List.mem_cons_of_mem _ hc))
  · intro c hc
    rcases List.mem_append.1 hc with hc | hc
    · exact (h.reached k hk).tail (hnew c hc)
    · exact h.reached c hc
  · intro a ha hnot c hc
    rw [List.mem_append, not_or] at hnot
    rcases List.mem_append.1 ha with ha | ha
    · exact absurd ha hnot.1
    · by_cases hak : a = k
      · exact hall c (hak ▸ hc)
      · refine List.mem_append_right _ (h.closed a ha ?_ c hc)
        rintro (- | ⟨_, htodo⟩)
        · exact hak rfl
        · exact hnot.2 htodo

theorem Spreading.spread (h : Spreading next U root todo seen) (hU : ∀ k ∈ U, ∀ c ∈ next k, c ∈ U)
    (hn : U.card + todo.length ≤ n + seen.length) :
    Spreading next U root [] (Lib.spread next n (todo, seen)) ∧ ∀ k ∈ seen, k ∈ Lib.spread next n (todo, seen) := by
  induction n generalizing todo seen with
  | zero =>
    have hcard : seen.length ≤ U.card := by
      rw [← List.toFinset_card_of_nodup h.nodup]
      exact Finset.card_le_card fun k hk => h.inside k (List.mem_toFinset.1 hk)
    obtain rfl : todo = [] := List.eq_nil_of_length_eq_zero (by omega)
    exact ⟨h, fun _ => id⟩
  | succ n ih =>
    cases todo with
    | nil => exact ⟨h, fun _ => id⟩
    | cons k todo =>
      obtain ⟨new, heq, hnew⟩ := h.step hU
      rw [Lib.spread, heq]
      obtain ⟨hdone, hsub⟩ := ih hnew (by simp only [List.length_append, List.length_cons] at hn ⊢; omega)
      exact ⟨hdone, fun c hc => hsub c (List.mem_append_right _ hc)⟩

omit [DecidableEq κ] in
theorem Spreading.start (next : κ → List κ) (hroot : root ∈ U) : Spreading next U root [root] [root] :=
  ⟨List.nodup_singleton _, by simpa using hroot, fun _ => id,
    fun k hk => List.mem_singleton.1 hk ▸ .refl, fun k hk hnot => absurd hk hnot⟩

/-- **The worklist finds what is reachable.** -/
theorem mem_spread (hU : ∀ k ∈ U, ∀ c ∈ next k, c ∈ U) (hroot : root ∈ U) (hn : U.card ≤ n) :
    c ∈ spread next n ([root], [root]) ↔ ReflTransGen (fun a b => b ∈ next a) root c := by
  obtain ⟨hdone, hsub⟩ := (Spreading.start next hroot).spread hU (n := n) (by simpa using hn)
  refine ⟨hdone.reached c, fun hpath => ?_⟩
  induction hpath with
  | refl => exact hsub root (List.mem_singleton_self _)
  | tail _ hc ih => exact hdone.closed _ ih List.not_mem_nil _ hc

theorem nodup_spread (hU : ∀ k ∈ U, ∀ c ∈ next k, c ∈ U) (hroot : root ∈ U) (hn : U.card ≤ n) :
    (spread next n ([root], [root])).Nodup :=
  ((Spreading.start next hroot).spread hU (by simpa using hn)).1.nodup

theorem nodup_trail (n : ℕ) (seen : List κ) (o : Option κ) :
    (trail up n seen o).Nodup ∧ ∀ c ∈ trail up n seen o, c ∉ seen := by
  induction n generalizing seen o with
  | zero => cases o <;> simp [trail]
  | succ n ih =>
    cases o with
    | none => simp [trail]
    | some k =>
      rw [trail]
      split_ifs with hk
      · simp
      · obtain ⟨hnodup, hfresh⟩ := ih (k :: seen) (up k)
        refine ⟨List.nodup_cons.2 ⟨fun hin => hfresh k hin List.mem_cons_self, hnodup⟩, ?_⟩
        intro c hc
        rcases List.mem_cons.1 hc with rfl | hc
        · exact hk
        · exact fun hin => hfresh c hc (List.mem_cons_of_mem _ hin)

theorem reached_of_mem_trail (h : c ∈ trail up n seen (some k)) : ReflTransGen (fun a b => up a = some b) k c := by
  induction n generalizing seen k with
  | zero => cases h
  | succ n ih =>
    rw [trail] at h
    split_ifs at h
    · cases h
    · rcases List.mem_cons.1 h with rfl | h
      · exact .refl
      · cases hup : up k with
        | none =>
          rw [hup] at h
          cases n <;> cases h
        | some a =>
          rw [hup] at h
          exact .head hup (ih h)

omit [DecidableEq κ] in
theorem mem_of_closed {P : κ → Prop} {d : κ} (hP : ∀ a, P a → ∀ b, up a = some b → P b) (hc : P c)
    (hpath : ReflTransGen (fun a b => up a = some b) c d) : P d := by
  induction hpath with
  | refl => exact hc
  | tail _ hup ih => exact hP _ ih _ hup

/-- Where a walk stands: what it has met leads to what it has met, or to the node at hand. -/
structure Walking (up : κ → Option κ) (U : Finset κ) (seen : List κ) (k : κ) : Prop where
  nodup : seen.Nodup
  inside : ∀ a ∈ seen, a ∈ U
  here : k ∈ U
  closed : ∀ a ∈ seen, ∀ b, up a = some b → b = k ∨ b ∈ seen

theorem Walking.mem_trail {d : κ} (h : Walking up U seen k) (hU : ∀ k ∈ U, ∀ a, up k = some a → a ∈ U)
    (hn : U.card ≤ n + seen.length) (hc : c = k ∨ c ∈ seen) (hpath : ReflTransGen (fun a b => up a = some b) c d) :
    d ∈ seen ∨ d ∈ trail up n seen (some k) := by
  -- a walk that is back where it was has met everything
  have hback : k ∈ seen → d ∈ seen := by
    intro hk
    refine mem_of_closed (P := fun a => a ∈ seen) (fun a ha b hup => ?_) (hc.elim (fun h => h ▸ hk) id) hpath
    exact (h.closed a ha b hup).elim (fun h => h ▸ hk) id
  induction n generalizing seen k with
  | zero =>
    refine .inl (hback ?_)
    have hsub : seen.toFinset ⊆ U := fun a ha => h.inside a (List.mem_toFinset.1 ha)
    have hcard : U.card ≤ seen.toFinset.card := by
      rw [List.toFinset_card_of_nodup h.nodup]
      simpa using hn
    rw [← List.mem_toFinset, Finset.eq_of_subset_of_card_le hsub hcard]
    exact h.here
  | succ n ih =>
    rw [trail]
    split_ifs with hk
    · exact .inl (hback hk)
    · have hin : c ∈ k :: seen := List.mem_cons.2 hc
      cases hup : up k with
      | none =>
        have hd : d ∈ k :: seen := by
          refine mem_of_closed (P := fun a => a ∈ k :: seen) (fun a ha b hab => ?_) hin hpath
          rcases List.mem_cons.1 ha with rfl | ha
          · rw [hup] at hab
            cases hab
          · exact List.mem_cons.2 (h.closed a ha b hab)
        rcases List.mem_cons.1 hd with rfl | hd
        · exact .inr List.mem_cons_self
        · exact .inl hd
      | some a =>
        have hnext : Walking up U (k :: seen) a := by
          refine ⟨List.nodup_cons.2 ⟨hk, h.nodup⟩, ?_, hU k h.here a hup, ?_⟩
          · intro b hb
            rcases List.mem_cons.1 hb with heq | hb
            · exact heq ▸ h.here
            · exact h.inside b hb
          · intro b hb e he
            rcases List.mem_cons.1 hb with rfl | hb
            · exact .inl (Option.some.inj (he.symm.trans hup))
            · exact .inr (List.mem_cons.2 (h.closed b hb e he))
        have hmem := ih hnext (by simp only [List.length_cons]; omega) (.inr hin) ?_
        · rcases hmem with hmem | hmem
          · rcases List.mem_cons.1 hmem with rfl | hmem
            · exact .inr List.mem_cons_self
            · exact .inl hmem
          · exact .inr (List.mem_cons_of_mem _ hmem)
        · intro ha
          refine mem_of_closed (P := fun b => b ∈ k :: seen) (fun b hb e he => ?_) hin hpath
          exact (hnext.closed b hb e he).elim (fun h => h ▸ ha) id

/-- **A walk meets what is reachable.** -/
theorem mem_trail (hU : ∀ k ∈ U, ∀ a, up k = some a → a ∈ U) (hroot : root ∈ U) (hn : U.card ≤ n) :
    c ∈ trail up n [] (some root) ↔ ReflTransGen (fun a b => up a = some b) root c := by
  refine ⟨reached_of_mem_trail, fun hpath => ?_⟩
  have hstart : Walking up U [] root := ⟨List.nodup_nil, by simp, hroot, by simp⟩
  exact (hstart.mem_trail hU (by simpa using hn) (.inl rfl) hpath).resolve_left List.not_mem_nil

end Lib
