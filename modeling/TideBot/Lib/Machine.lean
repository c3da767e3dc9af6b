/-
  Machines with atomic steps, and their runs.

  A machine takes one atomic step on an input and answers with an output; an
  input that is not enabled in a state has no step.  A concurrent program is
  such a machine: its state holds the shared data and the position of every
  thread, its inputs name the thread that moves together with everything the
  environment decides (clock readings, random draws, answers from outside), so
  a sequence of inputs is an interleaving.

  * `RunIn C s tr t`: the runs from `s` to `t` with trace `tr` all of whose
    steps meet the condition `C` on the state before the step and the input;
    `Run` is the case without a condition;
  * `RunIn.invariant`, `RunIn.traceInvariant`: what every step keeps, every
    run keeps; `RunIn.safety`: what every step does under an invariant;
  * `RunIn.split`: the step taken at any position of a trace; `RunIn.iff_good`: the runs with a condition as those
    whose steps are good;
  * `recording`: the machine that keeps its trace as a history variable, for
    conditions on what has happened so far (`RunIn.recorded`, `RunIn.positions`);
  * `exec`: the executable counterpart, for concrete runs.
-/
import Mathlib

namespace Lib

/-- A deterministic machine with outputs; `none`: the input is not enabled. -/
structure Machine (σ ι ο : Type*) where
  step : σ → ι → Option (σ × ο)

namespace Machine

variable {σ ι ο : Type*} (M : Machine σ ι ο)

/-- The runs all of whose steps meet `C`, with the inputs taken and the
    outputs given. -/
inductive RunIn (C : σ → ι → Prop) (s : σ) : List (ι × ο) → σ → Prop
  | nil : RunIn C s [] s
  | snoc {tr t i u o} : RunIn C s tr t → C t i → M.step t i = some (u, o) →
      RunIn C s (tr ++ [(i, o)]) u

/-- All runs. -/
abbrev Run (s : σ) : List (ι × ο) → σ → Prop := M.RunIn (fun _ _ => True) s

/-- Run a list of inputs, each of which must meet `C`, collecting the trace. -/
def exec (C : σ → ι → Prop) [∀ s i, Decidable (C s i)] (s : σ) :
    List ι → Option (List (ι × ο) × σ)
  | [] => some ([], s)
  | i :: is =>
    if C s i then
      match M.step s i with
      | none => none
      | some (t, o) => (exec C t is).map fun r => ((i, o) :: r.1, r.2)
    else none

variable {M} {C D : σ → ι → Prop} {s t u : σ} {tr tr' : List (ι × ο)}

theorem RunIn.mono (h : M.RunIn C s tr t) (hCD : ∀ s i, C s i → D s i) : M.RunIn D s tr t := by
  induction h with
  | nil => exact .nil
  | snoc _ hC hs ih => exact .snoc ih (hCD _ _ hC) hs

theorem RunIn.run (h : M.RunIn C s tr t) : M.Run s tr t := h.mono fun _ _ _ => trivial

theorem RunIn.append (h : M.RunIn C s tr t) (h' : M.RunIn C t tr' u) :
    M.RunIn C s (tr ++ tr') u := by
  induction h' with
  | nil => simpa using h
  | snoc _ hC hs ih => rw [← List.append_assoc]; exact .snoc ih hC hs

theorem RunIn.cons {i : ι} {o : ο} (hC : C s i) (hs : M.step s i = some (t, o))
    (h : M.RunIn C t tr u) : M.RunIn C s ((i, o) :: tr) u := by
  have h₁ : M.RunIn C s ([] ++ [(i, o)]) t := .snoc .nil hC hs
  exact h₁.append h

/-- **What every step keeps, every run keeps.** -/
theorem RunIn.invariant {I : σ → Prop}
    (hstep : ∀ s i t o, C s i → I s → M.step s i = some (t, o) → I t)
    (h : M.RunIn C s tr t) (h₀ : I s) : I t := by
  induction h with
  | nil => exact h₀
  | snoc _ hC hs ih => exact hstep _ _ _ _ hC ih hs

theorem RunIn.traceInvariant {I : List (ι × ο) → σ → Prop}
    (hstep : ∀ tr s i t o, C s i → I tr s → M.step s i = some (t, o) → I (tr ++ [(i, o)]) t)
    (h : M.RunIn C s tr t) (h₀ : I [] s) : I tr t := by
  induction h with
  | nil => exact h₀
  | snoc _ hC hs ih => exact hstep _ _ _ _ _ hC ih hs

/-- **Under an invariant that makes every step good, every step of a run is good.** -/
theorem RunIn.safety {I : σ → Prop} {P : ι × ο → Prop}
    (hstep : ∀ s i t o, C s i → I s → M.step s i = some (t, o) → I t ∧ P (i, o))
    (h : M.RunIn C s tr t) (h₀ : I s) : I t ∧ ∀ e ∈ tr, P e := by
  refine h.traceInvariant (I := fun tr t => I t ∧ ∀ e ∈ tr, P e) ?_ ⟨h₀, by simp⟩
  rintro tr s i t o hC ⟨hs, htr⟩ hst
  obtain ⟨ht, ho⟩ := hstep s i t o hC hs hst
  refine ⟨ht, ?_⟩
  intro e he
  rcases List.mem_append.1 he with he | he
  · exact htr e he
  · rw [List.mem_singleton.1 he]; exact ho

theorem RunIn.split {xs ys : List (ι × ο)} {i : ι} {o : ο}
    (h : M.RunIn C s (xs ++ (i, o) :: ys) u) :
    ∃ t t', M.RunIn C s xs t ∧ C t i ∧ M.step t i = some (t', o) ∧ M.RunIn C t' ys u := by
  generalize htr : xs ++ (i, o) :: ys = tr at h
  induction h generalizing ys with
  | nil => simp at htr
  | @snoc tr t j u o' h hC hs ih =>
    rcases List.eq_nil_or_concat ys with rfl | ⟨ys, y, rfl⟩
    · obtain ⟨rfl, he⟩ := List.append_inj' htr rfl
      obtain ⟨rfl, rfl⟩ := Prod.mk.inj (List.cons.inj he).1
      exact ⟨t, u, h, hC, hs, .nil⟩
    · rw [List.concat_eq_append, ← List.cons_append, ← List.append_assoc] at htr
      obtain ⟨htr, he⟩ := List.append_inj' htr rfl
      obtain ⟨t₁, t₂, h₁, hC₁, hs₁, h₂⟩ := ih htr
      refine ⟨t₁, t₂, h₁, hC₁, hs₁, ?_⟩
      rw [List.concat_eq_append, (List.cons.inj he).1]
      exact .snoc h₂ hC hs

theorem RunIn.end_unique (h : M.RunIn C s tr t) {t' : σ} (h' : M.RunIn D s tr t') : t = t' := by
  induction h generalizing t' with
  | nil =>
    generalize htr : ([] : List (ι × ο)) = tr at h'
    cases h' with
    | nil => rfl
    | snoc => simp at htr
  | snoc _ _ hs ih =>
    obtain ⟨u, u', hu, -, hs', hnil⟩ := h'.split
    obtain rfl := ih hu
    rw [hs, Option.some.injEq, Prod.mk.injEq] at hs'
    generalize htr : ([] : List (ι × ο)) = tr at hnil
    cases hnil with
    | nil => exact hs'.1
    | snoc => simp at htr

/-- **Where each step meets the condition exactly if it is good and keeps a property, a run does too.** -/
theorem RunIn.iff_good {I Q : σ → Prop} {P : ι × ο → Prop}
    (hstep : ∀ s i t o, I s → M.step s i = some (t, o) → I t ∧ (Q s ∧ C s i ↔ P (i, o) ∧ Q t))
    (h : M.Run s tr t) (h₀ : I s) (hQ : Q s) : M.RunIn C s tr t ↔ (∀ e ∈ tr, P e) ∧ Q t := by
  suffices hgood : I t ∧ (M.RunIn C s tr t ↔ (∀ e ∈ tr, P e) ∧ Q t) from hgood.2
  induction h with
  | nil => exact ⟨h₀, iff_of_true .nil ⟨by simp, hQ⟩⟩
  | @snoc tr t i u o hrun _ hs ih =>
    obtain ⟨hI, hiff⟩ := hstep t i u o ih.1 hs
    have hsnoc : M.RunIn C s (tr ++ [(i, o)]) u ↔ M.RunIn C s tr t ∧ C t i := by
      refine ⟨fun h => ?_, fun h => .snoc h.1 h.2 hs⟩
      obtain ⟨t', -, h', hC, -⟩ := h.split
      obtain rfl := hrun.end_unique h'
      exact ⟨h', hC⟩
    refine ⟨hI, ?_⟩
    rw [hsnoc, ih.2, and_assoc, hiff, List.forall_mem_append, List.forall_mem_singleton, and_assoc]

/-! ## History -/

/-- The machine that keeps the trace so far in its state. -/
def recording (M : Machine σ ι ο) : Machine (List (ι × ο) × σ) ι ο where
  step s i := (M.step s.2 i).map fun r => ((s.1 ++ [(i, r.2)], r.1), r.2)

theorem recording_step {x y : List (ι × ο) × σ} {i : ι} {o : ο}
    (h : M.recording.step x i = some (y, o)) :
    M.step x.2 i = some (y.2, o) ∧ y.1 = x.1 ++ [(i, o)] := by
  obtain ⟨⟨t, o'⟩, hs, hr⟩ := Option.map_eq_some_iff.1 h
  obtain ⟨rfl, rfl⟩ := Prod.mk.inj hr
  exact ⟨hs, rfl⟩

theorem RunIn.recorded {C : List (ι × ο) × σ → ι → Prop} {y : List (ι × ο) × σ}
    (h : M.recording.RunIn C ([], s) tr y) : y.1 = tr ∧ M.Run s tr y.2 := by
  induction h with
  | nil => exact ⟨rfl, .nil⟩
  | snoc _ _ hs ih =>
    obtain ⟨hstep, hrec⟩ := recording_step hs
    exact ⟨by rw [hrec, ih.1], .snoc ih.2 trivial hstep⟩

/-- A position of a trace that has grown by one step: that step, or one before. -/
theorem snoc_eq_split {z x : ι × ο} {tr xs ys : List (ι × ο)} (h : tr ++ [z] = xs ++ x :: ys) :
    (tr = xs ∧ z = x ∧ ys = []) ∨ ∃ zs, ys = zs ++ [z] ∧ tr = xs ++ x :: zs := by
  rcases List.eq_nil_or_concat ys with rfl | ⟨zs, w, rfl⟩
  · obtain ⟨rfl, he⟩ := List.append_inj' h rfl
    exact .inl ⟨rfl, (List.cons.inj he).1, rfl⟩
  · rw [List.concat_eq_append, ← List.cons_append, ← List.append_assoc] at h
    obtain ⟨rfl, he⟩ := List.append_inj' h rfl
    obtain rfl := (List.cons.inj he).1
    exact .inr ⟨zs, List.concat_eq_append, rfl⟩

/-- **What every step does, given what was before it, is so at every position.** -/
theorem RunIn.positions {C : List (ι × ο) × σ → ι → Prop} {y : List (ι × ο) × σ}
    {I : List (ι × ο) → σ → Prop} {P : List (ι × ο) → ι × ο → Prop}
    (hstep : ∀ tr s i t o, C (tr, s) i → I tr s → M.step s i = some (t, o) →
      I (tr ++ [(i, o)]) t ∧ P tr (i, o))
    (h : M.recording.RunIn C ([], s) tr y) (h₀ : I [] s) :
    I tr y.2 ∧ ∀ xs x ys, tr = xs ++ x :: ys → P xs x := by
  obtain ⟨rfl, -⟩ := h.recorded
  refine h.invariant (I := fun y => I y.1 y.2 ∧ ∀ xs x ys, y.1 = xs ++ x :: ys → P xs x) ?_
    ⟨h₀, by simp⟩
  rintro ⟨tr, s⟩ i ⟨tr', t⟩ o hC ⟨hI, hP⟩ hrec
  obtain ⟨hs, htr⟩ := recording_step hrec
  simp only at hs htr
  subst htr
  obtain ⟨hI', hP'⟩ := hstep tr s i t o hC hI hs
  refine ⟨hI', ?_⟩
  intro xs x ys heq
  rcases snoc_eq_split heq with ⟨rfl, rfl, -⟩ | ⟨zs, -, heq⟩
  · exact hP'
  · exact hP xs x zs heq

theorem inputs_of_exec [∀ s i, Decidable (C s i)] {is : List ι} {r : List (ι × ο) × σ}
    (h : r ∈ M.exec C s is) : r.1.map Prod.fst = is := by
  induction is generalizing s r with
  | nil => cases h; rfl
  | cons i is ih =>
    rw [exec] at h
    split_ifs at h with hC
    · split at h
      · cases h
      · obtain ⟨r₁, he, rfl⟩ := Option.map_eq_some_iff.1 h
        rw [List.map_cons, ih he]
    · cases h

theorem runIn_of_exec [∀ s i, Decidable (C s i)] {is : List ι} {r : List (ι × ο) × σ}
    (h : r ∈ M.exec C s is) : M.RunIn C s r.1 r.2 := by
  induction is generalizing s r with
  | nil => cases h; exact .nil
  | cons i is ih =>
    rw [exec] at h
    split_ifs at h with hC
    · split at h
      · cases h
      · rename_i t o hs
        obtain ⟨r₁, he, rfl⟩ := Option.map_eq_some_iff.1 h
        exact .cons hC hs (ih he)
    · cases h

end Machine

end Lib
