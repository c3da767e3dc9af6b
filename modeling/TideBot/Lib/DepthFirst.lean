/-
  A walk that goes down first.

  `descend` goes to each successor that has not been seen, and does something when it leaves it again.
  What it does may change what the successors are, as when nodes are deleted; as long as this takes away
  seen ones only, the walk leaves each node that can be reached once (`descend_eq`).
-/
import Mathlib

namespace Lib

open Relation

variable {κ σ : Type*}

/-! ## What a walk has left -/

section
variable {succ : κ → List κ} {ks seen left left' seen' seen'' : List κ} {k : κ}

/-- The nodes `left` that a walk below the nodes `ks` has left: each once, none seen before, all reached, and all
    their successors seen. -/
structure Descended (succ : κ → List κ) (ks seen left seen' : List κ) : Prop where
  nodup : left.Nodup
  fresh : ∀ c ∈ left, c ∉ seen
  seen_iff : ∀ c, c ∈ seen' ↔ c ∈ seen ∨ c ∈ left
  reached : ∀ c ∈ left, ∃ k ∈ ks, ReflTransGen (fun a b => b ∈ succ a) k c
  closed : ∀ c ∈ left, ∀ d ∈ succ c, d ∈ seen'
  all : ∀ k ∈ ks, k ∈ seen'

namespace Descended

theorem refl (succ : κ → List κ) (seen : List κ) : Descended succ [] seen [] seen :=
  ⟨List.nodup_nil, by simp, by simp, by simp, by simp, by simp⟩

theorem skip (h : Descended succ ks seen left seen') (hk : k ∈ seen) : Descended succ (k :: ks) seen left seen' where
  nodup := h.nodup
  fresh := h.fresh
  seen_iff := h.seen_iff
  reached c hc := by
    obtain ⟨k', hk', hpath⟩ := h.reached c hc
    exact ⟨k', List.mem_cons_of_mem _ hk', hpath⟩
  closed := h.closed
  all c hc := by
    rcases List.mem_cons.1 hc with rfl | hc
    · exact (h.seen_iff c).2 (.inl hk)
    · exact h.all c hc

theorem visit (h : Descended succ (succ k) (k :: seen) left seen') (h' : Descended succ ks seen' left' seen'')
    (hk : k ∉ seen) : Descended succ (k :: ks) seen (left ++ k :: left') seen'' := by
  have hkseen : k ∈ seen' := (h.seen_iff k).2 (.inl List.mem_cons_self)
  have hleft : ∀ c ∈ left, c ∈ seen' := fun c hc => (h.seen_iff c).2 (.inr hc)
  have hgrown : ∀ c ∈ seen', c ∈ seen'' := fun c hc => (h'.seen_iff c).2 (.inl hc)
  refine ⟨?_, ?_, ?_, ?_, ?_, ?_⟩
  · refine List.nodup_append.2 ⟨h.nodup, List.nodup_cons.2 ⟨fun hc => h'.fresh k hc hkseen, h'.nodup⟩, ?_⟩
    rintro c hc d hd rfl
    rcases List.mem_cons.1 hd with rfl | hd
    · exact h.fresh c hc List.mem_cons_self
    · exact h'.fresh c hd (hleft c hc)
  · intro c hc hin
    rcases List.mem_append.1 hc with hc | hc
    · exact h.fresh c hc (List.mem_cons_of_mem _ hin)
    · rcases List.mem_cons.1 hc with rfl | hc
      · exact hk hin
      · exact h'.fresh c hc ((h.seen_iff c).2 (.inl (List.mem_cons_of_mem _ hin)))
  · intro c
    rw [h'.seen_iff, h.seen_iff]
    simp only [List.mem_cons, List.mem_append]
    tauto
  · intro c hc
    rcases List.mem_append.1 hc with hc | hc
    · obtain ⟨d, hd, hpath⟩ := h.reached c hc
      exact ⟨k, List.mem_cons_self, .head hd hpath⟩
    · rcases List.mem_cons.1 hc with rfl | hc
      · exact ⟨c, List.mem_cons_self, .refl⟩
      · obtain ⟨d, hd, hpath⟩ := h'.reached c hc
        exact ⟨d, List.mem_cons_of_mem _ hd, hpath⟩
  · intro c hc d hd
    rcases List.mem_append.1 hc with hc | hc
    · exact hgrown d (h.closed c hc d hd)
    · rcases List.mem_cons.1 hc with rfl | hc
      · exact hgrown d (h.all d hd)
      · exact h'.closed c hc d hd
  · intro c hc
    rcases List.mem_cons.1 hc with rfl | hc
    · exact hgrown c hkseen
    · exact h'.all c hc

end Descended

end

/-! ## The walk -/

variable [DecidableEq κ]

/-- A node that has not been seen is visited, and left. -/
def visitUnseen (visit : κ → List κ × σ → Except σ (List κ × σ)) (leave : σ → κ → σ) (s : List κ × σ) (c : κ) :
    Except σ (List κ × σ) :=
  if c ∈ s.1 then .ok s
  else
    match visit c (c :: s.1, s.2) with
    | .ok s => .ok (s.1, leave s.2 c)
    | .error s => .error s

/-- The walk below `k`, with the nodes that have been seen; if the successors of a node cannot be told, it
    ends with the state at hand. -/
def descend (next : σ → κ → Option (List κ)) (leave : σ → κ → σ) : ℕ → κ → List κ × σ → Except σ (List κ × σ)
  | 0, _, s => .error s.2
  | n + 1, k, s =>
    match next s.2 k with
    | none => .error s.2
    | some cs => cs.foldlM (visitUnseen (descend next leave n) leave) s

variable {next : σ → κ → Option (List κ)} {leave : σ → κ → σ} {succ : κ → List κ} {U : Finset κ} {s₀ : σ}
variable {n : ℕ} {k : κ} {ks seen done : List κ}

/-- **What the successors are while the walk is on**: those there were, without some that have been left. -/
def Fades (next : σ → κ → Option (List κ)) (leave : σ → κ → σ) (succ : κ → List κ) (U : Finset κ) (s₀ : σ) : Prop :=
  ∀ done : List κ, ∀ k ∈ U, ∃ cs, next (done.foldl leave s₀) k = some cs ∧ (∀ c ∈ cs, c ∈ succ k) ∧
    ∀ c ∈ succ k, c ∈ cs ∨ c ∈ done

theorem card_unseen_lt (hk : k ∈ U) (hseen : k ∉ seen) :
    (U \ (k :: seen).toFinset).card < (U \ seen.toFinset).card := by
  refine Finset.card_lt_card ⟨?_, fun hsub => ?_⟩
  · intro a ha
    simp only [Finset.mem_sdiff, List.mem_toFinset, List.mem_cons, not_or] at ha ⊢
    exact ⟨ha.1, ha.2.2⟩
  · have hmem := hsub (Finset.mem_sdiff.2 ⟨hk, fun h => hseen (List.mem_toFinset.1 h)⟩)
    simp at hmem

theorem card_unseen_le {seen' : List κ} (h : ∀ c ∈ seen, c ∈ seen') :
    (U \ seen'.toFinset).card ≤ (U \ seen.toFinset).card := by
  refine Finset.card_le_card fun a ha => ?_
  simp only [Finset.mem_sdiff, List.mem_toFinset] at ha ⊢
  exact ⟨ha.1, fun hin => ha.2 (h a hin)⟩

/-- What a walk below `k` does, if there is fuel for all nodes that it has not seen. -/
def Descends (next : σ → κ → Option (List κ)) (leave : σ → κ → σ) (succ : κ → List κ) (U : Finset κ) (s₀ : σ) (n : ℕ) :
    Prop :=
  ∀ {k seen done}, k ∈ U → k ∈ seen → (∀ c ∈ done, c ∈ seen) → (U \ seen.toFinset).card < n →
    ∃ left seen', descend next leave n k (seen, done.foldl leave s₀) = .ok (seen', (done ++ left).foldl leave s₀) ∧
      Descended succ (succ k) seen left seen'

/-- **The walk below some nodes**, one after the other. -/
theorem Descends.all (hn : Descends next leave succ U s₀ n) (hks : ∀ c ∈ ks, c ∈ U) (hdone : ∀ c ∈ done, c ∈ seen)
    (hcard : (U \ seen.toFinset).card ≤ n) :
    ∃ left seen', ks.foldlM (visitUnseen (descend next leave n) leave) (seen, done.foldl leave s₀) =
        .ok (seen', (done ++ left).foldl leave s₀) ∧ Descended succ ks seen left seen' := by
  induction ks generalizing seen done with
  | nil => exact ⟨[], seen, by rw [List.append_nil]; rfl, .refl succ seen⟩
  | cons k ks ih =>
    have hrest : ∀ c ∈ ks, c ∈ U := fun c hc => hks c (List.mem_cons_of_mem _ hc)
    rw [List.foldlM_cons, visitUnseen]
    by_cases hk : k ∈ seen
    · obtain ⟨left, seen', heq, h⟩ := ih hrest hdone hcard
      rw [if_pos hk]
      exact ⟨left, seen', heq, h.skip hk⟩
    · have hkU : k ∈ U := hks k List.mem_cons_self
      obtain ⟨left, seen', heq, h⟩ := hn hkU List.mem_cons_self (fun c hc => List.mem_cons_of_mem _ (hdone c hc))
        ((card_unseen_lt hkU hk).trans_le hcard)
      have hgrown : ∀ c ∈ seen, c ∈ seen' := fun c hc => (h.seen_iff c).2 (.inl (List.mem_cons_of_mem _ hc))
      have hdone' : ∀ c ∈ done ++ left ++ [k], c ∈ seen' := by
        simp only [List.mem_append, List.mem_singleton]
        rintro c ((hc | hc) | rfl)
        · exact hgrown c (hdone c hc)
        · exact (h.seen_iff c).2 (.inr hc)
        · exact (h.seen_iff c).2 (.inl List.mem_cons_self)
      obtain ⟨left', seen'', heq', h'⟩ := ih hrest hdone' ((card_unseen_le hgrown).trans hcard)
      have hleave : leave ((done ++ left).foldl leave s₀) k = (done ++ left ++ [k]).foldl leave s₀ := by
        rw [List.foldl_concat]
      refine ⟨left ++ k :: left', seen'', ?_, h.visit h' hk⟩
      rw [if_neg hk, heq]
      simp only [hleave, bind, Except.bind]
      simpa using heq'

theorem descends (hnext : Fades next leave succ U s₀) (hU : ∀ k ∈ U, ∀ c ∈ succ k, c ∈ U) :
    Descends next leave succ U s₀ n := by
  induction n with
  | zero => exact fun _ _ _ hn => absurd hn (Nat.not_lt_zero _)
  | succ n ih =>
    intro k seen done hk hkseen hdone hn
    obtain ⟨cs, hcs, hsub, hcover⟩ := hnext done k hk
    obtain ⟨left, seen', heq, h⟩ := ih.all (fun c hc => hU k hk c (hsub c hc)) hdone (Nat.lt_succ_iff.1 hn)
    refine ⟨left, seen', by rw [descend, hcs]; exact heq, h.nodup, h.fresh, h.seen_iff, ?_, h.closed, ?_⟩
    · intro c hc
      obtain ⟨d, hd, hpath⟩ := h.reached c hc
      exact ⟨d, hsub d hd, hpath⟩
    · intro c hc
      rcases hcover c hc with hc | hc
      · exact h.all c hc
      · exact (h.seen_iff c).2 (.inl (hdone c hc))

/-- **The walk leaves each node below `k` once.** -/
theorem descend_eq (hnext : Fades next leave succ U s₀) (hU : ∀ k ∈ U, ∀ c ∈ succ k, c ∈ U) (hk : k ∈ U)
    (hn : U.card ≤ n) :
    ∃ left seen', descend next leave n k ([k], s₀) = .ok (seen', left.foldl leave s₀) ∧ (k :: left).Nodup ∧
      ∀ c, c ∈ k :: left ↔ ReflTransGen (fun a b => b ∈ succ a) k c := by
  have hcard : (U \ [k].toFinset).card < n := by
    refine lt_of_lt_of_le (Finset.card_lt_card ⟨Finset.sdiff_subset, fun hsub => ?_⟩) hn
    simpa using hsub hk
  have hwalk : Descends next leave succ U s₀ n := descends hnext hU
  obtain ⟨left, seen', heq, h⟩ := hwalk hk (List.mem_singleton_self k)
    (show ∀ c ∈ ([] : List κ), c ∈ [k] by simp) hcard
  have hseen : ∀ c, c ∈ seen' ↔ c ∈ k :: left := by
    intro c
    rw [h.seen_iff, List.mem_singleton, List.mem_cons]
  refine ⟨left, seen', heq, List.nodup_cons.2 ⟨fun hin => h.fresh k hin (List.mem_singleton_self k), h.nodup⟩, ?_⟩
  intro c
  constructor
  · intro hc
    rcases List.mem_cons.1 hc with rfl | hc
    · exact .refl
    · obtain ⟨d, hd, hpath⟩ := h.reached c hc
      exact .head hd hpath
  · intro hpath
    rw [← hseen]
    induction hpath with
    | refl => exact (hseen k).2 List.mem_cons_self
    | tail _ hup ih =>
      rcases List.mem_cons.1 ((hseen _).1 ih) with rfl | hleft
      · exact h.all _ hup
      · exact h.closed _ hleft _ hup

/-! ## Walks that end well -/

/-- A walk below the nodes `ks` that ends well: what it has left, and what it has seen in the end. -/
inductive Walked (next : σ → κ → Option (List κ)) (leave : σ → κ → σ) :
    ℕ → List κ → List κ → σ → List κ → List κ → Prop where
  | nil (n : ℕ) (seen : List κ) (s : σ) : Walked next leave n [] seen s [] seen
  | skip {n : ℕ} {k : κ} {ks seen left seen' : List κ} {s : σ} (hk : k ∈ seen)
      (rest : Walked next leave n ks seen s left seen') : Walked next leave n (k :: ks) seen s left seen'
  | visit {n : ℕ} {k : κ} {ks cs seen left seen' left' seen'' : List κ} {s : σ} (hk : k ∉ seen)
      (hcs : next s k = some cs) (below : Walked next leave n cs (k :: seen) s left seen')
      (rest : Walked next leave (n + 1) ks seen' (leave (left.foldl leave s) k) left' seen'') :
      Walked next leave (n + 1) (k :: ks) seen s (left ++ k :: left') seen''

section
variable {left seen' : List κ} {s : σ} {t t' : List κ × σ} {c : κ}

/-- **A walk that ends well is one**, node by node. -/
theorem walked_of_foldlM (h : ks.foldlM (visitUnseen (descend next leave n) leave) t = .ok t') :
    ∃ left, Walked next leave n ks t.1 t.2 left t'.1 ∧ t'.2 = left.foldl leave t.2 := by
  induction n generalizing ks t t' with
  | zero =>
    induction ks with
    | nil =>
      cases h
      exact ⟨[], .nil .., rfl⟩
    | cons k ks ih =>
      rw [List.foldlM_cons, visitUnseen] at h
      split_ifs at h with hk
      · obtain ⟨left, hw, heq⟩ := ih h
        exact ⟨left, .skip hk hw, heq⟩
      · cases h
  | succ n ihn =>
    induction ks generalizing t with
    | nil =>
      cases h
      exact ⟨[], .nil .., rfl⟩
    | cons k ks ih =>
      rw [List.foldlM_cons, visitUnseen] at h
      split_ifs at h with hk
      · obtain ⟨left, hw, heq⟩ := ih h
        exact ⟨left, .skip hk hw, heq⟩
      · rw [descend] at h
        cases hcs : next t.2 k with
        | none =>
          rw [hcs] at h
          cases h
        | some cs =>
          rw [hcs] at h
          cases hbelow : cs.foldlM (visitUnseen (descend next leave n) leave) (k :: t.1, t.2) with
          | error s =>
            simp only [hbelow] at h
            cases h
          | ok s =>
            simp only [hbelow] at h
            obtain ⟨left, hw, heq⟩ := ihn hbelow
            obtain ⟨left', hw', heq'⟩ := ih h
            rw [heq] at hw' heq'
            refine ⟨left ++ k :: left', .visit hk hcs hw hw', ?_⟩
            rw [heq', List.foldl_append, List.foldl_cons]

theorem walked_of_descend (h : descend next leave n k t = .ok t') :
    ∃ m cs left, n = m + 1 ∧ next t.2 k = some cs ∧ Walked next leave m cs t.1 t.2 left t'.1 ∧
      t'.2 = left.foldl leave t.2 := by
  cases n with
  | zero => cases h
  | succ n =>
    rw [descend] at h
    cases hcs : next t.2 k with
    | none =>
      rw [hcs] at h
      cases h
    | some cs =>
      rw [hcs] at h
      obtain ⟨left, hw, heq⟩ := walked_of_foldlM h
      exact ⟨n, cs, left, rfl, rfl, hw, heq⟩

namespace Walked

omit [DecidableEq κ] in
theorem seen_iff (h : Walked next leave n ks seen s left seen') : c ∈ seen' ↔ c ∈ seen ∨ c ∈ left := by
  induction h with
  | nil => simp
  | skip _ _ ih => exact ih
  | visit _ _ _ _ ih ih' =>
    rw [ih', ih]
    simp only [List.mem_cons, List.mem_append]
    tauto

omit [DecidableEq κ] in
theorem all (h : Walked next leave n ks seen s left seen') : ∀ k ∈ ks, k ∈ seen' := by
  induction h with
  | nil => simp
  | skip hk rest ih =>
    intro c hc
    rcases List.mem_cons.1 hc with rfl | hc
    · exact rest.seen_iff.2 (.inl hk)
    · exact ih c hc
  | visit _ _ below rest _ ih' =>
    intro c hc
    rcases List.mem_cons.1 hc with rfl | hc
    · exact rest.seen_iff.2 (.inl (below.seen_iff.2 (.inl List.mem_cons_self)))
    · exact ih' c hc

omit [DecidableEq κ] in
/-- Where the successors do not depend on the state: what has been left has told them, and they have been seen. -/
theorem told {tell : κ → Option (List κ)} (h : Walked (fun _ => tell) leave n ks seen s left seen') :
    ∀ c ∈ left, ∃ cs, tell c = some cs ∧ ∀ d ∈ cs, d ∈ seen' := by
  induction h with
  | nil => simp
  | skip _ _ ih => exact ih
  | visit _ hcs below rest ih ih' =>
    intro c hc
    have hgrown := fun d hd => (rest.seen_iff (c := d)).2 (.inl hd)
    rcases List.mem_append.1 hc with hc | hc
    · obtain ⟨cs', hcs', hseen⟩ := ih c hc
      exact ⟨cs', hcs', fun d hd => hgrown d (hseen d hd)⟩
    · rcases List.mem_cons.1 hc with rfl | hc
      · exact ⟨_, hcs, fun d hd => hgrown d (below.all d hd)⟩
      · exact ih' c hc

end Walked

/-- **A walk that ends well could tell the successors of all nodes below `k`**, where they do not depend on the
    state. -/
theorem isSome_of_descend {tell : κ → Option (List κ)} {s₀ : σ} {R : κ → κ → Prop}
    (h : descend (fun _ => tell) leave n k ([k], s₀) = .ok t')
    (htells : ∀ a b cs, R a b → tell a = some cs → b ∈ cs) (hpath : ReflTransGen R k c) : (tell c).isSome := by
  obtain ⟨m, cs, left, rfl, hcs, hw, -⟩ := walked_of_descend h
  have htell : ∀ c ∈ t'.1, ∃ cs, tell c = some cs ∧ ∀ d ∈ cs, d ∈ t'.1 := by
    intro c hc
    rcases hw.seen_iff.1 hc with hk | hleft
    · rw [List.mem_singleton.1 hk]
      exact ⟨cs, hcs, hw.all⟩
    · exact hw.told c hleft
  have hmem : c ∈ t'.1 := by
    induction hpath with
    | refl => exact hw.seen_iff.2 (.inl (List.mem_singleton_self k))
    | tail _ hup ih =>
      obtain ⟨cs, hcs, hall⟩ := htell _ ih
      exact hall _ (htells _ _ cs hup hcs)
  obtain ⟨cs', hcs', -⟩ := htell c hmem
  rw [hcs']
  rfl

end

end Lib
