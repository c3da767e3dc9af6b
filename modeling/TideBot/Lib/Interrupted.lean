/-
  A walk that is interrupted.

  `descendOr` is the walk of `descend`, but to leave a node may fail.  If there are nodes that cannot tell their
  successors (`halts`), and nodes that cannot be left (`stuck`), it leaves what the walk without them leaves, up to the
  first node that is one of them, or below one that halts (`descendOr_eq`).  Of the nodes it is asked that each is the
  successor of one other at most.
-/
import TideBot.Lib.DepthFirst

namespace Lib

open Relation

variable {κ σ τ : Type*} [DecidableEq κ]

/-! ## The walk -/

/-- A node that has not been seen is visited, and left, if it can be. -/
def visitOr (visit : κ → List κ × σ → Except σ (List κ × σ)) (leave : σ → κ → Except σ σ) (s : List κ × σ) (c : κ) :
    Except σ (List κ × σ) :=
  if c ∈ s.1 then .ok s
  else
    match visit c (c :: s.1, s.2) with
    | .ok s => (leave s.2 c).map fun s' => (s.1, s')
    | .error s => .error s

/-- The walk below `k`; it ends with the state at hand if the successors of a node cannot be told, or a node cannot be
    left. -/
def descendOr (next : σ → κ → Option (List κ)) (leave : σ → κ → Except σ σ) :
    ℕ → κ → List κ × σ → Except σ (List κ × σ)
  | 0, _, s => .error s.2
  | n + 1, k, s =>
    match next s.2 k with
    | none => .error s.2
    | some cs => cs.foldlM (visitOr (descendOr next leave n) leave) s

/-- Some nodes cannot tell their successors. -/
def haltedNext (halts : κ → Prop) [DecidablePred halts] (next : σ → κ → Option (List κ)) (s : σ) (k : κ) :
    Option (List κ) := if halts k then none else next s k

/-- Some nodes cannot be left. -/
def stuckLeave (stuck : κ → Prop) [DecidablePred stuck] (leave : σ → κ → σ) (s : σ) (k : κ) : Except σ σ :=
  if stuck k then .error s else .ok (leave s k)

/-! ## Where it ends -/

/-- A way down from `a` to `c` that does not come back to the root. -/
def Below (R : κ → κ → Prop) (root a c : κ) : Prop := ReflTransGen (fun a b => R a b ∧ b ≠ root) a c

/-- The walk does not come to leave `c`: it cannot be left, or it is one that halts, or below one. -/
def Stops (R : κ → κ → Prop) (root : κ) (halts stuck : κ → Prop) (c : κ) : Prop :=
  stuck c ∨ ∃ a, halts a ∧ Below R root a c

variable {next : σ → κ → Option (List κ)} {leave : σ → κ → σ} {R : κ → κ → Prop} {root k : κ} {n : ℕ}
variable {ks seen seen' left : List κ} {s : σ} {P : σ → Prop}

/-- In all states that the walk comes to, what is told of successors is true. -/
structure Follows (next : σ → κ → Option (List κ)) (leave : σ → κ → σ) (R : κ → κ → Prop) (P : σ → Prop) : Prop where
  leave : ∀ s c, P s → P (leave s c)
  next : ∀ s k cs, P s → next s k = some cs → ∀ c ∈ cs, R k c

omit [DecidableEq κ] in
theorem Follows.foldl (h : Follows next leave R P) (hs : P s) (left : List κ) : P (left.foldl leave s) := by
  induction left generalizing s with
  | nil => exact hs
  | cons c left ih => exact ih (h.leave s c hs)

namespace Walked

omit [DecidableEq κ] in
/-- What a walk has left is below one of its nodes, and not by way of the root. -/
theorem all_below (h : Walked next leave n ks seen s left seen') (hR : Follows next leave R P) (hs : P s)
    (hroot : root ∈ seen) : ∀ c ∈ left, ∃ k ∈ ks, k ≠ root ∧ Below R root k c := by
  induction h with
  | nil => simp
  | skip _ _ ih =>
    intro c hc
    obtain ⟨k', hk', hbelow⟩ := ih hs hroot c hc
    exact ⟨k', List.mem_cons_of_mem _ hk', hbelow⟩
  | @visit n k ks cs seen left seen' left' seen'' s hk hcs hw hrest ih ih' =>
    have hne : k ≠ root := fun heq => hk (heq ▸ hroot)
    intro c hc
    rcases List.mem_append.1 hc with hc | hc
    · obtain ⟨k', hk', hne', hbelow⟩ := ih hs (List.mem_cons_of_mem _ hroot) c hc
      exact ⟨k, List.mem_cons_self, hne, .head ⟨hR.next s k cs hs hcs k' hk', hne'⟩ hbelow⟩
    · rcases List.mem_cons.1 hc with rfl | hc
      · exact ⟨c, List.mem_cons_self, hne, .refl⟩
      · have hroot' : root ∈ seen' := hw.seen_iff.2 (.inl (List.mem_cons_of_mem _ hroot))
        obtain ⟨k', hk', hbelow⟩ := ih' (hR.leave _ k (hR.foldl hs left)) hroot' c hc
        exact ⟨k', List.mem_cons_of_mem _ hk', hbelow⟩

variable (halts stuck : κ → Prop) [DecidablePred halts] [DecidablePred stuck]

/-- **The interrupted walk of some nodes**, of which none is below one that halts. -/
theorem interrupted (h : Walked next leave n ks seen s left seen') (hR : Follows next leave R P) (hs : P s)
    (hunique : ∀ a b c, R a c → R b c → a = b)
    (hroot : root ∈ seen) (hks : ∀ k ∈ ks, k ∉ seen → (∃ a, halts a ∧ Below R root a k) → halts k) :
    (∃ before c after, left = before ++ c :: after ∧ (∀ b ∈ before, ¬ Stops R root halts stuck b) ∧
      Stops R root halts stuck c ∧ (∃ b ∈ left, halts b ∨ stuck b) ∧
      ks.foldlM (visitOr (descendOr (haltedNext halts next) (stuckLeave stuck leave) n) (stuckLeave stuck leave))
        (seen, s) = .error (before.foldl leave s)) ∨
    (∀ c ∈ left, ¬ Stops R root halts stuck c) ∧
      ks.foldlM (visitOr (descendOr (haltedNext halts next) (stuckLeave stuck leave) n) (stuckLeave stuck leave))
        (seen, s) = .ok (seen', left.foldl leave s) := by
  induction h with
  | nil => exact .inr ⟨by simp, rfl⟩
  | @skip n k ks seen left seen' s hk _ ih =>
    have hwalk : visitOr (descendOr (haltedNext halts next) (stuckLeave stuck leave) n) (stuckLeave stuck leave)
        (seen, s) k = .ok (seen, s) := if_pos hk
    rw [List.foldlM_cons, hwalk]
    exact ih hs hroot fun k' hk' => hks k' (List.mem_cons_of_mem _ hk')
  | @visit n k ks cs seen left seen' left' seen'' s hk hcs hw hrest ih ih' =>
    rw [List.foldlM_cons, visitOr, if_neg hk, descendOr]
    have hroot' : root ∈ k :: seen := List.mem_cons_of_mem _ hroot
    by_cases hhalts : halts k
    · -- all that is left below `k` is below one that halts
      have hall : ∀ c ∈ left ++ [k], Stops R root halts stuck c := by
        intro c hc
        rcases List.mem_append.1 hc with hc | hc
        · obtain ⟨k', hk', hne, hbelow⟩ := hw.all_below hR hs hroot' c hc
          exact .inr ⟨k, hhalts, .head ⟨hR.next s k cs hs hcs k' hk', hne⟩ hbelow⟩
        · rw [List.mem_singleton.1 hc]
          exact .inr ⟨k, hhalts, .refl⟩
      obtain ⟨c, after, heq⟩ : ∃ c after, left ++ [k] = c :: after := List.exists_cons_of_ne_nil (by simp)
      refine .inl ⟨[], c, after ++ left', ?_, by simp, hall c (heq ▸ List.mem_cons_self), ⟨k, by simp, .inl hhalts⟩, ?_⟩
      · rw [List.nil_append, ← List.cons_append, ← heq, List.append_assoc, List.singleton_append]
      · rw [haltedNext, if_pos hhalts]
        rfl
    · have hblocked : ¬ ∃ a, halts a ∧ Below R root a k := fun h => hhalts (hks k List.mem_cons_self hk h)
      have hcs' : ∀ c ∈ cs, c ∉ k :: seen → (∃ a, halts a ∧ Below R root a c) → halts c := by
        rintro c hc - ⟨a, ha, hbelow⟩
        rcases ReflTransGen.cases_tail hbelow with rfl | ⟨b, hab, hbc, -⟩
        · exact ha
        · rw [hunique b k c hbc (hR.next s k cs hs hcs c hc)] at hab
          exact absurd ⟨a, ha, hab⟩ hblocked
      rw [haltedNext, if_neg hhalts, hcs]
      obtain ⟨before, c, after, rfl, hbefore, hc, ⟨b, hb, hstop⟩, hwalk⟩ | ⟨hleft, hwalk⟩ := ih hs hroot' hcs'
      · refine .inl ⟨before, c, after ++ k :: left', by simp, hbefore, hc, ⟨b, List.mem_append_left _ hb, hstop⟩, ?_⟩
        simp only [hwalk]
        rfl
      · by_cases hstuck : stuck k
        · refine .inl ⟨left, k, left', rfl, hleft, .inl hstuck, ⟨k, by simp, .inr hstuck⟩, ?_⟩
          simp only [hwalk, stuckLeave, if_pos hstuck]
          rfl
        · have hk' : ¬ Stops R root halts stuck k := fun h => h.elim hstuck hblocked
          have hseen : ∀ c, c ∈ seen → c ∈ seen' := fun c hc => hw.seen_iff.2 (.inl (List.mem_cons_of_mem _ hc))
          have hrest := ih' (hR.leave _ k (hR.foldl hs left)) (hseen root hroot) fun k' hk' hnot =>
            hks k' (List.mem_cons_of_mem _ hk') fun hin => hnot (hseen k' hin)
          simp only [hwalk, stuckLeave, if_neg hstuck]
          obtain ⟨before, c, after, rfl, hbefore, hc, ⟨b, hb, hstop⟩, hwalk'⟩ | ⟨hleft', hwalk'⟩ := hrest
          · have hmem : b ∈ left ++ k :: (before ++ c :: after) := List.mem_append_right _ (List.mem_cons_of_mem _ hb)
            refine .inl ⟨left ++ k :: before, c, after, by simp, ?_, hc, ⟨b, hmem, hstop⟩, ?_⟩
            · simp only [List.mem_append, List.mem_cons]
              rintro b' (hb' | rfl | hb')
              · exact hleft b' hb'
              · exact hk'
              · exact hbefore b' hb'
            · rw [List.foldl_append, List.foldl_cons]
              exact hwalk'
          · refine .inr ⟨?_, ?_⟩
            · simp only [List.mem_append, List.mem_cons]
              rintro b' (hb' | rfl | hb')
              · exact hleft b' hb'
              · exact hk'
              · exact hleft' b' hb'
            · rw [List.foldl_append, List.foldl_cons]
              exact hwalk'

/-- **The interrupted walk below the root**: it leaves what the walk without interruption leaves, up to the first node
    to which it does not come. -/
theorem descendOr_eq {cs : List κ} (h : Walked next leave n cs [root] s left seen') (hcs : next s root = some cs)
    (hR : Follows next leave R P) (hs : P s) (hunique : ∀ a b c, R a c → R b c → a = b) :
    (∃ before after, left = before ++ after ∧ (∀ b ∈ before, ¬ Stops R root halts stuck b) ∧
      (∀ c ∈ after.head?, Stops R root halts stuck c) ∧ (halts root ∨ ∃ b ∈ left, halts b ∨ stuck b) ∧
      descendOr (haltedNext halts next) (stuckLeave stuck leave) (n + 1) root ([root], s) =
        .error (before.foldl leave s)) ∨
    (¬ halts root ∧ (∀ c ∈ left, ¬ Stops R root halts stuck c) ∧
      descendOr (haltedNext halts next) (stuckLeave stuck leave) (n + 1) root ([root], s) =
        .ok (seen', left.foldl leave s)) := by
  have hroot : root ∈ [root] := List.mem_singleton_self root
  rw [descendOr]
  by_cases hhalts : halts root
  · refine .inl ⟨[], left, rfl, by simp, fun c hc => ?_, .inl hhalts, ?_⟩
    · obtain ⟨k, hk, hne, hbelow⟩ := h.all_below hR hs hroot c (List.mem_of_mem_head? hc)
      exact .inr ⟨root, hhalts, .head ⟨hR.next s root cs hs hcs k hk, hne⟩ hbelow⟩
    · rw [haltedNext, if_pos hhalts]
      rfl
  · have hks : ∀ c ∈ cs, c ∉ [root] → (∃ a, halts a ∧ Below R root a c) → halts c := by
      rintro c hc - ⟨a, ha, hbelow⟩
      rcases ReflTransGen.cases_tail hbelow with rfl | ⟨b, hab, hbc, -⟩
      · exact ha
      · rw [hunique b root c hbc (hR.next s root cs hs hcs c hc)] at hab
        rcases ReflTransGen.cases_tail hab with rfl | ⟨-, -, -, hne⟩
        · exact absurd ha hhalts
        · exact absurd rfl hne
    rw [haltedNext, if_neg hhalts, hcs]
    obtain ⟨before, c, after, rfl, hbefore, hc, hstop, hwalk⟩ | ⟨hleft, hwalk⟩ :=
      h.interrupted halts stuck hR hs hunique hroot hks
    · exact .inl ⟨before, c :: after, rfl, hbefore, by simpa using hc, .inr hstop, hwalk⟩
    · exact .inr ⟨hhalts, hleft, hwalk⟩

end Walked

/-! ## Successors that go -/

/-- **A walk whose nodes are taken away as they are left** leaves the same nodes as one that keeps them: those that are
    missing have been seen. -/
theorem Walked.fading {tell : κ → Option (List κ)} {keep : τ → κ → τ} {t : τ} {s₀ : σ}
    (h : Walked (fun _ => tell) keep n ks seen t left seen')
    (hnext : ∀ (done : List κ) k cs, tell k = some cs →
      next (done.foldl leave s₀) k = some (cs.filter fun c => c ∉ done))
    (p : κ → Bool) (done : List κ) (hp : ∀ c ∈ ks, c ∉ seen → p c) (hdone : ∀ c ∈ done, c ∈ seen) :
    Walked next leave n (ks.filter p) seen (done.foldl leave s₀) left seen' := by
  induction h generalizing p done with
  | nil => exact .nil ..
  | @skip n k ks seen left seen' t hk _ ih =>
    have hrest := ih p done (fun c hc => hp c (List.mem_cons_of_mem _ hc)) hdone
    rw [List.filter_cons]
    split_ifs
    · exact .skip hk hrest
    · exact hrest
  | @visit n k ks cs seen left seen' left' seen'' t hk hcs hw hrest ih ih' =>
    rw [List.filter_cons, if_pos (hp k List.mem_cons_self hk)]
    have hseen : ∀ c ∈ seen, c ∈ seen' := fun c hc => hw.seen_iff.2 (.inl (List.mem_cons_of_mem _ hc))
    refine .visit hk (hnext done k cs hcs) (ih _ done (fun c _ hc => ?_) fun c hc => ?_) ?_
    · exact decide_eq_true fun hin => hc (List.mem_cons_of_mem _ (hdone c hin))
    · exact List.mem_cons_of_mem _ (hdone c hc)
    · have hleave : leave (left.foldl leave (done.foldl leave s₀)) k = (done ++ left ++ [k]).foldl leave s₀ := by
        rw [List.foldl_append, List.foldl_append, List.foldl_cons, List.foldl_nil]
      rw [hleave]
      refine ih' p _ (fun c hc hnot => hp c (List.mem_cons_of_mem _ hc) fun hin => hnot (hseen c hin)) ?_
      simp only [List.mem_append, List.mem_singleton]
      rintro c ((hc | hc) | rfl)
      · exact hseen c (hdone c hc)
      · exact hw.seen_iff.2 (.inr hc)
      · exact hw.seen_iff.2 (.inl List.mem_cons_self)

end Lib
