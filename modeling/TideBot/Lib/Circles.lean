/-
  Pointers that may run in circles.

  `walkEnd` follows a pointer until there is none, or a node comes up again, and says where it is then.
  It is back at the node where it began if and only if that node is on a circle (`walkEnd_eq_iff`).  If
  some nodes lose their pointers, the circles that are left are those that none of them is on
  (`onCircle_cut_iff`).
-/
import TideBot.Lib.Reach

namespace Lib

open Relation

variable {κ : Type*}

/-- `b` can be reached from `a`. -/
def Leads (up : κ → Option κ) : κ → κ → Prop := ReflTransGen fun a b => up a = some b

/-- The node is on a circle. -/
def OnCircle (up : κ → Option κ) (k : κ) : Prop := TransGen (fun a b => up a = some b) k k

/-- Some nodes lose their pointers. -/
def cut (up : κ → Option κ) (P : κ → Prop) [DecidablePred P] : κ → Option κ := fun k => if P k then none else up k

section
variable {up : κ → Option κ} {a b c k : κ} {P : κ → Prop} [DecidablePred P]

/-! ## Circles -/

theorem OnCircle.pointer (h : OnCircle up k) : ∃ a, up k = some a ∧ Leads up a k := TransGen.head'_iff.1 h

/-- **On a circle every way leads back.** -/
theorem OnCircle.back (h : OnCircle up k) (hpath : Leads up k c) : Leads up c k := by
  induction hpath with
  | refl => exact .refl
  | @tail b c _ hup ih =>
    rcases ReflTransGen.cases_head ih with rfl | ⟨c', hup', hback⟩
    · obtain ⟨c', hup', hback⟩ := h.pointer
      obtain rfl := Option.some.inj (hup'.symm.trans hup)
      exact hback
    · obtain rfl := Option.some.inj (hup'.symm.trans hup)
      exact hback

theorem OnCircle.of_leads (h : OnCircle up k) (hpath : Leads up k c) : OnCircle up c :=
  TransGen.trans_right (h.back hpath) (TransGen.trans_left h hpath)

theorem Leads.total (hb : Leads up a b) (hc : Leads up a c) : Leads up b c ∨ Leads up c b :=
  ReflTransGen.total_of_right_unique (fun _ _ _ h h' => Option.some.inj (h.symm.trans h')) hb hc

theorem Leads.eq_of_end (h : Leads up a b) (hend : up a = none) : b = a := by
  rcases ReflTransGen.cases_head h with heq | ⟨c, hup, -⟩
  · exact heq.symm
  · rw [hend] at hup
    cases hup

theorem Leads.end_unique (hb : Leads up a b) (hendb : up b = none) (hc : Leads up a c) (hendc : up c = none) :
    b = c := by
  rcases hb.total hc with h | h
  · exact (h.eq_of_end hendb).symm
  · exact h.eq_of_end hendc

theorem Leads.not_onCircle (hb : Leads up a b) (hend : up b = none) (hc : Leads up a c) : ¬OnCircle up c := by
  intro h
  have hcircle : OnCircle up b := by
    rcases hb.total hc with hpath | hpath
    · exact hpath.eq_of_end hend ▸ h
    · exact h.of_leads hpath
  obtain ⟨d, hup, -⟩ := hcircle.pointer
  rw [hend] at hup
  cases hup

theorem leads_of_cut (h : Leads (cut up P) a b) : Leads up a b := by
  induction h with
  | refl => exact .refl
  | tail _ hup ih =>
    unfold cut at hup
    split_ifs at hup
    exact ih.tail hup

/-- **The circles that are left.** -/
theorem onCircle_cut_iff : OnCircle (cut up P) k ↔ OnCircle up k ∧ ∀ r, Leads up k r → ¬ P r := by
  have hcut : ∀ {a}, ¬ P a → cut up P a = up a := fun h => if_neg h
  constructor
  · intro h
    -- a node on a circle that is left has kept its pointer, and so has what it leads to
    have hkept : ∀ a, OnCircle (cut up P) a → ¬ P a := by
      intro a ha hP
      obtain ⟨b, hup, -⟩ := ha.pointer
      rw [cut, if_pos hP] at hup
      cases hup
    have hall : ∀ r, Leads up k r → Leads (cut up P) k r := by
      intro r hr
      induction hr with
      | refl => exact .refl
      | tail _ hup ih => exact ih.tail ((hcut (hkept _ (h.of_leads ih))).trans hup)
    refine ⟨?_, fun r hr => hkept r (h.of_leads (hall r hr))⟩
    obtain ⟨a, hup, hback⟩ := h.pointer
    exact .head' ((hcut (hkept k h)).symm.trans hup) (leads_of_cut hback)
  · rintro ⟨h, hnone⟩
    obtain ⟨a, hup, hback⟩ := h.pointer
    have hall : ∀ {b c}, Leads up k b → Leads up b c → Leads (cut up P) b c := by
      intro b c hb hc
      induction hc with
      | refl => exact .refl
      | tail hpath hup ih => exact ih.tail ((hcut (hnone _ (hb.trans hpath))).trans hup)
    exact .head' ((hcut (hnone k .refl)).trans hup) (hall (.single hup) hback)

end

/-! ## The walk -/

section
variable [DecidableEq κ] {up : κ → Option κ} {U : Finset κ} {seen : List κ} {n : ℕ} {k c : κ} {o : Option κ}

/-- Where the walk is when there is no pointer, or a node comes up again. -/
def walkEnd (up : κ → Option κ) : ℕ → List κ → Option κ → Option κ
  | n + 1, seen, some k => if k ∈ seen then some k else walkEnd up n (k :: seen) (up k)
  | _, _, o => o

theorem leads_of_walkEnd (h : walkEnd up n seen (some c) = some k) : Leads up c k := by
  induction n generalizing seen c with
  | zero =>
    cases h
    exact .refl
  | succ n ih =>
    rw [walkEnd] at h
    split_ifs at h
    · cases h
      exact .refl
    · cases hup : up c with
      | none =>
        rw [hup] at h
        cases n <;> cases h
      | some a =>
        rw [hup] at h
        exact .head hup (ih h)

/-- Where a walk around a circle stands: it has come from `k`, node by node. -/
structure Rounding (up : κ → Option κ) (U : Finset κ) (k : κ) (seen : List κ) (c : κ) : Prop where
  chain : (c :: seen).IsChain fun later earlier => up earlier = some later
  first : seen.getLast? = some k
  nodup : seen.Nodup
  inside : ∀ a ∈ c :: seen, a ∈ U
  back : Leads up c k

/-- **The first node that comes up again is the one where the walk began.** -/
theorem Rounding.eq_of_mem (h : Rounding up U k seen c) (hc : c ∈ seen) : c = k := by
  obtain ⟨later, earlier, rfl⟩ := List.append_of_mem hc
  by_contra hne
  -- the nodes from the first visit to `c` on lead to each other only, and `k` is not one of them
  have hclosed : ∀ a ∈ later ++ [c], ∀ b, up a = some b → b ∈ later ++ [c] := by
    intro a ha b hup
    have hchain : (c :: (later ++ [c])).IsChain fun later earlier => up earlier = some later := by
      have hall := h.chain
      rw [show c :: (later ++ c :: earlier) = (c :: (later ++ [c])) ++ earlier by simp] at hall
      exact hall.left_of_append
    obtain ⟨pre, post, heq⟩ := List.append_of_mem ha
    rw [heq, ← List.cons_append] at hchain
    have hlast := (List.isChain_append.1 hchain).2.2 ((c :: pre).getLast (by simp))
      (List.getLast?_eq_some_getLast (by simp)) a (by simp)
    obtain rfl := Option.some.inj (hlast.symm.trans hup)
    rcases List.mem_cons.1 (List.getLast_mem (show c :: pre ≠ [] by simp)) with hb | hb
    · rw [hb]
      simp
    · rw [heq]
      exact List.mem_append_left _ hb
  have hmem : k ∈ later ++ [c] := mem_of_closed hclosed (by simp) h.back
  have hlater : k ∈ later := by
    rcases List.mem_append.1 hmem with hk | hk
    · exact hk
    · exact absurd (List.mem_singleton.1 hk).symm hne
  have hlast := h.first
  rw [List.getLast?_append_cons] at hlast
  cases earlier with
  | nil => exact hne (Option.some.inj hlast)
  | cons a earlier =>
    rw [List.getLast?_cons_cons] at hlast
    exact (List.nodup_append.1 h.nodup).2.2 k hlater k (List.mem_cons_of_mem _ (List.mem_of_getLast? hlast)) rfl

/-- **A walk around a circle comes back.** -/
theorem Rounding.walkEnd (h : Rounding up U k seen c) (hU : ∀ k a, up k = some a → k ∈ U)
    (hn : U.card ≤ n + seen.length) : Lib.walkEnd up n seen (some c) = some k := by
  induction n generalizing seen c with
  | zero =>
    have hsub : seen.toFinset ⊆ U := fun a ha => h.inside a (List.mem_cons_of_mem _ (List.mem_toFinset.1 ha))
    have hcard : U.card ≤ seen.toFinset.card := by
      rw [List.toFinset_card_of_nodup h.nodup]
      simpa using hn
    have hc : c ∈ seen := by
      rw [← List.mem_toFinset, Finset.eq_of_subset_of_card_le hsub hcard]
      exact h.inside c List.mem_cons_self
    obtain rfl := h.eq_of_mem hc
    rfl
  | succ n ih =>
    rw [Lib.walkEnd]
    split_ifs with hc
    · rw [h.eq_of_mem hc]
    · rcases ReflTransGen.cases_head h.back with rfl | ⟨a, hup, hback⟩
      · exact absurd (List.mem_of_getLast? h.first) hc
      · obtain ⟨b, seen, rfl⟩ := List.exists_cons_of_ne_nil (show seen ≠ [] by rintro rfl; cases h.first)
        rw [hup]
        refine ih ⟨?_, ?_, List.nodup_cons.2 ⟨hc, h.nodup⟩, ?_, hback⟩ ?_
        · exact List.isChain_cons_cons.2 ⟨hup, h.chain⟩
        · rw [List.getLast?_cons_cons]
          exact h.first
        · intro d hd
          rcases List.mem_cons.1 hd with rfl | hd
          · rcases ReflTransGen.cases_head hback with rfl | ⟨e, hup', -⟩
            · exact h.inside d (List.mem_cons_of_mem _ (List.mem_of_getLast? h.first))
            · exact hU d e hup'
          · exact h.inside d hd
        · simp only [List.length_cons] at hn ⊢
          omega

/-- **The walk is back at its first node if and only if that is on a circle.** -/
theorem walkEnd_eq_iff (hU : ∀ k a, up k = some a → k ∈ U) (hn : U.card ≤ n + 1) :
    walkEnd up n [k] (up k) = some k ↔ OnCircle up k := by
  constructor
  · intro h
    cases hup : up k with
    | none =>
      rw [hup] at h
      cases n <;> cases h
    | some a =>
      rw [hup] at h
      exact .head' hup (leads_of_walkEnd h)
  · intro h
    obtain ⟨a, hup, hback⟩ := h.pointer
    have hstart : Rounding up U k [k] a := by
      refine ⟨by simpa using hup, rfl, List.nodup_singleton k, ?_, hback⟩
      intro d hd
      rcases List.mem_cons.1 hd with rfl | hd
      · rcases ReflTransGen.cases_head hback with rfl | ⟨e, hup', -⟩
        · exact hU d d hup
        · exact hU d e hup'
      · exact List.mem_singleton.1 hd ▸ hU k a hup
    rw [hup]
    exact hstart.walkEnd hU hn

end

end Lib
