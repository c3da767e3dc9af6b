/-
  Events in batches.

  Some events carry a text, which is to be appended to what has been sent for their key.  Adjacent
  events of one key may be sent as one, with their texts joined; each other event is sent as it is
  (`Batched`).  That nothing is lost is seen by a count that batches keep (`Batched.weight_eq`): the
  length of all texts, with one more for each event without a text and for each change of key.
-/
import Mathlib

namespace Lib

/-- The keys of events, and the texts of those that have one. -/
structure Deltas (α κ β : Type*) where
  key : α → κ
  text : α → Option (List β)

namespace Deltas

variable {α κ β : Type*} (D : Deltas α κ β)

/-- The texts of events, joined. -/
def joined (events : List α) : List β := events.flatMap fun a => (D.text a).getD []

/-- `x` is sent for `group`. -/
def SentFor (x : α) (group : List α) : Prop :=
  group = [x] ∨ group ≠ [] ∧ (∀ a ∈ group, D.key a = D.key x ∧ (D.text a).isSome) ∧
    D.text x = some (D.joined group)

/-- What is sent stands for the events, all of them and in their order. -/
inductive Batched : (sent events : List α) → Prop
  | nil : Batched [] []
  | snoc {sent events group x} : Batched sent events → D.SentFor x group → Batched (sent ++ [x]) (events ++ group)

variable {D} {sent events group group' : List α} {x y z a : α} {s t : List β}

@[simp] theorem joined_append : D.joined (group ++ group') = D.joined group ++ D.joined group' :=
  List.flatMap_append

@[simp] theorem joined_singleton : D.joined [a] = (D.text a).getD [] := by simp [joined]

theorem SentFor.texts (h : D.SentFor x group) (hx : D.text x = some s) : group ≠ [] ∧
    (∀ a ∈ group, D.key a = D.key x ∧ (D.text a).isSome) ∧ D.text x = some (D.joined group) := by
  obtain rfl | h := h
  · refine ⟨List.cons_ne_nil _ _, ?_, ?_⟩
    · rintro a ha
      rw [List.mem_singleton.1 ha, hx]
      exact ⟨rfl, rfl⟩
    · rw [joined_singleton, hx]
      rfl
  · exact h

theorem SentFor.join (h : D.SentFor x group) (h' : D.SentFor y group') (hx : D.text x = some s)
    (hy : D.text y = some t) (hz : D.text z = some (s ++ t)) (hkey : D.key y = D.key x)
    (hkey' : D.key z = D.key x) : D.SentFor z (group ++ group') := by
  obtain ⟨hne, hgroup, hs⟩ := h.texts hx
  obtain ⟨-, hgroup', ht⟩ := h'.texts hy
  refine .inr ⟨by simp [hne], fun a ha => ?_, ?_⟩
  · obtain ha | ha := List.mem_append.1 ha
    · exact ⟨by rw [(hgroup a ha).1, hkey'], (hgroup a ha).2⟩
    · exact ⟨by rw [(hgroup' a ha).1, hkey, hkey'], (hgroup' a ha).2⟩
  · rw [hx] at hs
    rw [hy] at ht
    rw [hz, joined_append, ← Option.some_inj.1 hs, ← Option.some_inj.1 ht]

theorem Batched.single (h : D.Batched sent events) : D.Batched (sent ++ [a]) (events ++ [a]) :=
  h.snoc (.inl rfl)

theorem Batched.last (h : D.Batched (sent ++ [x]) events) :
    ∃ before group, events = before ++ group ∧ D.Batched sent before ∧ D.SentFor x group := by
  generalize hsent : sent ++ [x] = sent' at h
  cases h with
  | nil => simp at hsent
  | snoc h hx =>
    obtain ⟨rfl, hlast⟩ := List.append_inj' hsent rfl
    obtain rfl := List.singleton_injective hlast
    exact ⟨_, _, rfl, h, hx⟩

theorem Batched.extend (h : D.Batched (sent ++ [x]) events) (hx : D.text x = some s) (ha : D.text a = some t)
    (hz : D.text z = some (s ++ t)) (hkey : D.key a = D.key x) (hkey' : D.key z = D.key x) :
    D.Batched (sent ++ [z]) (events ++ [a]) := by
  obtain ⟨before, group, rfl, h, hgroup⟩ := h.last
  rw [List.append_assoc]
  exact h.snoc (hgroup.join (.inl rfl) hx ha hz hkey hkey')

theorem Batched.absorb (h : D.Batched (sent ++ [x] ++ [y]) events) (hx : D.text x = some s) (hy : D.text y = some [])
    (hkey : D.key y = D.key x) : D.Batched (sent ++ [x]) events := by
  obtain ⟨before, group', rfl, h, hgroup'⟩ := h.last
  obtain ⟨before, group, rfl, h, hgroup⟩ := h.last
  rw [List.append_assoc]
  exact h.snoc (hgroup.join hgroup' hx hy (by rw [hx, List.append_nil]) hkey rfl)

/-! ## What batches keep -/

variable (D) in
/-- If `last'` is a text, so is `last`, of the same key. -/
def Covers (last last' : Option α) : Prop :=
  ∀ b ∈ last', (D.text b).isSome → ∃ c ∈ last, (D.text c).isSome ∧ D.key c = D.key b

theorem Covers.refl {last : Option α} : D.Covers last last := fun b hb hs => ⟨b, hb, hs, rfl⟩

variable (D) [DecidableEq κ]

/-- What an event adds to the count, after `last`. -/
def cost (last : Option α) (a : α) : ℕ :=
  match D.text a with
  | none => 1
  | some s => s.length + if last.any fun b => (D.text b).isSome && D.key b = D.key a then 0 else 1

/-- The count of a list of events, after `last`. -/
def weight (last : Option α) : List α → ℕ
  | [] => 0
  | a :: events => D.cost last a + weight (some a) events

variable {D} {last last' : Option α}

theorem cost_none (ha : D.text a = none) : D.cost last a = 1 := by rw [cost, ha]

theorem length_le_cost (ha : D.text a = some t) : t.length ≤ D.cost last a := by
  rw [cost, ha]
  exact Nat.le_add_right _ _

theorem cost_join (hx : D.text x = some s) (hz : D.text z = some (s ++ t)) (hkey : D.key z = D.key x) :
    D.cost last z = D.cost last x + t.length := by
  simp only [cost, hx, hz, hkey, List.length_append]
  omega

theorem of_cost_eq_zero (h : D.cost last a = 0) :
    D.text a = some [] ∧ ∃ b ∈ last, (D.text b).isSome ∧ D.key b = D.key a := by
  cases ha : D.text a with
  | none =>
    rw [cost_none ha] at h
    cases h
  | some s =>
    simp only [cost, ha, Nat.add_eq_zero_iff, List.length_eq_zero_iff, ite_eq_left_iff, one_ne_zero, imp_false,
      not_not] at h
    obtain ⟨b, hb, hs⟩ := (Option.any_eq_true _ _).1 h.2
    simp only [Bool.and_eq_true, decide_eq_true_eq] at hs
    exact ⟨congrArg some h.1, b, hb, hs⟩

theorem weight_append : D.weight last (events ++ group) =
    D.weight last events + D.weight (events.getLast?.or last) group := by
  induction events generalizing last with
  | nil => simp [weight]
  | cons a events ih =>
    rw [List.cons_append, weight, weight, ih, Nat.add_assoc]
    cases events <;> rfl

theorem weight_snoc : D.weight last (events ++ [a]) = D.weight last events + D.cost (events.getLast?.or last) a := by
  rw [weight_append, weight, weight, Nat.add_zero]

theorem Covers.cost_le (h : D.Covers last last') : D.cost last a ≤ D.cost last' a := by
  cases ha : D.text a with
  | none => rw [cost_none ha, cost_none ha]
  | some s =>
    simp only [cost, ha]
    split_ifs with hlast hlast' hlast'
    · exact le_rfl
    · omega
    · obtain ⟨b, hb, hs⟩ := (Option.any_eq_true _ _).1 hlast'
      simp only [Bool.and_eq_true, decide_eq_true_eq] at hs
      obtain ⟨c, hc, hs', hkey⟩ := h b hb hs.1
      refine absurd ((Option.any_eq_true _ _).2 ⟨c, hc, ?_⟩) hlast
      simp [hs', hkey, hs.2]
    · exact le_rfl

theorem weight_texts (hne : group ≠ []) (hgroup : ∀ a ∈ group, D.key a = D.key x ∧ (D.text a).isSome)
    (hx : D.text x = some (D.joined group)) : D.weight last group = D.cost last x := by
  have hafter : ∀ a g, (∀ b ∈ a :: g, D.key b = D.key x ∧ (D.text b).isSome) →
      D.weight (some a) g = (D.joined g).length := by
    intro a g hg
    induction g generalizing a with
    | nil => rfl
    | cons b g ih =>
      obtain ⟨t, ht⟩ := Option.isSome_iff_exists.1 (hg b (by simp)).2
      rw [weight, ih b fun c hc => hg c (by simp only [List.mem_cons] at hc ⊢; tauto)]
      simp [cost, joined, ht, (hg a (by simp)).1, (hg a (by simp)).2, (hg b (by simp)).1]
  obtain ⟨a, g, rfl⟩ := List.exists_cons_of_ne_nil hne
  obtain ⟨t, ht⟩ := Option.isSome_iff_exists.1 (hgroup a (by simp)).2
  rw [weight, hafter a g hgroup, cost, cost, ht, hx]
  simp only [joined, List.flatMap_cons, ht, Option.getD_some, List.length_append, (hgroup a (by simp)).1]
  omega

/-- **Batches keep the count.** -/
theorem Batched.weight_eq (h : D.Batched sent events) : D.weight none sent = D.weight none events := by
  suffices hall : D.weight none sent = D.weight none events ∧ D.Covers sent.getLast? events.getLast? ∧
      D.Covers events.getLast? sent.getLast? from hall.1
  induction h with
  | nil => exact ⟨rfl, .refl, .refl⟩
  | @snoc sent events group x _ hx ih =>
    obtain ⟨hw, hc, hc'⟩ := ih
    have hcost : D.cost sent.getLast? x = D.cost events.getLast? x := le_antisymm hc.cost_le hc'.cost_le
    rw [weight_snoc, weight_append, hw, Option.or_none, Option.or_none, hcost, List.getLast?_append,
      List.getLast?_append]
    obtain rfl | ⟨hne, hgroup, htext⟩ := hx
    · exact ⟨by rw [weight, weight, Nat.add_zero], .refl, .refl⟩
    · obtain ⟨hkey, hsome⟩ := hgroup _ (List.getLast_mem hne)
      rw [List.getLast?_eq_some_getLast hne]
      refine ⟨by rw [weight_texts hne hgroup htext], ?_, ?_⟩
      · rintro b ⟨⟩ -
        exact ⟨x, rfl, by simp [htext], hkey.symm⟩
      · rintro b ⟨⟩ -
        exact ⟨_, rfl, hsome, hkey⟩

end Deltas

end Lib
