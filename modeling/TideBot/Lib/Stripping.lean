/-
  Stripping both ends of a list.

  `stripEnds p` takes off what satisfies `p` at the beginning and at the end.  What is left begins and ends with neither
  (`stripEnds_spec`), and a part that does so is never cut into (`stripEnds_append`).
-/
import Mathlib.Data.List.DropRight

namespace Lib

variable {α β : Type*} {p : α → Bool} {l pre kept post : List α}

/-- The list without what satisfies `p` at its ends. -/
def stripEnds (p : α → Bool) (l : List α) : List α := (l.dropWhile p).rdropWhile p

theorem rdropWhile_map {f : β → α} {l : List β} : (l.map f).rdropWhile p = (l.rdropWhile (p ∘ f)).map f := by
  rw [List.rdropWhile, List.rdropWhile, ← List.map_reverse, List.dropWhile_map, List.map_reverse]

theorem stripEnds_map {f : β → α} {l : List β} : stripEnds p (l.map f) = (stripEnds (p ∘ f) l).map f := by
  rw [stripEnds, stripEnds, List.dropWhile_map, rdropWhile_map]

theorem rdropWhile_eq_self (h : ∀ a ∈ l.getLast?, p a = false) : l.rdropWhile p = l := by
  rw [List.rdropWhile_eq_self_iff]
  intro hne
  rw [h (l.getLast hne) (List.getLast?_eq_some_getLast hne)]
  exact Bool.false_ne_true

theorem rdropWhile_append (h : ∀ a ∈ kept.getLast?, p a = false) :
    (kept ++ post).rdropWhile p = kept ++ post.rdropWhile p := by
  induction post using List.reverseRecOn with
  | nil => rw [List.append_nil, List.rdropWhile_nil, List.append_nil, rdropWhile_eq_self h]
  | append_singleton post a ih =>
    rw [← List.append_assoc]
    by_cases ha : p a
    · rw [List.rdropWhile_concat_pos _ _ _ ha, List.rdropWhile_concat_pos _ _ _ ha, ih]
    · rw [List.rdropWhile_concat_neg _ _ _ ha, List.rdropWhile_concat_neg _ _ _ ha, List.append_assoc]

theorem dropWhile_eq_self (h : ∀ a ∈ l.head?, p a = false) : l.dropWhile p = l := by
  cases l with
  | nil => rfl
  | cons a l => rw [List.dropWhile_cons_of_neg (by simp [h a rfl])]

theorem stripEnds_eq_self (hhead : ∀ a ∈ l.head?, p a = false) (hlast : ∀ a ∈ l.getLast?, p a = false) :
    stripEnds p l = l := by
  rw [stripEnds, dropWhile_eq_self hhead, rdropWhile_eq_self hlast]

/-- A part that neither begins nor ends with what satisfies `p` stays, and so does what the end of the rest stops at. -/
theorem stripEnds_append (hpre : ∀ a ∈ pre, p a) (hne : kept ≠ []) (hhead : ∀ a ∈ kept.head?, p a = false)
    (hlast : ∀ a ∈ kept.getLast?, p a = false) :
    stripEnds p (pre ++ (kept ++ post)) = kept ++ post.rdropWhile p := by
  have hkept : ∀ a ∈ (kept ++ post).head?, p a = false := by
    rw [List.head?_append_of_ne_nil _ hne]
    exact hhead
  rw [stripEnds, List.dropWhile_append_of_pos hpre, dropWhile_eq_self hkept, rdropWhile_append hlast]

theorem stripEnds_eq_nil (h : ∀ a ∈ l, p a) : stripEnds p l = [] := by
  rw [stripEnds, List.dropWhile_eq_nil_iff.2 h, List.rdropWhile_nil]

/-- **What is left**, and what is taken off on either side. -/
theorem stripEnds_spec (p : α → Bool) (l : List α) :
    (∃ pre post, l = pre ++ (stripEnds p l ++ post) ∧ (∀ a ∈ pre, p a) ∧ ∀ a ∈ post, p a) ∧
      (∀ a ∈ (stripEnds p l).head?, p a = false) ∧ ∀ a ∈ (stripEnds p l).getLast?, p a = false := by
  refine ⟨⟨l.takeWhile p, (l.dropWhile p).rtakeWhile p, ?_, fun a => List.mem_takeWhile_imp,
    fun a => List.mem_rtakeWhile_imp⟩, ?_, ?_⟩
  · rw [stripEnds, List.rdropWhile_append_rtakeWhile, List.takeWhile_append_dropWhile]
  · intro a ha
    obtain ⟨post, hpost⟩ := List.rdropWhile_prefix p (l := l.dropWhile p)
    have hhead := List.head?_dropWhile_not p l
    rw [stripEnds] at ha
    rw [← hpost, List.head?_append, ha] at hhead
    exact hhead
  · intro a ha
    have hne : stripEnds p l ≠ [] := by
      rintro hnil
      rw [hnil] at ha
      cases ha
    have hlast := List.rdropWhile_last_not p (l.dropWhile p) hne
    rw [List.getLast?_eq_some_getLast hne] at ha
    rw [← Option.some.inj ha]
    simpa [stripEnds] using hlast

end Lib
