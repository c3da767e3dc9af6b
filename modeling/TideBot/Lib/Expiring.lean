/-
  A cache of keys with the times at which they were stored, pruned by age and by
  number: going through the entries, oldest first, an entry is dropped if it is
  older than the cutoff or if there are still too many.

  What a pruning keeps (`prune_keeps`): an entry that is not older than the
  cutoff and has fewer than `capacity` entries after it.
-/
import TideBot.Lib.Dict

namespace Lib

namespace Dict

variable {κ τ : Type*} [LinearOrder τ]

/-- The loop; `size` is the number of entries at the moment. -/
def pruneLoop (capacity : ℕ) (cutoff : τ) : ℕ → List (κ × τ) → List (κ × τ)
  | _, [] => []
  | size, e :: es =>
    if e.2 < cutoff ∨ capacity < size then pruneLoop capacity cutoff (size - 1) es
    else e :: pruneLoop capacity cutoff size es

theorem pruneLoop_sublist (capacity : ℕ) (cutoff : τ) (size : ℕ) (es : List (κ × τ)) :
    (pruneLoop capacity cutoff size es).Sublist es := by
  induction es generalizing size with
  | nil => exact List.Sublist.refl _
  | cons e es ih =>
    unfold pruneLoop
    split_ifs
    · exact (ih _).cons e
    · exact (ih _).cons_cons e

/-- Drop the entries older than `cutoff`, and the oldest ones above `capacity`. -/
def prune (capacity : ℕ) (cutoff : τ) (d : Dict κ τ) : Dict κ τ :=
  ⟨pruneLoop capacity cutoff d.size d.entries,
    ((pruneLoop_sublist _ _ _ _).map _).nodup d.nodup⟩

/-- Once the number is within the capacity, or as long as nothing was kept, a
    young entry with few entries after it stays. -/
theorem pruneLoop_keeps {capacity : ℕ} {cutoff : τ} {e : κ × τ} (pre post : List (κ × τ))
    (hage : ¬ e.2 < cutoff) (hpost : post.length < capacity) (size : ℕ)
    (hsize : size ≤ capacity ∨ size = (pre ++ e :: post).length) :
    ∃ pre' post', pruneLoop capacity cutoff size (pre ++ e :: post) = pre' ++ e :: post' ∧
      post'.length ≤ post.length := by
  induction pre generalizing size with
  | nil =>
    have hle : size ≤ capacity := by
      rcases hsize with h | h
      · exact h
      · simp only [List.nil_append, List.length_cons] at h; omega
    refine ⟨[], _, ?_, (pruneLoop_sublist capacity cutoff size post).length_le⟩
    rw [List.nil_append, pruneLoop, if_neg (by simp [hage, hle]), List.nil_append]
  | cons x pre ih =>
    rw [List.cons_append, pruneLoop]
    split_ifs with hdrop
    · refine ih (size - 1) ?_
      rcases hsize with h | h
      · exact Or.inl (by omega)
      · exact Or.inr (by simp only [List.cons_append, List.length_cons] at h; omega)
    · have hle : size ≤ capacity := Nat.not_lt.1 (not_or.1 hdrop).2
      obtain ⟨pre', post', h, hlen⟩ := ih size (Or.inl hle)
      exact ⟨x :: pre', post', by rw [h, List.cons_append], hlen⟩

/-- **What a pruning keeps.** -/
theorem prune_keeps {capacity : ℕ} {cutoff : τ} {d : Dict κ τ} {e : κ × τ}
    {pre post : List (κ × τ)} (hd : d.entries = pre ++ e :: post) (hage : ¬ e.2 < cutoff)
    (hpost : post.length < capacity) :
    ∃ pre' post', (d.prune capacity cutoff).entries = pre' ++ e :: post' ∧
      post'.length ≤ post.length := by
  have h := pruneLoop_keeps pre post hage hpost d.size (Or.inr (by rw [size, hd]))
  rwa [← hd] at h

end Dict

end Lib
