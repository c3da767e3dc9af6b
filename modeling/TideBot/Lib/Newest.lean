/-
  Keeping the entries of a list with the greatest keys.

  `stale key keep l` is what is to go if `keep` entries of `l` stay: `l` is sorted, from the greatest key on, and the
  first `keep` are skipped.  An entry goes if at least `keep` others are ahead of it (`mem_stale_iff`); so no more than
  `keep` are left (`length_kept`), and none of what goes is ahead of what is left (`le_of_mem_stale`).
-/
import Mathlib

namespace Lib

section
variable {α κ : Type*} [LinearOrder κ] (key : α → κ)

/-- The entries from the greatest key on. -/
def newestFirst (l : List α) : List α := l.mergeSort fun a b => key b ≤ key a

/-- What goes, if the `keep` entries with the greatest keys stay. -/
def stale (keep : ℕ) (l : List α) : List α := (newestFirst key l).drop keep

/-- How many entries have a greater key. -/
def ahead (l : List α) (k : κ) : ℕ := l.countP fun b => k < key b

variable {key} {l : List α} {keep : ℕ}

theorem newestFirst_perm : (newestFirst key l).Perm l := List.mergeSort_perm _ _

theorem newestFirst_sorted (hnodup : (l.map key).Nodup) :
    (newestFirst key l).Pairwise fun a b => key b < key a := by
  have hle : (newestFirst key l).Pairwise fun a b => key b ≤ key a := by
    refine (List.pairwise_mergeSort ?_ ?_ l).imp fun h => of_decide_eq_true h
    · intro a b c hab hbc
      exact decide_eq_true ((of_decide_eq_true hbc).trans (of_decide_eq_true hab))
    · intro a b
      simpa using le_total (key b) (key a)
  have hne : (newestFirst key l).Pairwise fun a b => key a ≠ key b :=
    List.pairwise_map.1 ((newestFirst_perm.map key).nodup_iff.2 hnodup)
  exact (hle.and hne).imp fun h => lt_of_le_of_ne h.1 h.2.symm

/-- In a strictly descending list, what is left after `n` entries is what has `n` entries before it. -/
theorem mem_drop_iff {s : List α} (hsorted : s.Pairwise fun a b => key b < key a) (n : ℕ) (a : α) :
    a ∈ s.drop n ↔ a ∈ s ∧ n ≤ ahead key s (key a) := by
  induction s generalizing n with
  | nil => simp
  | cons b s ih =>
    obtain ⟨hhead, htail⟩ := List.pairwise_cons.1 hsorted
    rcases n with _ | n
    · simp
    rw [List.drop_succ_cons, ih htail]
    by_cases ha : a ∈ s
    · have hcount : ahead key (b :: s) (key a) = ahead key s (key a) + 1 :=
        List.countP_cons_of_pos (decide_eq_true (hhead a ha))
      rw [hcount]
      simp [ha]
    · refine iff_of_false (fun h => ha h.1) ?_
      rintro ⟨hmem, hcount⟩
      obtain rfl : a = b := (List.mem_cons.1 hmem).resolve_right ha
      have hnone : ahead key (a :: s) (key a) = 0 := by
        refine List.countP_eq_zero.2 fun c hc => ?_
        rcases List.mem_cons.1 hc with rfl | hc
        · simp
        · simpa using (hhead c hc).le
      omega

/-- **An entry goes if at least `keep` others are ahead of it.** -/
theorem mem_stale_iff (hnodup : (l.map key).Nodup) {a : α} :
    a ∈ stale key keep l ↔ a ∈ l ∧ keep ≤ ahead key l (key a) := by
  rw [stale, mem_drop_iff (newestFirst_sorted hnodup), newestFirst_perm.mem_iff, ahead,
    newestFirst_perm.countP_eq, ahead]

variable (keep l) in
theorem length_stale : (stale key keep l).length = l.length - keep := by
  rw [stale, List.length_drop, newestFirst_perm.length_eq]

/-- **No more than `keep` are left.** -/
theorem length_kept (hnodup : (l.map key).Nodup) {p : α → Bool}
    (hp : ∀ a ∈ l, p a = true ↔ a ∉ stale key keep l) : (l.filter p).length ≤ keep := by
  have hgone : (stale key keep l).Subperm (l.filter fun a => !p a) := by
    refine List.Nodup.subperm ?_ fun a ha => ?_
    · have hsorted := (show (newestFirst key l).Perm l from newestFirst_perm).nodup_iff.2 hnodup.of_map
      exact hsorted.sublist (List.drop_sublist _ _)
    · have hmem := ((mem_stale_iff hnodup).1 ha).1
      simpa [hmem] using mt (hp a hmem).1 (not_not.2 ha)
  have hle := hgone.length_le
  rw [length_stale] at hle
  have hsum := List.length_eq_length_filter_add (l := l) p
  omega

/-- **What goes is not ahead of what is left.** -/
theorem le_of_mem_stale (hnodup : (l.map key).Nodup) {a b : α} (ha : a ∈ stale key keep l) (hb : b ∈ l)
    (hkept : b ∉ stale key keep l) : key a ≤ key b := by
  by_contra! hlt
  refine hkept ((mem_stale_iff hnodup).2 ⟨hb, ?_⟩)
  refine ((mem_stale_iff hnodup).1 ha).2.trans (List.countP_mono_left fun c _ hc => ?_)
  exact decide_eq_true (hlt.trans (of_decide_eq_true hc))

end

end Lib
