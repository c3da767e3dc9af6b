/-
  Searching a sequence.

  `m` says whether a match begins at the head of a list, and what it is.  `search` finds the first place at which
  there is one, and `searchFrom` the first from a place on.  If no match begins before the place, they find the
  same (`searchFrom_eq_search`); so a search can go on where an earlier one has ended, a little before the end.

  `lastIndex` is the last place of an element with a property, or -1.
-/
import Mathlib

namespace Lib

variable {α β : Type*}

/-! ## The first match -/

/-- The first place at which there is a match, and the match. -/
def search (m : List α → Option β) : List α → Option (ℕ × β)
  | [] => (m []).map fun b => (0, b)
  | a :: l =>
    match m (a :: l) with
    | some b => some (0, b)
    | none => (search m l).map fun r => (r.1 + 1, r.2)

/-- The first match from a place on; a place after the end counts as the end. -/
def searchFrom (m : List α → Option β) (l : List α) (start : ℕ) : Option (ℕ × β) :=
  (search m (l.drop (min start l.length))).map fun r => (min start l.length + r.1, r.2)

section
variable {m : List α → Option β} {l : List α} {k start : ℕ} {b : β}

theorem search_eq_none_iff : search m l = none ↔ ∀ k ≤ l.length, m (l.drop k) = none := by
  induction l with
  | nil =>
    rw [search, Option.map_eq_none_iff]
    simp
  | cons a l ih =>
    rw [search]
    cases hm : m (a :: l) with
    | some b => simpa using ⟨0, by simp [hm]⟩
    | none =>
      rw [Option.map_eq_none_iff, ih]
      constructor
      · intro h k hk
        cases k with
        | zero => exact hm
        | succ k => exact h k (by simpa using hk)
      · exact fun h k hk => h (k + 1) (by simpa using hk)

theorem search_eq_some_iff :
    search m l = some (k, b) ↔ k ≤ l.length ∧ m (l.drop k) = some b ∧ ∀ j < k, m (l.drop j) = none := by
  induction l generalizing k with
  | nil =>
    rw [search, Option.map_eq_some_iff]
    constructor
    · rintro ⟨b', hb, heq⟩
      obtain ⟨rfl, rfl⟩ := Prod.mk.inj heq
      exact ⟨le_refl 0, hb, by simp⟩
    · rintro ⟨hk, hb, -⟩
      obtain rfl : k = 0 := by simpa using hk
      exact ⟨b, hb, rfl⟩
  | cons a l ih =>
    rw [search]
    cases hm : m (a :: l) with
    | some b' =>
      constructor
      · intro heq
        obtain ⟨rfl, rfl⟩ := Prod.mk.inj (Option.some.inj heq)
        exact ⟨by simp, hm, by simp⟩
      · rintro ⟨-, hb, hbefore⟩
        obtain rfl : k = 0 := by
          by_contra hk
          have hnone := hbefore 0 (by omega)
          rw [List.drop_zero, hm] at hnone
          cases hnone
        rw [List.drop_zero, hm] at hb
        rw [Option.some.inj hb]
    | none =>
      constructor
      · intro h
        obtain ⟨⟨k', b'⟩, hsearch, heq⟩ := Option.map_eq_some_iff.1 h
        obtain ⟨rfl, rfl⟩ := Prod.mk.inj heq
        obtain ⟨hk, hb, hbefore⟩ := ih.1 hsearch
        refine ⟨by simpa using hk, hb, ?_⟩
        intro j hj
        cases j with
        | zero => exact hm
        | succ j => exact hbefore j (by omega)
      · rintro ⟨hk, hb, hbefore⟩
        cases k with
        | zero =>
          rw [List.drop_zero, hm] at hb
          cases hb
        | succ k =>
          have hsearch := ih.2 ⟨by simpa using hk, hb, fun j hj => hbefore (j + 1) (by omega)⟩
          rw [hsearch]
          rfl

theorem searchFrom_zero : searchFrom m l 0 = search m l := by
  rw [searchFrom, Nat.zero_min, List.drop_zero]
  cases search m l <;> simp

/-- **No match is lost by starting later**, if none begins before. -/
theorem searchFrom_eq_search (hstart : start ≤ l.length) (h : ∀ k < start, m (l.drop k) = none) :
    searchFrom m l start = search m l := by
  rw [searchFrom, Nat.min_eq_left hstart]
  cases hsearch : search m (l.drop start) with
  | none =>
    rw [Option.map_none, eq_comm, search_eq_none_iff]
    rw [search_eq_none_iff] at hsearch
    intro k hk
    by_cases hlt : k < start
    · exact h k hlt
    · have hlater := hsearch (k - start) (by rw [List.length_drop]; omega)
      rwa [List.drop_drop, Nat.add_sub_cancel' (not_lt.1 hlt)] at hlater
  | some r =>
    obtain ⟨k, b⟩ := r
    obtain ⟨hk, hb, hbefore⟩ := search_eq_some_iff.1 hsearch
    rw [Option.map_some, eq_comm, search_eq_some_iff]
    rw [List.length_drop] at hk
    rw [List.drop_drop] at hb
    refine ⟨by omega, hb, ?_⟩
    intro j hj
    by_cases hlt : j < start
    · exact h j hlt
    · have hlater := hbefore (j - start) (by omega)
      rwa [List.drop_drop, Nat.add_sub_cancel' (not_lt.1 hlt)] at hlater

theorem match_of_searchFrom (h : searchFrom m l start = some (k, b)) : m (l.drop k) = some b := by
  obtain ⟨⟨j, b'⟩, hsearch, heq⟩ := Option.map_eq_some_iff.1 h
  obtain ⟨rfl, rfl⟩ := Prod.mk.inj heq
  obtain ⟨-, hb, -⟩ := search_eq_some_iff.1 hsearch
  rwa [List.drop_drop] at hb

end

theorem findSome?_congr {f g : α → Option β} {l : List α} (h : ∀ a ∈ l, f a = g a) :
    l.findSome? f = l.findSome? g := by
  induction l with
  | nil => rfl
  | cons a l ih =>
    have htail : l.findSome? f = l.findSome? g := ih fun b hb => h b (List.mem_cons_of_mem a hb)
    rw [List.findSome?_cons, List.findSome?_cons, h a List.mem_cons_self, htail]

/-! ## A literal -/

section
variable {needle l : List α} {k n : ℕ}

theorem prefix_drop_take (h : needle <+: l.drop k) (hn : k + needle.length ≤ n) : needle <+: (l.take n).drop k := by
  rw [List.drop_take, List.prefix_take_iff]
  exact ⟨h, by omega⟩

end

section
variable [DecidableEq α] {needle l : List α} {k n start : ℕ}

/-- The match of a literal. -/
def literal (needle : List α) (l : List α) : Option Unit := if needle <+: l then some () else none

theorem literal_eq_none_iff : literal needle l = none ↔ ¬needle <+: l := by
  rw [literal, ite_eq_right_iff]
  simp

/-- **A literal that is not in the first elements is found from a little before their end.** -/
theorem searchFrom_literal (hn : n ≤ l.length) (hstart : start ≤ n + 1 - max needle.length 1)
    (h : search (literal needle) (l.take n) = none) :
    searchFrom (literal needle) l start = search (literal needle) l := by
  have hpos : 0 < max needle.length 1 := by omega
  refine searchFrom_eq_search (by omega) fun k hk => literal_eq_none_iff.2 fun hstarts => ?_
  have hnone := literal_eq_none_iff.1 (search_eq_none_iff.1 h k (by rw [List.length_take]; omega))
  exact hnone (prefix_drop_take hstarts (by omega))

end

/-! ## The last place -/

section
variable (p : α → Bool)

/-- The last place of an element with a property, or -1. -/
def lastIndex : List α → ℤ
  | [] => -1
  | a :: l => if lastIndex l ≠ -1 then lastIndex l + 1 else if p a then 0 else -1

variable {p} {a b l : List α} {c : α}

theorem neg_one_le_lastIndex : -1 ≤ lastIndex p l := by
  induction l with
  | nil => exact le_refl _
  | cons a l ih =>
    rw [lastIndex]
    split_ifs <;> omega

theorem lastIndex_lt : lastIndex p l < l.length := by
  induction l with
  | nil => simp [lastIndex]
  | cons a l ih =>
    rw [lastIndex, List.length_cons]
    split_ifs <;> omega

theorem lastIndex_eq_neg_one_iff : lastIndex p l = -1 ↔ ∀ c ∈ l, ¬p c := by
  induction l with
  | nil => simp [lastIndex]
  | cons a l ih =>
    have hle : -1 ≤ lastIndex p l := neg_one_le_lastIndex
    rw [lastIndex, List.forall_mem_cons, ← ih]
    split_ifs with h ha
    · constructor
      · omega
      · exact fun hl => absurd hl.2 h
    · simp [ha]
    · simpa [ha] using h

/-- **The last place in two sequences, one after the other.** -/
theorem lastIndex_append :
    lastIndex p (a ++ b) = if lastIndex p b ≠ -1 then a.length + lastIndex p b else lastIndex p a := by
  induction a with
  | nil =>
    rw [List.nil_append]
    split_ifs with h
    · simp
    · simpa [lastIndex] using h
  | cons c a ih =>
    have hle : -1 ≤ lastIndex p b := neg_one_le_lastIndex
    rw [List.cons_append, lastIndex, ih, List.length_cons]
    by_cases hb : lastIndex p b ≠ -1
    · have hne : (a.length : ℤ) + lastIndex p b ≠ -1 := by omega
      rw [if_pos hb, if_pos hb, if_pos hne]
      push_cast
      omega
    · rw [if_neg hb, if_neg hb, lastIndex]

theorem lastIndex_append_of_not (h : ∀ c ∈ b, ¬p c) : lastIndex p (a ++ b) = lastIndex p a := by
  rw [lastIndex_append, if_neg (not_not.2 (lastIndex_eq_neg_one_iff.2 h))]

theorem lastIndex_eq_length (hc : p c) (h : ∀ c ∈ b, ¬p c) : lastIndex p (a ++ c :: b) = a.length := by
  have hnone : lastIndex p b = -1 := lastIndex_eq_neg_one_iff.2 h
  rw [lastIndex_append, lastIndex, if_neg (not_not.2 hnone), if_pos hc]
  simp

end

end Lib
