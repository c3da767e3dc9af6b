/-
  Lines of a stream that arrives in pieces.

  What stands before the last separator is complete; the remainder is not, and goes before what comes next
  (`splitOn_append`).
-/
import Mathlib

namespace Lib

variable {α : Type} [BEq α] [LawfulBEq α] {sep a : α} {l m p : List α}

omit [LawfulBEq α] in
theorem splitOn_cons_of_beq (h : a == sep) : (a :: l).splitOn sep = [] :: l.splitOn sep := by
  rw [List.splitOn_cons_eq_if_modifyHead, if_pos h]

omit [LawfulBEq α] in
theorem splitOn_cons_of_not_beq (h : ¬(a == sep)) : (a :: l).splitOn sep = (l.splitOn sep).modifyHead (a :: ·) := by
  rw [List.splitOn_cons_eq_if_modifyHead, if_neg h]

theorem splitOn_append_of_notMem (h : sep ∉ p) : (p ++ l).splitOn sep = (l.splitOn sep).modifyHead (p ++ ·) := by
  induction p with
  | nil => exact (congrFun List.modifyHead_id _).symm
  | cons a p ih =>
    rw [List.mem_cons, not_or] at h
    rw [List.cons_append, splitOn_cons_of_not_beq (by simpa using Ne.symm h.1), ih h.2, List.modifyHead_modifyHead]
    rfl

variable (sep) in
/-- The lines that are complete. -/
def completed (l : List α) : List (List α) := (l.splitOn sep).dropLast

variable (sep) in
/-- What is left of the last line. -/
def remainder (l : List α) : List α := (l.splitOn sep).getLast (List.splitOn_ne_nil _ _)

omit [LawfulBEq α] in
theorem splitOn_eq (l : List α) : l.splitOn sep = completed sep l ++ [remainder sep l] :=
  (List.dropLast_append_getLast _).symm

theorem splitOn_append_aux (l : List α) :
    sep ∉ remainder sep l ∧ (l ++ m).splitOn sep = completed sep l ++ (remainder sep l ++ m).splitOn sep := by
  induction l with
  | nil => exact ⟨List.not_mem_nil, rfl⟩
  | cons a l ih =>
    obtain ⟨hnone, happend⟩ := ih
    have hl : l.splitOn sep = completed sep l ++ [remainder sep l] := splitOn_eq l
    have hal : (a :: l).splitOn sep = completed sep (a :: l) ++ [remainder sep (a :: l)] := splitOn_eq (a :: l)
    by_cases ha : a == sep
    · rw [splitOn_cons_of_beq ha, hl, ← List.cons_append] at hal
      obtain ⟨hcompleted, hremainder⟩ := List.append_inj' hal rfl
      rw [List.cons_append, splitOn_cons_of_beq ha, happend, ← hcompleted, ← List.singleton_inj.1 hremainder]
      exact ⟨hnone, rfl⟩
    · rw [splitOn_cons_of_not_beq ha, hl] at hal
      have hne : sep ≠ a := fun h => ha (by simp [h])
      rw [List.cons_append, splitOn_cons_of_not_beq ha, happend]
      rcases hlines : completed sep l with _ | ⟨line, lines⟩
      · -- the first line is the last
        rw [hlines, List.nil_append, List.modifyHead_cons] at hal
        have hone : [] ++ [a :: remainder sep l] = completed sep (a :: l) ++ [remainder sep (a :: l)] := hal
        obtain ⟨hcompleted, hremainder⟩ := List.append_inj' hone rfl
        rw [← hcompleted, ← List.singleton_inj.1 hremainder, List.nil_append, List.nil_append, List.cons_append,
          splitOn_cons_of_not_beq ha]
        exact ⟨by simp [hne, hnone], rfl⟩
      · rw [hlines, List.cons_append, List.modifyHead_cons, ← List.cons_append] at hal
        obtain ⟨hcompleted, hremainder⟩ := List.append_inj' hal rfl
        rw [← hcompleted, ← List.singleton_inj.1 hremainder]
        exact ⟨hnone, rfl⟩

theorem notMem_remainder (l : List α) : sep ∉ remainder sep l := (splitOn_append_aux (m := []) l).1

/-- **What comes next goes to the last line.** -/
theorem splitOn_append (l m : List α) : (l ++ m).splitOn sep = completed sep l ++ (remainder sep l ++ m).splitOn sep :=
  (splitOn_append_aux l).2

theorem completed_append (l m : List α) :
    completed sep (l ++ m) = completed sep l ++ completed sep (remainder sep l ++ m) := by
  rw [completed, splitOn_append, List.dropLast_append_of_ne_nil (List.splitOn_ne_nil _ _)]
  rfl

theorem remainder_append (l m : List α) : remainder sep (l ++ m) = remainder sep (remainder sep l ++ m) := by
  have h : (l ++ m).splitOn sep ≠ [] := List.splitOn_ne_nil _ _
  simp only [remainder, splitOn_append l m]
  exact List.getLast_append_of_ne_nil _ (List.splitOn_ne_nil _ _)

theorem completed_eq_nil (h : sep ∉ l) : completed sep l = [] ∧ remainder sep l = l := by
  have hl : l.splitOn sep = completed sep l ++ [remainder sep l] := splitOn_eq l
  rw [List.splitOn_eq_singleton h] at hl
  have hone : [] ++ [l] = completed sep l ++ [remainder sep l] := hl
  obtain ⟨hcompleted, hremainder⟩ := List.append_inj' hone rfl
  exact ⟨hcompleted.symm, (List.singleton_inj.1 hremainder).symm⟩

theorem remainder_concat_self (l : List α) : remainder sep (l ++ [sep]) = [] := by
  have hl : (remainder sep l ++ [sep]).splitOn sep = [remainder sep l] ++ [[]] := by
    rw [splitOn_append_of_notMem (notMem_remainder l), splitOn_cons_of_beq (beq_self_eq_true sep)]
    simp
  rw [splitOn_eq] at hl
  rw [remainder_append]
  exact List.singleton_inj.1 (List.append_inj' hl rfl).2

/-- **What is left over** is what comes after the last separator. -/
theorem remainder_of_append {pre rest : List α} (hpre : ∀ a ∈ pre.getLast?, a = sep) (hrest : sep ∉ rest) :
    remainder sep (pre ++ rest) = rest := by
  have hnil : remainder sep pre = [] := by
    cases pre using List.reverseRecOn with
    | nil => exact (completed_eq_nil List.not_mem_nil).2
    | append_singleton pre a =>
      rw [hpre a (by simp)]
      exact remainder_concat_self pre
  rw [remainder_append, hnil, List.nil_append, (completed_eq_nil hrest).2]

theorem remainder_spec (l : List α) : ∃ pre, l = pre ++ remainder sep l ∧ ∀ a ∈ pre.getLast?, a = sep := by
  induction l using List.reverseRecOn with
  | nil =>
    have hnil : remainder sep ([] : List α) = [] := (completed_eq_nil List.not_mem_nil).2
    exact ⟨[], hnil.symm, by simp⟩
  | append_singleton l a ih =>
    obtain ⟨pre, hl, hpre⟩ := ih
    by_cases ha : a = sep
    · rw [ha, remainder_concat_self]
      exact ⟨l ++ [sep], by simp, by simp⟩
    · have hnone : sep ∉ remainder sep l ++ [a] := by
        rw [List.mem_append, List.mem_singleton, not_or]
        exact ⟨notMem_remainder l, fun h => ha h.symm⟩
      rw [remainder_append, (completed_eq_nil hnone).2]
      refine ⟨pre, ?_, hpre⟩
      rw [← List.append_assoc, ← hl]

theorem completed_ne_nil (h : sep ∈ l) : completed sep l ≠ [] := by
  intro hnil
  have hl : [sep].intercalate (l.splitOn sep) = l := List.intercalate_splitOn sep
  rw [splitOn_eq, hnil, List.nil_append, List.intercalate_singleton] at hl
  exact notMem_remainder l (hl ▸ h)

/-- What has no separator goes before the first line, and leaves the others alone. -/
theorem lines_append_of_notMem {first : List α} {rest : List (List α)} (hp : sep ∉ p)
    (hl : completed sep l = first :: rest) :
    completed sep (p ++ l) = (p ++ first) :: rest ∧ remainder sep (p ++ l) = remainder sep l := by
  have hpl : (p ++ l).splitOn sep = completed sep (p ++ l) ++ [remainder sep (p ++ l)] := splitOn_eq (p ++ l)
  rw [splitOn_append_of_notMem hp, splitOn_eq, hl, List.cons_append, List.modifyHead_cons, ← List.cons_append] at hpl
  obtain ⟨hcompleted, hremainder⟩ := List.append_inj' hpl rfl
  exact ⟨hcompleted.symm, (List.singleton_inj.1 hremainder).symm⟩

end Lib
