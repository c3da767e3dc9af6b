/-
  Pieces that stand in a list one after the other, with gaps before, between and behind them (`Spread`), and pieces
  that are spread over several lists (`SpreadOver`).

  The gaps satisfy a predicate.  What is in none of them is counted exactly (`SpreadOver.count_eq`); with any gaps
  there is at least as much of it as there is in the pieces (`SpreadOver.count_le`).
-/
import Mathlib

namespace Lib

variable {α : Type*} {P Q : List α → Prop} {piece gap whole : List α} {pieces pieces' parts parts' : List (List α)}

/-- Pieces, one after the other, and gaps. -/
inductive Spread (P : List α → Prop) : List (List α) → List α → Prop
  | nil {gap : List α} (hgap : P gap) : Spread P [] gap
  | cons {gap piece whole : List α} {pieces : List (List α)} (hgap : P gap) (hrest : Spread P pieces whole) :
      Spread P (piece :: pieces) (gap ++ (piece ++ whole))

/-- Pieces that are spread over parts. -/
inductive SpreadOver (P : List α → Prop) : List (List α) → List (List α) → Prop
  | nil : SpreadOver P [] []
  | cons {pieces pieces' parts : List (List α)} {part : List α} (hpart : Spread P pieces part)
      (hrest : SpreadOver P pieces' parts) : SpreadOver P (pieces ++ pieces') (part :: parts)

theorem Spread.mono (h : Spread P pieces whole) (hPQ : ∀ gap, P gap → Q gap) : Spread Q pieces whole := by
  induction h with
  | nil hgap => exact .nil (hPQ _ hgap)
  | cons hgap _ ih => exact .cons (hPQ _ hgap) ih

theorem Spread.single (h : P []) (piece : List α) : Spread P [piece] piece := by
  have hspread : Spread P [piece] ([] ++ (piece ++ [])) := .cons h (.nil h)
  rwa [List.nil_append, List.append_nil] at hspread

theorem Spread.prepend (h : Spread P pieces whole) (hgap : ∀ g, P g → P (gap ++ g)) :
    Spread P pieces (gap ++ whole) := by
  cases h with
  | nil hnil => exact .nil (hgap _ hnil)
  | cons hcons hrest =>
    rw [← List.append_assoc]
    exact .cons (hgap _ hcons) hrest

/-- **Pieces joined with a separator.** -/
theorem Spread.intercalate {sep : List α} (hnil : P []) (hsep : P sep) (pieces : List (List α)) :
    Spread P pieces (sep.intercalate pieces) := by
  cases pieces with
  | nil => exact .nil hnil
  | cons piece pieces =>
    have hjoined : ∀ gap, P gap → Spread P (piece :: pieces) (gap ++ sep.intercalate (piece :: pieces)) := by
      induction pieces generalizing piece with
      | nil =>
        intro gap hgap
        have hspread : Spread P [piece] (gap ++ (piece ++ [])) := .cons hgap (.nil hnil)
        rw [List.intercalate_singleton]
        rwa [List.append_nil] at hspread
      | cons next pieces ih =>
        intro gap hgap
        rw [List.intercalate_cons_cons, List.append_assoc]
        exact .cons hgap (ih next sep hsep)
    exact hjoined [] hnil

theorem SpreadOver.mono (h : SpreadOver P pieces parts) (hPQ : ∀ gap, P gap → Q gap) : SpreadOver Q pieces parts := by
  induction h with
  | nil => exact .nil
  | cons hpart _ ih => exact .cons (hpart.mono hPQ) ih

theorem SpreadOver.single (h : Spread P pieces whole) : SpreadOver P pieces [whole] := by
  have hspread : SpreadOver P (pieces ++ []) [whole] := .cons h .nil
  rwa [List.append_nil] at hspread

theorem SpreadOver.self (h : P []) (pieces : List (List α)) : SpreadOver P pieces pieces := by
  induction pieces with
  | nil => exact .nil
  | cons piece pieces ih => exact .cons (.single h piece) ih

section
variable [DecidableEq α] {a : α}

/-- How often an element is in lists. -/
def countIn (a : α) (parts : List (List α)) : ℕ := (parts.map (List.count a)).sum

@[simp] theorem countIn_cons : countIn a (piece :: pieces) = piece.count a + countIn a pieces := rfl

@[simp] theorem countIn_append : countIn a (pieces ++ pieces') = countIn a pieces + countIn a pieces' := by
  rw [countIn, List.map_append, List.sum_append, countIn, countIn]

theorem Spread.count_le (h : Spread P pieces whole) : countIn a pieces ≤ whole.count a := by
  induction h with
  | nil => exact Nat.zero_le _
  | cons _ _ ih =>
    rw [countIn_cons, List.count_append, List.count_append]
    omega

theorem Spread.count_eq (h : Spread P pieces whole) (hP : ∀ gap, P gap → gap.count a = 0) :
    whole.count a = countIn a pieces := by
  induction h with
  | nil hgap => exact hP _ hgap
  | cons hgap _ ih => rw [countIn_cons, List.count_append, List.count_append, hP _ hgap, ih, Nat.zero_add]

theorem SpreadOver.count_le (h : SpreadOver P pieces parts) : countIn a pieces ≤ countIn a parts := by
  induction h with
  | nil => exact Nat.le_refl _
  | cons hpart _ ih =>
    rw [countIn_append, countIn_cons]
    exact Nat.add_le_add hpart.count_le ih

theorem SpreadOver.count_eq (h : SpreadOver P pieces parts) (hP : ∀ gap, P gap → gap.count a = 0) :
    countIn a parts = countIn a pieces := by
  induction h with
  | nil => rfl
  | cons hpart _ ih => rw [countIn_append, countIn_cons, hpart.count_eq hP, ih]

end

end Lib
