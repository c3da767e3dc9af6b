/-
  A table of readers-writer locks.

  `held` records who holds what: each holder has one claim, on a key, shared or
  exclusive.  `writers` and `readers` are kept beside it so that a request can be
  answered without looking at the holders: the keys held exclusively, and the
  number of shared holders of each key that has any.  `Consistent` says that
  these two agree with `held` and that no key is held exclusively and otherwise
  at the same time; `take` and `drop` keep it.
-/
import TideBot.Lib.Dict

namespace Lib

/-- The table: holders `ι` with claims `α` on keys `κ`. -/
structure Locks (ι κ α : Type*) where
  held : Dict ι α
  writers : Finset κ
  readers : Dict κ ℕ

namespace Locks

variable {ι κ α : Type*} [DecidableEq κ] (key : α → κ) (excl : α → Bool)

/-- No lock is held. -/
def empty : Locks ι κ α := ⟨.empty, ∅, .empty⟩

/-- May `k` be taken, exclusively if `x`? -/
def free (L : Locks ι κ α) (k : κ) (x : Bool) : Bool :=
  ¬ (k ∈ L.writers ∨ (x ∧ 0 < (L.readers.get k).getD 0))

/-- Holder `i` takes claim `a`. -/
def take [DecidableEq ι] (L : Locks ι κ α) (i : ι) (a : α) : Locks ι κ α where
  held := L.held.set i a
  writers := if excl a then insert (key a) L.writers else L.writers
  readers :=
    if excl a then L.readers else L.readers.set (key a) ((L.readers.get (key a)).getD 0 + 1)

/-- One shared holder of `k` less. -/
def dropReader (readers : Dict κ ℕ) (k : κ) : Dict κ ℕ :=
  if 0 < (readers.get k).getD 1 - 1 then readers.set k ((readers.get k).getD 1 - 1)
  else readers.erase k

/-- Holder `i` drops its claim, if it has one. -/
def drop [DecidableEq ι] (L : Locks ι κ α) (i : ι) : Locks ι κ α :=
  match L.held.get i with
  | none => L
  | some a =>
    { held := L.held.erase i
      writers := if excl a then L.writers.erase (key a) else L.writers
      readers := if excl a then L.readers else dropReader L.readers (key a) }

/-- The number of exclusive holders of `k`. -/
def writersOf (L : Locks ι κ α) (k : κ) : ℕ :=
  L.held.entries.countP fun e => excl e.2 && key e.2 = k

/-- The number of shared holders of `k`. -/
def readersOf (L : Locks ι κ α) (k : κ) : ℕ :=
  L.held.entries.countP fun e => !excl e.2 && key e.2 = k

/-- The table agrees with the holders, who do not conflict. -/
structure Consistent (L : Locks ι κ α) : Prop where
  writers : ∀ k, k ∈ L.writers ↔ 0 < L.writersOf key excl k
  readers : ∀ k, L.readers.get k =
    if L.readersOf key excl k = 0 then none else some (L.readersOf key excl k)
  unique : ∀ k, L.writersOf key excl k ≤ 1
  apart : ∀ k, 0 < L.writersOf key excl k → L.readersOf key excl k = 0

variable {key excl} {L : Locks ι κ α} {i j : ι} {a b : α} {k : κ}

theorem consistent_empty : (empty : Locks ι κ α).Consistent key excl :=
  ⟨fun k => by simp [empty, writersOf, Dict.empty],
    fun k => by simp [empty, readersOf, Dict.empty, Dict.get],
    fun k => by simp [empty, writersOf, Dict.empty], fun k => by simp [empty, readersOf, Dict.empty]⟩

theorem Consistent.getD_readers (h : L.Consistent key excl) (k : κ) :
    (L.readers.get k).getD 0 = L.readersOf key excl k := by
  rw [h.readers]
  split_ifs with h0
  · exact h0.symm
  · rfl

/-! ## Taking -/

variable [DecidableEq ι]

theorem writersOf_take (hi : L.held.get i = none) :
    (L.take key excl i a).writersOf key excl k =
      L.writersOf key excl k + if excl a ∧ key a = k then 1 else 0 := by
  simp [writersOf, take, Dict.entries_set_new hi, List.countP_append, List.countP_singleton]

theorem readersOf_take (hi : L.held.get i = none) :
    (L.take key excl i a).readersOf key excl k =
      L.readersOf key excl k + if excl a = false ∧ key a = k then 1 else 0 := by
  simp [readersOf, take, Dict.entries_set_new hi, List.countP_append, List.countP_singleton]

/-- **Taking a free lock keeps the table consistent.** -/
theorem Consistent.take (h : L.Consistent key excl) (hi : L.held.get i = none)
    (hfree : L.free (key a) (excl a)) : (L.take key excl i a).Consistent key excl := by
  simp only [free, decide_eq_true_eq, not_or, not_and, not_lt, Nat.le_zero,
    h.getD_readers, h.writers] at hfree
  obtain ⟨hw, hr⟩ := hfree
  rcases hx : excl a
  · -- a shared claim
    refine ⟨fun k => ?_, fun k => ?_, fun k => ?_, fun k => ?_⟩ <;>
      simp only [writersOf_take hi, readersOf_take hi, hx, Bool.false_eq_true, false_and, if_false,
        Nat.add_zero, true_and]
    · simpa [Locks.take, hx] using h.writers k
    · simp only [Locks.take, hx, Bool.false_eq_true, if_false, Dict.get_set, h.getD_readers]
      by_cases hk : k = key a
      · simp [hk]
      · simpa [hk, Ne.symm hk] using h.readers k
    · exact h.unique k
    · intro hpos
      have hk : key a ≠ k := by rintro rfl; omega
      simpa [hk] using h.apart k hpos
  · -- an exclusive claim
    refine ⟨fun k => ?_, fun k => ?_, fun k => ?_, fun k => ?_⟩ <;>
      simp only [writersOf_take hi, readersOf_take hi, hx, Bool.true_eq_false, false_and, if_false,
        Nat.add_zero, true_and]
    · simp only [Locks.take, hx, if_true, Finset.mem_insert, h.writers]
      by_cases hk : k = key a
      · simp [hk]
      · simp [hk, Ne.symm hk]
    · simpa [Locks.take, hx] using h.readers k
    · have := h.unique k
      split_ifs with hk
      · subst hk; omega
      · omega
    · intro hpos
      by_cases hk : key a = k
      · subst hk; exact hr hx
      · exact h.apart k (by simpa [hk] using hpos)

/-! ## Dropping -/

theorem drop_of_not_held (hi : L.held.get i = none) : L.drop key excl i = L := by
  rw [drop, hi]

theorem held_drop : (L.drop key excl i).held = L.held.erase i := by
  unfold drop
  split
  · rename_i hi; rw [Dict.erase_of_get_none hi]
  · rfl

theorem writersOf_drop (hi : L.held.get i = some a) :
    L.writersOf key excl k =
      (L.drop key excl i).writersOf key excl k + if excl a ∧ key a = k then 1 else 0 := by
  rw [writersOf, writersOf, held_drop, Dict.countP_erase hi]; simp

theorem readersOf_drop (hi : L.held.get i = some a) :
    L.readersOf key excl k =
      (L.drop key excl i).readersOf key excl k + if excl a = false ∧ key a = k then 1 else 0 := by
  rw [readersOf, readersOf, held_drop, Dict.countP_erase hi]; simp

/-- **Dropping keeps the table consistent.** -/
theorem Consistent.drop (h : L.Consistent key excl) (i : ι) :
    (L.drop key excl i).Consistent key excl := by
  rcases hi : L.held.get i with _ | a
  · rw [drop_of_not_held hi]; exact h
  · have hw := fun k => (writersOf_drop hi : L.writersOf key excl k = _)
    have hr := fun k => (readersOf_drop hi : L.readersOf key excl k = _)
    refine ⟨?_, ?_, ?_, ?_⟩
    · intro k
      have hk := hw k
      have huniq := h.unique k
      have hmem := h.writers k
      rcases hx : excl a
      · simp only [hx, Bool.false_eq_true, false_and, if_false, Nat.add_zero] at hk
        have hwrite : (L.drop key excl i).writers = L.writers := by simp [Locks.drop, hi, hx]
        rw [hwrite, hmem, hk]
      · simp only [hx, true_and] at hk
        have hwrite : (L.drop key excl i).writers = L.writers.erase (key a) := by
          simp [Locks.drop, hi, hx]
        rw [hwrite, Finset.mem_erase, hmem]
        split_ifs at hk with hka
        · simp only [hka, ne_eq, not_true_eq_false, false_and, false_iff]; omega
        · rw [hk]; simp [Ne.symm hka]
    · intro k
      have hk := hr k
      have hget := h.readers k
      rcases hx : excl a
      · simp only [hx, true_and] at hk
        have hread : (L.drop key excl i).readers = dropReader L.readers (key a) := by
          simp [Locks.drop, hi, hx]
        rw [hread, dropReader]
        by_cases hka : key a = k
        · subst hka
          rw [if_pos rfl] at hk
          have hsome : L.readers.get (key a) =
              some ((L.drop key excl i).readersOf key excl (key a) + 1) := by
            rw [hget, if_neg (by omega), hk]
          simp only [hsome, Option.getD_some, Nat.add_sub_cancel]
          by_cases h0 : (L.drop key excl i).readersOf key excl (key a) = 0
          · simp [h0]
          · rw [if_pos (by omega), Dict.get_set_self, if_neg h0]
        · rw [if_neg hka, Nat.add_zero] at hk
          rw [← hk, ← hget]
          split_ifs
          · exact Dict.get_set_of_ne _ (Ne.symm hka)
          · exact Dict.get_erase_of_ne _ (Ne.symm hka)
      · simp only [hx, Bool.true_eq_false, false_and, if_false, Nat.add_zero] at hk
        have hread : (L.drop key excl i).readers = L.readers := by simp [Locks.drop, hi, hx]
        rw [hread, hget, hk]
    · intro k
      have := hw k; have := h.unique k; omega
    · intro k hpos
      have hk := hw k
      have hk' := hr k
      have := h.apart k (by omega)
      omega

theorem foldl_drop_induction {P : Locks ι κ α → Prop} (h₀ : P L)
    (h : ∀ L i, P L → P (L.drop key excl i)) (is : List ι) :
    P (is.foldl (Locks.drop key excl) L) := by
  induction is generalizing L with
  | nil => exact h₀
  | cons i is ih => exact ih (h L i h₀)

theorem held_foldl_drop {is : List ι}
    (h : (is.foldl (Locks.drop key excl) L).held.get i = some a) : L.held.get i = some a := by
  revert h
  refine foldl_drop_induction (P := fun L' => L'.held.get i = some a → L.held.get i = some a) id ?_ is
  intro L' j ih hj
  rw [held_drop, Dict.get_erase] at hj
  split_ifs at hj
  exact ih hj

/-! ## What a consistent table says about the holders -/

theorem writersOf_pos : 0 < L.writersOf key excl k ↔
    ∃ i a, L.held.get i = some a ∧ excl a ∧ key a = k := by
  simp [writersOf, List.countP_pos_iff, Dict.mem_entries_iff]

theorem readersOf_pos : 0 < L.readersOf key excl k ↔
    ∃ i a, L.held.get i = some a ∧ excl a = false ∧ key a = k := by
  simp [readersOf, List.countP_pos_iff, Dict.mem_entries_iff]

theorem Consistent.eq_of_excl (h : L.Consistent key excl) (hi : L.held.get i = some a)
    (hj : L.held.get j = some b) (ha : excl a) (hb : excl b) (hk : key a = key b) : i = j := by
  by_contra hij
  have hw : L.writersOf key excl (key a) = _ := writersOf_drop hi
  have hpos : 0 < (L.drop key excl i).writersOf key excl (key a) := by
    refine writersOf_pos.2 ⟨j, b, ?_, hb, hk.symm⟩
    rw [held_drop, Dict.get_erase_of_ne _ (Ne.symm hij), hj]
  have := h.unique (key a)
  simp only [ha, and_self, if_true] at hw
  omega

theorem Consistent.not_shared (h : L.Consistent key excl) (hi : L.held.get i = some a)
    (hj : L.held.get j = some b) (ha : excl a) (hb : excl b = false) : key a ≠ key b := by
  intro hk
  have h0 := h.apart (key a) (writersOf_pos.2 ⟨i, a, hi, ha, rfl⟩)
  have hpos : 0 < L.readersOf key excl (key a) := readersOf_pos.2 ⟨j, b, hj, hb, hk.symm⟩
  omega

end Locks

end Lib
