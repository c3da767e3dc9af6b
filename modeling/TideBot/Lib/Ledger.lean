/-
  Blocks that are started under the next number, used while they are open, and stopped.

  Several blocks can be open at a time; each has a kind, and is used for its own kind only.  A ledger has an entry for
  each block so far, and `run` checks a sequence of operations against it; `none` is a sequence that breaks a rule.
  `disciplined_of_run` says in terms of the sequence alone what a run of operations has checked.
-/
import Mathlib

namespace Lib

/-- A block: its kind, and whether it is open. -/
structure LedgerEntry (κ : Type*) where
  kind : κ
  isOpen : Bool

/-- An operation on the block of a number. -/
inductive LedgerOp (κ : Type*) where
  | start (i : ℤ) (kind : κ)
  | use (i : ℤ) (kind : κ)
  | stop (i : ℤ)
deriving DecidableEq

abbrev Ledger (κ : Type*) := List (LedgerEntry κ)

namespace Ledger

variable {κ : Type*}

/-- The entry of a number. -/
def entry (L : Ledger κ) (i : ℤ) : Option (LedgerEntry κ) := if 0 ≤ i then L[i.toNat]? else none

/-- The ledger after a block is stopped. -/
def close (L : Ledger κ) (i : ℤ) : Ledger κ := L.modify i.toNat fun e => { e with isOpen := false }

/-- The ledger after an operation, if the operation keeps to the rules. -/
def step [DecidableEq κ] (L : Ledger κ) : LedgerOp κ → Option (Ledger κ)
  | .start i kind => if i = L.length then some (L ++ [⟨kind, true⟩]) else none
  | .use i kind =>
    match L.entry i with
    | some ⟨k, true⟩ => if k = kind then some L else none
    | _ => none
  | .stop i =>
    match L.entry i with
    | some ⟨_, true⟩ => some (L.close i)
    | _ => none

def run [DecidableEq κ] (L : Ledger κ) (ops : List (LedgerOp κ)) : Option (Ledger κ) := ops.foldlM step L

variable {L L' : Ledger κ} {i j : ℤ} {kind : κ}

theorem entry_lt {e : LedgerEntry κ} (h : L.entry i = some e) : 0 ≤ i ∧ i < L.length := by
  unfold entry at h
  split_ifs at h with hi
  obtain ⟨hlt, -⟩ := List.getElem?_eq_some_iff.1 h
  omega

theorem entry_append (e : LedgerEntry κ) :
    entry (L ++ [e]) i = if i = L.length then some e else L.entry i := by
  unfold entry
  by_cases hi : 0 ≤ i
  · rw [if_pos hi, if_pos hi]
    split_ifs with hlast
    · have hnat : i.toNat = L.length := by omega
      rw [hnat, List.getElem?_concat_length]
    · rcases lt_or_gt_of_ne (show i.toNat ≠ L.length by omega) with hlt | hgt
      · rw [List.getElem?_append_left hlt]
      · have hout : (L ++ [e]).length ≤ i.toNat := by
          rw [List.length_append, List.length_singleton]
          omega
        rw [List.getElem?_eq_none hout, List.getElem?_eq_none hgt.le]
  · rw [if_neg hi, if_neg hi, if_neg (by omega)]

theorem entry_close (hi : 0 ≤ i) : (L.close i).entry j =
    if i = j then (L.entry j).map fun e => { e with isOpen := false } else L.entry j := by
  unfold entry close
  by_cases hj : 0 ≤ j
  · simp only [if_pos hj, List.getElem?_modify]
    by_cases hij : i = j
    · simp [hij]
    · have hnat : i.toNat ≠ j.toNat := by omega
      simp [hij, hnat]
  · simp [hj]

theorem length_close : (L.close i).length = L.length := List.length_modify _ _ _

variable [DecidableEq κ] {ops ops' : List (LedgerOp κ)} {op : LedgerOp κ}

theorem run_append : L.run (ops ++ ops') = (L.run ops).bind fun L => L.run ops' := List.foldlM_append

theorem run_snoc : L.run (ops ++ [op]) = (L.run ops).bind fun L => L.step op := by
  rw [run_append]
  congr 1
  funext L
  exact bind_pure _

/-! ## Steps -/

theorem step_start : L.step (.start L.length kind) = some (L ++ [⟨kind, true⟩]) := if_pos rfl

theorem step_use (h : L.entry i = some ⟨kind, true⟩) : L.step (.use i kind) = some L := by
  simp [step, h]

theorem step_stop (h : L.entry i = some ⟨kind, true⟩) : L.step (.stop i) = some (L.close i) := by
  simp [step, h]

theorem eq_of_step_start (h : L.step (.start i kind) = some L') : i = L.length ∧ L' = L ++ [⟨kind, true⟩] := by
  simp only [step] at h
  split_ifs at h with hi
  exact ⟨hi, (Option.some.inj h).symm⟩

theorem eq_of_step_use (h : L.step (.use i kind) = some L') : L.entry i = some ⟨kind, true⟩ ∧ L' = L := by
  simp only [step] at h
  split at h
  · rename_i k hentry
    split_ifs at h with hk
    exact ⟨hk ▸ hentry, (Option.some.inj h).symm⟩
  · cases h

theorem eq_of_step_stop (h : L.step (.stop i) = some L') :
    ∃ kind, L.entry i = some ⟨kind, true⟩ ∧ L' = L.close i := by
  simp only [step] at h
  split at h
  · rename_i k hentry
    exact ⟨k, hentry, (Option.some.inj h).symm⟩
  · cases h

/-! ## What a run has checked -/

/-- The number under which an operation starts a block. -/
def started : LedgerOp κ → Option ℤ
  | .start i _ => some i
  | _ => none

/-- Is the block of a number open after the operations, for a kind? -/
def OpenAfter (ops : List (LedgerOp κ)) (i : ℤ) (kind : κ) : Prop := .start i kind ∈ ops ∧ .stop i ∉ ops

/-- The ledger says what has been started and stopped. -/
structure Records (L : Ledger κ) (ops : List (LedgerOp κ)) : Prop where
  started : ops.filterMap started = (List.range L.length).map fun n : ℕ => (n : ℤ)
  isOpen : ∀ i kind, L.entry i = some ⟨kind, true⟩ ↔ OpenAfter ops i kind
  known : ∀ i kind, .start i kind ∈ ops → ∃ b, L.entry i = some ⟨kind, b⟩
  stopped : ∀ i kind, L.entry i = some ⟨kind, false⟩ → ops.count (.stop i) = 1
  unknown : ∀ i, L.entry i = none → .stop i ∉ ops

theorem Records.start {ops : List (LedgerOp κ)} (h : Records L ops) (kind : κ) :
    Records (L ++ [⟨kind, true⟩]) (ops ++ [.start L.length kind]) := by
  have hfresh : L.entry L.length = none := by
    rcases hentry : L.entry L.length with _ | e
    · rfl
    · exact absurd (entry_lt hentry).2 (lt_irrefl _)
  refine ⟨?_, ?_, ?_, ?_, ?_⟩
  · rw [List.filterMap_append, h.started, List.length_append, List.length_singleton, List.range_succ, List.map_append]
    rfl
  · intro i k
    rw [entry_append, OpenAfter]
    simp only [List.mem_append, List.mem_singleton, reduceCtorEq, or_false, LedgerOp.start.injEq]
    split_ifs with hi
    · subst hi
      have hnone : ∀ k, .start (L.length : ℤ) k ∉ ops := by
        intro k hk
        obtain ⟨b, hb⟩ := h.known _ _ hk
        rw [hfresh] at hb
        cases hb
      simp [hnone, h.unknown _ hfresh, eq_comm]
    · simp [hi, h.isOpen, OpenAfter]
  · intro i k hmem
    rw [entry_append]
    simp only [List.mem_append, List.mem_singleton, LedgerOp.start.injEq] at hmem
    split_ifs with hi
    · rcases hmem with hmem | ⟨-, rfl⟩
      · obtain ⟨b, hb⟩ := h.known _ _ hmem
        rw [hi, hfresh] at hb
        cases hb
      · exact ⟨true, rfl⟩
    · exact h.known _ _ (hmem.resolve_right fun hk => hi hk.1)
  · intro i k hentry
    rw [entry_append] at hentry
    split_ifs at hentry with hi
    · cases hentry
    · rw [List.count_append, h.stopped i k hentry]
      simp
  · intro i hentry
    rw [entry_append] at hentry
    split_ifs at hentry with hi
    simpa using h.unknown i hentry

theorem Records.use {ops : List (LedgerOp κ)} (h : Records L ops) (i : ℤ) (kind : κ) :
    Records L (ops ++ [.use i kind]) := by
  refine ⟨?_, ?_, ?_, ?_, ?_⟩
  · rw [List.filterMap_append, h.started]
    simp [Ledger.started]
  · intro j k
    simp [h.isOpen, OpenAfter]
  · intro j k hmem
    exact h.known j k (by simpa using hmem)
  · intro j k hentry
    rw [List.count_append, h.stopped j k hentry]
    simp
  · intro j hentry
    simpa using h.unknown j hentry

theorem Records.stop {ops : List (LedgerOp κ)} (h : Records L ops) (hi : L.entry i = some ⟨kind, true⟩) :
    Records (L.close i) (ops ++ [.stop i]) := by
  have hpos := (entry_lt hi).1
  have hopen := ((h.isOpen i kind).1 hi).2
  refine ⟨?_, ?_, ?_, ?_, ?_⟩
  · rw [List.filterMap_append, h.started, length_close]
    simp [Ledger.started]
  · intro j k
    rw [entry_close hpos, OpenAfter]
    split_ifs with hij
    · subst hij
      simp [hi]
    · simp [h.isOpen, OpenAfter, Ne.symm hij]
  · intro j k hmem
    obtain ⟨b, hb⟩ := h.known j k (by simpa using hmem)
    rw [entry_close hpos, hb]
    split_ifs
    · exact ⟨false, rfl⟩
    · exact ⟨b, rfl⟩
  · intro j k hentry
    rw [entry_close hpos] at hentry
    rw [List.count_append]
    split_ifs at hentry with hij
    · subst hij
      rw [List.count_eq_zero.2 hopen, List.count_singleton_self]
    · rw [h.stopped j k hentry, List.count_singleton, if_neg (by simp [hij])]
  · intro j hentry
    rw [entry_close hpos] at hentry
    split_ifs at hentry with hij
    · subst hij
      rw [hi] at hentry
      cases hentry
    · simpa [Ne.symm hij] using h.unknown j hentry

theorem records_of_run (h : run [] ops = some L) : Records L ops := by
  induction ops using List.reverseRecOn generalizing L with
  | nil =>
    cases h
    constructor <;> simp [entry, OpenAfter]
  | append_singleton ops op ih =>
    rw [run_snoc] at h
    obtain ⟨L₀, h₀, hstep⟩ := Option.bind_eq_some_iff.1 h
    have hrecords := ih h₀
    cases op with
    | start i kind =>
      obtain ⟨rfl, rfl⟩ := eq_of_step_start hstep
      exact hrecords.start kind
    | use i kind =>
      obtain ⟨-, rfl⟩ := eq_of_step_use hstep
      exact hrecords.use i kind
    | stop i =>
      obtain ⟨kind, hentry, rfl⟩ := eq_of_step_stop hstep
      exact hrecords.stop hentry

/-- A sequence of operations that keeps to the rules: blocks are started under the numbers from zero on, a block is
    used and stopped only while it is open, and used for its own kind. -/
structure Disciplined (ops : List (LedgerOp κ)) : Prop where
  started : ∃ n, ops.filterMap started = (List.range n).map fun n : ℕ => (n : ℤ)
  used : ∀ before i kind after, ops = before ++ .use i kind :: after → OpenAfter before i kind
  stopped : ∀ before i after, ops = before ++ .stop i :: after → ∃ kind, OpenAfter before i kind

/-- **A run of operations keeps to the rules.** -/
theorem disciplined_of_run (h : run [] ops = some L) : Disciplined ops := by
  refine ⟨⟨L.length, (records_of_run h).started⟩, ?_, ?_⟩
  · rintro before i kind after rfl
    rw [run_append] at h
    obtain ⟨L₀, h₀, hafter⟩ := Option.bind_eq_some_iff.1 h
    obtain ⟨L₁, hstep, -⟩ := Option.bind_eq_some_iff.1 hafter
    exact ((records_of_run h₀).isOpen _ _).1 (eq_of_step_use hstep).1
  · rintro before i after rfl
    rw [run_append] at h
    obtain ⟨L₀, h₀, hafter⟩ := Option.bind_eq_some_iff.1 h
    obtain ⟨L₁, hstep, -⟩ := Option.bind_eq_some_iff.1 hafter
    obtain ⟨kind, hentry, -⟩ := eq_of_step_stop hstep
    exact ⟨kind, ((records_of_run h₀).isOpen _ _).1 hentry⟩

/-- **A run that leaves no block open** has stopped every block once. -/
theorem count_stop_of_run (h : run [] ops = some L) (hclosed : ∀ i kind, L.entry i ≠ some ⟨kind, true⟩) {i : ℤ}
    {kind : κ} (hstart : .start i kind ∈ ops) : ops.count (.stop i) = 1 := by
  obtain ⟨b, hb⟩ := (records_of_run h).known i kind hstart
  cases b with
  | true => exact absurd hb (hclosed i kind)
  | false => exact (records_of_run h).stopped i kind hb

end Ledger

end Lib
