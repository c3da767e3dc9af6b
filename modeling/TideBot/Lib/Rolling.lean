/-
  Counts over a rolling window.

  Events are counted by a key of theirs, as by the bucket that their time is in.  The sum of the counts of some
  keys is the number of events with such a key (`sum_count_keys`); so a dictionary of counts has it, if it has all
  of them (`sum_counts`).

  Where an event is admitted only if there have been fewer than `limit` recent ones, no more than `limit` of any
  that are all recent for each other are admitted (`countP_admitted_le`).
-/
import TideBot.Lib.Dict

namespace Lib

/-! ## Counts by key -/

section
variable {α κ : Type*} [DecidableEq κ] {key : α → κ} {l : List α} {keys : List κ}

theorem countP_or (p q : α → Bool) (h : ∀ a ∈ l, ¬(p a ∧ q a)) :
    (l.countP fun a => p a || q a) = l.countP p + l.countP q := by
  induction l with
  | nil => rfl
  | cons a l ih =>
    have ha := h a List.mem_cons_self
    have hrest := ih fun b hb => h b (List.mem_cons_of_mem a hb)
    simp only [List.countP_cons, hrest]
    cases hp : p a <;> cases hq : q a
    · simp
    · simp
      omega
    · simp
      omega
    · exact absurd ⟨hp, hq⟩ ha

/-- **Counts of different keys add up.** -/
theorem sum_count_keys (hnodup : keys.Nodup) :
    (keys.map fun k => l.countP fun a => key a = k).sum = l.countP fun a => key a ∈ keys := by
  induction keys with
  | nil => simp
  | cons k keys ih =>
    obtain ⟨hk, hnodup⟩ := List.nodup_cons.1 hnodup
    have hapart : ∀ a ∈ l, ¬(decide (key a = k) ∧ decide (key a ∈ keys)) := by
      intro a _
      simp only [decide_eq_true_eq]
      rintro ⟨rfl, hmem⟩
      exact hk hmem
    rw [List.map_cons, List.sum_cons, ih hnodup, ← countP_or _ _ hapart]
    simp only [List.mem_cons, Bool.decide_or]

theorem sum_counts (key : α → κ) {d : Dict κ ℕ} {p : α → Bool}
    (hcount : ∀ k n, d.get k = some n → n = l.countP fun a => key a = k)
    (hkeys : ∀ a ∈ l, p a = true ↔ (d.get (key a)).isSome) :
    (d.entries.map Prod.snd).sum = l.countP p := by
  have hmap : d.entries.map Prod.snd = d.keys.map fun k => l.countP fun a => key a = k := by
    rw [Dict.keys, List.map_map]
    refine List.map_congr_left fun e he => ?_
    exact hcount e.1 e.2 (Dict.mem_entries_iff.1 he)
  have hnodup : d.keys.Nodup := d.nodup
  rw [hmap, sum_count_keys hnodup]
  refine List.countP_congr fun a ha => ?_
  rw [hkeys a ha, decide_eq_true_eq, Dict.mem_keys_iff, Option.isSome_iff_exists]

end

/-! ## Admission -/

section
variable {α : Type*} {recent : α → α → Bool} {p : α → Bool} {limit : ℕ}

/-- **No more than `limit` events are admitted** of those that are recent for each other, if each that is admitted
    has fewer than `limit` recent ones before it. -/
theorem countP_admitted_le {l : List (α × Bool)}
    (hlimit : ∀ before a after, l = before ++ (a, true) :: after →
      (before.countP fun e => recent a e.1) < limit)
    (hrecent : ∀ a e, p a → p e → recent a e) : (l.countP fun e => p e.1 && e.2) ≤ limit := by
  induction l using List.reverseRecOn with
  | nil => exact Nat.zero_le _
  | append_singleton l e ih =>
    have hbefore := ih fun before a after heq => hlimit before a (after ++ [e]) (by rw [heq]; simp)
    rw [List.countP_append, List.countP_singleton]
    split_ifs with he
    · obtain ⟨a, admitted⟩ := e
      obtain ⟨hp, rfl⟩ : p a ∧ admitted = true := by simpa using he
      have hlt := hlimit l a [] rfl
      have hmono : (l.countP fun e => p e.1 && e.2) ≤ l.countP fun e => recent a e.1 := by
        refine List.countP_mono_left fun e _ hpe => ?_
        obtain ⟨hpe, -⟩ : p e.1 ∧ e.2 = true := by simpa using hpe
        exact hrecent a e.1 hp hpe
      omega
    · exact hbefore

end

end Lib
