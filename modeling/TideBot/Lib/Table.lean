/-
  A database table under integrity constraints.

  A table is a list of rows that satisfies the constraint `K` (primary key,
  `UNIQUE` columns): a table that breaks it cannot be built.  A statement that
  would break it raises an integrity error and is rolled back (`none`).

  `key` is the primary key.  `find_update` and `returned_update` say what one
  conditional `UPDATE … WHERE p SET f RETURNING *` does to the row of a key and
  what it returns.
-/
import Mathlib

namespace Lib

/-- A table whose rows satisfy `K`. -/
structure Table (ρ : Type*) (K : List ρ → Prop) where
  rows : List ρ
  ok : K rows

namespace Table

variable {ρ κ : Type*} {K : List ρ → Prop}

/-- `SELECT * WHERE p`. -/
def select (T : Table ρ K) (p : ρ → Bool) : List ρ := T.rows.filter p

/-- The rows after `UPDATE … SET f WHERE p`. -/
def updated (p : ρ → Bool) (f : ρ → ρ) (rows : List ρ) : List ρ :=
  rows.map fun r => if p r then f r else r

theorem map_updated {β : Type*} {p : ρ → Bool} {f : ρ → ρ} (g : ρ → β) (hg : ∀ r, g (f r) = g r)
    (rows : List ρ) : (updated p f rows).map g = rows.map g := by
  rw [updated, List.map_map]
  refine List.map_congr_left ?_
  intro r _
  simp only [Function.comp_apply]
  split_ifs <;> simp [hg]

/-- `UPDATE … SET f WHERE p RETURNING *`: the table and the rows returned, or
    an integrity error. -/
def update [DecidablePred K] (T : Table ρ K) (p : ρ → Bool) (f : ρ → ρ) :
    Option (Table ρ K × List ρ) :=
  if h : K (updated p f T.rows) then some (⟨updated p f T.rows, h⟩, (T.rows.filter p).map f)
  else none

/-- `INSERT`, or an integrity error. -/
def insert [DecidablePred K] (T : Table ρ K) (r : ρ) : Option (Table ρ K) :=
  if h : K (T.rows ++ [r]) then some ⟨T.rows ++ [r], h⟩ else none

/-- `DELETE … WHERE p`, of a table whose constraint any of its rows satisfy. -/
def delete (hK : ∀ {l l'}, l'.Sublist l → K l → K l') (T : Table ρ K) (p : ρ → Bool) : Table ρ K :=
  ⟨T.rows.filter fun r => !p r, hK List.filter_sublist T.ok⟩

variable [DecidableEq κ] (key : ρ → κ)

/-- The row of a key. -/
def find (T : Table ρ K) (k : κ) : Option ρ := T.rows.find? fun r => key r = k

theorem find_key {T : Table ρ K} {k : κ} {r : ρ} (h : T.find key k = some r) : key r = k := by
  simpa using List.find?_some h

theorem find_mem {T : Table ρ K} {k : κ} {r : ρ} (h : T.find key k = some r) : r ∈ T.rows :=
  List.mem_of_find?_eq_some h

theorem find_of_mem {T : Table ρ K} (hnd : (T.rows.map key).Nodup) {r : ρ} (hr : r ∈ T.rows) :
    T.find key (key r) = some r := by
  rcases h : T.find key (key r) with _ | r'
  · exact absurd (List.find?_eq_none.1 h r hr) (by simp)
  · rw [List.inj_on_of_nodup_map hnd (find_mem key h) hr (find_key key h)]

theorem head?_select {T : Table ρ K} (hnd : (T.rows.map key).Nodup) {p : ρ → Bool} {k : κ}
    (hp : ∀ r, p r → key r = k) : (T.select p).head? = (T.find key k).filter p := by
  rw [select, List.head?_filter]
  rcases hk : T.rows.find? p with _ | r
  · rcases hr : T.find key k with _ | r
    · rfl
    · have hpr := List.find?_eq_none.1 hk r (find_mem key hr)
      simp [Option.filter, hpr]
  · have hpr := List.find?_some hk
    have hr : T.find key k = some r := hp r hpr ▸ find_of_mem key hnd (List.mem_of_find?_eq_some hk)
    simp [hr, Option.filter, hpr]

/-- **The row of a key after a deletion.** -/
theorem find_delete (hK : ∀ {l l'}, l'.Sublist l → K l → K l') {T : Table ρ K} {p : ρ → Bool}
    (hnd : (T.rows.map key).Nodup) (k : κ) :
    (T.delete hK p).find key k = (T.find key k).filter fun r => !p r := by
  have hsel := head?_select (T := T) key hnd (p := fun r => !p r && decide (key r = k)) (k := k) (by simp)
  have hfilter : (T.find key k).filter (fun r => !p r && decide (key r = k)) =
      (T.find key k).filter fun r => !p r := by
    rcases hr : T.find key k with _ | r
    · rfl
    · simp [Option.filter, find_key key hr]
  rw [← hfilter, ← hsel, find, delete, select, List.head?_filter, List.find?_filter]
  simp only [Bool.decide_and, Bool.decide_eq_true]

variable [DecidablePred K]

/-- **The row of a key after an insertion.** -/
theorem find_insert {T T' : Table ρ K} {r : ρ} (h : T.insert r = some T')
    (hnd : ∀ {rows}, K rows → (rows.map key).Nodup) :
    T.find key (key r) = none ∧ ∀ k, T'.find key k = if key r = k then some r else T.find key k := by
  unfold insert at h
  split at h
  · rename_i hK
    cases h
    have hnew : T.find key (key r) = none := by
      have hdisj := hnd hK
      rw [List.map_append, List.nodup_append] at hdisj
      refine List.find?_eq_none.2 ?_
      intro r' hr' heq
      exact hdisj.2.2 _ (List.mem_map_of_mem hr') _ (List.mem_singleton.2 rfl) (of_decide_eq_true heq)
    refine ⟨hnew, ?_⟩
    intro k
    rw [find, List.find?_append]
    split_ifs with hk
    · subst hk
      rw [show T.rows.find? (fun r' => decide (key r' = key r)) = none from hnew]
      simp
    · rw [find]
      simp [hk]
  · cases h

theorem rows_of_update {T T' : Table ρ K} {p : ρ → Bool} {f : ρ → ρ} {rs : List ρ}
    (h : T.update p f = some (T', rs)) :
    T'.rows = updated p f T.rows ∧ rs = (T.rows.filter p).map f := by
  unfold update at h
  split at h
  · obtain ⟨rfl, rfl⟩ := Prod.mk.inj (Option.some.inj h); exact ⟨rfl, rfl⟩
  · cases h

/-- **The row of a key after an update** that leaves the keys alone. -/
theorem find_update {T T' : Table ρ K} {p : ρ → Bool} {f : ρ → ρ} {rs : List ρ}
    (hf : ∀ r, key (f r) = key r) (h : T.update p f = some (T', rs)) (k : κ) :
    T'.find key k = (T.find key k).map fun r => if p r then f r else r := by
  rw [find, (rows_of_update h).1, updated, List.find?_map]
  have : ((fun r => decide (key r = k)) ∘ fun r => if p r then f r else r) =
      fun r => decide (key r = k) := by
    funext r
    simp only [Function.comp_apply]
    split_ifs <;> simp [hf]
  rw [this, find]

/-- **The rows returned by an update** of the single row with key `k`. -/
theorem returned_update {T T' : Table ρ K} {p : ρ → Bool} {f : ρ → ρ} {rs : List ρ}
    (hnd : (T.rows.map key).Nodup) {k : κ} (hp : ∀ r, p r → key r = k)
    (h : T.update p f = some (T', rs)) :
    rs.head? = ((T.find key k).filter p).map f := by
  rw [(rows_of_update h).2, List.head?_map]
  exact congrArg _ (head?_select key hnd hp)

end Table

end Lib
