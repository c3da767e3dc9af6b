/-
  The best chunks of several queries (`merge_and_sort_query_results` in `retrieval/utils.py`).

  The rows of all results are combined by the hash of the chunk, which its metadata hold or which is that of its text;
  of two rows of a chunk the one with the greater distance stays.  The rest is sorted, and cut; if nothing is left of
  some rows, there are no three lists to unpack, and it raises.
-/
import TideBot.Lib.Dict
import TideBot.Lib.Text

namespace TideBot

open Lib

/-- A distance, a document and its metadata. -/
abbrev ResultRow (δ μ : Type*) := δ × Text × Option μ

/-- What a query returns; of the lists in each only the first is read.  A document may not be a text. -/
structure QueryResult (δ μ : Type*) where
  distances : List (List δ)
  documents : List (List (Option Text))
  metadatas : List (List (Option μ))

section

variable {δ μ : Type*} [LinearOrder δ]

/-- The rows of a result that are texts; there is none if one of the lists is missing. -/
def QueryResult.rows (data : QueryResult δ μ) : List (ResultRow δ μ) :=
  match data.distances, data.documents, data.metadatas with
  | distances :: _, documents :: _, metadatas :: _ =>
    (distances.zip (documents.zip metadatas)).filterMap fun row => row.2.1.map fun document => (row.1, document, row.2.2)
  | _, _, _ => []

/-- How a chunk is known: by the hash in its metadata, unless that is empty, or that of its text. -/
def docHash (chunkHash : μ → Option Text) (contentHash : Text → Text) (row : ResultRow δ μ) : Text :=
  ((row.2.2.bind chunkHash).filter (· ≠ [])).getD (contentHash row.2.1)

/-- A row is new, or is better than the one that is there. -/
def combineRow (hash : ResultRow δ μ → Text) (combined : Dict Text (ResultRow δ μ)) (row : ResultRow δ μ) :
    Dict Text (ResultRow δ μ) :=
  match combined.get (hash row) with
  | none => combined.set (hash row) row
  | some old => if old.1 < row.1 then combined.set (hash row) row else combined

/-- `merge_and_sort_query_results`, by rows, for a `k` that is not negative; `none`: a `ValueError`.  The sort is
stable. -/
def mergeAndSortQueryResults (chunkHash : μ → Option Text) (contentHash : Text → Text)
    (queryResults : List (QueryResult δ μ)) (k : ℕ) : Option (List (ResultRow δ μ)) :=
  let combined := (queryResults.flatMap QueryResult.rows).foldl (combineRow (docHash chunkHash contentHash)) .empty
  let sorted := (combined.entries.map Prod.snd).mergeSort fun a b => b.1 ≤ a.1
  if !sorted.isEmpty && (sorted.take k).isEmpty then none else some (sorted.take k)

variable {hash : ResultRow δ μ → Text} {rows : List (ResultRow δ μ)} {combined : Dict Text (ResultRow δ μ)}

/-- Each chunk with one of its rows, and none of them is better. -/
structure CombinedFrom (hash : ResultRow δ μ → Text) (rows : List (ResultRow δ μ))
    (combined : Dict Text (ResultRow δ μ)) : Prop where
  mem : ∀ h row, combined.get h = some row → row ∈ rows ∧ hash row = h
  best : ∀ row ∈ rows, ∃ best, combined.get (hash row) = some best ∧ row.1 ≤ best.1

theorem CombinedFrom.set (h : CombinedFrom hash rows combined) {row : ResultRow δ μ}
    (hold : ∀ old, combined.get (hash row) = some old → old.1 ≤ row.1) :
    CombinedFrom hash (rows ++ [row]) (combined.set (hash row) row) where
  mem h' row' hget := by
    rcases Dict.eq_or_get_of_set hget with ⟨rfl, rfl⟩ | hget
    · exact ⟨List.mem_append_right _ (List.mem_singleton_self _), rfl⟩
    · exact ⟨List.mem_append_left _ (h.mem h' row' hget).1, (h.mem h' row' hget).2⟩
  best row' hmem := by
    by_cases heq : hash row' = hash row
    · refine ⟨row, by rw [heq, Dict.get_set_self], ?_⟩
      rcases List.mem_append.1 hmem with hmem | hmem
      · obtain ⟨best, hget, hle⟩ := h.best row' hmem
        exact hle.trans (hold best (heq ▸ hget))
      · rw [List.mem_singleton.1 hmem]
    · rw [Dict.get_set_of_ne _ heq]
      rcases List.mem_append.1 hmem with hmem | hmem
      · exact h.best row' hmem
      · exact absurd (congrArg hash (List.mem_singleton.1 hmem)) heq

theorem CombinedFrom.step (h : CombinedFrom hash rows combined) (row : ResultRow δ μ) :
    CombinedFrom hash (rows ++ [row]) (combineRow hash combined row) := by
  rw [combineRow]
  split
  · rename_i hnone
    exact h.set fun old hold => by rw [hnone] at hold; cases hold
  · rename_i old hget
    split_ifs with hlt
    · exact h.set fun old' hold => Option.some.inj (hget.symm.trans hold) ▸ hlt.le
    · refine ⟨fun h' row' hget' => ?_, fun row' hmem => ?_⟩
      · exact ⟨List.mem_append_left _ (h.mem h' row' hget').1, (h.mem h' row' hget').2⟩
      · rcases List.mem_append.1 hmem with hmem | hmem
        · exact h.best row' hmem
        · rw [List.mem_singleton.1 hmem]
          exact ⟨old, hget, not_lt.1 hlt⟩

theorem combinedFrom_foldl (hash : ResultRow δ μ → Text) (rows : List (ResultRow δ μ)) :
    CombinedFrom hash rows (rows.foldl (combineRow hash) .empty) := by
  induction rows using List.reverseRecOn with
  | nil => exact ⟨by rintro h row ⟨⟩, by rintro row ⟨⟩⟩
  | append_singleton rows row ih =>
    rw [List.foldl_append]
    exact ih.step row

theorem CombinedFrom.nodup (h : CombinedFrom hash rows combined) :
    ((combined.entries.map Prod.snd).map hash).Nodup := by
  have heq : (combined.entries.map Prod.snd).map hash = combined.keys := by
    rw [List.map_map, Dict.keys]
    exact List.map_congr_left fun e he => (h.mem e.1 e.2 (Dict.get_of_mem he)).2
  rw [heq]
  exact combined.nodup

/-- **The best chunks, each once**: it raises exactly if none of some rows is asked for; else the result is sorted, no
    chunk is in it twice, each is a row that was returned, and a row that was returned is not better than the one of its
    chunk in the result, or than any row of the result if that is full. -/
theorem mergeAndSort_best (chunkHash : μ → Option Text) (contentHash : Text → Text)
    (queryResults : List (QueryResult δ μ)) (k : ℕ) :
    let hash := docHash chunkHash contentHash
    (mergeAndSortQueryResults chunkHash contentHash queryResults k = none ↔
      k = 0 ∧ queryResults.flatMap QueryResult.rows ≠ []) ∧
    ∀ result, mergeAndSortQueryResults chunkHash contentHash queryResults k = some result →
      result.Pairwise (fun a b => b.1 ≤ a.1) ∧ (result.map hash).Nodup ∧
      (∀ row ∈ result, row ∈ queryResults.flatMap QueryResult.rows) ∧
      ∀ row ∈ queryResults.flatMap QueryResult.rows, (∃ best ∈ result, hash best = hash row ∧ row.1 ≤ best.1) ∨
        (result.length = k ∧ ∀ best ∈ result, row.1 ≤ best.1) := by
  intro hash
  have h := combinedFrom_foldl hash (queryResults.flatMap QueryResult.rows)
  rw [mergeAndSortQueryResults]
  generalize (queryResults.flatMap QueryResult.rows).foldl (combineRow (docHash chunkHash contentHash)) .empty =
    combined at h
  generalize hsorted : (combined.entries.map Prod.snd).mergeSort (fun a b => decide (b.1 ≤ a.1)) = sorted
  have hperm : sorted.Perm (combined.entries.map Prod.snd) := hsorted ▸ List.mergeSort_perm ..
  have hpairwise : sorted.Pairwise fun a b => b.1 ≤ a.1 := by
    rw [← hsorted]
    refine (List.pairwise_mergeSort (fun a b c hab hbc => ?_) (fun a b => ?_) _).imp of_decide_eq_true
    · exact decide_eq_true ((of_decide_eq_true hbc).trans (of_decide_eq_true hab))
    · simpa using le_total b.1 a.1
  have hmem : ∀ row ∈ sorted, row ∈ queryResults.flatMap QueryResult.rows := fun row hrow => by
    obtain ⟨e, he, rfl⟩ := List.mem_map.1 (hperm.mem_iff.1 hrow)
    exact (h.mem e.1 e.2 (Dict.get_of_mem he)).1
  have hbest : ∀ row ∈ queryResults.flatMap QueryResult.rows, ∃ best ∈ sorted, hash best = hash row ∧ row.1 ≤ best.1 := by
    intro row hrow
    obtain ⟨best, hget, hle⟩ := h.best row hrow
    exact ⟨best, hperm.mem_iff.2 (List.mem_map.2 ⟨_, Dict.mem_entries_iff.2 hget, rfl⟩), (h.mem _ best hget).2, hle⟩
  have hempty : sorted ≠ [] ↔ queryResults.flatMap QueryResult.rows ≠ [] := by
    constructor
    · intro hne
      obtain ⟨row, hrow⟩ := List.exists_mem_of_ne_nil _ hne
      exact List.ne_nil_of_mem (hmem row hrow)
    · intro hne
      obtain ⟨row, hrow⟩ := List.exists_mem_of_ne_nil _ hne
      obtain ⟨best, hin, -⟩ := hbest row hrow
      exact List.ne_nil_of_mem hin
  refine ⟨?_, fun result hresult => ?_⟩
  · rw [← hempty]
    cases sorted <;> cases k <;> simp
  obtain rfl : sorted.take k = result := Option.some.inj (Option.ite_none_left_eq_some.1 hresult).2
  refine ⟨hpairwise.sublist (List.take_sublist k sorted), ?_, fun row hrow => hmem row (List.mem_of_mem_take hrow),
    fun row hrow => ?_⟩
  · exact (((hperm.map hash).nodup_iff).2 h.nodup).sublist ((List.take_sublist k sorted).map hash)
  · obtain ⟨best, hin, heq, hle⟩ := hbest row hrow
    rw [← List.take_append_drop k sorted] at hin hpairwise
    rcases List.mem_append.1 hin with hin | hin
    · exact .inl ⟨best, hin, heq, hle⟩
    · -- what has been cut is not better than what has not
      refine .inr ⟨?_, fun top htop => hle.trans ((List.pairwise_append.1 hpairwise).2.2 top htop best hin)⟩
      have hlt : 0 < (sorted.drop k).length := List.length_pos_of_mem hin
      rw [List.length_drop] at hlt
      rw [List.length_take]
      omega

end

end TideBot
