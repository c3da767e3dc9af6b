/-
  Usages whose token counts are natural numbers: `normalize_usage` leaves a usage that it has made as it is
  (`normalizeCounts_self`), and so does the sum of two of them (`normal_mergeCounts`).
-/
import TideBot.Chat.Usage

namespace TideBot

open Lib

/-- The keys that token counts are read from. -/
def countKeys : List String :=
  ["input_tokens", "prompt_tokens", "prompt_eval_count", "prompt_n", "cache_n", "output_tokens",
    "completion_tokens", "eval_count", "predicted_n", "total_tokens"]

/-- Every token count is a natural number. -/
def Counted (d : PyDict) : Prop := ∀ key ∈ countKeys, ∀ v ∈ d.get (.lit key), ∃ n : ℕ, v = .int n

/-- A natural number. -/
def isCount : Json → Bool
  | .int n => 0 ≤ n
  | _ => false

theorem counted_iff {d : PyDict} : Counted d ↔ countKeys.all fun key => (d.get (.lit key)).all isCount := by
  rw [List.all_eq_true]
  refine forall₂_congr fun key _ => ?_
  rcases d.get (.lit key) with _ | v
  · simp
  · rw [Option.all_some]
    constructor
    · intro h
      obtain ⟨n, rfl⟩ := h v rfl
      simp [isCount]
    · rintro h _ ⟨⟩
      cases v with
      | int n => exact ⟨n.toNat, by rw [Int.toNat_of_nonneg (of_decide_eq_true h)]⟩
      | null | bool | float | str | arr | obj => cases h

/-- The count under the key, or 0. -/
def countOf (d : PyDict) (key : String) : ℕ :=
  match d.get (.lit key) with
  | some (.int n) => n.toNat
  | _ => 0

/-- The first of the counts that is not 0. -/
def firstCount (d : PyDict) (keys : List String) : ℕ := ((keys.map (countOf d)).find? (· ≠ 0)).getD 0

/-- `input_tokens`, of a usage as it was reported. -/
def inputCount (d : PyDict) : ℕ :=
  if firstCount d ["input_tokens", "prompt_tokens", "prompt_eval_count"] = 0 ∧
      d.get (.lit "prompt_eval_count") = none then
    countOf d "prompt_n" + countOf d "cache_n"
  else firstCount d ["input_tokens", "prompt_tokens", "prompt_eval_count"]

/-- `output_tokens` -/
def outputCount (d : PyDict) : ℕ :=
  firstCount d ["output_tokens", "completion_tokens", "eval_count", "predicted_n"]

/-- `total_tokens` -/
def totalCount (d : PyDict) : ℕ :=
  if countOf d "total_tokens" = 0 then inputCount d + outputCount d else countOf d "total_tokens"

/-- The usage with its three counts. -/
def withCounts (d : PyDict) (input output total : ℕ) : PyDict :=
  ((d.put "input_tokens" (.int input)).put "output_tokens" (.int output)).put "total_tokens" (.int total)

/-- **A usage as `normalize_usage` makes it**: its counts are what would be computed of it again. -/
structure Normal (d : PyDict) : Prop where
  counted : Counted d
  input : d.get (.lit "input_tokens") = some (.int (inputCount d))
  output : d.get (.lit "output_tokens") = some (.int (outputCount d))
  total : d.get (.lit "total_tokens") = some (.int (totalCount d))

section

variable {d e u : PyDict} {key : String} {keys : List String} {n : ℕ}

theorem Counted.get (h : Counted d) (hkey : key ∈ countKeys) :
    d.get (.lit key) = some (.int (countOf d key)) ∨ d.get (.lit key) = none ∧ countOf d key = 0 := by
  rcases hget : d.get (.lit key) with _ | v
  · exact .inr ⟨rfl, by rw [countOf, hget]⟩
  · obtain ⟨n, rfl⟩ := h key hkey v hget
    exact .inl (by simp [countOf, hget])

theorem countOf_of_get (h : d.get (.lit key) = some (.int n)) : countOf d key = n := by
  simp [countOf, h]

theorem Counted.fetch (h : Counted d) (hkey : key ∈ countKeys) :
    d.fetch key = .int (countOf d key) ∨ d.fetch key = .null ∧ countOf d key = 0 := by
  rw [PyDict.fetch]
  exact (h.get hkey).imp (fun h => by rw [h, Option.getD_some]) fun h => ⟨by rw [h.1, Option.getD_none], h.2⟩

theorem truthy_count (n : ℕ) : (Json.int n).truthy = decide (n ≠ 0) := by
  simp [Json.truthy]

theorem Counted.truthy (h : Counted d) (hkey : key ∈ countKeys) :
    (d.fetch key).truthy = decide (countOf d key ≠ 0) := by
  rcases h.fetch hkey with heq | ⟨heq, hzero⟩
  · rw [heq, truthy_count]
  · rw [heq, hzero]
    rfl

theorem Counted.or (h : Counted d) (hkey : key ∈ countKeys) (other : Json) :
    (d.fetch key).or other = if countOf d key ≠ 0 then .int (countOf d key) else other := by
  rw [Json.or, h.truthy hkey]
  by_cases hn : countOf d key = 0
  · simp [hn]
  · rw [if_pos (by simpa using hn), if_pos hn]
    exact (h.fetch hkey).elim id fun h => absurd h.2 hn

theorem firstCount_cons :
    firstCount d (key :: keys) = if countOf d key ≠ 0 then countOf d key else firstCount d keys := by
  rw [firstCount, List.map_cons, List.find?_cons]
  by_cases hn : countOf d key = 0 <;> simp [hn, firstCount]

theorem firstCount_nil : firstCount d [] = 0 := rfl

theorem firstCount_eq_zero : firstCount d keys = 0 ↔ ∀ key ∈ keys, countOf d key = 0 := by
  induction keys with
  | nil => simp [firstCount_nil]
  | cons key keys ih =>
    rw [firstCount_cons, List.forall_mem_cons, ← ih]
    by_cases hn : countOf d key = 0 <;> simp [hn]

theorem firstOf_counted (h : Counted d) (hkeys : ∀ k ∈ key :: keys, k ∈ countKeys) :
    firstOf d (key :: keys) = if firstCount d (key :: keys) ≠ 0 then .int (firstCount d (key :: keys))
      else d.fetch ((key :: keys).getLast (List.cons_ne_nil _ _)) := by
  obtain ⟨hkey, hkeys⟩ := List.forall_mem_cons.1 hkeys
  induction keys generalizing key with
  | nil =>
    rw [firstOf, firstCount_cons, firstCount_nil, List.getLast_singleton]
    by_cases hn : countOf d key = 0
    · simp [hn]
    · rw [if_pos hn, if_pos hn]
      exact (h.fetch hkey).resolve_right fun h => hn h.2
  | cons key' keys ih =>
    obtain ⟨hkey', hrest⟩ := List.forall_mem_cons.1 hkeys
    have hnext := ih hkeys hkey' hrest
    have hcons : firstCount d (key :: key' :: keys) =
        if countOf d key ≠ 0 then countOf d key else firstCount d (key' :: keys) := firstCount_cons
    rw [firstOf, h.or hkey, hnext, hcons, List.getLast_cons (List.cons_ne_nil _ _)]
    · by_cases hn : countOf d key = 0
      · have hskip : ¬ countOf d key ≠ 0 := not_not.2 hn
        rw [if_neg hskip, if_neg hskip]
      · rw [if_pos hn, if_pos hn, if_pos hn]
    · exact List.cons_ne_nil _ _

theorem reported_cases (h : Counted d) :
    (firstOf d ["input_tokens", "prompt_tokens", "prompt_eval_count"] = .null ∧
        inputCount d = countOf d "prompt_n" + countOf d "cache_n") ∨
      firstOf d ["input_tokens", "prompt_tokens", "prompt_eval_count"] = .int (inputCount d) := by
  rw [firstOf_counted h (by decide), inputCount]
  by_cases hfirst : firstCount d ["input_tokens", "prompt_tokens", "prompt_eval_count"] = 0
  · have hlast : ["input_tokens", "prompt_tokens", "prompt_eval_count"].getLast (by decide) = "prompt_eval_count" := rfl
    have hpec : "prompt_eval_count" ∈ countKeys := by decide
    simp only [hfirst, ne_eq, not_true_eq_false, if_false, hlast, true_and]
    rcases h.get hpec with hget | ⟨hget, -⟩
    · have hzero : countOf d "prompt_eval_count" = 0 := firstCount_eq_zero.1 hfirst _ (by decide)
      rw [hzero] at hget
      exact .inr (by simp [PyDict.fetch, hget])
    · exact .inl (by simp [PyDict.fetch, hget])
  · exact .inr (by simp [hfirst])

variable (py : PyConv)

/-- **What is normalized**, of counts. -/
theorem normalizeCounts_counted (h : Counted d) :
    normalizeCounts py d = some (withCounts d (inputCount d) (outputCount d) (totalCount d)) := by
  have houtput : (firstOf d ["output_tokens", "completion_tokens", "eval_count", "predicted_n"]).or (.int 0) =
      .int (outputCount d) := by
    rw [firstOf_counted h (by decide), outputCount]
    by_cases hn : firstCount d ["output_tokens", "completion_tokens", "eval_count", "predicted_n"] = 0
    · have hlast : ["output_tokens", "completion_tokens", "eval_count", "predicted_n"].getLast (by decide) =
          "predicted_n" := rfl
      have hzero : countOf d "predicted_n" = 0 := firstCount_eq_zero.1 hn _ (by decide)
      rw [if_neg (by simpa using hn), hlast, h.or (by decide), hzero, hn]
      rfl
    · rw [if_pos hn, Json.or, truthy_count, if_pos (by simpa using hn)]
  have htotal : (if (d.fetch "total_tokens").truthy then some (d.fetch "total_tokens")
      else (Json.int (inputCount d)).add (.int (outputCount d))) = some (.int (totalCount d)) := by
    rw [h.truthy (by decide), totalCount]
    by_cases hn : countOf d "total_tokens" = 0
    · simp [hn, Json.add, Json.unbool]
    · rw [if_pos (by simpa using hn), if_neg hn]
      exact congrArg some ((h.fetch (by decide)).resolve_right fun h => hn h.2)
  have hcount : ∀ key ∈ ["prompt_n", "cache_n"], ((d.fetch key).or (.int 0)).toInt py.int = some (countOf d key : ℤ) := by
    intro key hkey
    rw [h.or (by fin_cases hkey <;> decide)]
    by_cases hn : countOf d key = 0 <;> simp [hn, Json.toInt]
  have hint : ∀ n : ℕ, (Json.int n).toInt py.int = some (n : ℤ) := fun _ => rfl
  unfold normalizeCounts
  rcases reported_cases h with ⟨hnull, hsum⟩ | hreported
  · have hinput : Json.int ((countOf d "prompt_n" : ℤ) + countOf d "cache_n") = .int (inputCount d) := by
      rw [hsum, Nat.cast_add]
    simp only [hnull, Json.isNone, if_true, hcount "prompt_n" (by decide), hcount "cache_n" (by decide), houtput,
      Option.bind_eq_bind, Option.bind_some, hinput]
    split_ifs at htotal ⊢ with ht
    · rw [Option.some.inj htotal]
      rfl
    · rw [htotal]
      rfl
  · simp only [hreported, Json.isNone, houtput, Option.bind_eq_bind, Option.bind_some, Bool.false_eq_true, if_false]
    split_ifs at htotal ⊢ with ht
    · rw [Option.some.inj htotal]
      rfl
    · rw [htotal]
      rfl

/-! ## What has been normalized -/

theorem inputCount_eq_zero : inputCount d = 0 ↔
    (∀ key ∈ ["input_tokens", "prompt_tokens", "prompt_eval_count"], countOf d key = 0) ∧
      (d.get (.lit "prompt_eval_count") = none → countOf d "prompt_n" = 0 ∧ countOf d "cache_n" = 0) := by
  rw [inputCount, ← firstCount_eq_zero]
  by_cases hfirst : firstCount d ["input_tokens", "prompt_tokens", "prompt_eval_count"] = 0
  · by_cases hnone : d.get (.lit "prompt_eval_count") = none
    · rw [if_pos ⟨hfirst, hnone⟩, Nat.add_eq_zero_iff]
      exact ⟨fun h => ⟨hfirst, fun _ => h⟩, fun h => h.2 hnone⟩
    · rw [if_neg fun h => hnone h.2]
      exact ⟨fun h => ⟨h, fun h => absurd h hnone⟩, fun h => h.1⟩
  · rw [if_neg fun h => hfirst h.1]
    exact ⟨fun h => absurd h hfirst, fun h => h.1⟩

theorem outputCount_eq_zero : outputCount d = 0 ↔
    ∀ key ∈ ["output_tokens", "completion_tokens", "eval_count", "predicted_n"], countOf d key = 0 :=
  firstCount_eq_zero

theorem totalCount_eq_zero : totalCount d = 0 ↔
    countOf d "total_tokens" = 0 ∧ inputCount d = 0 ∧ outputCount d = 0 := by
  rw [totalCount]
  by_cases hn : countOf d "total_tokens" = 0
  · rw [if_pos hn, Nat.add_eq_zero_iff]
    exact ⟨fun h => ⟨hn, h⟩, fun h => h.2⟩
  · rw [if_neg hn]
    exact ⟨fun h => absurd h hn, fun h => h.1⟩

/-- A usage is normal when its counts are there, and a count that is 0 has nothing to be computed of. -/
theorem Normal.of_counts {input output total : ℕ} (hcounted : Counted d)
    (hinput : d.get (.lit "input_tokens") = some (.int input))
    (houtput : d.get (.lit "output_tokens") = some (.int output))
    (htotal : d.get (.lit "total_tokens") = some (.int total))
    (hnoInput : input = 0 → inputCount d = 0) (hnoOutput : output = 0 → outputCount d = 0)
    (hnoTotal : total = 0 → input = 0 ∧ output = 0) : Normal d := by
  have hi : inputCount d = input := by
    rcases Nat.eq_zero_or_pos input with hzero | hpos
    · rw [hnoInput hzero, hzero]
    · have hfirst : firstCount d ["input_tokens", "prompt_tokens", "prompt_eval_count"] = input := by
        rw [firstCount_cons, countOf_of_get hinput, if_pos hpos.ne']
      rw [inputCount, hfirst, if_neg fun h => hpos.ne' h.1]
  have ho : outputCount d = output := by
    rcases Nat.eq_zero_or_pos output with hzero | hpos
    · rw [hnoOutput hzero, hzero]
    · rw [outputCount, firstCount_cons, countOf_of_get houtput, if_pos hpos.ne']
  have ht : totalCount d = total := by
    rw [totalCount, countOf_of_get htotal, hi, ho]
    split_ifs with hzero
    · rw [(hnoTotal hzero).1, (hnoTotal hzero).2, hzero]
    · rfl
  exact ⟨hcounted, by rw [hi]; exact hinput, by rw [ho]; exact houtput, by rw [ht]; exact htotal⟩

/-- **What is normal stays as it is.** -/
theorem normalizeCounts_self (h : Normal d) : normalizeCounts py d = some d := by
  have hinput : d.put "input_tokens" (.int (inputCount d)) = d := Dict.set_get_self h.input
  have houtput : d.put "output_tokens" (.int (outputCount d)) = d := Dict.set_get_self h.output
  have htotal : d.put "total_tokens" (.int (totalCount d)) = d := Dict.set_get_self h.total
  rw [normalizeCounts_counted py h.counted, withCounts, hinput, houtput, htotal]

theorem get_withCounts_of_ne {input output total : ℕ}
    (hkey : key ∉ ["input_tokens", "output_tokens", "total_tokens"]) :
    (withCounts d input output total).get (.lit key) = d.get (.lit key) := by
  simp only [List.mem_cons, List.not_mem_nil, or_false, not_or] at hkey
  rw [withCounts, PyDict.get_put, if_neg hkey.2.2, PyDict.get_put, if_neg hkey.2.1, PyDict.get_put, if_neg hkey.1]

theorem countOf_congr (h : d.get (.lit key) = e.get (.lit key)) : countOf d key = countOf e key := by
  rw [countOf, countOf, h]

/-- **What is normalized is normal.** -/
theorem normal_withCounts (h : Counted d) : Normal (withCounts d (inputCount d) (outputCount d) (totalCount d)) := by
  set r := withCounts d (inputCount d) (outputCount d) (totalCount d) with hr
  have hinput : r.get (.lit "input_tokens") = some (.int (inputCount d)) := by
    rw [hr, withCounts, PyDict.get_put, if_neg (by decide), PyDict.get_put, if_neg (by decide), PyDict.get_put, if_pos rfl]
  have houtput : r.get (.lit "output_tokens") = some (.int (outputCount d)) := by
    rw [hr, withCounts, PyDict.get_put, if_neg (by decide), PyDict.get_put, if_pos rfl]
  have htotal : r.get (.lit "total_tokens") = some (.int (totalCount d)) := by
    rw [hr, withCounts, PyDict.get_put, if_pos rfl]
  have hother : ∀ key ∉ ["input_tokens", "output_tokens", "total_tokens"], r.get (.lit key) = d.get (.lit key) :=
    fun key hkey => get_withCounts_of_ne hkey
  have hsame : ∀ key ∉ ["input_tokens", "output_tokens", "total_tokens"], countOf r key = countOf d key :=
    fun key hkey => countOf_congr (hother key hkey)
  have hcounted : Counted r := by
    intro key hkey v hv
    by_cases hthree : key ∈ ["input_tokens", "output_tokens", "total_tokens"]
    · simp only [List.mem_cons, List.not_mem_nil, or_false] at hthree
      rcases hthree with rfl | rfl | rfl
      · exact ⟨_, Option.some.inj (hv.symm.trans hinput)⟩
      · exact ⟨_, Option.some.inj (hv.symm.trans houtput)⟩
      · exact ⟨_, Option.some.inj (hv.symm.trans htotal)⟩
    · exact h key hkey v ((hother key hthree).symm.trans hv)
  refine .of_counts hcounted hinput houtput htotal ?_ ?_ fun hzero => (totalCount_eq_zero.1 hzero).2
  · intro hzero
    obtain ⟨hcounts, hrest⟩ := inputCount_eq_zero.1 hzero
    refine inputCount_eq_zero.2 ⟨?_, fun hnone => ?_⟩
    · intro key hkey
      by_cases heq : key = "input_tokens"
      · rw [heq, countOf_of_get hinput, hzero]
      · rw [hsame key (by fin_cases hkey <;> first | exact absurd rfl heq | decide)]
        exact hcounts key hkey
    · rw [hsame _ (by decide), hsame _ (by decide)]
      exact hrest ((hother _ (by decide)).symm.trans hnone)
  · intro hzero
    refine outputCount_eq_zero.2 fun key hkey => ?_
    by_cases heq : key = "output_tokens"
    · rw [heq, countOf_of_get houtput, hzero]
    · rw [hsame key (by fin_cases hkey <;> first | exact absurd rfl heq | decide)]
      exact outputCount_eq_zero.1 hzero key hkey

/-! ## Sums -/

section

variable {f : PyDict → String → PyDict} {r : PyDict} {k : String} {v : Json}

theorem get_foldl_of_notMem (hother : ∀ r key, key ≠ k → (f r key).get (.lit k) = r.get (.lit k)) (hk : k ∉ keys) :
    (keys.foldl f r).get (.lit k) = r.get (.lit k) := by
  induction keys generalizing r with
  | nil => rfl
  | cons key keys ih =>
    rw [List.mem_cons, not_or] at hk
    rw [List.foldl_cons, ih hk.2, hother r key (Ne.symm hk.1)]

theorem get_foldl_of_mem (hother : ∀ r key, key ≠ k → (f r key).get (.lit k) = r.get (.lit k))
    (hself : ∀ r, (f r k).get (.lit k) = some v) (hk : k ∈ keys) : (keys.foldl f r).get (.lit k) = some v := by
  induction keys generalizing r with
  | nil => cases hk
  | cons key keys ih =>
    rw [List.foldl_cons]
    by_cases hrest : k ∈ keys
    · exact ih hrest
    · obtain rfl := (List.mem_cons.1 hk).resolve_right hrest
      rw [get_foldl_of_notMem hother hrest, hself]

end

theorem get_mergeSummable_of_ne {r : PyDict} {k : String} (h : key ≠ k) :
    (mergeSummable e u r key).get (.lit k) = r.get (.lit k) := by
  rw [mergeSummable]
  split_ifs
  · rw [PyDict.get_put, if_neg (Ne.symm h)]
  · rfl

theorem get_mergeDetails_of_ne {r : PyDict} {k : String} (h : key ≠ k) :
    (mergeDetails e u r key).get (.lit k) = r.get (.lit k) := by
  rw [mergeDetails]
  split_ifs
  · rw [PyDict.get_put, if_neg (Ne.symm h)]
  · rfl

theorem get_mergeCounts_of_summable (hkey : key ∈ usageSummableKeys) : (mergeCounts e u).get (.lit key) =
    (usageSummableKeys.foldl (mergeSummable e u) (e.update u)).get (.lit key) := by
  have hdetail : key ∉ usageDetailKeys := by fin_cases hkey <;> decide
  have hprompt : key ≠ "prompt_tokens" := by fin_cases hkey <;> decide
  have hcompletion : key ≠ "completion_tokens" := by fin_cases hkey <;> decide
  rw [mergeCounts, PyDict.get_put, if_neg hcompletion, PyDict.get_put, if_neg hprompt,
    get_foldl_of_notMem (fun r key' h => get_mergeDetails_of_ne h) hdetail]

theorem get_mergeCounts_sum {m n : ℕ} (hkey : key ∈ ["input_tokens", "output_tokens", "total_tokens"])
    (he : e.get (.lit key) = some (.int m)) (hu : u.get (.lit key) = some (.int n)) :
    (mergeCounts e u).get (.lit key) = some (.int (m + n : ℕ)) := by
  have hround : ∀ r, (mergeSummable e u r key).get (.lit key) = some (.int (m + n : ℕ)) := by
    intro r
    rw [mergeSummable, PyDict.fetchD, PyDict.fetchD, he, hu, if_pos (by rfl), PyDict.get_put, if_pos rfl, Nat.cast_add]
    rfl
  have hsummable : key ∈ usageSummableKeys := by fin_cases hkey <;> decide
  rw [get_mergeCounts_of_summable hsummable,
    get_foldl_of_mem (fun r key' h => get_mergeSummable_of_ne h) hround hsummable]

theorem get_mergeCounts_of_notMem
    (hkey : key ∉ usageSummableKeys ++ usageDetailKeys ++ ["prompt_tokens", "completion_tokens"]) :
    (mergeCounts e u).get (.lit key) = (u.get (.lit key)).or (e.get (.lit key)) := by
  simp only [List.mem_append, not_or, List.mem_cons, List.not_mem_nil, or_false] at hkey
  obtain ⟨⟨hsummable, hdetail⟩, hprompt, hcompletion⟩ := hkey
  rw [mergeCounts, PyDict.get_put, if_neg hcompletion, PyDict.get_put, if_neg hprompt,
    get_foldl_of_notMem (fun r key' h => get_mergeDetails_of_ne h) hdetail,
    get_foldl_of_notMem (fun r key' h => get_mergeSummable_of_ne h) hsummable, Dict.get_update]

theorem or_alias (hu : Counted u) (he : Counted e) {name : String} (hname : name ∈ countKeys) (hkey : key ∈ countKeys) :
    ∃ n : ℕ, (u.fetch name).or ((u.fetch key).or (e.fetchD name (.int 0))) = .int n ∧
      (countOf u name = 0 → countOf u key = 0 → n = countOf e name) := by
  have hold : e.fetchD name (.int 0) = .int (countOf e name) := by
    rw [PyDict.fetchD]
    rcases he.get hname with h | ⟨h, hzero⟩
    · rw [h, Option.getD_some]
    · rw [h, hzero, Option.getD_none]
      rfl
  rw [hu.or hname, hu.or hkey, hold]
  by_cases ha : countOf u name = 0
  · by_cases hk : countOf u key = 0
    · exact ⟨_, by simp [ha, hk], fun _ _ => rfl⟩
    · exact ⟨_, by simp [ha, hk]; rfl, fun _ h => absurd h hk⟩
  · exact ⟨_, by simp [ha]; rfl, fun h => absurd h ha⟩

theorem countOf_or {r : PyDict} (h : r.get (.lit key) = (u.get (.lit key)).or (e.get (.lit key)))
    (hu : countOf u key = 0) (he : countOf e key = 0) : countOf r key = 0 := by
  rcases hget : u.get (.lit key) with _ | v
  · rw [hget, Option.none_or] at h
    rw [countOf_congr h, he]
  · rw [hget, Option.some_or, ← hget] at h
    rw [countOf_congr h, hu]

/-- **The sum of two normal usages is normal.** -/
theorem normal_mergeCounts (he : Normal e) (hu : Normal u) : Normal (mergeCounts e u) := by
  set r := mergeCounts e u with hr
  have hinput : r.get (.lit "input_tokens") = some (.int (inputCount e + inputCount u : ℕ)) :=
    get_mergeCounts_sum (by decide) he.input hu.input
  have houtput : r.get (.lit "output_tokens") = some (.int (outputCount e + outputCount u : ℕ)) :=
    get_mergeCounts_sum (by decide) he.output hu.output
  have htotal : r.get (.lit "total_tokens") = some (.int (totalCount e + totalCount u : ℕ)) :=
    get_mergeCounts_sum (by decide) he.total hu.total
  obtain ⟨prompt, hprompt, holdPrompt⟩ :
      ∃ n : ℕ, r.get (.lit "prompt_tokens") = some (.int n) ∧
        (countOf u "prompt_tokens" = 0 → countOf u "input_tokens" = 0 → n = countOf e "prompt_tokens") := by
    have hp : "prompt_tokens" ∈ countKeys := by decide
    have hi : "input_tokens" ∈ countKeys := by decide
    obtain ⟨n, hn, hold⟩ := or_alias hu.counted he.counted hp hi
    refine ⟨n, ?_, hold⟩
    rw [hr, mergeCounts, PyDict.get_put, if_neg (by decide), PyDict.get_put, if_pos rfl, hn]
  obtain ⟨completion, hcompletion, holdCompletion⟩ :
      ∃ n : ℕ, r.get (.lit "completion_tokens") = some (.int n) ∧
        (countOf u "completion_tokens" = 0 → countOf u "output_tokens" = 0 → n = countOf e "completion_tokens") := by
    have hc : "completion_tokens" ∈ countKeys := by decide
    have ho : "output_tokens" ∈ countKeys := by decide
    obtain ⟨n, hn, hold⟩ := or_alias hu.counted he.counted hc ho
    refine ⟨n, ?_, hold⟩
    rw [hr, mergeCounts, PyDict.get_put, if_pos rfl, hn]
  have hother : ∀ key ∈ ["prompt_eval_count", "prompt_n", "cache_n", "eval_count", "predicted_n"],
      r.get (.lit key) = (u.get (.lit key)).or (e.get (.lit key)) := by
    intro key hkey
    exact get_mergeCounts_of_notMem (by fin_cases hkey <;> decide)
  have hcounted : Counted r := by
    intro key hkey v hv
    by_cases hrest : key ∈ ["prompt_eval_count", "prompt_n", "cache_n", "eval_count", "predicted_n"]
    · rw [Option.mem_def, hother key hrest, Option.or_eq_some_iff] at hv
      rcases hv with hv | ⟨-, hv⟩
      · exact hu.counted key hkey v hv
      · exact he.counted key hkey v hv
    · have hfive : key ∈ ["input_tokens", "output_tokens", "total_tokens", "prompt_tokens", "completion_tokens"] := by
        fin_cases hkey <;> first | decide | exact absurd (by decide) hrest
      simp only [List.mem_cons, List.not_mem_nil, or_false] at hfive
      rcases hfive with rfl | rfl | rfl | rfl | rfl
      · exact ⟨_, Option.some.inj (hv.symm.trans hinput)⟩
      · exact ⟨_, Option.some.inj (hv.symm.trans houtput)⟩
      · exact ⟨_, Option.some.inj (hv.symm.trans htotal)⟩
      · exact ⟨_, Option.some.inj (hv.symm.trans hprompt)⟩
      · exact ⟨_, Option.some.inj (hv.symm.trans hcompletion)⟩
  refine .of_counts hcounted hinput houtput htotal ?_ ?_ ?_
  · intro hzero
    obtain ⟨hzeroE, hzeroU⟩ := Nat.add_eq_zero_iff.1 hzero
    obtain ⟨hcountsE, hrestE⟩ := inputCount_eq_zero.1 hzeroE
    obtain ⟨hcountsU, hrestU⟩ := inputCount_eq_zero.1 hzeroU
    refine inputCount_eq_zero.2 ⟨?_, fun hnone => ?_⟩
    · intro key hkey
      fin_cases hkey
      · rw [countOf_of_get hinput, hzero]
      · rw [countOf_of_get hprompt, holdPrompt (hcountsU _ (by decide)) (hcountsU _ (by decide))]
        exact hcountsE _ (by decide)
      · exact countOf_or (hother _ (by decide)) (hcountsU _ (by decide)) (hcountsE _ (by decide))
    -- neither has a count of evaluated tokens
    · rw [hother _ (by decide), Option.or_eq_none_iff] at hnone
      exact ⟨countOf_or (hother _ (by decide)) (hrestU hnone.1).1 (hrestE hnone.2).1,
        countOf_or (hother _ (by decide)) (hrestU hnone.1).2 (hrestE hnone.2).2⟩
  · intro hzero
    obtain ⟨hzeroE, hzeroU⟩ := Nat.add_eq_zero_iff.1 hzero
    have hcountsE := outputCount_eq_zero.1 hzeroE
    have hcountsU := outputCount_eq_zero.1 hzeroU
    refine outputCount_eq_zero.2 fun key hkey => ?_
    fin_cases hkey
    · rw [countOf_of_get houtput, hzero]
    · rw [countOf_of_get hcompletion, holdCompletion (hcountsU _ (by decide)) (hcountsU _ (by decide))]
      exact hcountsE _ (by decide)
    · exact countOf_or (hother _ (by decide)) (hcountsU _ (by decide)) (hcountsE _ (by decide))
    · exact countOf_or (hother _ (by decide)) (hcountsU _ (by decide)) (hcountsE _ (by decide))
  · intro hzero
    obtain ⟨hzeroE, hzeroU⟩ := Nat.add_eq_zero_iff.1 hzero
    obtain ⟨-, hinputE, houtputE⟩ := totalCount_eq_zero.1 hzeroE
    obtain ⟨-, hinputU, houtputU⟩ := totalCount_eq_zero.1 hzeroU
    rw [hinputE, hinputU, houtputE, houtputU]
    exact ⟨rfl, rfl⟩

end

end TideBot
