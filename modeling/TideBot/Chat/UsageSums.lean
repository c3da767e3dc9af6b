/-
  What `merge_usage` adds up, over any number of usages and in any grouping.

  The numbers of a usage stand at paths (`amountAt`): a token count or a cost under its key, an entry of a detail map
  under the keys of the maps it is in.  The invariant of what has been merged (`Settled`): it is `{}` or as
  `normalize_usage` makes it, so that a count that is 0 is not computed again of what an earlier merge has left; and
  its detail maps have integers where all others have some.  At the paths that are added up, a merge is a sum then
  (`merge_settled`).  Floats are rounded at every sum, so the grouping shows (`not_foldUsages_adds_up`).
-/
import TideBot.Chat.UsageKept
import TideBot.Lib.Mapping

namespace TideBot

open Lib

/-! ## Amounts -/

/-- A number, or 0 for none; this 0 is not the number 0. -/
abbrev Amount := WithZero ℚ

/-- The number at a path into a value. -/
def amountAt : List Text → Json → Amount
  | [], v => v.number.elim 0 fun q => (q : Amount)
  | k :: path, .obj fs => ((PyDict.ofFields fs).get k).elim 0 (amountAt path)
  | _ :: _, _ => 0

/-- The number at a path into a usage. -/
def usageAmount (usage : PyDict) (path : List Text) : Amount := amountAt path usage.toJson

mutual

/-- The value has integers at paths in `leaf`, and dictionaries at others, and nothing else. -/
def Fits : (List Text → Bool) → Json → Prop
  | leaf, .int _ => leaf []
  | leaf, .obj fs => leaf [] = false ∧ FieldsFit leaf fs
  | _, _ => False

def FieldsFit : (List Text → Bool) → List (Text × Json) → Prop
  | _, [] => True
  | leaf, (k, x) :: fs => Fits (fun path => leaf (k :: path)) x ∧ FieldsFit leaf fs

end

/-- The same of the values of a dictionary. -/
def ValuesFit (leaf : List Text → Bool) (d : PyDict) : Prop :=
  ∀ k v, d.get k = some v → Fits (fun path => leaf (k :: path)) v

section
variable {leaf : List Text → Bool} {v w : Json} {a b : ℚ} {d c i : PyDict} {k : Text} {path : List Text} {fuel : ℕ}

theorem fieldsFit_iff {fs : List (Text × Json)} :
    FieldsFit leaf fs ↔ ∀ f ∈ fs, Fits (fun path => leaf (f.1 :: path)) f.2 := by
  induction fs with
  | nil => simp [FieldsFit]
  | cons f fs ih => rw [FieldsFit, ih, List.forall_mem_cons]

theorem ValuesFit.fields (h : ValuesFit leaf d) : FieldsFit leaf d.entries :=
  fieldsFit_iff.2 fun f hf => h f.1 f.2 (Dict.mem_entries_iff.1 hf)

theorem ValuesFit.toJson (h : ValuesFit leaf d) (hleaf : leaf [] = false) : Fits leaf d.toJson := ⟨hleaf, h.fields⟩

theorem FieldsFit.values {fs : List (Text × Json)} (h : FieldsFit leaf fs) : ValuesFit leaf (.ofFields fs) :=
  fun k v hv => fieldsFit_iff.1 h (k, v) (PyDict.mem_entries_ofFields (Dict.mem_entries_iff.2 hv))

theorem Fits.cases (h : Fits leaf v) :
    (leaf [] = true ∧ ∃ n, v = .int n) ∨ (leaf [] = false ∧ ∃ fs, v = .obj fs ∧ FieldsFit leaf fs) := by
  cases v with
  | int n => exact .inl ⟨h, n, rfl⟩
  | obj fs => exact .inr ⟨h.1, fs, rfl, h.2⟩
  | null | bool | float | str | arr => cases h

theorem Fits.int (h : Fits leaf v) (hleaf : leaf [] = true) : ∃ n, v = .int n := by
  obtain ⟨-, hn⟩ | ⟨hfalse, -⟩ := h.cases
  · exact hn
  · rw [hleaf] at hfalse
    cases hfalse

theorem Fits.obj (h : Fits leaf v) (hleaf : leaf [] = false) : ∃ fs, v = .obj fs ∧ FieldsFit leaf fs := by
  obtain ⟨htrue, -⟩ | ⟨-, hfs⟩ := h.cases
  · rw [hleaf] at htrue
    cases htrue
  · exact hfs

theorem usageAmount_cons (d : PyDict) (k : Text) (path : List Text) :
    usageAmount d (k :: path) = (d.get k).elim 0 (amountAt path) := by
  rw [usageAmount, PyDict.toJson, amountAt, ofFields_entries]

@[simp] theorem usageAmount_empty (path : List Text) : usageAmount .empty path = 0 := by
  cases path <;> rfl

theorem amountAt_obj (fs : List (Text × Json)) (path : List Text) :
    amountAt path (.obj fs) = usageAmount (.ofFields fs) path := by
  cases path with
  | nil => rfl
  | cons k path => rw [amountAt, usageAmount_cons]

theorem amountAt_int (n : ℤ) (path : List Text) :
    amountAt path (.int n) = if path = [] then ((n : ℚ) : Amount) else 0 := by
  cases path with
  | nil => rw [amountAt, if_pos rfl]; rfl
  | cons k path => rw [if_neg (List.cons_ne_nil _ _)]; rfl

/-! ## Two integers -/

theorem sumNumbers_int (m n : ℤ) : sumNumbers (.int m) (.int n) = .int (m + n) := rfl

/-- There is an integer under a key, if something is there. -/
def Numbered (o : Option Json) : Prop := ∀ v, o = some v → ∃ n, v = .int n

/-- **Two integers, either of which may be missing, are added up.** -/
theorem amountAt_sumNumbers {o o' : Option Json} (h : Numbered o) (h' : Numbered o') (hsome : o.isSome ∨ o'.isSome)
    (path : List Text) :
    (∃ n, sumNumbers (o.getD (.int 0)) (o'.getD (.int 0)) = .int n) ∧
      amountAt path (sumNumbers (o.getD (.int 0)) (o'.getD (.int 0))) =
        o.elim 0 (amountAt path) + o'.elim 0 (amountAt path) := by
  cases o with
  | none =>
    cases o' with
    | none => simp at hsome
    | some w =>
      obtain ⟨n, rfl⟩ := h' w rfl
      rw [Option.getD_none, Option.getD_some, sumNumbers_int, zero_add, Option.elim_none, Option.elim_some, zero_add]
      exact ⟨⟨n, rfl⟩, rfl⟩
  | some v =>
    obtain ⟨m, rfl⟩ := h v rfl
    cases o' with
    | none =>
      rw [Option.getD_none, Option.getD_some, sumNumbers_int, add_zero, Option.elim_none, Option.elim_some, add_zero]
      exact ⟨⟨m, rfl⟩, rfl⟩
    | some w =>
      obtain ⟨n, rfl⟩ := h' w rfl
      rw [Option.getD_some, Option.getD_some, sumNumbers_int, Option.elim_some, Option.elim_some]
      refine ⟨⟨m + n, rfl⟩, ?_⟩
      rw [amountAt_int, amountAt_int, amountAt_int]
      split_ifs
      · rw [Int.cast_add, WithZero.coe_add]
      · exact (add_zero 0).symm

/-! ## Two detail maps -/

/-- The values are nested less deeply than the fuel is. -/
def Shallow (fuel : ℕ) (d : PyDict) : Prop := ∀ k v, d.get k = some v → nesting v < fuel

theorem nesting_lt_of_mem {fs : List (Text × Json)} {f : Text × Json} (h : f ∈ fs) :
    nesting f.2 < nesting (.obj fs) := by
  rw [nesting]
  induction fs with
  | nil => cases h
  | cons g fs ih =>
    obtain ⟨k, x⟩ := g
    rw [nestingFields]
    obtain rfl | h := List.mem_cons.1 h
    · exact Nat.lt_succ_of_le (le_max_left _ _)
    · exact (ih h).trans_le (Nat.succ_le_succ (le_max_right _ _))

theorem shallow_dictOrEmpty (h : nesting v ≤ fuel) : Shallow fuel (dictOrEmpty v) := by
  intro k x hx
  cases v with
  | obj fs =>
    exact (nesting_lt_of_mem (PyDict.mem_entries_ofFields (Dict.mem_entries_iff.2 hx))).trans_le h
  | null | bool | int | float | str | arr => cases hx

/-- What is under a key is a dictionary of this shape, if something is there. -/
def Mapped (leaf : List Text → Bool) (o : Option Json) : Prop := ∀ v, o = some v → ∃ fs, v = .obj fs ∧ FieldsFit leaf fs

theorem Mapped.values {o : Option Json} (h : Mapped leaf o) {other : Json} (hother : dictOrEmpty other = .empty) :
    ValuesFit leaf (dictOrEmpty (o.getD other)) := by
  cases o with
  | none =>
    rw [Option.getD_none, hother]
    exact fun k v hv => by cases hv
  | some v =>
    obtain ⟨fs, rfl, hfs⟩ := h v rfl
    exact hfs.values

theorem Mapped.amount {o : Option Json} (h : Mapped leaf o) {other : Json} (hother : dictOrEmpty other = .empty)
    (path : List Text) : usageAmount (dictOrEmpty (o.getD other)) path = o.elim 0 (amountAt path) := by
  cases o with
  | none =>
    rw [Option.getD_none, hother]
    exact usageAmount_empty path
  | some v =>
    obtain ⟨fs, rfl, -⟩ := h v rfl
    exact (amountAt_obj fs path).symm

theorem Mapped.isObj {o : Option Json} (h : Mapped leaf o) (hsome : o.isSome) (other : Json) :
    (o.getD other).isObj = true := by
  obtain ⟨v, rfl⟩ := Option.isSome_iff_exists.1 hsome
  obtain ⟨fs, rfl, -⟩ := h v rfl
  rfl

theorem Numbered.getD {o : Option Json} (h : Numbered o) :
    (o.getD (.int 0)).isNumber = true ∧ (o.getD (.int 0)).isObj = false := by
  cases o with
  | none => exact ⟨rfl, rfl⟩
  | some v =>
    obtain ⟨n, rfl⟩ := h v rfl
    exact ⟨rfl, rfl⟩

theorem nesting_getD_le {o : Option Json} (h : ∀ v, o = some v → nesting v < fuel + 1) :
    nesting (o.getD (.int 0)) ≤ fuel := by
  cases o with
  | none => exact Nat.zero_le fuel
  | some v => exact Nat.le_of_lt_succ (h v rfl)

/-- **Maps of integers are added up entry by entry**, at any depth, and keep their shape. -/
theorem mergeNumericUsageMap_spec (hc : ValuesFit leaf c) (hi : ValuesFit leaf i) (hcs : Shallow fuel c)
    (his : Shallow fuel i) :
    ValuesFit leaf (mergeNumericUsageMap fuel c i) ∧
      ∀ path, usageAmount (mergeNumericUsageMap fuel c i) path = usageAmount c path + usageAmount i path := by
  induction fuel generalizing leaf c i with
  | zero =>
    have hnone : ∀ d : PyDict, Shallow 0 d → ∀ k, d.get k = none := by
      intro d hd k
      rcases hget : d.get k with _ | v
      · rfl
      · exact absurd (hd k v hget) (Nat.not_lt_zero _)
    have hupdate : ∀ k, (c.update i).get k = none := fun k => by
      rw [Dict.get_update, hnone i his, hnone c hcs, Option.none_or]
    rw [mergeNumericUsageMap]
    refine ⟨fun k v hv => (by rw [hupdate k] at hv; cases hv), fun path => ?_⟩
    cases path with
    | nil => rfl
    | cons k path =>
      rw [usageAmount_cons, usageAmount_cons, usageAmount_cons, hupdate, hnone c hcs, hnone i his]
      rfl
  | succ fuel ih =>
    -- the entry under one key
    have hentry : ∀ k, (∀ r, (mergeNumericUsageMap (fuel + 1) c i).get k = some r →
        Fits (fun path => leaf (k :: path)) r) ∧
        ∀ path, ((mergeNumericUsageMap (fuel + 1) c i).get k).elim 0 (amountAt path) =
          (c.get k).elim 0 (amountAt path) + (i.get k).elim 0 (amountAt path) := by
      intro k
      rw [mergeNumericUsageMap, Dict.get_mapWithKey, Dict.get_update]
      rcases hvalue : (i.get k).or (c.get k) with _ | value
      · rw [Option.or_eq_none_iff] at hvalue
        rw [hvalue.1, hvalue.2]
        exact ⟨fun r hr => (by cases hr), fun path => rfl⟩
      have hsome : (c.get k).isSome ∨ (i.get k).isSome := by
        rw [← Bool.or_eq_true, Bool.or_comm, ← Option.isSome_or, hvalue]
        rfl
      rw [Option.map_some]
      dsimp only
      by_cases hleaf : leaf [k] = true
      · have hcn : Numbered (c.get k) := fun v hv => (hc k v hv).int hleaf
        have hin : Numbered (i.get k) := fun v hv => (hi k v hv).int hleaf
        rw [hcn.getD.2, hin.getD.2, Bool.or_self, if_neg Bool.false_ne_true, hcn.getD.1, Bool.true_or, if_pos rfl]
        refine ⟨?_, fun path => (amountAt_sumNumbers hcn hin hsome path).2⟩
        rintro r ⟨⟩
        obtain ⟨n, hn⟩ := (amountAt_sumNumbers hcn hin hsome []).1
        rw [hn]
        exact hleaf
      · rw [Bool.not_eq_true] at hleaf
        have hcm : Mapped (fun path => leaf (k :: path)) (c.get k) := fun v hv => (hc k v hv).obj hleaf
        have him : Mapped (fun path => leaf (k :: path)) (i.get k) := fun v hv => (hi k v hv).obj hleaf
        have hobj : (((c.get k).getD (.int 0)).isObj || ((i.get k).getD (.int 0)).isObj) = true :=
          Bool.or_eq_true _ _ ▸ hsome.imp (hcm.isObj · _) (him.isObj · _)
        obtain ⟨hvalues, hamounts⟩ := ih (hcm.values rfl) (him.values rfl)
          (shallow_dictOrEmpty (nesting_getD_le (hcs k))) (shallow_dictOrEmpty (nesting_getD_le (his k)))
        rw [if_pos hobj]
        refine ⟨?_, fun path => ?_⟩
        · rintro r ⟨⟩
          exact hvalues.toJson hleaf
        · have hzero : dictOrEmpty (.int 0) = .empty := rfl
          rw [← hcm.amount hzero, ← him.amount hzero, ← hamounts]
          rfl
    refine ⟨fun k v hv => (hentry k).1 v hv, fun path => ?_⟩
    cases path with
    | nil => rfl
    | cons k path =>
      rw [usageAmount_cons, usageAmount_cons, usageAmount_cons]
      exact (hentry k).2 path

end

/-! ## Two usages -/

/-- `USAGE_COST_KEYS` -/
def usageCostKeys : List String :=
  ["cost", "total_cost", "input_cost", "output_cost", "prompt_cost", "completion_cost"]

/-- The costs are natural numbers, and the detail maps have integers where the shape has them. -/
structure Summable (shape : List Text → Bool) (usage : PyDict) : Prop where
  costs : ∀ key ∈ usageCostKeys, ∀ v, usage.get (.lit key) = some v → ∃ n : ℕ, v = .int n
  details : ∀ key ∈ usageDetailKeys, Mapped (fun path => shape (.lit key :: path)) (usage.get (.lit key))

/-- A usage that was reported: its token counts are natural numbers too. -/
structure Payload (shape : List Text → Bool) (usage : PyDict) : Prop extends Summable shape usage where
  counted : Counted usage

/-- What has been merged: nothing, or a usage as `normalize_usage` makes it. -/
def Settled (shape : List Text → Bool) (usage : PyDict) : Prop :=
  usage = .empty ∨ (Normal usage ∧ Summable shape usage)

/-- A path to something that is added up. -/
def CountedPath (path : List Text) : Prop :=
  ∃ key rest, path = .lit key :: rest ∧ key ∈ usageSummableKeys ++ usageDetailKeys

section
variable {shape : List Text → Bool} {e u d n : PyDict} {key : String} {path : List Text} {py : PyConv}

theorem get_foldl_of_same {f : PyDict → String → PyDict} {keys : List String} {r : PyDict} {k : String}
    (hsame : ∀ r key, (f r key).get (.lit k) = r.get (.lit k)) : (keys.foldl f r).get (.lit k) = r.get (.lit k) := by
  induction keys generalizing r with
  | nil => rfl
  | cons key keys ih => rw [List.foldl_cons, ih, hsame]

theorem get_mergeCounts_summable (hkey : key ∈ usageSummableKeys) (he : Numbered (e.get (.lit key))) :
    (mergeCounts e u).get (.lit key) =
      if (e.get (.lit key)).isSome || (u.get (.lit key)).isSome then
        some (sumNumbers ((e.get (.lit key)).getD (.int 0)) ((u.get (.lit key)).getD (.int 0)))
      else none := by
  rw [get_mergeCounts_of_summable hkey]
  split_ifs with hsome
  · refine get_foldl_of_mem (fun r key' h => get_mergeSummable_of_ne h) (fun r => ?_) hkey
    rw [mergeSummable, PyDict.fetchD, PyDict.fetchD, hsome, he.getD.1, Bool.true_or, Bool.true_and, if_pos rfl,
      PyDict.get_put, if_pos rfl]
  · rw [Bool.not_eq_true] at hsome
    have hnone : (e.update u).get (.lit key) = none := by
      rw [Dict.get_update, Option.or_eq_none_iff]
      simpa [and_comm] using hsome
    refine (get_foldl_of_same fun r key' => ?_).trans hnone
    by_cases heq : key' = key
    · rw [heq, mergeSummable, hsome, Bool.false_and, if_neg Bool.false_ne_true]
    · exact get_mergeSummable_of_ne heq

theorem get_mergeCounts_details (hkey : key ∈ usageDetailKeys) :
    (mergeCounts e u).get (.lit key) =
      if (e.fetch key).isObj || (u.fetch key).isObj then
        some (mergeNumericUsageMap (max (nesting (e.fetch key)) (nesting (u.fetch key))) (dictOrEmpty (e.fetch key))
          (dictOrEmpty (u.fetch key))).toJson
      else (u.get (.lit key)).or (e.get (.lit key)) := by
  have hsummable : key ∉ usageSummableKeys := by fin_cases hkey <;> decide
  have hprompt : key ≠ "prompt_tokens" := by fin_cases hkey <;> decide
  have hcompletion : key ≠ "completion_tokens" := by fin_cases hkey <;> decide
  rw [mergeCounts, PyDict.get_put, if_neg hcompletion, PyDict.get_put, if_neg hprompt]
  split_ifs with hobj
  · refine get_foldl_of_mem (fun r key' h => get_mergeDetails_of_ne h) (fun r => ?_) hkey
    rw [mergeDetails, if_pos hobj, PyDict.get_put, if_pos rfl]
  · have hsame : ∀ (r : PyDict) key', (mergeDetails e u r key').get (.lit key) = r.get (.lit key) := by
      intro r key'
      by_cases heq : key' = key
      · rw [heq, mergeDetails, if_neg hobj]
      · exact get_mergeDetails_of_ne heq
    rw [get_foldl_of_same hsame, get_foldl_of_notMem (fun r key' h => get_mergeSummable_of_ne h) hsummable,
      Dict.get_update]

theorem Summable.numbered (h : Summable shape d) (hd : Normal d) (hkey : key ∈ usageSummableKeys) :
    ∀ v, d.get (.lit key) = some v → ∃ n : ℕ, v = .int n := by
  have hsplit : key ∈ ["input_tokens", "output_tokens", "total_tokens"] ∨ key ∈ usageCostKeys := by
    fin_cases hkey <;> decide
  obtain hcount | hcost := hsplit
  · exact hd.counted key (by fin_cases hcount <;> decide)
  · exact h.costs key hcost

theorem numbered_of_counts {o : Option Json} (h : ∀ v, o = some v → ∃ n : ℕ, v = .int n) : Numbered o := by
  intro v hv
  obtain ⟨n, rfl⟩ := h v hv
  exact ⟨_, rfl⟩

theorem sumNumbers_counts {o o' : Option Json} (h : ∀ v, o = some v → ∃ n : ℕ, v = .int n)
    (h' : ∀ v, o' = some v → ∃ n : ℕ, v = .int n) :
    ∃ n : ℕ, sumNumbers (o.getD (.int 0)) (o'.getD (.int 0)) = .int n := by
  have hcount : ∀ {o : Option Json}, (∀ v, o = some v → ∃ n : ℕ, v = .int n) → ∃ n : ℕ, o.getD (.int 0) = .int n := by
    intro o ho
    cases o with
    | none => exact ⟨0, rfl⟩
    | some v => exact ho v rfl
  obtain ⟨m, hm⟩ := hcount h
  obtain ⟨n, hn⟩ := hcount h'
  rw [hm, hn]
  exact ⟨m + n, rfl⟩

/-- **Two usages are added up**, at every path to something that is counted, and the sum is settled again. -/
theorem mergeCounts_spec (he : Normal e) (hse : Summable shape e) (hu : Normal u) (hsu : Summable shape u) :
    Summable shape (mergeCounts e u) ∧
      ∀ path, CountedPath path → usageAmount (mergeCounts e u) path = usageAmount e path + usageAmount u path := by
  have hmaps : ∀ key ∈ usageDetailKeys,
      Mapped (fun path => shape (.lit key :: path)) ((mergeCounts e u).get (.lit key)) ∧
      ∀ path, ((mergeCounts e u).get (.lit key)).elim 0 (amountAt path) =
        (e.get (.lit key)).elim 0 (amountAt path) + (u.get (.lit key)).elim 0 (amountAt path) := by
    intro key hkey
    have hme := hse.details key hkey
    have hmu := hsu.details key hkey
    have hnull : dictOrEmpty .null = .empty := rfl
    rw [get_mergeCounts_details hkey]
    split_ifs with hobj
    · obtain ⟨hvalues, hamounts⟩ := mergeNumericUsageMap_spec (hme.values hnull) (hmu.values hnull)
        (shallow_dictOrEmpty (le_max_left _ _)) (shallow_dictOrEmpty (le_max_right _ _))
      refine ⟨?_, fun path => ?_⟩
      · rintro v ⟨⟩
        exact ⟨_, rfl, hvalues.fields⟩
      · rw [← hme.amount hnull, ← hmu.amount hnull, ← hamounts]
        rfl
    · -- neither has one
      have hnone : ∀ {o : Option Json}, Mapped (fun path => shape (.lit key :: path)) o → (o.getD .null).isObj = false →
          o = none := by
        intro o ho hfalse
        by_contra hne
        rw [ho.isObj (Option.isSome_iff_ne_none.2 hne)] at hfalse
        cases hfalse
      rw [Bool.or_eq_true, not_or, Bool.not_eq_true, Bool.not_eq_true] at hobj
      rw [hnone hme hobj.1, hnone hmu hobj.2]
      exact ⟨fun v hv => (by cases hv), fun path => rfl⟩
  refine ⟨⟨fun key hkey v hv => ?_, fun key hkey => (hmaps key hkey).1⟩, ?_⟩
  · have hsummable : key ∈ usageSummableKeys := by fin_cases hkey <;> decide
    have hne := hse.numbered he hsummable
    have hnu := hsu.numbered hu hsummable
    rw [get_mergeCounts_summable hsummable (numbered_of_counts hne)] at hv
    split_ifs at hv
    obtain rfl := Option.some.inj hv
    exact sumNumbers_counts hne hnu
  · rintro path ⟨key, rest, rfl, hkey⟩
    rw [usageAmount_cons, usageAmount_cons, usageAmount_cons]
    obtain hsummable | hdetail := List.mem_append.1 hkey
    · have hne := numbered_of_counts (hse.numbered he hsummable)
      have hnu := numbered_of_counts (hsu.numbered hu hsummable)
      rw [get_mergeCounts_summable hsummable hne]
      split_ifs with hsome
      · exact (amountAt_sumNumbers hne hnu (Bool.or_eq_true _ _ ▸ hsome) rest).2
      · have hnone : e.get (.lit key) = none ∧ u.get (.lit key) = none := by simpa using hsome
        rw [hnone.1, hnone.2]
        rfl
    · exact (hmaps key hdetail).2 rest

theorem Settled.normalize (h : Settled shape d) : normalizeUsage py d.toJson = some d := by
  obtain rfl | ⟨hd, -⟩ := h
  · rfl
  · exact normalizeUsage_self hd

/-- **What was reported is settled when it has been normalized.** -/
theorem Payload.settled (h : Payload shape d) : ∃ n, normalizeUsage py d.toJson = some n ∧ Settled shape n := by
  by_cases hempty : d.entries = []
  · refine ⟨.empty, ?_, .inl rfl⟩
    unfold normalizeUsage
    rw [PyDict.toJson, hempty]
    rfl
  · have htruthy : d.toJson.truthy = true := by simp [PyDict.toJson, Json.truthy, hempty]
    refine ⟨withCounts d (inputCount d) (outputCount d) (totalCount d), ?_, .inr ⟨normal_withCounts h.counted, ?_, ?_⟩⟩
    · unfold normalizeUsage
      rw [if_pos htruthy]
      exact (congrArg (normalizeCounts py) (ofFields_entries d)).trans (normalizeCounts_counted py h.counted)
    · intro key hkey v hv
      rw [get_withCounts_of_ne (by fin_cases hkey <;> decide)] at hv
      exact h.costs key hkey v hv
    · intro key hkey
      rw [get_withCounts_of_ne (by fin_cases hkey <;> decide)]
      exact h.details key hkey

/-- **A merge is a sum** of what the two usages are when they are normalized. -/
theorem merge_settled {a b m : PyDict} (ha : normalizeUsage py a.toJson = some m) (hm : Settled shape m)
    (hb : normalizeUsage py b.toJson = some n) (hn : Settled shape n) :
    ∃ r, mergeUsage py a b = some r ∧ Settled shape r ∧
      ∀ path, CountedPath path → usageAmount r path = usageAmount m path + usageAmount n path := by
  rw [mergeUsage, ha, hb]
  simp only [Option.bind_eq_bind, Option.bind_some]
  obtain rfl | ⟨hnormal, hsummable⟩ := hn
  · exact ⟨m, rfl, hm, fun path _ => by rw [usageAmount_empty, add_zero]⟩
  · have hfilled : n.entries.isEmpty = false := List.isEmpty_eq_false_iff.2 hnormal.entries_ne_nil
    rw [hfilled, if_neg Bool.false_ne_true]
    obtain rfl | ⟨hnormal', hsummable'⟩ := hm
    · exact ⟨n, rfl, .inr ⟨hnormal, hsummable⟩, fun path _ => by rw [usageAmount_empty, zero_add]⟩
    · have hfilled' : m.entries.isEmpty = false := List.isEmpty_eq_false_iff.2 hnormal'.entries_ne_nil
      rw [hfilled', if_neg Bool.false_ne_true]
      obtain ⟨hsum, hamounts⟩ := mergeCounts_spec hnormal' hsummable' hnormal hsummable
      exact ⟨_, rfl, .inr ⟨normal_mergeCounts hnormal' hnormal, hsum⟩, hamounts⟩

end

/-! ## Any number of usages -/

section
variable (py : PyConv)

/-- Usages, merged one after the other. -/
def foldUsages (payloads : List PyDict) : Option PyDict := payloads.foldlM (mergeUsage py) .empty

/-- Usages, merged two by two in some order. -/
inductive MergePlan where
  | payload (usage : PyDict)
  | merge (first second : MergePlan)

/-- The usages, from left to right. -/
def MergePlan.payloads : MergePlan → List PyDict
  | .payload usage => [usage]
  | .merge first second => first.payloads ++ second.payloads

/-- What is made of them. -/
def MergePlan.eval : MergePlan → Option PyDict
  | .payload usage => some usage
  | .merge first second => do mergeUsage py (← first.eval) (← second.eval)

/-- The number at a path into a usage when it has been normalized. -/
def normalizedAmount (path : List Text) (usage : PyDict) : Amount :=
  (normalizeUsage py usage.toJson).elim 0 fun n => usageAmount n path

/-- The usage is settled when it has been normalized. -/
def SettlesUsage (shape : List Text → Bool) (usage : PyDict) : Prop :=
  ∃ n, normalizeUsage py usage.toJson = some n ∧ Settled shape n

end

section
variable {shape : List Text → Bool} {py : PyConv} {payloads : List PyDict} {d r : PyDict} {path : List Text}

theorem Settled.settles (h : Settled shape d) : SettlesUsage py shape d := ⟨d, h.normalize, h⟩

theorem Settled.normalizedAmount (h : Settled shape d) : normalizedAmount py path d = usageAmount d path := by
  rw [TideBot.normalizedAmount, h.normalize, Option.elim_some]

theorem SettlesUsage.merge {a b : PyDict} (ha : SettlesUsage py shape a) (hb : SettlesUsage py shape b) :
    ∃ r, mergeUsage py a b = some r ∧ Settled shape r ∧ ∀ path, CountedPath path →
      usageAmount r path = normalizedAmount py path a + normalizedAmount py path b := by
  obtain ⟨m, hm, hsm⟩ := ha
  obtain ⟨n, hn, hsn⟩ := hb
  obtain ⟨r, hr, hsr, hamounts⟩ := merge_settled hm hsm hn hsn
  refine ⟨r, hr, hsr, fun path hpath => ?_⟩
  rw [hamounts path hpath, normalizedAmount, normalizedAmount, hm, hn, Option.elim_some, Option.elim_some]

/-- **A fold is a sum.** -/
theorem foldlM_mergeUsage (hr : Settled shape r) (h : ∀ d ∈ payloads, SettlesUsage py shape d) :
    ∃ total, payloads.foldlM (mergeUsage py) r = some total ∧ Settled shape total ∧ ∀ path, CountedPath path →
      usageAmount total path = usageAmount r path + (payloads.map (normalizedAmount py path)).sum := by
  induction payloads generalizing r with
  | nil => exact ⟨r, rfl, hr, fun path _ => (add_zero _).symm⟩
  | cons d payloads ih =>
    rw [List.forall_mem_cons] at h
    obtain ⟨r', hr', hsettled, hamounts⟩ := hr.settles.merge h.1
    obtain ⟨total, htotal, hst, hsum⟩ := ih hsettled h.2
    refine ⟨total, ?_, hst, fun path hpath => ?_⟩
    · rw [List.foldlM_cons, hr', Option.bind_eq_bind, Option.bind_some, htotal]
    · rw [hsum path hpath, hamounts path hpath, hr.normalizedAmount, List.map_cons, List.sum_cons, add_assoc]

theorem foldUsages_spec (h : ∀ d ∈ payloads, SettlesUsage py shape d) :
    ∃ total, foldUsages py payloads = some total ∧ Settled shape total ∧ ∀ path, CountedPath path →
      usageAmount total path = (payloads.map (normalizedAmount py path)).sum := by
  obtain ⟨total, htotal, hst, hsum⟩ := foldlM_mergeUsage (.inl rfl) h
  refine ⟨total, htotal, hst, fun path hpath => ?_⟩
  rw [hsum path hpath, usageAmount_empty, zero_add]

theorem mapM_foldUsages {groups : List (List PyDict)} (h : ∀ d ∈ groups.flatten, SettlesUsage py shape d) :
    ∃ merged, groups.mapM (foldUsages py) = some merged ∧ (∀ d ∈ merged, Settled shape d) ∧ ∀ path, CountedPath path →
      (merged.map (normalizedAmount py path)).sum = (groups.flatten.map (normalizedAmount py path)).sum := by
  induction groups with
  | nil => exact ⟨[], rfl, by simp, fun path _ => rfl⟩
  | cons group groups ih =>
    rw [List.flatten_cons, List.forall_mem_append] at h
    obtain ⟨total, htotal, hst, hsum⟩ := foldUsages_spec h.1
    obtain ⟨merged, hmerged, hsettled, hsums⟩ := ih h.2
    refine ⟨total :: merged, ?_, List.forall_mem_cons.2 ⟨hst, hsettled⟩, fun path hpath => ?_⟩
    · rw [List.mapM_cons, htotal, hmerged]
      rfl
    · rw [List.map_cons, List.sum_cons, hst.normalizedAmount, hsum path hpath, hsums path hpath, List.flatten_cons,
        List.map_append, List.sum_append]

theorem MergePlan.eval_spec {plan : MergePlan} (h : ∀ d ∈ plan.payloads, SettlesUsage py shape d) :
    ∃ r, plan.eval py = some r ∧ SettlesUsage py shape r ∧ ∀ path, CountedPath path →
      normalizedAmount py path r = (plan.payloads.map (normalizedAmount py path)).sum := by
  induction plan with
  | payload usage =>
    refine ⟨usage, rfl, h usage List.mem_cons_self, fun path _ => ?_⟩
    rw [payloads, List.map_cons, List.map_nil, List.sum_singleton]
  | merge first second ihFirst ihSecond =>
    rw [payloads, List.forall_mem_append] at h
    obtain ⟨a, ha, hsa, hfirst⟩ := ihFirst h.1
    obtain ⟨b, hb, hsb, hsecond⟩ := ihSecond h.2
    obtain ⟨r, hr, hsettled, hamounts⟩ := hsa.merge hsb
    refine ⟨r, ?_, hsettled.settles, fun path hpath => ?_⟩
    · rw [eval, ha, hb]
      exact hr
    · rw [hsettled.normalizedAmount, hamounts path hpath, hfirst path hpath, hsecond path hpath, payloads,
        List.map_append, List.sum_append]

/-- **Usages of integers add up however they are grouped.**  Folded, they have at every path to a token count, a cost or an entry
    of a detail map the sum of what they have there when they are normalized; and so they have when sublists are
    folded first, or when they are merged two by two in any order. -/
theorem foldUsages_adds_up (py : PyConv) {shape : List Text → Bool} {payloads : List PyDict}
    (h : ∀ d ∈ payloads, Payload shape d) :
    ∃ total, foldUsages py payloads = some total ∧
      (∀ path, CountedPath path → usageAmount total path = (payloads.map (normalizedAmount py path)).sum) ∧
      (∀ groups : List (List PyDict), groups.flatten = payloads →
        ∃ merged grouped, groups.mapM (foldUsages py) = some merged ∧ foldUsages py merged = some grouped ∧
          ∀ path, CountedPath path → usageAmount grouped path = usageAmount total path) ∧
      ∀ first second : MergePlan, first.payloads ++ second.payloads = payloads →
        ∃ r, (MergePlan.merge first second).eval py = some r ∧
          ∀ path, CountedPath path → usageAmount r path = usageAmount total path := by
  have hsettles : ∀ d ∈ payloads, SettlesUsage py shape d := fun d hd => (h d hd).settled
  obtain ⟨total, htotal, -, hsum⟩ := foldUsages_spec hsettles
  refine ⟨total, htotal, hsum, ?_, ?_⟩
  · rintro groups rfl
    obtain ⟨merged, hmerged, hsettled, hsums⟩ := mapM_foldUsages hsettles
    obtain ⟨grouped, hgrouped, -, hamounts⟩ := foldUsages_spec fun d hd => (hsettled d hd).settles
    refine ⟨merged, grouped, hmerged, hgrouped, fun path hpath => ?_⟩
    rw [hamounts path hpath, hsums path hpath, hsum path hpath]
  · rintro first second rfl
    rw [List.forall_mem_append] at hsettles
    obtain ⟨a, ha, hsa, hfirst⟩ := MergePlan.eval_spec hsettles.1
    obtain ⟨b, hb, hsb, hsecond⟩ := MergePlan.eval_spec hsettles.2
    obtain ⟨r, hr, -, hamounts⟩ := hsa.merge hsb
    refine ⟨r, ?_, fun path hpath => ?_⟩
    · rw [MergePlan.eval, ha, hb]
      exact hr
    · rw [hamounts path hpath, hfirst path hpath, hsecond path hpath, hsum path hpath, List.map_append,
        List.sum_append]

/-- A usage with a cost and a detail map, a part of which is nested. -/
def detailedUsage (prompt completion cached seconds : ℕ) : PyDict :=
  (((PyDict.put .empty "prompt_tokens" (.int prompt)).put "completion_tokens" (.int completion)).put "cost"
    (.int (prompt + completion))).put "prompt_tokens_details" (.obj [(.lit "cached_tokens", .int cached),
      (.lit "audio", .obj [(.lit "seconds", .int seconds)])])

/-- Where the numbers of its detail map stand. -/
def detailedShape (path : List Text) : Bool :=
  path = [.lit "prompt_tokens_details", .lit "cached_tokens"] ∨
    path = [.lit "prompt_tokens_details", .lit "audio", .lit "seconds"]

theorem payload_detailedUsage (prompt completion cached seconds : ℕ) :
    Payload detailedShape (detailedUsage prompt completion cached seconds) where
  counted := by
    intro key hkey v hv
    fin_cases hkey <;> first | exact ⟨_, (Option.some.inj hv).symm⟩ | cases hv
  costs := by
    intro key hkey v hv
    fin_cases hkey <;> first | exact ⟨prompt + completion, (Option.some.inj hv).symm⟩ | cases hv
  details := by
    intro key hkey v hv
    fin_cases hkey
    · obtain rfl := Option.some.inj hv
      exact ⟨_, rfl, rfl, ⟨rfl, rfl, trivial⟩, trivial⟩
    all_goals cases hv

theorem foldUsages_adds_up_detailed : ∃ total,
    foldUsages Sample.noText [detailedUsage 3 4 1 0, detailedUsage 0 5 0 2] = some total ∧
      ∀ path, CountedPath path → usageAmount total path =
        ([detailedUsage 3 4 1 0, detailedUsage 0 5 0 2].map (normalizedAmount Sample.noText path)).sum := by
  have hpayloads : ∀ d ∈ [detailedUsage 3 4 1 0, detailedUsage 0 5 0 2], Payload detailedShape d := by
    intro d hd
    fin_cases hd
    · exact payload_detailedUsage 3 4 1 0
    · exact payload_detailedUsage 0 5 0 2
  obtain ⟨total, htotal, hsum, -, -⟩ := foldUsages_adds_up Sample.noText hpayloads
  exact ⟨total, htotal, hsum⟩

/-- A usage with a number of seconds, a double, among its details. -/
def secondsUsage (seconds : ℚ) : PyDict :=
  ((PyDict.put .empty "input_tokens" (.int 1)).put "output_tokens" (.int 1)).put "input_tokens_details"
    (.obj [(.lit "seconds", .float (Json.nearestDouble seconds))])

/-- Of 0.1, 0.2 and 0.3 seconds, the last two added up first come to 0.6, and from left to right to
    0.6000000000000001. -/
theorem not_foldUsages_adds_up :
    let path := [Text.lit "input_tokens_details", Text.lit "seconds"]
    let fold := foldUsages Sample.noText
    (fold [secondsUsage 0.1, secondsUsage 0.2, secondsUsage 0.3]).map (usageAmount · path) =
        some (Json.nearestDouble 0.6000000000000001 : ℚ) ∧
      (([[secondsUsage 0.1], [secondsUsage 0.2, secondsUsage 0.3]].mapM fold).bind fold).map (usageAmount · path) =
        some (Json.nearestDouble 0.6 : ℚ) ∧
      Json.nearestDouble 0.6000000000000001 ≠ Json.nearestDouble 0.6 := by
  decide +kernel

end

end TideBot
