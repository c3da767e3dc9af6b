/-
  Dictionaries that keep insertion order: Python's `dict`, JavaScript's `Map`.

  A dictionary is a list of entries with distinct keys.  Storing under a key
  that is present replaces the value in place; a new key goes to the end.  The
  distinctness of the keys is part of the type.
-/
import Mathlib

namespace Lib

/-- A dictionary, oldest entry first. -/
structure Dict (κ ν : Type*) where
  entries : List (κ × ν)
  nodup : (entries.map Prod.fst).Nodup

namespace Dict

variable {κ ν : Type*}

theorem ext_entries {d d' : Dict κ ν} (h : d.entries = d'.entries) : d = d' := by
  cases d; cases d'; cases h; rfl

instance [DecidableEq κ] [DecidableEq ν] : DecidableEq (Dict κ ν) := fun d d' =>
  decidable_of_iff (d.entries = d'.entries) ⟨ext_entries, fun h => h ▸ rfl⟩

/-- The empty dictionary. -/
def empty : Dict κ ν := ⟨[], List.nodup_nil⟩

/-- The keys, oldest first. -/
def keys (d : Dict κ ν) : List κ := d.entries.map Prod.fst

/-- The number of entries. -/
def size (d : Dict κ ν) : ℕ := d.entries.length

/-- Keep the entries satisfying `p`. -/
def filter (p : κ × ν → Bool) (d : Dict κ ν) : Dict κ ν :=
  ⟨d.entries.filter p, (List.filter_sublist.map _).nodup d.nodup⟩

variable [DecidableEq κ]

/-- The value stored under `k`. -/
def get (d : Dict κ ν) (k : κ) : Option ν := (d.entries.find? fun e => e.1 = k).map Prod.snd

/-- Remove the entry of `k`, if any. -/
def erase (d : Dict κ ν) (k : κ) : Dict κ ν := d.filter fun e => e.1 ≠ k

/-- Store `v` under `k`: in place if `k` is present, else at the end. -/
def set (d : Dict κ ν) (k : κ) (v : ν) : Dict κ ν :=
  if h : k ∈ d.keys then
    ⟨d.entries.map fun e => if e.1 = k then (k, v) else e, by
      have : (d.entries.map fun e => if e.1 = k then (k, v) else e).map Prod.fst = d.keys := by
        rw [List.map_map]
        refine List.map_congr_left ?_
        intro e _
        simp only [Function.comp_apply]
        split_ifs with he <;> simp [he]
      rw [this]; exact d.nodup⟩
  else
    ⟨d.entries ++ [(k, v)], by
      rw [List.map_append, List.map_cons, List.map_nil]
      refine List.nodup_append.2 ⟨d.nodup, List.nodup_singleton _, fun a ha b hb hab => h ?_⟩
      rw [hab, List.mem_singleton.1 hb] at ha
      exact ha⟩

@[simp] theorem get_empty (k : κ) : (empty : Dict κ ν).get k = none := rfl

theorem mem_entries_iff {d : Dict κ ν} {k : κ} {v : ν} : (k, v) ∈ d.entries ↔ d.get k = some v := by
  unfold get
  constructor
  · intro h
    have : d.entries.find? (fun e => e.1 = k) = some (k, v) := by
      obtain ⟨l, r, he⟩ := List.append_of_mem h
      have hnd := d.nodup
      rw [he, List.map_append, List.map_cons, List.nodup_append] at hnd
      rw [he, List.find?_append, List.find?_eq_none.2, Option.none_or, List.find?_cons_of_pos]
      · simp
      · intro e hel hk
        exact hnd.2.2 e.1 (List.mem_map_of_mem hel) k (by simp) (by simpa using hk)
    rw [this]; rfl
  · intro h
    obtain ⟨⟨k', v'⟩, hf, rfl⟩ := Option.map_eq_some_iff.1 h
    have hk := List.find?_some hf
    simp only [decide_eq_true_eq] at hk
    exact hk ▸ List.mem_of_find?_eq_some hf

theorem mem_keys_iff {d : Dict κ ν} {k : κ} : k ∈ d.keys ↔ ∃ v, d.get k = some v := by
  simp only [keys, List.mem_map, Prod.exists, exists_and_right, exists_eq_right, mem_entries_iff]

theorem get_eq_none_iff {d : Dict κ ν} {k : κ} : d.get k = none ↔ k ∉ d.keys := by
  rw [mem_keys_iff, Option.eq_none_iff_forall_ne_some, not_exists]

theorem get_filter {d : Dict κ ν} {p : κ × ν → Bool} {k : κ} {v : ν} :
    (d.filter p).get k = some v ↔ d.get k = some v ∧ p (k, v) := by
  rw [← mem_entries_iff, ← mem_entries_iff, filter, List.mem_filter]

theorem get_erase {d : Dict κ ν} {k k' : κ} :
    (d.erase k).get k' = if k' = k then none else d.get k' := by
  ext v
  rw [erase, get_filter]
  split_ifs with h <;> simp [h]

@[simp] theorem get_erase_self (d : Dict κ ν) (k : κ) : (d.erase k).get k = none := by
  simp [get_erase]

theorem get_erase_of_ne (d : Dict κ ν) {k k' : κ} (h : k' ≠ k) : (d.erase k).get k' = d.get k' := by
  simp [get_erase, h]

theorem get_foldl_erase (ks : List κ) {d : Dict κ ν} {k : κ} :
    (ks.foldl erase d).get k = if k ∈ ks then none else d.get k := by
  induction ks generalizing d with
  | nil => simp
  | cons k' ks ih =>
    rw [List.foldl_cons, ih, get_erase]
    by_cases h : k = k' <;> simp [h]

theorem erase_of_get_none {d : Dict κ ν} {k : κ} (h : d.get k = none) : d.erase k = d := by
  refine ext_entries (List.filter_eq_self.2 ?_)
  intro e he
  have : e.1 ∈ d.keys := List.mem_map_of_mem he
  simp only [decide_not, Bool.not_eq_eq_eq_not, Bool.not_true, decide_eq_false_iff_not]
  exact fun hk => get_eq_none_iff.1 h (hk ▸ this)

theorem get_set {d : Dict κ ν} {k k' : κ} {v : ν} :
    (d.set k v).get k' = if k' = k then some v else d.get k' := by
  have key : ∀ w, (k', w) ∈ (d.set k v).entries ↔
      (if k' = k then some v else d.get k') = some w := by
    intro w
    unfold set
    split_ifs with hk hkk hkk
    · subst hkk
      simp only [List.mem_map, Prod.exists, Option.some.injEq]
      constructor
      · rintro ⟨a, b, hab, he⟩
        split_ifs at he with ha
        · exact (Prod.mk.inj he).2
        · exact absurd (Prod.mk.inj he).1 ha
      · rintro rfl
        obtain ⟨b, hb⟩ := mem_keys_iff.1 hk
        exact ⟨k', b, mem_entries_iff.2 hb, by simp⟩
    · simp only [List.mem_map, Prod.exists]
      rw [← mem_entries_iff]
      constructor
      · rintro ⟨a, b, hab, he⟩
        split_ifs at he with ha
        · exact absurd (Prod.mk.inj he).1.symm hkk
        · obtain ⟨rfl, rfl⟩ := Prod.mk.inj he; exact hab
      · exact fun h => ⟨k', w, h, by simp [hkk]⟩
    · subst hkk
      simp only [List.mem_append, List.mem_singleton, Prod.mk.injEq, true_and, Option.some.injEq]
      rw [mem_entries_iff, get_eq_none_iff.2 hk]
      simp [eq_comm]
    · simp only [List.mem_append, List.mem_singleton, Prod.mk.injEq, hkk, false_and, or_false]
      exact mem_entries_iff
  ext w
  rw [← key w, mem_entries_iff]

@[simp] theorem get_set_self (d : Dict κ ν) (k : κ) (v : ν) : (d.set k v).get k = some v := by
  simp [get_set]

theorem get_set_of_ne (d : Dict κ ν) {k k' : κ} {v : ν} (h : k' ≠ k) :
    (d.set k v).get k' = d.get k' := by
  simp [get_set, h]

@[simp] theorem erase_set_self (d : Dict κ ν) (k : κ) (v : ν) : (d.set k v).erase k = d.erase k := by
  refine ext_entries ?_
  rw [set]
  split_ifs with hk
  · simp only [erase, filter, List.filter_map]
    have hkept : ∀ e ∈ d.entries.filter ((fun e => decide (e.1 ≠ k)) ∘ fun e => if e.1 = k then (k, v) else e),
        (if e.1 = k then (k, v) else e) = e := by
      intro e he
      refine if_neg ?_
      rintro rfl
      simp at he
    rw [List.map_congr_left hkept, List.map_id']
    refine List.filter_congr ?_
    intro e _
    by_cases he : e.1 = k <;> simp [he]
  · simp [erase, filter]

theorem erase_set_of_ne (d : Dict κ ν) {k k' : κ} (v : ν) (h : k' ≠ k) :
    (d.set k' v).erase k = (d.erase k).set k' v := by
  have hmem : k' ∈ (d.erase k).keys ↔ k' ∈ d.keys := by
    simp only [mem_keys_iff, get_erase_of_ne d h]
  refine ext_entries ?_
  by_cases hk : k' ∈ d.keys
  · rw [set, dif_pos hk, set, dif_pos (hmem.2 hk)]
    simp only [erase, filter, List.filter_map]
    refine congrArg (List.map _) (List.filter_congr ?_)
    intro e _
    by_cases he : e.1 = k' <;> simp [he, h]
  · rw [set, dif_neg hk, set, dif_neg (mt hmem.1 hk)]
    simp [erase, filter, h]

theorem entries_set_new {d : Dict κ ν} {k : κ} {v : ν} (h : d.get k = none) :
    (d.set k v).entries = d.entries ++ [(k, v)] := by
  rw [set, dif_neg (get_eq_none_iff.1 h)]

theorem countP_erase {d : Dict κ ν} {k : κ} {v : ν} (h : d.get k = some v) (p : κ × ν → Bool) :
    d.entries.countP p = (d.erase k).entries.countP p + if p (k, v) then 1 else 0 := by
  obtain ⟨l, r, he⟩ := List.append_of_mem (mem_entries_iff.2 h)
  have hnd := d.nodup
  rw [he, List.map_append, List.map_cons, List.nodup_append, List.nodup_cons] at hnd
  obtain ⟨-, ⟨hr, -⟩, hl⟩ := hnd
  have hl' : l.filter (fun e => e.1 ≠ k) = l := List.filter_eq_self.2 fun e hel => by
    simpa using hl e.1 (List.mem_map_of_mem hel) k (by simp)
  have hr' : r.filter (fun e => e.1 ≠ k) = r := List.filter_eq_self.2 fun e her => by
    have hk : e.1 ≠ k := fun hk => hr (List.mem_map.2 ⟨e, her, hk⟩)
    simpa using hk
  simp only [erase, filter, he, List.filter_append, List.countP_append, List.countP_cons]
  rw [List.filter_cons_of_neg (by simp), hl', hr']
  omega

theorem size_set_new {d : Dict κ ν} {k : κ} {v : ν} (h : d.get k = none) :
    (d.set k v).size = d.size + 1 := by
  simp [size, entries_set_new h]

theorem size_erase_le (d : Dict κ ν) (k : κ) : (d.erase k).size ≤ d.size :=
  List.length_filter_le _ _

/-- `{**d, **d'}` -/
def update (d d' : Dict κ ν) : Dict κ ν := d'.entries.foldl (fun d e => d.set e.1 e.2) d

theorem get_foldl_set {es : List (κ × ν)} {d : Dict κ ν} {k : κ} (hnd : (es.map Prod.fst).Nodup) :
    (es.foldl (fun d e => d.set e.1 e.2) d).get k =
      ((es.find? fun e => e.1 = k).map Prod.snd).or (d.get k) := by
  induction es generalizing d with
  | nil => rfl
  | cons e es ih =>
    rw [List.map_cons, List.nodup_cons] at hnd
    rw [List.foldl_cons, ih hnd.2, get_set, List.find?_cons]
    by_cases hk : e.1 = k
    · have hnone : es.find? (fun e => e.1 = k) = none := by
        refine List.find?_eq_none.2 fun e' he' hk' => hnd.1 ?_
        rw [hk, ← of_decide_eq_true hk']
        exact List.mem_map_of_mem he'
      simp [hk, hnone]
    · simp [hk, Ne.symm hk]

/-- **What lookup finds after an update.** -/
theorem get_update {d d' : Dict κ ν} {k : κ} : (d.update d').get k = (d'.get k).or (d.get k) :=
  get_foldl_set d'.nodup

theorem get_foldl_map {μ : Type*} (f : κ → ν → μ) {d : Dict κ ν} {k : κ} :
    (d.entries.foldl (fun acc e => acc.set e.1 (f e.1 e.2)) empty).get k = (d.get k).map (f k) := by
  have hmap : d.entries.foldl (fun acc e => acc.set e.1 (f e.1 e.2)) empty =
      (d.entries.map fun e => (e.1, f e.1 e.2)).foldl (fun acc e => acc.set e.1 e.2) empty := by
    rw [List.foldl_map]
  rw [hmap, get_foldl_set (by simpa [Function.comp_def] using d.nodup), List.find?_map, get_empty,
    Option.or_none, get, Option.map_map, Option.map_map]
  cases hfind : d.entries.find? ((fun e => decide (e.1 = k)) ∘ fun e => (e.1, f e.1 e.2)) with
  | none =>
    rw [show d.entries.find? (fun e => e.1 = k) = none from hfind]
    rfl
  | some e =>
    rw [show d.entries.find? (fun e => e.1 = k) = some e from hfind]
    have hk := List.find?_some hfind
    simp only [Function.comp_apply, decide_eq_true_eq] at hk
    simp [hk]

section

variable {es : List (κ × ν)} {d : Dict κ ν}

theorem entries_foldl_set (hnew : ∀ e ∈ es, d.get e.1 = none) (hnd : (es.map Prod.fst).Nodup) :
    (es.foldl (fun d e => d.set e.1 e.2) d).entries = d.entries ++ es := by
  induction es generalizing d with
  | nil => simp
  | cons e es ih =>
    rw [List.map_cons, List.nodup_cons] at hnd
    rw [List.foldl_cons, ih _ hnd.2, entries_set_new (hnew e (by simp)), List.append_assoc]
    · rfl
    · intro e' he'
      have hne : e'.1 ≠ e.1 := fun heq => hnd.1 (heq ▸ List.mem_map_of_mem he')
      rw [get_set_of_ne d hne]
      exact hnew e' (by simp [he'])

theorem size_set_le (k : κ) (v : ν) : (d.set k v).size ≤ d.size + 1 := by
  unfold set size
  split_ifs <;> simp

theorem size_set_of_mem {k : κ} {v : ν} (h : k ∈ d.keys) : (d.set k v).size = d.size := by
  unfold set size
  rw [dif_pos h]
  simp

theorem size_foldl_set_le : (es.foldl (fun d e => d.set e.1 e.2) d).size ≤ d.size + es.length := by
  induction es generalizing d with
  | nil => simp
  | cons e es ih =>
    have hstep := size_set_le (d := d) e.1 e.2
    have hrest := ih (d := d.set e.1 e.2)
    rw [List.foldl_cons, List.length_cons]
    omega

theorem nodup_of_size_foldl_set (h : (es.foldl (fun d e => d.set e.1 e.2) d).size = d.size + es.length) :
    (∀ e ∈ es, d.get e.1 = none) ∧ (es.map Prod.fst).Nodup := by
  induction es generalizing d with
  | nil => simp
  | cons e es ih =>
    rw [List.foldl_cons, List.length_cons] at h
    have hrest : (es.foldl (fun d e => d.set e.1 e.2) (d.set e.1 e.2)).size ≤ (d.set e.1 e.2).size + es.length :=
      size_foldl_set_le
    have hnew : d.get e.1 = none := by
      by_contra hne
      obtain ⟨v, hv⟩ := Option.ne_none_iff_exists'.1 hne
      rw [size_set_of_mem (mem_keys_iff.2 ⟨v, hv⟩)] at hrest
      omega
    have hsize := size_set_new (v := e.2) hnew
    obtain ⟨hget, hnd⟩ := ih (d := d.set e.1 e.2) (by omega)
    have hne : ∀ e' ∈ es, e'.1 ≠ e.1 := by
      intro e' he' heq
      have := hget e' he'
      rw [heq, get_set_self] at this
      cases this
    constructor
    · intro e' he'
      obtain rfl | he' := List.mem_cons.1 he'
      · exact hnew
      · rw [← get_set_of_ne d (hne e' he')]
        exact hget e' he'
    · rw [List.map_cons, List.nodup_cons]
      refine ⟨?_, hnd⟩
      intro hmem
      obtain ⟨e', he', heq⟩ := List.mem_map.1 hmem
      exact hne e' he' heq

/-- **Entries are those of the dictionary they make, if none is lost.** -/
theorem foldl_set_eq_iff :
    (es.foldl (fun d e => d.set e.1 e.2) empty).size = es.length ∧
      es.foldl (fun d e => d.set e.1 e.2) empty = d ↔ es = d.entries := by
  constructor
  · rintro ⟨hsize, rfl⟩
    obtain ⟨hnew, hnd⟩ := nodup_of_size_foldl_set (d := empty) (hsize.trans (Nat.zero_add _).symm)
    rw [entries_foldl_set hnew hnd]
    rfl
  · rintro rfl
    have hentries : (d.entries.foldl (fun d e => d.set e.1 e.2) empty).entries = d.entries :=
      entries_foldl_set (fun e _ => get_empty e.1) d.nodup
    exact ⟨congrArg List.length hentries, ext_entries hentries⟩

end

/-- Change every value. -/
def mapWithKey (f : κ → ν → ν) (d : Dict κ ν) : Dict κ ν :=
  ⟨d.entries.map fun e => (e.1, f e.1 e.2), by
    rw [List.map_map]
    exact d.nodup⟩

theorem get_mapWithKey {f : κ → ν → ν} {d : Dict κ ν} {k : κ} :
    (d.mapWithKey f).get k = (d.get k).map (f k) := by
  ext v
  rw [← mem_entries_iff, mapWithKey, List.mem_map]
  constructor
  · rintro ⟨⟨k', v'⟩, hmem, heq⟩
    obtain ⟨rfl, rfl⟩ := Prod.mk.inj heq
    rw [mem_entries_iff.1 hmem]
    rfl
  · intro h
    obtain ⟨v', hv', rfl⟩ := Option.map_eq_some_iff.1 h
    exact ⟨(k, v'), mem_entries_iff.2 hv', rfl⟩

/-- The same without the key. -/
def mapValues (f : ν → ν) (d : Dict κ ν) : Dict κ ν := d.mapWithKey fun _ => f

theorem get_mapValues {f : ν → ν} {d : Dict κ ν} {k : κ} : (d.mapValues f).get k = (d.get k).map f :=
  get_mapWithKey

theorem set_get_self {d : Dict κ ν} {k : κ} {v : ν} (h : d.get k = some v) : d.set k v = d := by
  have hk : k ∈ d.keys := mem_keys_iff.2 ⟨v, h⟩
  refine ext_entries ?_
  rw [set, dif_pos hk]
  refine (List.map_congr_left fun e he => ?_).trans (List.map_id _)
  split_ifs with heq
  · have hv := mem_entries_iff.1 (show (e.1, e.2) ∈ d.entries from he)
    rw [heq, h] at hv
    rw [← heq, Option.some.inj hv]
    rfl
  · rfl

/-! ## Equal dictionaries -/

section

variable {d d' : Dict κ ν} {k : κ} {v w : ν}

theorem get_of_mem {e : κ × ν} (h : e ∈ d.entries) : d.get e.1 = some e.2 := mem_entries_iff.1 h

/-- **Dictionaries with the same keys in the same order, and the same values, are equal.** -/
theorem ext_get (hkeys : d.keys = d'.keys) (hget : ∀ k, d.get k = d'.get k) : d = d' := by
  refine ext_entries (List.ext_get ?_ ?_)
  · have hlength := congrArg List.length hkeys
    rwa [keys, keys, List.length_map, List.length_map] at hlength
  · intro n hn hn'
    have hk : (d.entries.get ⟨n, hn⟩).1 = (d'.entries.get ⟨n, hn'⟩).1 := by
      have hfst := List.getElem_of_eq hkeys (i := n) (by rw [keys, List.length_map]; exact hn)
      simpa only [keys, List.getElem_map, List.get_eq_getElem] using hfst
    have hv := get_of_mem (List.get_mem d.entries ⟨n, hn⟩)
    rw [hget, hk, get_of_mem (List.get_mem d'.entries ⟨n, hn'⟩)] at hv
    exact Prod.ext hk (Option.some.inj hv).symm

theorem keys_set_of_mem (h : k ∈ d.keys) (v : ν) : (d.set k v).keys = d.keys := by
  rw [set, dif_pos h, keys, keys, List.map_map]
  refine List.map_congr_left fun e _ => ?_
  rw [Function.comp_apply]
  split_ifs with he
  · exact he.symm
  · rfl

theorem keys_set_of_not_mem (h : k ∉ d.keys) (v : ν) : (d.set k v).keys = d.keys ++ [k] := by
  rw [set, dif_neg h, keys, List.map_append]
  rfl

omit [DecidableEq κ] in
theorem keys_mapWithKey (f : κ → ν → ν) (d : Dict κ ν) : (d.mapWithKey f).keys = d.keys := by
  rw [mapWithKey, keys, keys, List.map_map]
  rfl

theorem set_set (d : Dict κ ν) (k : κ) (v w : ν) : (d.set k v).set k w = d.set k w := by
  refine ext_get ?_ fun k' => ?_
  · by_cases h : k ∈ d.keys
    · rw [keys_set_of_mem (by rw [keys_set_of_mem h]; exact h), keys_set_of_mem h, keys_set_of_mem h]
    · rw [keys_set_of_mem (by rw [keys_set_of_not_mem h]; simp), keys_set_of_not_mem h, keys_set_of_not_mem h]
  · rw [get_set, get_set, get_set]
    split_ifs <;> rfl

theorem keys_update (d d' : Dict κ ν) : (d.update d').keys = d.keys ++ d'.keys.filter fun k => k ∉ d.keys := by
  have key : ∀ (es : List (κ × ν)) (d : Dict κ ν), (es.map Prod.fst).Nodup →
      (es.foldl (fun d e => d.set e.1 e.2) d).keys = d.keys ++ (es.map Prod.fst).filter fun k => k ∉ d.keys := by
    intro es
    induction es with
    | nil => intro d _; simp
    | cons e es ih =>
      intro d hnd
      rw [List.map_cons, List.nodup_cons] at hnd
      rw [List.foldl_cons, ih _ hnd.2, List.map_cons]
      by_cases he : e.1 ∈ d.keys
      · rw [keys_set_of_mem he, List.filter_cons_of_neg (by simpa using he)]
      · rw [keys_set_of_not_mem he, List.filter_cons_of_pos (by simpa using he), List.append_assoc, List.singleton_append]
        congr 2
        refine List.filter_congr fun k hk => ?_
        have hne : k ≠ e.1 := fun heq => hnd.1 (heq ▸ hk)
        simp [hne]
  exact key d'.entries d d'.nodup

theorem eq_or_get_of_set {k' : κ} (h : (d.set k v).get k' = some w) : k' = k ∧ w = v ∨ d.get k' = some w := by
  rw [get_set] at h
  split_ifs at h with heq
  · exact .inl ⟨heq, (Option.some.inj h).symm⟩
  · exact .inr h

theorem get_of_erase {k' : κ} (h : (d.erase k).get k' = some w) : d.get k' = some w := by
  rw [get_erase] at h
  split_ifs at h
  exact h

end

end Dict

end Lib
