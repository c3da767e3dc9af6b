/-
  Trees of flags: nested dictionaries whose leaves are booleans.

  A tree has a shape (`Fits`), which says what the keys of each dictionary are and what is under them; a tree need
  not have all the keys of its shape.  `dig` follows a path of keys, and `grade` is what it finds: nothing, a flag,
  or a dictionary, in this order, so that the grades of two trees of one shape can be joined (`⊔`).  Trees with the
  same grades are the same dictionaries, up to the order of their keys (`Alike`).
-/
import TideBot.Lib.JsonText
import TideBot.Lib.PyJson

namespace Lib

/-! ## Fields -/

namespace Json

variable {fs : List (Text × Json)} {k k' : Text} {v : Json}

theorem field_cons (e : Text × Json) :
    (Json.obj (e :: fs)).field k = if k = e.1 then some e.2 else (Json.obj fs).field k := by
  by_cases hk : k = e.1
  · simp [field, hk]
  · simp [field, hk, Ne.symm hk]

theorem field_map {w : Json} : (Json.obj (fs.map fun g => if g.1 = k then (k, w) else g)).field k' =
    if k' = k then ((Json.obj fs).field k).map fun _ => w else (Json.obj fs).field k' := by
  induction fs with
  | nil => simp [field]
  | cons e fs ih =>
    rw [List.map_cons, field_cons, ih, field_cons, field_cons]
    by_cases hek : e.1 = k
    · by_cases hk : k' = k <;> simp [hek, hk]
    · by_cases hk : k' = k
      · simp [hk, hek, Ne.symm hek]
      · simp [hk, hek]

theorem contains_obj : (Json.obj fs).contains k = some ((Json.obj fs).field k).isSome := by
  rw [contains, field, Option.isSome_map, List.isSome_find?]

theorem field_eq_none_iff : (Json.obj fs).field k = none ↔ k ∉ fs.map Prod.fst := by
  rw [field, Option.map_eq_none_iff, List.find?_eq_none, List.mem_map]
  constructor
  · rintro h ⟨f, hf, hfk⟩
    exact h f hf (decide_eq_true hfk)
  · intro h f hf hfk
    exact h ⟨f, hf, of_decide_eq_true hfk⟩

theorem field_setField :
    (Json.obj (setField fs (k, v))).field k' = if k' = k then some v else (Json.obj fs).field k' := by
  unfold setField
  split_ifs with hmem hk hk
  · obtain ⟨w, hw⟩ := Option.ne_none_iff_exists'.1 (mt field_eq_none_iff.1 (not_not.2 hmem))
    rw [field_map, if_pos hk, hw]
    rfl
  · rw [field_map, if_neg hk]
  · subst hk
    have hnone := field_eq_none_iff.2 hmem
    rw [field, Option.map_eq_none_iff] at hnone
    simp [field, List.find?_append, hnone]
  · simp [field, List.find?_append, Ne.symm hk]

theorem nodup_setField (hnodup : (fs.map Prod.fst).Nodup) : ((setField fs (k, v)).map Prod.fst).Nodup := by
  unfold setField
  split_ifs with hmem
  · have hkeys : (fs.map fun g => if g.1 = k then (k, v) else g).map Prod.fst = fs.map Prod.fst := by
      rw [List.map_map]
      refine List.map_congr_left fun g _ => ?_
      by_cases hgk : g.1 = k <;> simp [hgk]
    rwa [hkeys]
  · rw [List.map_append, List.nodup_append]
    refine ⟨hnodup, List.nodup_singleton _, ?_⟩
    rintro a ha b hb rfl
    rw [List.map_singleton, List.mem_singleton] at hb
    exact hmem (hb ▸ ha)

/-! ## Paths -/

/-- The value at the end of a path of keys. -/
def dig : Json → List Text → Option Json
  | j, [] => some j
  | j, k :: path => (j.field k).bind fun v => v.dig path

/-- Is there a value at the end of the path, a truthy one? -/
def Holds (j : Json) (path : List Text) : Prop := ∃ v, j.dig path = some v ∧ v.truthy

theorem holds_nil {j : Json} : j.Holds [] ↔ j.truthy := by simp [Holds, dig]

theorem holds_cons {j : Json} {path : List Text} :
    j.Holds (k :: path) ↔ ∃ v, j.field k = some v ∧ v.Holds path := by
  rcases hk : j.field k with _ | v <;> simp [Holds, dig, hk]

instance (j : Json) (path : List Text) : Decidable (j.Holds path) :=
  decidable_of_iff ((j.dig path).any truthy) (by
    rcases h : j.dig path with _ | v <;> simp [Holds, h])

end Json

/-! ## Shapes -/

/-- What is under each key, all the way down. -/
inductive Shape where
  | flag
  | branch (fields : Text → Option Shape)

/-- The paths of a shape. -/
inductive Shape.HasPath : Shape → List Text → Prop
  | nil {s} : HasPath s []
  | cons {fields k s path} : fields k = some s → HasPath s path → HasPath (.branch fields) (k :: path)

open Json

/-- The trees of a shape. -/
inductive Fits : Shape → Json → Prop
  | flag {b} : Fits .flag (.bool b)
  | branch {fields fs} : (fs.map Prod.fst).Nodup →
      (∀ k v, (Json.obj fs).field k = some v → (fields k).isSome) →
      (∀ k v s, (Json.obj fs).field k = some v → fields k = some s → Fits s v) → Fits (.branch fields) (.obj fs)

section
variable {fields : Text → Option Shape} {fs : List (Text × Json)}

theorem Fits.nodup (h : Fits (.branch fields) (.obj fs)) : (fs.map Prod.fst).Nodup := by
  cases h with
  | branch hnodup _ _ => exact hnodup

theorem Fits.field {k : Text} {v : Json} (h : Fits (.branch fields) (.obj fs))
    (hv : (Json.obj fs).field k = some v) : ∃ s, fields k = some s ∧ Fits s v := by
  cases h with
  | branch _ hkeys hfields =>
    obtain ⟨s, hs⟩ := Option.isSome_iff_exists.1 (hkeys k v hv)
    exact ⟨s, hs, hfields k v s hv hs⟩

theorem fits_empty : Fits (.branch fields) (.obj []) := .branch (by simp) (by simp [Json.field]) (by simp [Json.field])

theorem Fits.setField {k : Text} {v : Json} {s : Shape} (h : Fits (.branch fields) (.obj fs)) (hs : fields k = some s)
    (hv : Fits s v) : Fits (.branch fields) (.obj (setField fs (k, v))) := by
  refine .branch (nodup_setField h.nodup) ?_ ?_
  · intro k' v' hfield
    rw [field_setField] at hfield
    split_ifs at hfield with hk
    · rw [hk, hs]
      rfl
    · obtain ⟨s', hs', -⟩ := h.field hfield
      rw [hs']
      rfl
  · intro k' v' s' hfield hs'
    rw [field_setField] at hfield
    split_ifs at hfield with hk
    · subst hk
      cases hfield
      rw [hs] at hs'
      cases hs'
      exact hv
    · obtain ⟨s'', hs'', hfits⟩ := h.field hfield
      rw [hs''] at hs'
      cases hs'
      exact hfits

theorem Fits.tail {e : Text × Json} (h : Fits (.branch fields) (.obj (e :: fs))) :
    (∃ s, fields e.1 = some s ∧ Fits s e.2) ∧ e.1 ∉ fs.map Prod.fst ∧ Fits (.branch fields) (.obj fs) := by
  have hnodup := List.nodup_cons.1 h.nodup
  have hfield : ∀ k v, (Json.obj fs).field k = some v → (Json.obj (e :: fs)).field k = some v := by
    intro k v hv
    rw [field_cons, if_neg, hv]
    rintro rfl
    rw [field_eq_none_iff.2 hnodup.1] at hv
    cases hv
  refine ⟨h.field (by rw [field_cons, if_pos rfl]), hnodup.1, .branch hnodup.2 ?_ ?_⟩
  · intro k v hv
    obtain ⟨s, hs, -⟩ := h.field (hfield k v hv)
    rw [hs]
    rfl
  · intro k v s hv hs
    obtain ⟨s', hs', hfits⟩ := h.field (hfield k v hv)
    rw [hs'] at hs
    cases hs
    exact hfits

end

/-! ## Grades -/

/-- A flag, or a dictionary, which is above all flags. -/
def kind : Json → WithTop Bool
  | .bool b => b
  | _ => ⊤

/-- What may be found under a key: nothing is below all else. -/
def grade : Option Json → List Text → WithBot (WithTop Bool)
  | none, _ => ⊥
  | some j, path =>
    match j.dig path with
    | none => ⊥
    | some v => kind v

/-- The same dictionaries, up to the order of their keys. -/
def Alike (a b : Json) : Prop := ∀ path, grade (some a) path = grade (some b) path

theorem grade_none (path : List Text) : grade none path = ⊥ := rfl

theorem grade_cons (j : Json) (k : Text) (path : List Text) : grade (some j) (k :: path) = grade (j.field k) path := by
  rcases hk : j.field k with _ | v <;> simp [grade, dig, hk]

theorem grade_append {j v : Json} {path : List Text} (h : j.dig path = some v) (k : Text) :
    grade (some j) (path ++ [k]) = grade (v.field k) [] := by
  induction path generalizing j with
  | nil =>
    cases h
    rw [List.nil_append, grade_cons]
  | cons k' path ih =>
    obtain ⟨w, hw, hdig⟩ := Option.bind_eq_some_iff.1 h
    rw [List.cons_append, grade_cons, hw, ih hdig]

theorem grade_ne_bot {j : Json} {path : List Text} : grade (some j) path ≠ ⊥ ↔ ∃ v, j.dig path = some v := by
  rcases hv : j.dig path with _ | v <;> simp [grade, hv]

/-- **A tree holds at a path** if the flag there is set, or the dictionary there has a key. -/
theorem Fits.holds_iff {s : Shape} {j : Json} {path : List Text} (h : Fits s j) :
    j.Holds path ↔ grade (some j) path = ((true : WithTop Bool) : WithBot (WithTop Bool)) ∨
      ∃ k, grade (some j) (path ++ [k]) ≠ ⊥ := by
  induction path generalizing s j with
  | nil =>
    cases h with
    | @flag b => cases b <;> simp [holds_nil, grade, dig, kind, truthy, Json.field]
    | @branch fields fs =>
      have hkeys : (∃ k, grade (some (.obj fs)) ([] ++ [k]) ≠ ⊥) ↔ fs ≠ [] := by
        rcases fs with _ | ⟨e, fs⟩
        · simp [grade, dig, Json.field]
        · simp only [List.nil_append, grade_ne_bot, dig, ne_eq, reduceCtorEq, not_false_eq_true, iff_true]
          exact ⟨e.1, e.2, by simp [field_cons]⟩
      rw [hkeys, holds_nil]
      simp [grade, dig, kind, truthy]
  | cons k path ih =>
    rcases hk : j.field k with _ | v
    · simp [holds_cons, hk, grade_cons, grade_none]
    · cases h with
      | flag => cases hk
      | branch hnodup hkeys hfields =>
        obtain ⟨s, -, hfits⟩ := (Fits.branch hnodup hkeys hfields).field hk
        simp only [holds_cons, hk, grade_cons, List.cons_append, Option.some.injEq, exists_eq_left']
        exact ih hfits

theorem Fits.grade_le_true {s : Shape} {a b : Json} {path : List Text} (ha : Fits s a) (hb : Fits s b)
    (hflag : grade (some a) path = ((true : WithTop Bool) : WithBot (WithTop Bool))) :
    grade (some b) path ≤ ((true : WithTop Bool) : WithBot (WithTop Bool)) := by
  induction path generalizing s a b with
  | nil =>
    cases ha with
    | flag =>
      cases hb with
      | @flag b => cases b <;> simp [grade, dig, kind]
    | branch => simp [grade, dig, kind] at hflag
  | cons k path ih =>
    rw [grade_cons] at hflag ⊢
    rcases hka : a.field k with _ | v
    · rw [hka] at hflag
      cases hflag
    rcases hkb : b.field k with _ | w
    · exact bot_le
    rw [hka] at hflag
    cases ha with
    | flag => cases hka
    | branch hnodup hkeys hfields =>
      obtain ⟨s, hs, hv⟩ := (Fits.branch hnodup hkeys hfields).field hka
      cases hb with
      | branch hnodup hkeys hfields =>
        obtain ⟨s', hs', hw⟩ := (Fits.branch hnodup hkeys hfields).field hkb
        rw [hs] at hs'
        cases hs'
        exact ih hv hw hflag

/-- **A join of two trees holds where one of them does.** -/
theorem Fits.holds_sup_iff {s : Shape} {a b r : Json} (ha : Fits s a) (hb : Fits s b) (hr : Fits s r)
    (hsup : ∀ path, grade (some r) path = grade (some a) path ⊔ grade (some b) path) {path : List Text} :
    r.Holds path ↔ a.Holds path ∨ b.Holds path := by
  rw [hr.holds_iff, ha.holds_iff, hb.holds_iff, hsup]
  have hkeys : (∃ k, grade (some r) (path ++ [k]) ≠ ⊥) ↔
      (∃ k, grade (some a) (path ++ [k]) ≠ ⊥) ∨ ∃ k, grade (some b) (path ++ [k]) ≠ ⊥ := by
    rw [← exists_or]
    refine exists_congr fun k => ?_
    rw [hsup, ne_eq, sup_eq_bot_iff, not_and_or]
  have hflag : grade (some a) path ⊔ grade (some b) path = ((true : WithTop Bool) : WithBot (WithTop Bool)) ↔
      grade (some a) path = ((true : WithTop Bool) : WithBot (WithTop Bool)) ∨
        grade (some b) path = ((true : WithTop Bool) : WithBot (WithTop Bool)) := by
    constructor
    · intro h
      rcases le_total (grade (some a) path) (grade (some b) path) with hle | hle
      · exact .inr (sup_eq_right.2 hle ▸ h)
      · exact .inl (sup_eq_left.2 hle ▸ h)
    · rintro (h | h)
      · rw [h]
        exact sup_eq_left.2 (ha.grade_le_true hb h)
      · rw [h]
        exact sup_eq_right.2 (hb.grade_le_true ha h)
  rw [hkeys, hflag, or_or_or_comm]

end Lib
