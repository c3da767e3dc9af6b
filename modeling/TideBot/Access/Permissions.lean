/-
  The permissions of a user (`utils/access_control/__init__.py`).

  A permission is a flag in a tree, under a path of keys.  Each group of the user has such a tree, which need not have
  all the flags, and so has the configuration.  `get_permissions` joins the trees into the one that the client is
  shown, and `has_permission` looks a single flag up; only the latter falls back on `DEFAULT_USER_PERMISSIONS` for
  what the configuration does not have.

  A tree is shown as the join of the trees that it is made of (`combineValue_fits`, `grade_fillValue`), so the order
  of the groups does not matter; and what is enforced is what is shown, or what the fallback grants (`Fallback`).
-/
import TideBot.Lib.FlagTree

namespace TideBot

open Lib

/-! ## The trees -/

/-- The keys of `DEFAULT_USER_PERMISSIONS`. -/
def userPermissionKeys : List (String × List String) :=
  [("workspace", ["models", "knowledge", "prompts", "tools", "skills", "models_import", "models_export",
      "prompts_import", "prompts_export", "tools_import", "tools_export", "skills_import", "skills_export"]),
    ("sharing", ["models", "public_models", "knowledge", "public_knowledge", "prompts", "public_prompts", "tools",
      "public_tools", "skills", "public_skills", "notes", "public_notes", "folders", "public_chats", "open_chats",
      "public_calendars"]),
    ("access_grants", ["allow_users", "allow_groups"]),
    ("chat", ["controls", "valves", "system_prompt", "params", "file_upload", "web_upload", "delete",
      "delete_message", "continue_response", "regenerate_response", "rate_response", "edit", "share", "export",
      "import", "stt", "tts", "call", "multiple_models", "temporary", "temporary_enforced"]),
    ("features", ["api_keys", "browser_extension", "notes", "folders", "channels", "direct_tool_servers",
      "web_search", "image_generation", "code_interpreter", "memories", "automations", "calendar", "webhooks"]),
    ("settings", ["interface"])]

/-- `DEFAULT_USER_PERMISSIONS`, with its flags from the environment. -/
def defaultUserPermissions (environ : String → String → Bool) : List (Text × Json) :=
  userPermissionKeys.map fun s => (.lit s.1, .obj (s.2.map fun key => (.lit key, .bool (environ s.1 key))))

/-- The permissions of a group; `none` is `None`. -/
structure GroupModel where
  permissions : Option PyDict

/-- `group.permissions or {}` -/
def GroupModel.tree (g : GroupModel) : PyDict := g.permissions.getD .empty

/-! ## `fill_missing_permissions` -/

mutual

/-- What becomes of a value that both dictionaries have: only dictionaries are filled. -/
def fillValue (permission : Json) : Json → Json
  | .obj defaults =>
    match permission with
    | .obj permissions => .obj (fillFields permissions defaults)
    | p => p
  | _ => permission

/-- `fill_missing_permissions` -/
def fillFields (permissions : List (Text × Json)) : List (Text × Json) → List (Text × Json)
  | [] => permissions
  | (key, value) :: defaults =>
    fillFields (Json.setField permissions (key, match (Json.obj permissions).field key with
      | none => value
      | some permission => fillValue permission value)) defaults

end

/-! ## `get_permissions` -/

mutual

/-- What `combine_permissions` puts under a key: its value so far, if there is one, with that of a group.  Writing
    into anything but a dictionary raises. -/
def combineValue (permission : Option Json) : Json → Option Json
  | .obj groupPermissions =>
    match permission.getD (.obj []) with
    | .obj permissions => (combineFields permissions groupPermissions).map .obj
    | p => if groupPermissions.isEmpty then some p else none
  | value =>
    match permission with
    | none => some value
    | some p => some (p.or value)

/-- `combine_permissions` -/
def combineFields (permissions : List (Text × Json)) : List (Text × Json) → Option (List (Text × Json))
  | [] => some permissions
  | (key, value) :: groupPermissions =>
    match combineValue ((Json.obj permissions).field key) value with
    | none => none
    | some v => combineFields (Json.setField permissions (key, v)) groupPermissions

end

/-- `get_permissions`; the copy of the defaults is made by way of their JSON text. -/
def getPermissions (userGroups : List GroupModel) (defaultPermissions : PyDict) : Option Json :=
  (userGroups.foldlM (fun permissions g => combineFields permissions g.tree.entries) defaultPermissions.entries).map
    fun permissions => .obj (fillFields permissions defaultPermissions.entries)

/-! ## `has_permission` -/

/-- `get_permission`; `in` and indexing raise on what is no dictionary. -/
def getPermission (permissions : Json) : List Text → Option Bool
  | [] => some permissions.truthy
  | key :: keys =>
    match permissions.contains key with
    | none => none
    | some false => some false
    | some true =>
      match permissions.field key with
      | none => none
      | some p => getPermission p keys

/-- `permission_key.split('.')` -/
def permissionHierarchy (permissionKey : Text) : List Text := permissionKey.splitOn (.ofChar '.')

/-- `has_permission` -/
def hasPermission (environ : String → String → Bool) (userGroups : List GroupModel) (permissionKey : Text)
    (defaultPermissions : PyDict) : Option Bool :=
  match userGroups.anyM fun g => getPermission g.tree.toJson (permissionHierarchy permissionKey) with
  | none => none
  | some true => some true
  | some false =>
    getPermission (.obj (fillFields defaultPermissions.entries (defaultUserPermissions environ)))
      (permissionHierarchy permissionKey)

/-- Has `DEFAULT_USER_PERMISSIONS` a truthy value at the path, for a tree that has none there, or an empty
    dictionary, which is filled with one that has keys? -/
def Fallback (permissions defaults : Json) (path : List Text) : Prop :=
  match permissions.dig path with
  | none => defaults.Holds path
  | some (.obj []) => ∃ e es, defaults.dig path = some (.obj (e :: es))
  | some _ => False

/-! ## Looking up -/

section
variable {s : Shape} {path : List Text}

/-- **A lookup in a tree of its shape** finds whether the tree holds there. -/
theorem getPermission_fits {j : Json} (h : Lib.Fits s j) (hpath : s.HasPath path) :
    getPermission j path = some (decide (j.Holds path)) := by
  induction hpath generalizing j with
  | nil => simp [getPermission, Json.holds_nil]
  | @cons fields k s path hk _ ih =>
    cases h with
    | @branch _ fs hnodup hkeys hfields =>
      rcases hfield : (Json.obj fs).field k with _ | v
      · simp [getPermission, Json.contains_obj, hfield, Json.holds_cons]
      · obtain ⟨s', hs', hfits⟩ := (Lib.Fits.branch hnodup hkeys hfields).field hfield
        rw [hk] at hs'
        cases hs'
        simp [getPermission, Json.contains_obj, hfield, ih hfits, Json.holds_cons]

theorem getPermission_eq_true {j : Json} : getPermission j path = some true ↔ j.Holds path := by
  induction path generalizing j with
  | nil => simp [getPermission, Json.holds_nil]
  | cons k path ih =>
    rw [Json.holds_cons, getPermission]
    rcases hfield : j.field k with _ | v
    · have hnot : ¬∃ v : Json, none = some v ∧ v.Holds path := by simp
      refine iff_of_false ?_ hnot
      split <;> simp
    · have hcontains : j.contains k = some true := by
        cases j with
        | obj fs => rw [Json.contains_obj, hfield]; rfl
        | _ => cases hfield
      simp [hcontains, ih]

/-! ## Joining -/

mutual

/-- **What is joined is graded as the join.** -/
theorem combineValue_fits {s : Shape} {permission : Option Json} : (value : Json) → Lib.Fits s value →
    (∀ p, permission = some p → Lib.Fits s p) → ∃ r, combineValue permission value = some r ∧ Lib.Fits s r ∧
      ∀ path, grade (some r) path = grade permission path ⊔ grade (some value) path
  | .obj groupPermissions, hvalue, hpermission => by
    cases hs : s with
    | flag =>
      rw [hs] at hvalue
      cases hvalue
    | branch fields =>
      subst hs
      obtain ⟨permissions, hgetD, hfits, hgrade⟩ : ∃ permissions, permission.getD (.obj []) = .obj permissions ∧
          Lib.Fits (.branch fields) (.obj permissions) ∧
          ∀ k path, grade (some (.obj permissions)) (k :: path) = grade permission (k :: path) := by
        rcases permission with _ | p
        · exact ⟨[], rfl, fits_empty, fun _ _ => rfl⟩
        · have hp := hpermission p rfl
          cases hp with
          | branch hnodup hkeys hfields => exact ⟨_, rfl, .branch hnodup hkeys hfields, fun _ _ => rfl⟩
      obtain ⟨r, hr, hrfits, hrgrade⟩ := combineFields_fits groupPermissions hvalue hfits
      refine ⟨.obj r, by rw [combineValue, hgetD]; simp [hr], hrfits, ?_⟩
      intro path
      rcases path with _ | ⟨k, path⟩
      · exact (sup_eq_right.2 le_top).symm
      · rw [hrgrade, hgrade]
  | .bool b, hvalue, hpermission => by
    cases hvalue
    rcases permission with _ | p
    · exact ⟨.bool b, rfl, .flag, fun path => (sup_eq_right.2 bot_le).symm⟩
    · have hp := hpermission p rfl
      cases hp with
      | @flag a =>
        have hor : (Json.bool a).or (.bool b) = .bool (a || b) := by cases a <;> rfl
        refine ⟨.bool (a || b), by rw [← hor]; rfl, .flag, ?_⟩
        intro path
        rcases path with _ | ⟨k, path⟩
        · cases a <;> cases b <;> rfl
        · rfl
  | .null, hvalue, _ => nomatch hvalue
  | .int _, hvalue, _ => nomatch hvalue
  | .float _, hvalue, _ => nomatch hvalue
  | .str _, hvalue, _ => nomatch hvalue
  | .arr _, hvalue, _ => nomatch hvalue

theorem combineFields_fits {fields : Text → Option Shape} {permissions : List (Text × Json)} :
    (groupPermissions : List (Text × Json)) → Lib.Fits (.branch fields) (.obj groupPermissions) →
    Lib.Fits (.branch fields) (.obj permissions) → ∃ r, combineFields permissions groupPermissions = some r ∧
      Lib.Fits (.branch fields) (.obj r) ∧ ∀ k path, grade (some (.obj r)) (k :: path) =
        grade (some (.obj permissions)) (k :: path) ⊔ grade (some (.obj groupPermissions)) (k :: path)
  | [], _, hpermissions => ⟨permissions, rfl, hpermissions, fun _ _ => (sup_eq_left.2 bot_le).symm⟩
  | (key, value) :: groupPermissions, hgroup, hpermissions => by
    obtain ⟨⟨s, hs, hvalue⟩, hnew, hrest⟩ := hgroup.tail
    have hpermission : ∀ p, (Json.obj permissions).field key = some p → Lib.Fits s p := by
      intro p hp
      obtain ⟨s', hs', hfits⟩ := hpermissions.field hp
      rw [hs] at hs'
      cases hs'
      exact hfits
    obtain ⟨v, hv, hvfits, hvgrade⟩ := combineValue_fits value hvalue hpermission
    obtain ⟨r, hr, hrfits, hrgrade⟩ := combineFields_fits groupPermissions hrest (hpermissions.setField hs hvfits)
    refine ⟨r, by rw [combineFields, hv]; exact hr, hrfits, ?_⟩
    intro k path
    rw [hrgrade]
    simp only [grade_cons, Json.field_setField, Json.field_cons]
    split_ifs with hk
    · subst hk
      rw [hvgrade, Json.field_eq_none_iff.2 hnew, grade_none, sup_bot_eq]
    · rfl

end

theorem foldlM_fits {fields : Text → Option Shape} {groups : List GroupModel} {permissions : List (Text × Json)}
    (hgroups : ∀ g ∈ groups, Lib.Fits (.branch fields) g.tree.toJson)
    (hpermissions : Lib.Fits (.branch fields) (.obj permissions)) :
    ∃ r, groups.foldlM (fun ps g => combineFields ps g.tree.entries) permissions = some r ∧
      Lib.Fits (.branch fields) (.obj r) ∧
      (∀ path, grade (some (.obj r)) path = grade (some (.obj permissions)) path ⊔
        ((groups : Multiset GroupModel).map fun g => grade (some g.tree.toJson) path).sup) ∧
      ∀ path, (Json.obj r).Holds path ↔ (Json.obj permissions).Holds path ∨ ∃ g ∈ groups, g.tree.toJson.Holds path := by
  induction groups generalizing permissions with
  | nil => exact ⟨permissions, rfl, hpermissions, fun path => by simp, fun path => by simp⟩
  | cons g groups ih =>
    obtain ⟨hg, hgroups⟩ := List.forall_mem_cons.1 hgroups
    obtain ⟨ps, hps, hpsfits, hpsgrade⟩ := combineFields_fits g.tree.entries hg hpermissions
    have hgrade : ∀ path, grade (some (.obj ps)) path =
        grade (some (.obj permissions)) path ⊔ grade (some g.tree.toJson) path := by
      intro path
      rcases path with _ | ⟨k, path⟩
      · rfl
      · exact hpsgrade k path
    obtain ⟨r, hr, hrfits, hrgrade, hholds⟩ := ih hgroups hpsfits
    refine ⟨r, by rw [List.foldlM_cons, hps]; exact hr, hrfits, ?_, ?_⟩
    · intro path
      rw [hrgrade, hgrade, sup_assoc, ← Multiset.cons_coe, Multiset.map_cons, Multiset.sup_cons]
    · intro path
      rw [hholds, hpermissions.holds_sup_iff hg hpsfits hgrade, or_assoc]
      simp only [List.mem_cons, exists_eq_or_imp]

/-! ## Filling -/

theorem field_fillFields {permissions defaults : List (Text × Json)} (hnodup : (defaults.map Prod.fst).Nodup)
    (k : Text) :
    (Json.obj (fillFields permissions defaults)).field k =
      match (Json.obj permissions).field k, (Json.obj defaults).field k with
      | none, value => value
      | some p, none => some p
      | some p, some value => some (fillValue p value) := by
  induction defaults generalizing permissions with
  | nil =>
    rw [fillFields]
    rcases (Json.obj permissions).field k with _ | p <;> rfl
  | cons e defaults ih =>
    obtain ⟨hnew, hnodup⟩ := List.nodup_cons.1 hnodup
    rw [fillFields, ih hnodup, Json.field_setField, Json.field_cons]
    split_ifs with hk
    · subst hk
      rw [Json.field_eq_none_iff.2 hnew]
      rcases (Json.obj permissions).field e.1 with _ | p <;> rfl
    · rfl

theorem fillFields_eq_nil {permissions defaults : List (Text × Json)} :
    fillFields permissions defaults = [] ↔ permissions = [] ∧ defaults = [] := by
  induction defaults generalizing permissions with
  | nil => simp [fillFields]
  | cons e defaults ih =>
    rw [fillFields, ih]
    refine iff_of_false ?_ (by simp)
    rintro ⟨hnil, -⟩
    have hfield := congrArg (fun fs => (Json.obj fs).field e.1) hnil
    simp only [Json.field_setField, if_pos] at hfield
    cases hfield

theorem fillValue_bool (b : Bool) (value : Json) : fillValue (.bool b) value = .bool b := by
  cases value <;> rfl

/-- **Filling with what is there already** changes nothing. -/
theorem grade_fillValue {p value : Json} (hp : Lib.Fits s p) (hvalue : Lib.Fits s value)
    (hle : ∀ path, grade (some value) path ≤ grade (some p) path) :
    grade (some (fillValue p value)) path = grade (some p) path := by
  induction path generalizing s p value with
  | nil =>
    cases hp with
    | flag => rw [fillValue_bool]
    | branch =>
      cases hvalue with
      | branch => rfl
  | cons k path ih =>
    cases hp with
    | flag => rw [fillValue_bool]
    | @branch _ ps hnodup hkeys hfields =>
      have hps := Lib.Fits.branch hnodup hkeys hfields
      cases hvalue with
      | @branch _ vs hnodup hkeys hfields =>
        have hvs := Lib.Fits.branch hnodup hkeys hfields
        rw [fillValue, grade_cons, grade_cons, field_fillFields hvs.nodup]
        rcases hpk : (Json.obj ps).field k with _ | p'
        · rcases hvk : (Json.obj vs).field k with _ | v'
          · rfl
          · have hbot := hle [k]
            rw [grade_cons, grade_cons, hpk, hvk, grade_none, le_bot_iff] at hbot
            exact absurd hbot (grade_ne_bot.2 ⟨v', rfl⟩)
        · rcases hvk : (Json.obj vs).field k with _ | v'
          · rfl
          · obtain ⟨s', hs, hp'⟩ := hps.field hpk
            obtain ⟨s'', hs', hv'⟩ := hvs.field hvk
            rw [hs] at hs'
            cases hs'
            refine ih hp' hv' fun path => ?_
            have hstep := hle (k :: path)
            rwa [grade_cons, grade_cons, hpk, hvk] at hstep

/-- The fallback a key further down, by what the two dictionaries have under the key. -/
def FallbackBelow (path : List Text) : Option Json → Option Json → Prop
  | none, some v => v.Holds path
  | some p, some v => Fallback p v path
  | _, none => False

theorem fallback_cons {ps : List (Text × Json)} {value : Json} {k : Text} :
    Fallback (.obj ps) value (k :: path) ↔ FallbackBelow path ((Json.obj ps).field k) (value.field k) := by
  rcases hpk : (Json.obj ps).field k with _ | p' <;> rcases hvk : value.field k with _ | v'
  · simp [Fallback, FallbackBelow, Json.dig, hpk, Json.holds_cons, hvk]
  · simp [Fallback, FallbackBelow, Json.dig, hpk, Json.holds_cons, hvk]
  · simp only [Fallback, FallbackBelow, Json.dig, hpk, hvk, Option.bind_some, Option.bind_none]
    rcases hd : p'.dig path with _ | w
    · simp [Json.holds_cons, hvk]
    · cases w with
      | obj fs => rcases fs with _ | ⟨e, fs⟩ <;> simp
      | _ => simp
  · simp only [Fallback, FallbackBelow, Json.dig, hpk, hvk, Option.bind_some]
    rcases hd : p'.dig path with _ | w
    · simp [Json.holds_cons, hvk]
    · cases w with
      | obj fs => rcases fs with _ | ⟨e, fs⟩ <;> rfl
      | _ => rfl

/-- **What is filled in** holds at a path if the tree does, or if the fallback does. -/
theorem holds_fillValue {t : Shape} {p value : Json} (hpath : s.HasPath path) (hp : Lib.Fits s p)
    (hvalue : Lib.Fits t value) :
    (fillValue p value).Holds path ↔ p.Holds path ∨ Fallback p value path := by
  induction hpath generalizing t p value with
  | nil =>
    cases hp with
    | @flag b =>
      rw [fillValue_bool]
      simp [Fallback, Json.dig]
    | @branch fields ps =>
      cases hvalue with
      | @flag b =>
        rcases ps with _ | ⟨e, ps⟩ <;> simp [fillValue, Fallback, Json.dig]
      | @branch fields vs =>
        rw [fillValue, Json.holds_nil, Json.holds_nil]
        rcases ps with _ | ⟨e, ps⟩
        · rcases vs with _ | ⟨e, vs⟩
          · simp [Fallback, Json.dig, fillFields, Json.truthy]
          · simp [Fallback, Json.dig, Json.truthy, List.isEmpty_eq_false_iff, fillFields_eq_nil]
        · simp [Fallback, Json.dig, Json.truthy, List.isEmpty_eq_false_iff, fillFields_eq_nil]
  | @cons fields k s path hk hpath ih =>
    cases hp with
    | @branch _ ps hnodup hkeys hfields =>
      have hps := Lib.Fits.branch hnodup hkeys hfields
      rw [fallback_cons, Json.holds_cons]
      cases hvalue with
      | flag => simp [fillValue, FallbackBelow, Json.field, Json.holds_cons]
      | @branch _ vs hnodup hkeys hfields =>
        have hvs := Lib.Fits.branch hnodup hkeys hfields
        rw [fillValue, Json.holds_cons, field_fillFields hvs.nodup]
        rcases hpk : (Json.obj ps).field k with _ | p' <;> rcases hvk : (Json.obj vs).field k with _ | v'
        · simp [FallbackBelow]
        · simp [FallbackBelow]
        · simp [FallbackBelow]
        · obtain ⟨s', hs, hp'⟩ := hps.field hpk
          obtain ⟨s'', -, hv'⟩ := hvs.field hvk
          rw [hk] at hs
          cases hs
          simpa [FallbackBelow] using ih hp' hv'

theorem not_fallback_of_holds {p value : Json} (h : p.Holds path) : ¬Fallback p value path := by
  obtain ⟨v, hv, htruthy⟩ := h
  rw [Fallback, hv]
  cases v with
  | obj fs =>
    rcases fs with _ | ⟨e, fs⟩
    · cases htruthy
    · exact id
  | _ => exact id

theorem not_fallback {p value : Json} (hle : ∀ path, grade (some value) path ≤ grade (some p) path) :
    ¬Fallback p value path := by
  intro h
  unfold Fallback at h
  split at h
  · rename_i hnone
    obtain ⟨v, hv, -⟩ := h
    have hbot : grade (some p) path = ⊥ := by
      by_contra hne
      obtain ⟨w, hw⟩ := grade_ne_bot.1 hne
      rw [hnone] at hw
      cases hw
    exact grade_ne_bot.2 ⟨v, hv⟩ (le_bot_iff.1 (hbot ▸ hle path))
  · rename_i hempty
    obtain ⟨e, es, hv⟩ := h
    have hkey := hle (path ++ [e.1])
    rw [grade_append hempty, grade_append hv, Json.field_cons, if_pos rfl] at hkey
    exact grade_ne_bot.2 ⟨e.2, rfl⟩ (le_bot_iff.1 hkey)
  · exact h

/-! ## The defaults -/

theorem fits_map {α : Type} {keys : List α} {name : α → String} (hnodup : (keys.map name).Nodup) {v : α → Json}
    (hv : ∀ key ∈ keys, Lib.Fits s (v key)) :
    Lib.Fits (.branch fun _ => some s) (.obj (keys.map fun key => (Text.lit (name key), v key))) := by
  refine .branch ?_ (fun _ _ _ => rfl) ?_
  · have hkeys : (keys.map fun key => (Text.lit (name key), v key)).map Prod.fst = (keys.map name).map Text.lit := by
      simp
    rw [hkeys]
    exact hnodup.map fun _ _ h => Text.lit_inj.1 h
  · intro k w s' hw hs
    cases hs
    obtain ⟨e, he, rfl⟩ := Option.map_eq_some_iff.1 hw
    obtain ⟨key, hkey, rfl⟩ := List.mem_map.1 (List.mem_of_find?_eq_some he)
    exact hv key hkey

theorem fits_defaultUserPermissions (environ : String → String → Bool) :
    Lib.Fits (.branch fun _ => some (.branch fun _ => some .flag)) (.obj (defaultUserPermissions environ)) := by
  refine @fits_map _ _ _ Prod.fst (by decide) _ fun section_ hsection => @fits_map _ _ _ id ?_ _ fun _ _ => .flag
  have hkeys : ∀ s ∈ userPermissionKeys, s.2.Nodup := by decide
  rw [List.map_id]
  exact hkeys section_ hsection

/-! ## What is shown and what is enforced -/

variable {environ : String → String → Bool} {groups : List GroupModel} {permissionKey : Text}
  {defaultPermissions : PyDict}

/-- **What is shown** is the join of the groups' trees and the defaults, and holds where one of them does. -/
theorem getPermissions_fits {fields : Text → Option Shape}
    (hgroups : ∀ g ∈ groups, Lib.Fits (.branch fields) g.tree.toJson)
    (hdefault : Lib.Fits (.branch fields) defaultPermissions.toJson) :
    ∃ shown, getPermissions groups defaultPermissions = some shown ∧
      (∀ path, grade (some shown) path = grade (some defaultPermissions.toJson) path ⊔
        ((groups : Multiset GroupModel).map fun g => grade (some g.tree.toJson) path).sup) ∧
      ∀ path, (Shape.branch fields).HasPath path →
        (shown.Holds path ↔ defaultPermissions.toJson.Holds path ∨ ∃ g ∈ groups, g.tree.toJson.Holds path) := by
  obtain ⟨r, hr, hrfits, hgrade, hholds⟩ := foldlM_fits hgroups hdefault
  have hle : ∀ path, grade (some defaultPermissions.toJson) path ≤ grade (some (.obj r)) path := by
    intro path
    rw [hgrade]
    exact le_sup_left
  refine ⟨fillValue (.obj r) defaultPermissions.toJson, by rw [getPermissions, hr]; rfl, ?_, ?_⟩
  · intro path
    rw [grade_fillValue hrfits hdefault hle, hgrade]
    rfl
  · intro path hpath
    rw [holds_fillValue hpath hrfits hdefault, or_iff_left (not_fallback hle), hholds]
    rfl

/-- **What is enforced**: a flag of a group or of the defaults, or the fallback. -/
theorem hasPermission_fits {fields : Text → Option Shape}
    (hgroups : ∀ g ∈ groups, Lib.Fits (.branch fields) g.tree.toJson)
    (hdefault : Lib.Fits (.branch fields) defaultPermissions.toJson)
    (hpath : (Shape.branch fields).HasPath (permissionHierarchy permissionKey)) :
    hasPermission environ groups permissionKey defaultPermissions = some true ↔
      (∃ g ∈ groups, g.tree.toJson.Holds (permissionHierarchy permissionKey)) ∨
        defaultPermissions.toJson.Holds (permissionHierarchy permissionKey) ∨
        Fallback defaultPermissions.toJson (.obj (defaultUserPermissions environ)) (permissionHierarchy permissionKey) := by
  have hany : (groups.anyM fun g => getPermission g.tree.toJson (permissionHierarchy permissionKey)) =
      some (decide (∃ g ∈ groups, g.tree.toJson.Holds (permissionHierarchy permissionKey))) := by
    induction groups with
    | nil => rfl
    | cons g groups ih =>
      obtain ⟨hg, hgroups⟩ := List.forall_mem_cons.1 hgroups
      rw [List.anyM, getPermission_fits hg hpath, ih hgroups]
      by_cases hholds : g.tree.toJson.Holds (permissionHierarchy permissionKey) <;> simp [hholds]
  rw [← holds_fillValue hpath hdefault (fits_defaultUserPermissions environ), hasPermission, hany]
  by_cases hgroup : ∃ g ∈ groups, g.tree.toJson.Holds (permissionHierarchy permissionKey)
  · simp [hgroup]
  · simp only [hgroup, decide_false, false_or]
    exact getPermission_eq_true

/-- **The permissions that are shown are those enforced** just where a group has the permission or the fallback does
    not grant it, whatever the order of the groups. -/
theorem permissionsShown_iff {s : Shape} (hgroups : ∀ g ∈ groups, Lib.Fits s g.tree.toJson)
    (hdefault : Lib.Fits s defaultPermissions.toJson) :
    ∃ shown, getPermissions groups defaultPermissions = some shown ∧
      (∀ groups', groups'.Perm groups → ∃ shown', getPermissions groups' defaultPermissions = some shown' ∧
        Lib.Alike shown' shown) ∧
      ∀ environ permissionKey, s.HasPath (permissionHierarchy permissionKey) →
        ((shown.Holds (permissionHierarchy permissionKey) ↔
            hasPermission environ groups permissionKey defaultPermissions = some true) ↔
          (∃ g ∈ groups, g.tree.toJson.Holds (permissionHierarchy permissionKey)) ∨
            ¬Fallback defaultPermissions.toJson (.obj (defaultUserPermissions environ))
              (permissionHierarchy permissionKey)) := by
  cases s with
  | flag => cases hdefault
  | branch fields =>
    obtain ⟨shown, hshown, hgrade, hholds⟩ := getPermissions_fits hgroups hdefault
    refine ⟨shown, hshown, ?_, ?_⟩
    · intro groups' hperm
      obtain ⟨shown', hshown', hgrade', -⟩ :=
        getPermissions_fits (fun g (hg : g ∈ groups') => hgroups g (hperm.mem_iff.1 hg)) hdefault
      refine ⟨shown', hshown', fun path => ?_⟩
      rw [hgrade, hgrade', Multiset.coe_eq_coe.2 hperm]
    · intro environ permissionKey hpath
      rw [hholds _ hpath, hasPermission_fits hgroups hdefault hpath]
      by_cases hfallback : Fallback defaultPermissions.toJson (.obj (defaultUserPermissions environ))
        (permissionHierarchy permissionKey)
      · have hnot : ¬defaultPermissions.toJson.Holds (permissionHierarchy permissionKey) :=
          fun h => not_fallback_of_holds h hfallback
        simp [hfallback, hnot]
      · simp [hfallback, or_comm]

end

namespace Sample

def chatPermissions (flags : List (String × Bool)) : PyDict :=
  ⟨[(.lit "chat", .obj (flags.map fun f => (.lit f.1, .bool f.2)))], by simp⟩

/-- A configuration from before there was a permission to delete chats. -/
def storedPermissions : PyDict := chatPermissions [("edit", true)]

/-- One group may share chats and not delete them, the other may delete them. -/
def chatGroups : List GroupModel :=
  [⟨some (chatPermissions [("delete", false), ("share", true)])⟩, ⟨some (chatPermissions [("delete", true)])⟩]

end Sample

/-- What the second group grants is shown and enforced, in either order of the groups. -/
theorem permissionsShown_iff_stored : ∃ shown shown',
    getPermissions Sample.chatGroups Sample.storedPermissions = some shown ∧
    getPermissions Sample.chatGroups.reverse Sample.storedPermissions = some shown' ∧ Lib.Alike shown' shown ∧
      ∀ environ, shown.Holds (permissionHierarchy (.lit "chat.delete")) ↔
        hasPermission environ Sample.chatGroups (.lit "chat.delete") Sample.storedPermissions = some true := by
  have hfits : ∀ flags : List (String × Bool), (flags.map Prod.fst).Nodup →
      Lib.Fits (.branch fun _ => some (.branch fun _ => some .flag)) (Sample.chatPermissions flags).toJson :=
    fun flags hnodup => @fits_map _ _ ["chat"] id (by decide) _ fun _ _ =>
      @fits_map _ _ flags Prod.fst hnodup (fun f => .bool f.2) fun _ _ => .flag
  have hgroups : ∀ g ∈ Sample.chatGroups,
      Lib.Fits (.branch fun _ => some (.branch fun _ => some .flag)) g.tree.toJson :=
    List.forall_mem_cons.2 ⟨hfits _ (by decide), List.forall_mem_singleton.2 (hfits _ (by decide))⟩
  obtain ⟨shown, hshown, hperm, hiff⟩ := permissionsShown_iff hgroups (hfits [("edit", true)] (by decide))
  obtain ⟨shown', hshown', halike⟩ := hperm _ (List.reverse_perm _)
  refine ⟨shown, shown', hshown, hshown', halike, fun environ => ?_⟩
  have hpath : permissionHierarchy (.lit "chat.delete") = [.lit "chat", .lit "delete"] := by decide
  exact (hiff environ _ (hpath ▸ .cons rfl (.cons rfl .nil))).2
    (.inl ⟨⟨some (Sample.chatPermissions [("delete", true)])⟩, by simp [Sample.chatGroups], by decide +kernel⟩)

/-- The permission to delete chats is enforced, but not shown. -/
theorem permissionsShown_fails :
    ∃ shown, getPermissions [] Sample.storedPermissions = some shown ∧
      ¬shown.Holds (permissionHierarchy (.lit "chat.delete")) ∧
      hasPermission (fun _ _ => true) [] (.lit "chat.delete") Sample.storedPermissions = some true := by
  refine ⟨_, rfl, ?_, ?_⟩ <;> decide +kernel

end TideBot
