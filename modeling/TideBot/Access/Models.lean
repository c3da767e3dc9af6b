/-
  Models that a user is shown, and models that a user may use (`utils/models.py`,
  `utils/access_control/__init__.py`).

  `get_filtered_models` asks for grants on the models of the list, all at once.  `check_model_access` asks
  for one on the model, and then walks along `base_model_id` and asks at every hop.  The chain of base
  models may be of any length, may run in a circle, and may lead to a model without a row.

  Of a model in a list its id is modelled, and what decides access: the grants of an arena model, and else
  the `user_id` of its `info`.
-/
import TideBot.Access.Grants
import TideBot.Lib.Reach

namespace TideBot

open Lib Relation

/-! ## Models -/

/-- A row of `model`. -/
structure ModelRow where
  userId : Text
  baseModelId : Option Text

/-- What decides access to a model in a list. -/
inductive ModelKind where
  /-- an arena model, with the `access_grants` of its `info` -/
  | arena (accessGrants : List Json)
  /-- another one, with the `user_id` of its `info`, if it has an `info` -/
  | plain (info : Option (Option Text))

/-- A model in a list. -/
structure ModelEntry where
  id : Text
  kind : ModelKind

/-- The user, and the switches for admins and for everyone. -/
structure ModelUser where
  id : Text
  role : Text

section
variable (db : GrantDb) (rows : Dict Text ModelRow)

/-- Is the row the user's, or granted to the user? -/
def modelReadable (userId : Text) (userGroupIds : Option (List Text)) (id : Text) (row : ModelRow) : Bool :=
  userId = row.userId || db.hasAccess userId (.lit "model") id (.lit "read") userGroupIds

/-! ## Use -/

/-- The loop of `has_base_model_access`. -/
def hasBaseModelAccessLoop (user : ModelUser) (userGroupIds : Option (List Text)) :
    ℕ → List Text → Option Text → Bool
  | n + 1, seen, some baseModelId =>
    if baseModelId = [] ∨ baseModelId ∈ seen then true
    else
      match rows.get baseModelId with
      | none => user.role = .lit "admin"
      | some row =>
        if !modelReadable db user.id userGroupIds baseModelId row then false
        else hasBaseModelAccessLoop user userGroupIds n (baseModelId :: seen) row.baseModelId
  | _, _, _ => true

/-- `has_base_model_access`; a row adds at most two ids to those that the loop may come to. -/
def hasBaseModelAccess (user : ModelUser) (userGroupIds : Option (List Text)) (id : Text) (row : ModelRow) : Bool :=
  hasBaseModelAccessLoop db rows user userGroupIds (2 * rows.size) [id] row.baseModelId

/-- `check_model_access`: does it not raise? -/
def checkModelAccess (user : ModelUser) (model : ModelEntry) : Bool :=
  match model.kind with
  | .arena accessGrants => db.hasListedAccess user.id (.lit "read") accessGrants none = some true
  | .plain _ =>
    match rows.get model.id with
    | none => false
    | some row =>
      let userGroupIds :=
        if user.id ≠ row.userId ∨ row.baseModelId.getD [] ≠ [] then some (db.getGroupsByMemberId user.id) else none
      modelReadable db user.id userGroupIds model.id row && hasBaseModelAccess db rows user userGroupIds model.id row

/-! ## Lists -/

/-- `model_infos`: the ids of the models that have an `info`, with its `user_id` -/
def modelInfos (models : List ModelEntry) : Dict Text (Option Text) :=
  models.foldl (fun infos model =>
    match model.kind with
    | .plain (some userId) => infos.set model.id userId
    | _ => infos) .empty

/-- Is the model shown? `none`: the check of its grants raises. -/
def modelShown (user : ModelUser) (bypassAdmin : Bool) (infos : Dict Text (Option Text)) (userGroupIds accessible : List Text)
    (model : ModelEntry) : Option Bool :=
  match model.kind with
  | .arena accessGrants => db.hasListedAccess user.id (.lit "read") accessGrants (some userGroupIds)
  | .plain _ =>
    match infos.get model.id with
    | some userId =>
      some ((user.role = .lit "admin" && bypassAdmin) || some user.id = userId || model.id ∈ accessible)
    | none => some (user.role = .lit "admin")

/-- The loop of `get_filtered_models`. -/
def filterShown (shown : ModelEntry → Option Bool) : List ModelEntry → Option (List ModelEntry)
  | [] => some []
  | model :: rest => do
    let keep ← shown model
    let filtered ← filterShown shown rest
    return if keep then model :: filtered else filtered

/-- `get_filtered_models`; `none`: it raises. -/
def getFilteredModels (bypassAdmin bypassModel : Bool) (user : ModelUser) (models : List ModelEntry) :
    Option (List ModelEntry) :=
  if (user.role = .lit "user" ∨ (user.role = .lit "admin" ∧ !bypassAdmin)) ∧ !bypassModel then
    let infos := modelInfos models
    let userGroupIds := db.getGroupsByMemberId user.id
    let accessible :=
      db.getAccessibleResourceIds user.id (.lit "model") infos.keys (.lit "read") (some userGroupIds)
    filterShown (modelShown db user bypassAdmin infos userGroupIds accessible) models
  else some models

end

/-! ## Chains of base models -/

/-- The base model of a model. -/
def baseModelOf (rows : Dict Text ModelRow) (id : Text) : Option Text :=
  ((rows.get id).bind ModelRow.baseModelId).filter fun b => b ≠ []

/-- The user may read the model: it has a row, of the user or granted to the user. -/
def CanReadModel (db : GrantDb) (rows : Dict Text ModelRow) (userId id : Text) : Prop :=
  ∃ row, rows.get id = some row ∧ modelReadable db userId none id row

/-- **Every model that `base_model_id` leads to may be read.** -/
def BaseModelsReadable (db : GrantDb) (rows : Dict Text ModelRow) (userId id : Text) : Prop :=
  ∀ base, TransGen (fun a b => baseModelOf rows a = some b) id base → CanReadModel db rows userId base

/-- The `info` of the models is that of their rows. -/
def InfosMatch (rows : Dict Text ModelRow) (models : List ModelEntry) : Prop :=
  ∀ m ∈ models, ∀ userId, m.kind = .plain (some userId) → ∃ row, rows.get m.id = some row ∧ userId = some row.userId

section
variable {db : GrantDb} {rows : Dict Text ModelRow} {user : ModelUser} {id : Text} {row : ModelRow}

theorem modelReadable_groups {ids : Option (List Text)} (h : ids = none ∨ ids = some (db.getGroupsByMemberId user.id)) :
    modelReadable db user.id ids id row = modelReadable db user.id none id row := by
  rcases h with rfl | rfl
  · rfl
  · rw [modelReadable, GrantDb.hasAccess_some, modelReadable]

/-- What the loop asks of a model that it comes to. -/
def hopAllowed (db : GrantDb) (rows : Dict Text ModelRow) (user : ModelUser) (userGroupIds : Option (List Text))
    (id : Text) : Bool :=
  match rows.get id with
  | none => user.role = .lit "admin"
  | some row => modelReadable db user.id userGroupIds id row

/-- **The loop asks at every hop of the walk.** -/
theorem hasBaseModelAccessLoop_eq {ids : Option (List Text)} {n : ℕ} {seen : List Text} {base : Option Text} :
    hasBaseModelAccessLoop db rows user ids n seen base =
      (trail (baseModelOf rows) n seen (base.filter fun b => b ≠ [])).all (hopAllowed db rows user ids) := by
  induction n generalizing seen base with
  | zero => cases base <;> rfl
  | succ n ih =>
    cases base with
    | none => rfl
    | some b =>
      by_cases hnil : b = []
      · simp [hasBaseModelAccessLoop, hnil, trail]
      · by_cases hseen : b ∈ seen
        · simp [hasBaseModelAccessLoop, hseen, hnil, trail, Option.filter_some]
        · have hstart : (some b : Option Text).filter (fun b => b ≠ []) = some b := by simp [Option.filter_some, hnil]
          rw [hstart, trail, if_neg hseen, List.all_cons, hasBaseModelAccessLoop, if_neg (not_or.2 ⟨hnil, hseen⟩)]
          cases hrow : rows.get b with
          | none =>
            have hup : baseModelOf rows b = none := by simp [baseModelOf, hrow]
            have hend : trail (baseModelOf rows) n (b :: seen) none = [] := by cases n <;> rfl
            simp [hopAllowed, hrow, hup, hend]
          | some row =>
            have hup : baseModelOf rows b = row.baseModelId.filter fun b => b ≠ [] := by simp [baseModelOf, hrow]
            simp only [hopAllowed, hrow, hup, ih]
            cases modelReadable db user.id ids b row <;> simp

/-- The ids that chains come to: those of the rows, and those that the rows name. -/
def chainIds (rows : Dict Text ModelRow) : Finset Text :=
  rows.keys.toFinset ∪ (rows.entries.filterMap fun e => baseModelOf rows e.1).toFinset

theorem card_chainIds : (chainIds rows).card ≤ 2 * rows.size := by
  have hkeys : rows.keys.toFinset.card ≤ rows.size := by
    refine (List.toFinset_card_le _).trans ?_
    simp [Dict.keys, Dict.size]
  have hbases : (rows.entries.filterMap fun e => baseModelOf rows e.1).toFinset.card ≤ rows.size :=
    (List.toFinset_card_le _).trans (List.length_filterMap_le _ _)
  exact (Finset.card_union_le _ _).trans (by omega)

theorem baseModelOf_mem {a b : Text} (h : baseModelOf rows a = some b) : b ∈ chainIds rows := by
  refine Finset.mem_union_right _ (List.mem_toFinset.2 (List.mem_filterMap.2 ?_))
  cases hrow : rows.get a with
  | none => simp [baseModelOf, hrow] at h
  | some row => exact ⟨(a, row), Dict.mem_entries_iff.2 hrow, h⟩

theorem hopAllowed_iff {ids : Option (List Text)} (hrole : user.role ≠ .lit "admin")
    (hids : ids = none ∨ ids = some (db.getGroupsByMemberId user.id)) :
    hopAllowed db rows user ids id ↔ CanReadModel db rows user.id id := by
  unfold hopAllowed CanReadModel
  cases rows.get id with
  | none => simp [hrole]
  | some row => simp [modelReadable_groups hids]

/-- **What `check_model_access` asks: that every model that the chain comes to may be read.** -/
theorem checkModelAccess_plain {model : ModelEntry} {info : Option (Option Text)} (hkind : model.kind = .plain info)
    (hrole : user.role ≠ .lit "admin") : checkModelAccess db rows user model ↔
      ∀ c, ReflTransGen (fun a b => baseModelOf rows a = some b) model.id c → CanReadModel db rows user.id c := by
  simp only [checkModelAccess, hkind]
  cases hrow : rows.get model.id with
  | none =>
    refine iff_of_false (by simp) fun hall => ?_
    obtain ⟨row, hrow', -⟩ := hall model.id .refl
    rw [hrow] at hrow'
    cases hrow'
  | some row =>
    dsimp only
    generalize hgroups : (if user.id ≠ row.userId ∨ row.baseModelId.getD [] ≠ [] then
      some (db.getGroupsByMemberId user.id) else none) = ids
    have hids : ids = none ∨ ids = some (db.getGroupsByMemberId user.id) := by
      rw [← hgroups]
      split_ifs
      · exact .inr rfl
      · exact .inl rfl
    have hup : baseModelOf rows model.id = row.baseModelId.filter fun b => b ≠ [] := by simp [baseModelOf, hrow]
    have hroot : model.id ∈ chainIds rows := by
      refine Finset.mem_union_left _ (List.mem_toFinset.2 (Dict.mem_keys_iff.2 ⟨row, hrow⟩))
    have hhop : modelReadable db user.id ids model.id row = hopAllowed db rows user ids model.id := by
      simp only [hopAllowed, hrow]
    rw [hasBaseModelAccess, hasBaseModelAccessLoop_eq, ← hup, hhop, ← List.all_cons]
    -- the walk that starts at the model itself
    have hwalk : trail (baseModelOf rows) (2 * rows.size + 1) [] (some model.id) =
        model.id :: trail (baseModelOf rows) (2 * rows.size) [model.id] (baseModelOf rows model.id) :=
      if_neg List.not_mem_nil
    rw [← hwalk, List.all_eq_true]
    have hmem : ∀ c, c ∈ trail (baseModelOf rows) (2 * rows.size + 1) [] (some model.id) ↔
        ReflTransGen (fun a b => baseModelOf rows a = some b) model.id c := fun c =>
      mem_trail (fun _ _ _ h => baseModelOf_mem h) hroot (card_chainIds.trans (Nat.le_succ _))
    simp only [hmem, hopAllowed_iff hrole hids]

/-! ## Lists -/

theorem mem_filterShown {shown : ModelEntry → Option Bool} {models filtered : List ModelEntry} {m : ModelEntry}
    (h : filterShown shown models = some filtered) (hm : m ∈ filtered) : m ∈ models ∧ shown m = some true := by
  induction models generalizing filtered with
  | nil =>
    cases h
    cases hm
  | cons model rest ih =>
    simp only [filterShown, Option.bind_eq_bind, Option.bind_eq_some_iff, Option.pure_def, Option.some.injEq] at h
    obtain ⟨keep, hkeep, rest', hrest, rfl⟩ := h
    have htail : m ∈ rest' → m ∈ model :: rest ∧ shown m = some true := fun hm =>
      ⟨List.mem_cons_of_mem _ (ih hrest hm).1, (ih hrest hm).2⟩
    split_ifs at hm with hk
    · rcases List.mem_cons.1 hm with rfl | hm
      · exact ⟨List.mem_cons_self, hk ▸ hkeep⟩
      · exact htail hm
    · exact htail hm

theorem get_modelInfos {models : List ModelEntry} {infos : Dict Text (Option Text)} {userId : Option Text}
    (h : (models.foldl (fun infos model =>
      match model.kind with
      | .plain (some userId) => infos.set model.id userId
      | _ => infos) infos).get id = some userId) :
    infos.get id = some userId ∨ ∃ m ∈ models, m.id = id ∧ m.kind = .plain (some userId) := by
  induction models generalizing infos with
  | nil => exact .inl h
  | cons model rest ih =>
    rw [List.foldl_cons] at h
    rcases ih h with h | ⟨m, hm, hid, hkind⟩
    · split at h
      · rename_i userId' hkind
        rw [Dict.get_set] at h
        split_ifs at h with hid
        · cases h
          exact .inr ⟨model, List.mem_cons_self, hid.symm, hkind⟩
        · exact .inl h
      · exact .inl h
    · exact .inr ⟨m, List.mem_cons_of_mem _ hm, hid, hkind⟩

/-- **A model that is shown may be read.** -/
theorem canReadModel_of_shown {models : List ModelEntry} (hmatch : InfosMatch rows models) {m : ModelEntry}
    {info : Option (Option Text)} (hkind : m.kind = .plain info) (hrole : user.role ≠ .lit "admin") {bypassAdmin : Bool}
    (hshown : modelShown db user bypassAdmin (modelInfos models) (db.getGroupsByMemberId user.id)
      (db.getAccessibleResourceIds user.id (.lit "model") (modelInfos models).keys (.lit "read")
        (some (db.getGroupsByMemberId user.id))) m = some true) : CanReadModel db rows user.id m.id := by
  simp only [modelShown, hkind] at hshown
  cases hinfo : (modelInfos models).get m.id with
  | none =>
    rw [hinfo] at hshown
    simp [hrole] at hshown
  | some userId =>
    rw [hinfo] at hshown
    obtain ⟨m', hm', hid, hkind'⟩ : ∃ m' ∈ models, m'.id = m.id ∧ m'.kind = .plain (some userId) :=
      (get_modelInfos hinfo).resolve_left (by simp)
    obtain ⟨row, hrow, rfl⟩ := hmatch m' hm' userId hkind'
    rw [hid] at hrow
    simp only [hrole, decide_false, Bool.false_and, Bool.false_or, Option.some.injEq, Bool.or_eq_true,
      decide_eq_true_eq] at hshown
    refine ⟨row, hrow, ?_⟩
    rw [modelReadable, Bool.or_eq_true, decide_eq_true_eq, GrantDb.hasAccess_iff]
    refine hshown.imp id fun hin => ?_
    exact (GrantDb.mem_getAccessibleResourceIds.1 hin).2

/-- **A model that a user is shown can be used if and only if every model that its `base_model_id` leads to
    has a row that the user owns or may read.** -/
theorem shownModelUsable (db : GrantDb) (rows : Dict Text ModelRow) (user : ModelUser) (hrole : user.role = .lit "user")
    (bypassAdmin : Bool) (models : List ModelEntry) (hmatch : InfosMatch rows models)
    (filtered : List ModelEntry) (hfiltered : getFilteredModels db bypassAdmin false user models = some filtered)
    {m : ModelEntry} (hm : m ∈ filtered) :
    checkModelAccess db rows user m ↔
      ∀ info, m.kind = .plain info → BaseModelsReadable db rows user.id m.id := by
  have hadmin : user.role ≠ .lit "admin" := by simp [hrole]
  simp only [getFilteredModels, hrole, true_or, Bool.not_false, and_self, if_true] at hfiltered
  obtain ⟨-, hshown⟩ := mem_filterShown hfiltered hm
  cases hkind : m.kind with
  | arena accessGrants =>
    simp only [modelShown, hkind] at hshown
    refine iff_of_true ?_ (by rintro _ ⟨⟩)
    simp only [checkModelAccess, hkind, decide_eq_true_eq]
    exact hshown
  | plain info =>
    have hread := canReadModel_of_shown hmatch hkind hadmin hshown
    rw [checkModelAccess_plain hkind hadmin]
    constructor
    · intro hall _ _ base hpath
      exact hall base hpath.to_reflTransGen
    · intro hbases c hpath
      rcases reflTransGen_iff_eq_or_transGen.1 hpath with rfl | hpath
      · exact hread
      · exact hbases info rfl c hpath

end

namespace Sample

/-- A preset that everyone may read, on a base model of its author, which nobody else may read. -/
def presetGrants : GrantDb := ⟨[⟨.lit "model", .lit "preset", .lit "user", .lit "*", .lit "read"⟩], [], [], .empty⟩

def presetRows : Dict Text ModelRow :=
  (Dict.empty.set (.lit "preset") ⟨.lit "author", some (.lit "base")⟩).set (.lit "base") ⟨.lit "author", none⟩

def presetModels : List ModelEntry := [⟨.lit "preset", .plain (some (some (.lit "author")))⟩]

def presetUser : ModelUser := ⟨.lit "u", .lit "user"⟩

theorem presetModels_match : InfosMatch presetRows presetModels := by
  intro m hm userId hkind
  obtain rfl := List.mem_singleton.1 hm
  cases hkind
  exact ⟨_, rfl, rfl⟩

end Sample

/-- The preset is shown, and `check_model_access` raises. -/
theorem shownModelUsable_fails : InfosMatch Sample.presetRows Sample.presetModels ∧
    Sample.presetUser.role = .lit "user" ∧ ∃ filtered, getFilteredModels Sample.presetGrants true false Sample.presetUser
      Sample.presetModels = some filtered ∧ ∃ m ∈ filtered,
        checkModelAccess Sample.presetGrants Sample.presetRows Sample.presetUser m = false :=
  ⟨Sample.presetModels_match, rfl, Sample.presetModels, rfl, _, List.mem_singleton_self _, by decide +kernel⟩

/-- With a grant on the base model too, it can be used. -/
theorem shownModelUsable_preset : ∃ db, ∃ m ∈ Sample.presetModels,
    checkModelAccess db Sample.presetRows Sample.presetUser m ∧ BaseModelsReadable db Sample.presetRows (.lit "u") m.id := by
  let db : GrantDb := { Sample.presetGrants with
    grants := ⟨.lit "model", .lit "base", .lit "user", .lit "u", .lit "read"⟩ :: Sample.presetGrants.grants }
  have hm : (⟨.lit "preset", .plain (some (some (.lit "author")))⟩ : ModelEntry) ∈ Sample.presetModels :=
    List.mem_singleton_self _
  have husable := shownModelUsable db Sample.presetRows Sample.presetUser rfl true Sample.presetModels
    Sample.presetModels_match Sample.presetModels (by rfl) hm
  have hcheck : checkModelAccess db Sample.presetRows Sample.presetUser
      ⟨.lit "preset", .plain (some (some (.lit "author")))⟩ := by decide +kernel
  exact ⟨db, _, hm, hcheck, husable.1 hcheck _ rfl⟩

end TideBot
