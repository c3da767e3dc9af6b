/-
  The trees of folders, over any sequence of requests.

  A folder belongs to the owner of its parent, and siblings have different names.  Each handler does part
  of what that takes.  `create_folder` compares the name with the folders of the user who asks,
  and creates the folder for the owner of the parent; `update_folder_parent_id_by_id` does not ask whose
  the new parent is; the repair of `get_folders` puts folders back to the root, whatever is there.  And names
  are compared under the `lower` of the database, which need not know every letter: that of SQLite
  knows those of ASCII.  Which names are equal up to case is said by another function, `fold`.
  `TreeFits` says when none of this does harm.
-/
import TideBot.Folders.Moves

namespace TideBot

open Lib Relation

/-! ## Requests -/

inductive FolderRequest where
  | create (user : VerifiedUser) (newId name : Text) (parentId : Option Text) (filesError : Option FolderError)
  | updateName (user : VerifiedUser) (id : Text) (name : Option (Option Text)) (filesError : Option FolderError)
  | updateParent (user : VerifiedUser) (id : Text) (parentId : Option Text)
  | list (user : VerifiedUser)

/-- A new id: no row has it, and no row or form names it. -/
def FreshFolderId (rows : Dict Text Folder) (newId : Text) (parentId : Option Text) : Prop :=
  newId ≠ [] ∧ rows.get newId = none ∧ parentId ≠ some newId ∧ ∀ e ∈ rows.entries, e.2.parentId ≠ some newId

instance (rows : Dict Text Folder) (newId : Text) (parentId : Option Text) :
    Decidable (FreshFolderId rows newId parentId) := inferInstanceAs (Decidable (_ ∧ _ ∧ _ ∧ _))

/-- The requests, each with the grants as they are when it is made. -/
def folderMachine (lower : Text → Text) : Machine (Dict Text Folder) (GrantDb × FolderRequest) (Option FolderError) where
  step rows
    | (db, .create user newId name parentId filesError) =>
      if FreshFolderId rows newId parentId then some (createFolder lower rows db user newId name parentId filesError)
      else none
    | (db, .updateName user id name filesError) => some (updateFolderNameById lower rows db user id name filesError)
    | (_, .updateParent user id parentId) => some (updateFolderParentIdById lower rows user id parentId)
    | (_, .list user) => some (getFolders rows user)

/-! ## Trees -/

/-- The folders have names that are equal up to case. -/
def SameName (fold : Text → Text) (f f' : Folder) : Prop := ∃ n ∈ f.name, ∃ n' ∈ f'.name, fold n = fold n'

instance (fold : Text → Text) (f f' : Folder) : Decidable (SameName fold f f') :=
  decidable_of_iff (f.name.any fun n => f'.name.any fun n' => fold n = fold n') (by
    simp [SameName, Option.any_eq_true])

/-- **Trees do not cross owners, and siblings have different names.** -/
structure FolderTrees (fold : Text → Text) (rows : Dict Text Folder) : Prop where
  owners : ∀ id f p g, rows.get id = some f → f.parentId = some p → rows.get p = some g → f.userId = g.userId
  names : ∀ id id' f f', rows.get id = some f → rows.get id' = some f' → id ≠ id' → f.userId = f'.userId →
    f.parentId = f'.parentId → ¬ SameName fold f f'

/-! ## When the trees are kept -/

/-- The folder's parent is not among the folders of the user. -/
def isOrphan (rows : Dict Text Folder) (userId : Text) (f : Folder) : Bool :=
  f.parentId.any fun p => p ≠ [] && !(rows.get p).any fun g => g.userId = userId

/-- Does `create_folder` come to its insert? -/
def createAllowed (lower : Text → Text) (rows : Dict Text Folder) (db : GrantDb) (user : VerifiedUser) (name : Text)
    (parentId : Option Text) (filesError : Option FolderError) : Bool :=
  (getFolderByParentIdAndUserIdAndName lower rows parentId user.id name).isNone && filesError.isNone &&
    (sharedParent rows user parentId).all fun e => user.isAdmin || hasFolderAccess rows db user.id e.1 (.lit "write")

/-- Under `lower`, a folder's name is that of every sibling with which it is equal up to case. -/
def LowerFinds (lower fold : Text → Text) (rows : Dict Text Folder) (id userId : Text) (parentId : Option Text)
    (name : Text) : Prop :=
  ∀ e ∈ rows.entries, e.1 ≠ id → e.2.userId = userId → e.2.parentId = parentId → ∀ n ∈ e.2.name,
    fold n = fold name → lower n = lower name

instance (lower fold : Text → Text) (rows : Dict Text Folder) (id userId : Text) (parentId : Option Text) (name : Text) :
    Decidable (LowerFinds lower fold rows id userId parentId name) := inferInstanceAs (Decidable (∀ _ ∈ _, _))

/-- Whose a new folder will be. -/
def newOwner (rows : Dict Text Folder) (user : VerifiedUser) (parentId : Option Text) : Text :=
  (sharedParent rows user parentId).elim user.id fun e => e.2.userId

/-- **The condition on a request**: a folder that is created in a folder of another user has a name that is
    free there, and that folder has a name; a folder is moved to a folder of the user, if it is there; a
    folder that is put back to the root has a name that no other has that is there, or put there; and
    the search for a name finds it in any case. -/
def TreeFits (lower fold : Text → Text) (rows : Dict Text Folder) : GrantDb × FolderRequest → Prop
  | (db, .create user newId name parentId filesError) =>
    createAllowed lower rows db user name parentId filesError →
      (∀ p ∈ parentId, ∀ g ∈ rows.get p, g.userId ≠ user.id → sharedParent rows user parentId = some (p, g) ∧
        getFolderByParentIdAndUserIdAndName lower rows parentId g.userId name = none) ∧
      LowerFinds lower fold rows newId (newOwner rows user parentId) parentId name
  | (db, .updateName user id name filesError) => ∀ f ∈ folderToUpdate rows db user id, ∀ n ∈ name.join,
      filesError = none → (∀ e ∈ getFolderByParentIdAndUserIdAndName lower rows f.parentId f.userId n, e.1 = id) →
        LowerFinds lower fold rows id f.userId f.parentId n
  | (_, .updateParent user id parentId) => ∀ f ∈ getFolderByIdAndUserId rows id user.id,
      getFolderByParentIdAndUserIdAndName lower rows parentId user.id (f.name.getD []) = none →
        (∀ p ∈ parentId, ∀ g ∈ rows.get p, g.userId = user.id) ∧
          LowerFinds lower fold rows id user.id parentId (f.name.getD [])
  | (_, .list user) => ∀ e ∈ foldersOf rows user.id, ∀ e' ∈ foldersOf rows user.id, e.1 ≠ e'.1 →
      isOrphan rows user.id e.2 → (isOrphan rows user.id e'.2 ∨ e'.2.parentId = none) → ¬ SameName fold e.2 e'.2

instance (lower fold : Text → Text) (rows : Dict Text Folder) :
    (i : GrantDb × FolderRequest) → Decidable (TreeFits lower fold rows i)
  | (_, .create ..) => inferInstanceAs (Decidable (_ → (∀ _ ∈ _, ∀ _ ∈ _, _ → _) ∧ _))
  | (_, .updateName ..) => inferInstanceAs (Decidable (∀ _ ∈ _, ∀ _ ∈ _, _ → _ → _))
  | (_, .updateParent ..) => inferInstanceAs (Decidable (∀ _ ∈ _, _ → (∀ _ ∈ _, ∀ _ ∈ _, _) ∧ _))
  | (_, .list _) => inferInstanceAs (Decidable (∀ _ ∈ _, ∀ _ ∈ _, _ → _ → _ → _))

section
variable {lower fold : Text → Text} {rows rows' : Dict Text Folder} {db : GrantDb} {user : VerifiedUser}
variable {id userId name newId p : Text} {parentId : Option Text} {f g : Folder} {filesError o : Option FolderError}

theorem name_free_iff : getFolderByParentIdAndUserIdAndName lower rows parentId userId name = none ↔
    ∀ id f, rows.get id = some f → f.parentId = parentId → f.userId = userId → ∀ n ∈ f.name, lower n ≠ lower name := by
  simp only [getFolderByParentIdAndUserIdAndName, List.find?_eq_none, Bool.and_eq_true, decide_eq_true_eq, not_and,
    Option.any_eq_true, not_exists, and_imp]
  constructor
  · intro h id f hf hparent huser n hn heq
    exact h (id, f) (Dict.mem_entries_iff.2 hf) hparent huser n hn heq
  · intro h e he hparent huser n hn heq
    exact h e.1 e.2 (Dict.mem_entries_iff.1 he) hparent huser n hn heq

theorem LowerFinds.free (h : LowerFinds lower fold rows id userId parentId name)
    (hname : getFolderByParentIdAndUserIdAndName lower rows parentId userId name = none) :
    ∀ id' g, rows.get id' = some g → id' ≠ id → g.userId = userId → g.parentId = parentId → ∀ n ∈ g.name,
      fold n ≠ fold name :=
  fun id' g hg hne huser hparent n hn heq => name_free_iff.1 hname id' g hg hparent huser n hn
    (h (id', g) (Dict.mem_entries_iff.2 hg) hne huser hparent n hn heq)

theorem getFolderByIdAndUserId_eq_some : getFolderByIdAndUserId rows id userId = some f ↔
    rows.get id = some f ∧ f.userId = userId ∧ f.valid := by
  simp [getFolderByIdAndUserId, Option.filter_eq_some_iff]

theorem getFolderById_eq_some : getFolderById rows id = some f ↔ rows.get id = some f ∧ f.valid := by
  simp [getFolderById, Option.filter_eq_some_iff]

/-! ## A new folder -/

namespace FolderTrees

/-- **A folder with the owner of its parent, and a name that is free.** -/
theorem insert (h : FolderTrees fold rows) (hfresh : FreshFolderId rows newId parentId)
    (howner : ∀ p ∈ parentId, ∀ g ∈ rows.get p, userId = g.userId)
    (hfree : ∀ id g, rows.get id = some g → id ≠ newId → g.userId = userId → g.parentId = parentId → ∀ n ∈ g.name,
      fold n ≠ fold name) :
    FolderTrees fold (rows.set newId ⟨userId, parentId, some name⟩) := by
  obtain ⟨-, hnew, hself, hparents⟩ := hfresh
  have hnone : ∀ id f, rows.get id = some f → f.parentId ≠ some newId :=
    fun id f hf => hparents (id, f) (Dict.mem_entries_iff.2 hf)
  constructor
  · intro id f p g hf hp hg
    rw [Dict.get_set] at hf hg
    split_ifs at hf with hid
    · cases hf
      rw [if_neg] at hg
      · exact howner p hp g hg
      · rintro rfl
        exact hself hp
    · rw [if_neg] at hg
      · exact h.owners id f p g hf hp hg
      · rintro rfl
        exact hnone id f hf hp
  · rintro id id' f f' hf hf' hne huser hparent ⟨n, hn, n', hn', heq⟩
    rw [Dict.get_set] at hf hf'
    split_ifs at hf with hid <;> split_ifs at hf' with hid'
    · exact hne (hid.trans hid'.symm)
    · cases hf
      cases hn
      exact hfree id' f' hf' hid' huser.symm hparent.symm n' hn' heq.symm
    · cases hf'
      cases hn'
      exact hfree id f hf hid huser hparent n hn heq
    · exact h.names id id' f f' hf hf' hne huser hparent ⟨n, hn, n', hn', heq⟩

end FolderTrees

theorem FoldersForest.insert (h : FoldersForest rows) (hfresh : FreshFolderId rows newId parentId) :
    FoldersForest (rows.set newId ⟨userId, parentId, some name⟩) := by
  obtain ⟨-, -, hself, hparents⟩ := hfresh
  intro userId'
  refine (h userId').add_leaf (k := newId) fun a b hup => ?_
  obtain ⟨f, hf, huser, hparent⟩ := up_folderForest.1 hup
  rw [Dict.get_set] at hf
  split_ifs at hf with ha
  · cases hf
    refine ⟨?_, .inl ha⟩
    rintro rfl
    exact hself hparent
  · refine ⟨?_, .inr (up_folderForest.2 ⟨f, hf, huser, hparent⟩)⟩
    rintro rfl
    exact hparents (a, f) (Dict.mem_entries_iff.2 hf) hparent

/-! ## Another name, another parent -/

theorem FoldersForest.of_same (h : FoldersForest rows) (hsame : ∀ id f', rows'.get id = some f' →
    ∃ f, rows.get id = some f ∧ f'.userId = f.userId ∧ (f'.parentId = none ∨ f'.parentId = f.parentId)) :
    FoldersForest rows' := by
  intro userId
  refine (h userId).of_ancestors fun c p hup => .single ?_
  obtain ⟨f', hf', huser, hparent⟩ := up_folderForest.1 hup
  obtain ⟨f, hf, huser', hnone | hparent'⟩ := hsame c f' hf'
  · rw [hnone] at hparent
    cases hparent
  · exact up_folderForest.2 ⟨f, hf, huser'.symm.trans huser, hparent'.symm.trans hparent⟩

/-- **A folder that is changed, and fits under its parent.** -/
theorem FolderTrees.change {f' : Folder} (h : FolderTrees fold rows) (hf : rows.get id = some f)
    (huser : f'.userId = f.userId) (howner : ∀ p ∈ f'.parentId, ∀ g ∈ rows.get p, g.userId = f.userId)
    (hfree : ∀ id' g, rows.get id' = some g → id' ≠ id → g.userId = f.userId → g.parentId = f'.parentId →
      ¬ SameName fold g f') : FolderTrees fold (rows.set id f') := by
  have hget : ∀ c g, (rows.set id f').get c = some g → (c = id ∧ g = f') ∨ (c ≠ id ∧ rows.get c = some g) := by
    intro c g hc
    rw [Dict.get_set] at hc
    split_ifs at hc with heq
    · cases hc
      exact .inl ⟨heq, rfl⟩
    · exact .inr ⟨heq, hc⟩
  constructor
  · intro c f₁ p g hf₁ hp hg
    have hold : ∃ g₀, rows.get p = some g₀ ∧ g₀.userId = g.userId := by
      rcases hget p g hg with ⟨rfl, rfl⟩ | ⟨-, hg⟩
      · exact ⟨f, hf, huser.symm⟩
      · exact ⟨g, hg, rfl⟩
    obtain ⟨g₀, hg₀, huser'⟩ := hold
    rw [← huser']
    rcases hget c f₁ hf₁ with ⟨-, rfl⟩ | ⟨-, hf₁⟩
    · rw [huser, howner p hp g₀ hg₀]
    · exact h.owners c f₁ p g₀ hf₁ hp hg₀
  · intro c c' f₁ f₂ hf₁ hf₂ hne hsame hparent hname
    rcases hget c f₁ hf₁ with ⟨hc, heq₁⟩ | ⟨hc, hold₁⟩ <;> rcases hget c' f₂ hf₂ with ⟨hc', heq₂⟩ | ⟨hc', hold₂⟩
    · exact hne (hc.trans hc'.symm)
    · rw [heq₁] at hsame hparent hname
      obtain ⟨n, hn, n', hn', heq⟩ := hname
      exact hfree c' f₂ hold₂ hc' (hsame.symm.trans huser) hparent.symm ⟨n', hn', n, hn, heq.symm⟩
    · rw [heq₂] at hsame hparent hname
      exact hfree c f₁ hold₁ hc (hsame.trans huser) hparent hname
    · exact h.names c c' f₁ f₂ hold₁ hold₂ hne hsame hparent hname

theorem FolderTrees.updateName (h : FolderTrees fold rows) (hf : rows.get id = some f) {newName : Option (Option Text)}
    (hfree : ∀ n, newName = some (some n) → ∀ id' g, rows.get id' = some g → id' ≠ id → g.userId = f.userId →
      g.parentId = f.parentId → ∀ n' ∈ g.name, fold n' ≠ fold n) :
    FolderTrees fold (updateFolderById rows id f.userId newName).1 := by
  simp only [updateFolderById, hf]
  split_ifs with huser hother
  · exact h
  · exact h
  · refine h.change hf rfl (fun p hp g hg => (h.owners id f p g hf hp hg).symm) fun id' g hg hne huser hparent => ?_
    rintro ⟨n', hn', n, hn, heq⟩
    rcases newName with - | - | m
    · exact h.names id' id g f hg hf hne huser hparent ⟨n', hn', n, hn, heq⟩
    · cases hn
    · cases hn
      exact hfree n rfl id' g hg hne huser hparent n' hn' heq

/-- `update_folder_parent_id_by_id_and_user_id`, to a folder of the owner under which the name is free -/
theorem FolderTrees.updateParent (h : FolderTrees fold rows) (hf : rows.get id = some f) (huser : f.userId = userId)
    (howner : ∀ p ∈ parentId, ∀ g ∈ rows.get p, g.userId = userId)
    (hfree : ∀ id' g, rows.get id' = some g → id' ≠ id → g.userId = userId → g.parentId = parentId → ∀ n ∈ g.name,
      fold n ≠ fold (f.name.getD [])) :
    FolderTrees fold (updateFolderParentId rows id userId parentId) := by
  simp only [updateFolderParentId, hf, if_pos huser]
  refine h.change hf rfl (huser ▸ howner) fun id' g hg hne huser' hparent => ?_
  rintro ⟨n', hn', n, hn, heq⟩
  have hname : f.name.getD [] = n := by
    rw [show f.name = some n from hn]
    rfl
  exact hfree id' g hg hne (huser'.trans huser) hparent n' hn' (hname ▸ heq)

/-! ## The repair -/

/-- The parents that `get_folders` goes by: those of the folders of the user, or none. -/
structure ParentsOf (rows : Dict Text Folder) (userId : Text) (parentById : Dict Text (Option Text)) : Prop where
  keys : ∀ k, (parentById.get k).isSome ↔ (rows.get k).any fun f => f.userId = userId
  parents : ∀ k p, parentById.get k = some (some p) → (folderForest rows userId).Up k p

variable {parentById : Dict Text (Option Text)}

theorem parentCycleEnd_reached {n : ℕ} {seenIds : List Text} {c : Text} (h : ParentsOf rows userId parentById)
    (hend : parentCycleEnd parentById n seenIds (some p) = some c) : ReflTransGen (folderForest rows userId).Up p c := by
  induction n generalizing p seenIds with
  | zero =>
    cases hend
    exact .refl
  | succ n ih =>
    rw [parentCycleEnd] at hend
    split_ifs at hend
    · cases hend
      exact .refl
    · cases hup : (parentById.get p).join with
      | none =>
        rw [hup] at hend
        cases n <;> cases hend
      | some a =>
        rw [hup] at hend
        exact .head (h.parents p a (Option.join_eq_some_iff.1 hup)) (ih hend)

/-- **In a forest no folder is in a circle.** -/
theorem isInParentCycle_eq_false (h : ParentsOf rows userId parentById) (hforest : FoldersForest rows) (c : Text) :
    isInParentCycle parentById c = false := by
  rw [isInParentCycle, decide_eq_false_iff_not]
  intro hend
  cases hup : (parentById.get c).join with
  | none =>
    rw [hup] at hend
    cases hend
  | some p =>
    rw [hup] at hend
    exact hforest userId c (.head' (h.parents c p (Option.join_eq_some_iff.1 hup)) (parentCycleEnd_reached h hend))

/-- **One round of the loop puts the folder back to the root if its parent is not there.** -/
theorem repairFolder_eq (h : ParentsOf rows userId parentById) (hforest : FoldersForest rows) {e : Text × Folder} :
    repairFolder userId (parentById, rows') e = if isOrphan rows userId e.2 then
      (parentById.set e.1 none, updateFolderParentId rows' e.1 userId none) else (parentById, rows') := by
  unfold repairFolder isOrphan
  rcases e.2.parentId with - | - | ⟨a, p⟩
  · rfl
  · rfl
  · have hkeys := h.keys (a :: p)
    simp only [isInParentCycle_eq_false h hforest, Bool.or_false, Option.any_some]
    cases hget : parentById.get (a :: p) <;> rw [hget] at hkeys <;> simp_all

theorem ParentsOf.set_none (h : ParentsOf rows userId parentById) {e : Text × Folder} (he : e ∈ foldersOf rows userId) :
    ParentsOf rows userId (parentById.set e.1 none) := by
  obtain ⟨he, huser⟩ := List.mem_filter.1 he
  constructor
  · intro k
    rw [Dict.get_set]
    split_ifs with hk
    · rw [hk, Dict.mem_entries_iff.1 he]
      simpa using huser
    · exact h.keys k
  · intro k p hp
    rw [Dict.get_set] at hp
    split_ifs at hp
    · cases hp
    · exact h.parents k p hp

/-- What the loop makes of a row. -/
def repairedRow (rows : Dict Text Folder) (userId : Text) (f : Folder) : Folder :=
  if f.userId = userId ∧ isOrphan rows userId f then { f with parentId := none } else f

/-- **The loop makes it of every row.** -/
theorem get_repair (h : ParentsOf rows userId parentById) (hforest : FoldersForest rows) {es : List (Text × Folder)}
    (hes : ∀ e ∈ es, e ∈ foldersOf rows userId) (c : Text) :
    ((es.foldl (repairFolder userId) (parentById, rows')).2).get c = (rows'.get c).map fun f =>
      if f.userId = userId ∧ ∃ e ∈ es, e.1 = c ∧ isOrphan rows userId e.2 then { f with parentId := none } else f := by
  induction es generalizing parentById rows' with
  | nil => simp
  | cons e es ih =>
    have hrest : ∀ e ∈ es, e ∈ foldersOf rows userId := fun e he => hes e (List.mem_cons_of_mem _ he)
    have hmem : (∃ e' ∈ e :: es, e'.1 = c ∧ isOrphan rows userId e'.2) ↔
        (e.1 = c ∧ isOrphan rows userId e.2) ∨ ∃ e' ∈ es, e'.1 = c ∧ isOrphan rows userId e'.2 :=
      List.exists_mem_cons_iff ..
    rw [List.foldl_cons, repairFolder_eq h hforest]
    split_ifs with horphan
    · rw [ih (h.set_none (hes e List.mem_cons_self)) hrest, get_updateFolderParentId, Option.map_map]
      congr 1
      funext f
      by_cases hc : e.1 = c
      · by_cases huser : f.userId = userId
        · rw [if_pos (⟨huser, hmem.2 (.inl ⟨hc, horphan⟩)⟩ : _ ∧ _)]
          simp [huser, hc]
        · simp [huser]
      · have hrow : (if c = e.1 ∧ f.userId = userId then { f with parentId := none } else f) = f :=
          if_neg fun h => hc h.1.symm
        rw [Function.comp_apply, hrow]
        exact if_congr (and_congr_right' (by rw [hmem, or_iff_right fun h => hc h.1])) rfl rfl
    · rw [ih h hrest]
      congr 1
      funext f
      exact if_congr (and_congr_right' (by rw [hmem, or_iff_right fun h => horphan h.2])) rfl rfl

theorem mem_foldersOf {e : Text × Folder} : e ∈ foldersOf rows userId ↔ rows.get e.1 = some e.2 ∧ e.2.userId = userId := by
  rw [foldersOf, List.mem_filter, ← Dict.mem_entries_iff, decide_eq_true_iff]

theorem parentsOf_start : ParentsOf rows userId (parentByIdOf rows userId) := by
  have hget : ∀ k, (parentByIdOf rows userId).get k =
      ((rows.filter fun e => e.2.userId = userId).get k).map Folder.parentId :=
    fun k => Dict.get_foldl_map (fun _ (f : Folder) => f.parentId) (d := rows.filter fun e => e.2.userId = userId) (k := k)
  have hin : ∀ k f, (rows.filter fun e => e.2.userId = userId).get k = some f ↔ rows.get k = some f ∧ f.userId = userId := by
    intro k f
    rw [Dict.get_filter, decide_eq_true_iff]
  constructor
  · intro k
    rw [hget, Option.isSome_map, Option.isSome_iff_exists, Option.any_eq_true]
    simp only [hin, decide_eq_true_eq]
  · intro k p hp
    rw [hget] at hp
    obtain ⟨f, hf, hparent⟩ := Option.map_eq_some_iff.1 hp
    obtain ⟨hf, huser⟩ := (hin k f).1 hf
    exact up_folderForest.2 ⟨f, hf, huser, hparent⟩

/-- **What `get_folders` makes of the rows.** -/
theorem get_getFolders (user : VerifiedUser) (hforest : FoldersForest rows)
    (hvalid : (foldersOf rows user.id).all fun e => e.2.valid) (c : Text) : (getFolders rows user).1.get c = (rows.get c).map (repairedRow rows user.id) := by
  simp only [getFolders, hvalid, if_true]
  rw [get_repair parentsOf_start hforest fun _ => id]
  cases hc : rows.get c with
  | none => rfl
  | some f =>
    have hmem : (∃ e ∈ foldersOf rows user.id, e.1 = c ∧ isOrphan rows user.id e.2) ↔
        f.userId = user.id ∧ isOrphan rows user.id f := by
      constructor
      · rintro ⟨e, he, rfl, horphan⟩
        obtain ⟨hget, huser⟩ := mem_foldersOf.1 he
        obtain rfl := Option.some.inj (hget.symm.trans hc)
        exact ⟨huser, horphan⟩
      · rintro ⟨huser, horphan⟩
        exact ⟨(c, f), mem_foldersOf.2 ⟨hc, huser⟩, rfl, horphan⟩
    simp only [Option.map_some, repairedRow, hmem]
    congr 1
    exact if_congr (by tauto) rfl rfl

theorem userId_repairedRow : (repairedRow rows userId f).userId = f.userId := by
  unfold repairedRow
  split_ifs <;> rfl

theorem name_repairedRow : (repairedRow rows userId f).name = f.name := by
  unfold repairedRow
  split_ifs <;> rfl

theorem repairedRow_cases (rows : Dict Text Folder) (userId : Text) (f : Folder) :
    (f.userId = userId ∧ isOrphan rows userId f ∧ (repairedRow rows userId f).parentId = none) ∨
      repairedRow rows userId f = f := by
  unfold repairedRow
  split_ifs with h
  · exact .inl ⟨h.1, h.2, rfl⟩
  · exact .inr rfl

theorem SameName.symm (h : SameName fold f g) : SameName fold g f := by
  obtain ⟨n, hn, n', hn', heq⟩ := h
  exact ⟨n', hn', n, hn, heq.symm⟩

theorem sameName_repairedRow :
    SameName fold (repairedRow rows userId f) (repairedRow rows userId g) ↔ SameName fold f g := by
  simp only [SameName, name_repairedRow]

/-- **The repair keeps the trees, if it brings no two folders of a name together.** -/
theorem FolderTrees.getFolders (h : FolderTrees fold rows) (hforest : FoldersForest rows)
    (hfits : TreeFits lower fold rows (db, .list user)) : FolderTrees fold (TideBot.getFolders rows user).1 := by
  by_cases hvalid : (foldersOf rows user.id).all fun e => e.2.valid
  · have hget := get_getFolders user hforest hvalid
    have hrow : ∀ c f', (TideBot.getFolders rows user).1.get c = some f' →
        ∃ f, rows.get c = some f ∧ repairedRow rows user.id f = f' := by
      intro c f' hf'
      rw [hget] at hf'
      exact Option.map_eq_some_iff.1 hf'
    constructor
    · intro c f' p g' hf' hp hg'
      obtain ⟨f, hf, rfl⟩ := hrow c f' hf'
      obtain ⟨g, hg, rfl⟩ := hrow p g' hg'
      rw [userId_repairedRow, userId_repairedRow]
      rcases repairedRow_cases rows user.id f with ⟨-, -, hnone⟩ | hsame
      · rw [hnone] at hp
        cases hp
      · exact h.owners c f p g hf (hsame ▸ hp) hg
    · intro c c' f₁' f₂' hf₁' hf₂' hne huser hparent
      obtain ⟨f₁, hf₁, rfl⟩ := hrow c f₁' hf₁'
      obtain ⟨f₂, hf₂, rfl⟩ := hrow c' f₂' hf₂'
      rw [userId_repairedRow, userId_repairedRow] at huser
      rw [sameName_repairedRow]
      -- a row that is put back to the root may meet one that is there, or is put there too
      rcases repairedRow_cases rows user.id f₁ with ⟨hown, horphan, hnone⟩ | hsame₁
      · refine hfits (c, f₁) (mem_foldersOf.2 ⟨hf₁, hown⟩) (c', f₂) (mem_foldersOf.2 ⟨hf₂, huser.symm.trans hown⟩) hne
          horphan ?_
        rcases repairedRow_cases rows user.id f₂ with ⟨-, horphan', -⟩ | hsame₂
        · exact .inl horphan'
        · exact .inr (hsame₂ ▸ hparent.symm.trans hnone)
      · rcases repairedRow_cases rows user.id f₂ with ⟨hown, horphan, hnone⟩ | hsame₂
        · intro hname
          exact hfits (c', f₂) (mem_foldersOf.2 ⟨hf₂, hown⟩) (c, f₁) (mem_foldersOf.2 ⟨hf₁, huser.trans hown⟩) hne.symm
            horphan (.inr (hsame₁ ▸ hparent.trans hnone)) hname.symm
        · rw [hsame₁, hsame₂] at hparent
          exact h.names c c' f₁ f₂ hf₁ hf₂ hne huser hparent
  · have hsame : (TideBot.getFolders rows user).1 = rows := by
      simp only [TideBot.getFolders, if_neg hvalid]
    rw [hsame]
    exact h

theorem FoldersForest.getFolders (h : FoldersForest rows) (user : VerifiedUser) :
    FoldersForest (TideBot.getFolders rows user).1 := by
  by_cases hvalid : (foldersOf rows user.id).all fun e => e.2.valid
  · refine h.of_same fun c f' hf' => ?_
    rw [get_getFolders user h hvalid] at hf'
    obtain ⟨f, hf, rfl⟩ := Option.map_eq_some_iff.1 hf'
    refine ⟨f, hf, userId_repairedRow, ?_⟩
    rcases repairedRow_cases rows user.id f with ⟨-, -, hnone⟩ | hsame
    · exact .inl hnone
    · exact .inr (congrArg Folder.parentId hsame)
  · have hsame : (TideBot.getFolders rows user).1 = rows := by
      simp only [TideBot.getFolders, if_neg hvalid]
    rw [hsame]
    exact h

/-! ## Requests and runs -/

/-- The invariant: the trees, without circles, and no folder with the empty id. -/
structure FoldersOk (fold : Text → Text) (rows : Dict Text Folder) : Prop where
  trees : FolderTrees fold rows
  forest : FoldersForest rows
  ids : rows.get [] = none

namespace FoldersOk

theorem sharedParent_eq_some {e : Text × Folder} (h : sharedParent rows user parentId = some e) :
    parentId = some e.1 ∧ rows.get e.1 = some e.2 ∧ e.2.userId ≠ user.id := by
  obtain ⟨p, hp, h⟩ := Option.bind_eq_some_iff.1 h
  obtain ⟨-, h⟩ := Option.ite_none_left_eq_some.1 h
  obtain ⟨f, hf, rfl⟩ := Option.map_eq_some_iff.1 h
  obtain ⟨hf, hne⟩ := Option.filter_eq_some_iff.1 hf
  exact ⟨hp, (getFolderById_eq_some.1 hf).1, by simpa using hne⟩

theorem insert (h : FoldersOk fold rows) (hfresh : FreshFolderId rows newId parentId)
    (howner : ∀ p ∈ parentId, ∀ g ∈ rows.get p, userId = g.userId)
    (hfinds : LowerFinds lower fold rows newId userId parentId name)
    (hname : getFolderByParentIdAndUserIdAndName lower rows parentId userId name = none) :
    FoldersOk fold (rows.set newId ⟨userId, parentId, some name⟩) :=
  ⟨h.trees.insert hfresh howner (hfinds.free hname), h.forest.insert hfresh, by rw [Dict.get_set, if_neg hfresh.1.symm, h.ids]⟩

theorem create (h : FoldersOk fold rows) (hfresh : FreshFolderId rows newId parentId)
    (hfits : TreeFits lower fold rows (db, .create user newId name parentId filesError)) :
    FoldersOk fold (createFolder lower rows db user newId name parentId filesError).1 := by
  simp only [TreeFits, createAllowed, Bool.and_eq_true, Option.isNone_iff_eq_none] at hfits
  rw [createFolder]
  by_cases hexists : (getFolderByParentIdAndUserIdAndName lower rows parentId user.id name).isSome
  · rw [if_pos hexists]
    exact h
  rw [if_neg hexists]
  rw [Option.not_isSome_iff_eq_none] at hexists
  by_cases hfiles : filesError.isSome
  · simp only [hfiles, if_true]
    split
    · split_ifs <;> exact h
    · exact h
  rw [Option.not_isSome_iff_eq_none] at hfiles
  cases hshared : sharedParent rows user parentId with
  | some e =>
    obtain ⟨rfl, hg, hne⟩ := sharedParent_eq_some hshared
    by_cases hprohibited : !user.isAdmin && !hasFolderAccess rows db user.id e.1 (.lit "write")
    · simp only [hprohibited, if_true]
      exact h
    · have hall : (sharedParent rows user (some e.1)).all fun e =>
          user.isAdmin || hasFolderAccess rows db user.id e.1 (.lit "write") := by
        rw [hshared]
        simpa [or_iff_not_imp_left] using hprohibited
      obtain ⟨hothers, hfinds⟩ := hfits ⟨⟨hexists, hfiles⟩, hall⟩
      obtain ⟨-, hfree⟩ := hothers e.1 rfl e.2 hg hne
      rw [newOwner, hshared, Option.elim_some] at hfinds
      simp only [hprohibited, hfiles]
      refine h.insert hfresh (fun p hp g hg' => ?_) hfinds hfree
      cases hp
      exact congrArg Folder.userId (Option.some.inj (hg.symm.trans hg'))
  | none =>
    simp only [hfiles]
    have hall : (sharedParent rows user parentId).all fun e =>
        user.isAdmin || hasFolderAccess rows db user.id e.1 (.lit "write") := by
      rw [hshared]
      rfl
    obtain ⟨hothers, hfinds⟩ := hfits ⟨⟨hexists, hfiles⟩, hall⟩
    rw [newOwner, hshared, Option.elim_none] at hfinds
    refine h.insert hfresh (fun p hp g hg => ?_) hfinds hexists
    by_contra hne
    obtain ⟨hsome, -⟩ := hothers p hp g hg (Ne.symm hne)
    rw [hshared] at hsome
    cases hsome

theorem folderToUpdate_eq_some (h : folderToUpdate rows db user id = some f) : rows.get id = some f := by
  rcases Option.or_eq_some_iff.1 h with h | ⟨-, h⟩
  · exact (getFolderByIdAndUserId_eq_some.1 h).1
  · exact (getFolderById_eq_some.1 (Option.filter_eq_some_iff.1 h).1).1

theorem name_found {e : Text × Folder} (h : getFolderByParentIdAndUserIdAndName lower rows parentId userId name = some e) :
    rows.get e.1 = some e.2 ∧ ∃ n ∈ e.2.name, lower n = lower name := by
  have hmem := List.mem_of_find?_eq_some h
  have hp := List.find?_some h
  simp only [Bool.and_eq_true, decide_eq_true_eq, Option.any_eq_true] at hp
  exact ⟨Dict.mem_entries_iff.1 hmem, hp.2⟩

theorem get_updateFolderById {newName : Option (Option Text)} {c : Text} (h : rows.get c = none) :
    (updateFolderById rows id userId newName).1.get c = none := by
  unfold updateFolderById
  cases hf : rows.get id with
  | none => exact h
  | some f =>
    dsimp only
    split_ifs
    · exact h
    · exact h
    · rw [Dict.get_set, if_neg, h]
      rintro rfl
      rw [h] at hf
      cases hf

theorem forest_updateFolderById (h : FoldersForest rows) {newName : Option (Option Text)} :
    FoldersForest (updateFolderById rows id userId newName).1 := by
  unfold updateFolderById
  cases hf : rows.get id with
  | none => exact h
  | some f =>
    dsimp only
    split_ifs
    · exact h
    · exact h
    · refine h.of_same fun c f' hf' => ?_
      rw [Dict.get_set] at hf'
      split_ifs at hf' with hc
      · cases hf'
        exact ⟨f, hc ▸ hf, rfl, .inr rfl⟩
      · exact ⟨f', hf', rfl, .inr rfl⟩

theorem updateName (hlower : ∀ n n', lower n = lower n' → fold n = fold n') (h : FoldersOk fold rows)
    {newName : Option (Option Text)} (hfits : TreeFits lower fold rows (db, .updateName user id newName filesError)) :
    FoldersOk fold (updateFolderNameById lower rows db user id newName filesError).1 := by
  unfold updateFolderNameById
  cases hfolder : folderToUpdate rows db user id with
  | none => exact h
  | some f =>
    have hf := folderToUpdate_eq_some hfolder
    dsimp only
    by_cases hexists : newName.join.any fun n =>
        (getFolderByParentIdAndUserIdAndName lower rows f.parentId f.userId n).any fun e => e.1 ≠ id
    · rw [if_pos hexists]
      exact h
    rw [if_neg hexists]
    by_cases hfiles : filesError.isSome
    · rw [if_pos hfiles]
      exact h
    rw [if_neg hfiles]
    refine ⟨h.trees.updateName hf fun n hn id' g hg hne huser hparent n' hn' heq => ?_,
      forest_updateFolderById h.forest, get_updateFolderById h.ids⟩
    -- the search finds nothing, or the folder itself
    have hself : ∀ e ∈ getFolderByParentIdAndUserIdAndName lower rows f.parentId f.userId n, e.1 = id := by
      intro e he
      rw [Option.mem_def] at he
      simpa [hn, he] using hexists
    have hfinds := hfits f hfolder n (by rw [hn]; rfl) (Option.not_isSome_iff_eq_none.1 hfiles) hself
    cases hfind : getFolderByParentIdAndUserIdAndName lower rows f.parentId f.userId n with
    | none => exact hfinds.free hfind id' g hg hne huser hparent n' hn' heq
    | some e =>
      obtain ⟨hget, m, hm, heq'⟩ := name_found hfind
      rw [hself e hfind, hf] at hget
      obtain rfl := Option.some.inj hget
      exact h.trees.names id' id g _ hg hf hne huser hparent ⟨n', hn', m, hm, heq.trans (hlower m n heq').symm⟩

theorem moveError_eq_none (h : moveError lower rows user id parentId = none) :
    ∃ f, getFolderByIdAndUserId rows id user.id = some f ∧
      getFolderByParentIdAndUserIdAndName lower rows parentId user.id (f.name.getD []) = none ∧
        ∀ p ∈ parentId, p ≠ [] → p ∉ subtreeIds rows user.id id := by
  unfold moveError at h
  cases hfolder : getFolderByIdAndUserId rows id user.id with
  | none =>
    rw [hfolder] at h
    cases h
  | some f =>
    rw [hfolder] at h
    dsimp only at h
    by_cases hexists : (getFolderByParentIdAndUserIdAndName lower rows parentId user.id (f.name.getD [])).isSome
    · rw [if_pos hexists] at h
      cases h
    · rw [if_neg hexists] at h
      refine ⟨f, rfl, Option.not_isSome_iff_eq_none.1 hexists, ?_⟩
      rintro p hp hne hin
      obtain rfl : parentId = some p := hp
      obtain ⟨a, p, rfl⟩ := List.exists_cons_of_ne_nil hne
      obtain ⟨hf, huser, -⟩ := getFolderByIdAndUserId_eq_some.1 hfolder
      have hown : (rows.get id).any fun f => f.userId = user.id := by simp [hf, huser]
      simp only [getFolderIdsInSubtree, hown, if_true] at h
      by_cases hall : (subtreeIds rows user.id id).all fun id' => (rows.get id').all Folder.valid
      · simp only [hall, if_true, hin] at h
        cases h
      · simp only [hall] at h
        cases h

theorem updateParent (h : FoldersOk fold rows) (hfits : TreeFits lower fold rows (db, .updateParent user id parentId)) :
    FoldersOk fold (updateFolderParentIdById lower rows user id parentId).1 := by
  unfold updateFolderParentIdById
  cases herror : moveError lower rows user id parentId with
  | some error => exact h
  | none =>
    obtain ⟨f, hfolder, hfree, hbelow⟩ := moveError_eq_none herror
    obtain ⟨hf, huser, -⟩ := getFolderByIdAndUserId_eq_some.1 hfolder
    obtain ⟨howner, hfinds⟩ := hfits f hfolder hfree
    refine ⟨h.trees.updateParent hf huser howner (hfinds.free hfree), ?_, ?_⟩
    · refine (acyclic_write_iff h.forest hf huser).2 fun p hp => ?_
      by_cases hnil : p = []
      · -- no folder has the empty id
        subst hnil
        rw [mem_subtreeIds (by rw [hf]; rfl)]
        intro hpath
        rcases ReflTransGen.cases_head hpath with heq | ⟨c, hup, -⟩
        · rw [← heq, h.ids] at hf
          cases hf
        · obtain ⟨g, hg, -⟩ := up_folderForest.1 hup
          rw [h.ids] at hg
          cases hg
      · exact hbelow p hp hnil
    · dsimp only
      rw [get_updateFolderParentId, h.ids]
      rfl

theorem getFolders (h : FoldersOk fold rows) (hfits : TreeFits lower fold rows (db, .list user)) :
    FoldersOk fold (TideBot.getFolders rows user).1 := by
  refine ⟨h.trees.getFolders h.forest hfits, h.forest.getFolders user, ?_⟩
  by_cases hvalid : (foldersOf rows user.id).all fun e => e.2.valid
  · rw [get_getFolders user h.forest hvalid, h.ids]
    rfl
  · simp only [TideBot.getFolders, if_neg hvalid]
    exact h.ids

/-- **Every request that fits.** -/
theorem step (hlower : ∀ n n', lower n = lower n' → fold n = fold n') {i : GrantDb × FolderRequest}
    (h : FoldersOk fold rows) (hfits : TreeFits lower fold rows i)
    (hs : (folderMachine lower).step rows i = some (rows', o)) : FoldersOk fold rows' := by
  obtain ⟨db, request⟩ := i
  cases request with
  | create user newId name parentId filesError =>
    obtain ⟨hfresh, hs⟩ := Option.ite_none_right_eq_some.1 hs
    obtain rfl : (createFolder lower rows db user newId name parentId filesError).1 = rows' :=
      congrArg Prod.fst (Option.some.inj hs)
    exact h.create hfresh hfits
  | updateName user id newName filesError =>
    obtain rfl : (updateFolderNameById lower rows db user id newName filesError).1 = rows' :=
      congrArg Prod.fst (Option.some.inj hs)
    exact h.updateName hlower hfits
  | updateParent user id parentId =>
    obtain rfl : (updateFolderParentIdById lower rows user id parentId).1 = rows' :=
      congrArg Prod.fst (Option.some.inj hs)
    exact h.updateParent hfits
  | list user =>
    obtain rfl : (TideBot.getFolders rows user).1 = rows' := congrArg Prod.fst (Option.some.inj hs)
    exact h.getFolders hfits

end FoldersOk

theorem foldersOk_empty (fold : Text → Text) : FoldersOk fold .empty := by
  refine ⟨⟨by rintro _ _ _ _ ⟨⟩, by rintro _ _ _ _ ⟨⟩⟩, fun userId k hk => ?_, rfl⟩
  obtain ⟨p, hup, -⟩ := TransGen.head'_iff.1 hk
  obtain ⟨f, hf, -⟩ := up_folderForest.1 hup
  cases hf

/-- **In a run in which every request fits, the trees do not cross owners, and siblings have different
    names, in every state.**  `lower` may leave letters as they are, but makes no names the same that are
    not equal up to case. -/
theorem folderTreesKept {lower fold : Text → Text} (hlower : ∀ n n', lower n = lower n' → fold n = fold n')
    {tr : List ((GrantDb × FolderRequest) × Option FolderError)}
    (hrun : (folderMachine lower).RunIn (TreeFits lower fold) rows tr rows') (hok : FoldersOk fold rows) :
    FolderTrees fold rows' :=
  (hrun.invariant (I := FoldersOk fold) (fun _ _ _ _ hfits h hs => h.step hlower hfits hs) hok).trees

end

namespace Sample

def noGrants : GrantDb := ⟨[], [], [], .empty⟩

def folderGrant : GrantDb := ⟨[⟨.lit "folder", .lit "f", .lit "user", .lit "v", .lit "write"⟩], [], [], .empty⟩

def folderOwner : VerifiedUser := ⟨.lit "u", false⟩

def folderEditor : VerifiedUser := ⟨.lit "v", false⟩

end Sample

namespace Sample

def asciiLower (t : Text) : Text := t.map fun c => if 0x41 ≤ c.val ∧ c.val ≤ 0x5A then c + 0x20 else c

def latinLower (t : Text) : Text :=
  (asciiLower t).map fun c => if 0xC0 ≤ c.val ∧ c.val ≤ 0xDE ∧ c.val ≠ 0xD7 then c + 0x20 else c

end Sample

/-- A folder in a shared folder, a move, and a repair that has nothing to do. -/
theorem folderTreesKept_shared : ∃ tr rows,
    (folderMachine Sample.asciiLower).RunIn (TreeFits Sample.asciiLower Sample.latinLower) .empty tr rows ∧
    tr.map Prod.snd = [none, none, none, none, none] ∧ FolderTrees Sample.latinLower rows := by
  obtain ⟨⟨tr, rows⟩, hm, hout⟩ : ∃ r ∈ (folderMachine Sample.asciiLower).exec
        (TreeFits Sample.asciiLower Sample.latinLower) .empty
      [(Sample.noGrants, .create Sample.folderOwner (.lit "f") (.lit "Pläne") none none),
        (Sample.folderGrant, .create Sample.folderEditor (.lit "g") (.lit "École") (some (.lit "f")) none),
        (Sample.noGrants, .updateParent Sample.folderOwner (.lit "g") none),
        (Sample.noGrants, .updateName Sample.folderOwner (.lit "g") (some (some (.lit "école"))) none),
        (Sample.noGrants, .list Sample.folderOwner)],
      r.1.map Prod.snd = [none, none, none, none, none] := by
    decide +kernel
  exact ⟨tr, rows, Machine.runIn_of_exec hm, hout, folderTreesKept (fun _ _ => congrArg (List.map _))
    (Machine.runIn_of_exec hm) (foldersOk_empty _)⟩

/-- A user moves a folder into one of another user; the repair brings two folders of a name together, of which
    one was in a folder that never was; and a search that knows the letters of ASCII only does not find a name. -/
theorem folderTreesKept_fails :
    (∃ tr rows, (folderMachine id).Run .empty tr rows ∧ ∃ f g, rows.get (.lit "g") = some f ∧
      f.parentId = some (.lit "f") ∧ rows.get (.lit "f") = some g ∧ f.userId ≠ g.userId) ∧
    (∃ tr rows, (folderMachine id).Run .empty tr rows ∧ ∃ f g, rows.get (.lit "f") = some f ∧
      rows.get (.lit "g") = some g ∧ f.userId = g.userId ∧ f.parentId = g.parentId ∧ SameName id f g) ∧
    ∃ tr rows, (folderMachine Sample.asciiLower).Run .empty tr rows ∧ ∃ f g, rows.get (.lit "f") = some f ∧
      rows.get (.lit "g") = some g ∧ f.userId = g.userId ∧ f.parentId = g.parentId ∧ SameName Sample.latinLower f g := by
  refine ⟨?_, ?_, ?_⟩
  · obtain ⟨⟨tr, rows⟩, hm, hout⟩ : ∃ r ∈ (folderMachine id).exec (fun _ _ => True) .empty
        [(Sample.noGrants, .create Sample.folderOwner (.lit "f") (.lit "plans") none none),
          (Sample.noGrants, .create Sample.folderEditor (.lit "g") (.lit "drafts") none none),
          (Sample.noGrants, .updateParent Sample.folderEditor (.lit "g") (some (.lit "f")))],
        r.2.get (.lit "g") = some ⟨.lit "v", some (.lit "f"), some (.lit "drafts")⟩ ∧
          r.2.get (.lit "f") = some ⟨.lit "u", none, some (.lit "plans")⟩ := by
      decide +kernel
    exact ⟨tr, rows, Machine.runIn_of_exec hm, _, _, hout.1, rfl, hout.2, by decide⟩
  · obtain ⟨⟨tr, rows⟩, hm, hout⟩ : ∃ r ∈ (folderMachine id).exec (fun _ _ => True) .empty
        [(Sample.noGrants, .create Sample.folderOwner (.lit "f") (.lit "plans") none none),
          (Sample.noGrants, .create Sample.folderOwner (.lit "g") (.lit "plans") (some (.lit "gone")) none),
          (Sample.noGrants, .list Sample.folderOwner)],
        r.2.get (.lit "f") = some ⟨.lit "u", none, some (.lit "plans")⟩ ∧
          r.2.get (.lit "g") = some ⟨.lit "u", none, some (.lit "plans")⟩ := by
      decide +kernel
    exact ⟨tr, rows, Machine.runIn_of_exec hm, _, _, hout.1, hout.2, rfl, rfl, by decide⟩
  · obtain ⟨⟨tr, rows⟩, hm, hout⟩ : ∃ r ∈ (folderMachine Sample.asciiLower).exec (fun _ _ => True) .empty
        [(Sample.noGrants, .create Sample.folderOwner (.lit "f") (.lit "École") none none),
          (Sample.noGrants, .create Sample.folderOwner (.lit "g") (.lit "école") none none)],
        r.2.get (.lit "f") = some ⟨.lit "u", none, some (.lit "École")⟩ ∧
          r.2.get (.lit "g") = some ⟨.lit "u", none, some (.lit "école")⟩ := by
      decide +kernel
    exact ⟨tr, rows, Machine.runIn_of_exec hm, _, _, hout.1, hout.2, rfl, rfl, by decide +kernel⟩

end TideBot
