/-
  The deletion of a folder (`delete_folder_by_id` in `routers/folders.py`), where a statement of the database may fail.

  The folders below go first, one commit each; if a statement fails meanwhile, what has been deleted stays deleted, and
  no id is returned.  The clean-up goes through the ids that are returned, for chats and automations of the owner only;
  a failure among the chats is not noticed, and one among the grants ends it.  `LeavesNothing` says when nothing is left
  that refers to a folder that is gone.

  Each method has a session of its own.  The check of the feature comes first, and is left out; of chats, automations
  and grants there is what refers to a folder.
-/
import TideBot.Folders.Subtrees
import TideBot.Lib.Interrupted

namespace TideBot

open Lib Relation

/-! ## The database -/

/-- A chat or an automation: its owner, and its folder; the metadata of a chat may say that it is internal. -/
structure FiledRow where
  userId : Text
  folderId : Option Text
  internal : Bool := false
deriving DecidableEq

structure FolderDb where
  folders : Dict Text Folder
  chats : List FiledRow
  automations : List FiledRow
  grants : List AccessGrant

/-- A statement, or several that come to the same, by what it is for. -/
inductive FolderStatement where
  /-- `get_folder_by_id_and_user_id` -/
  | ownFolder
  /-- `get_folder_by_id` -/
  | anyFolder
  /-- `get_folder_ids_by_id_and_user_id_in_subtree` -/
  | subtree
  /-- `count_chats_by_folder_ids_and_user_id` -/
  | countChats
  /-- `has_permission`, with its configuration -/
  | permission
  /-- The first of `delete_folder_by_id_and_user_id`. -/
  | folder
  /-- The children of a folder, in `delete_children`. -/
  | children (id : Text)
  /-- A child, before it is deleted. -/
  | child (id : Text)
  /-- The deletion of a folder, and its commit. -/
  | delete (id : Text)
  /-- The chats of a folder, which are deleted or moved. -/
  | chats (id : Text)
  /-- `revoke_all_access` -/
  | grants (id : Text)
  /-- `clear_folder_ids` -/
  | automations
  /-- The subfolders, at the end. -/
  | subfolders
deriving DecidableEq

/-- What is raised. -/
inductive DeletionError where
  /-- 404 -/
  | notFound
  /-- 403 -/
  | prohibited
  /-- 400, `Error deleting folder` -/
  | deleting
  /-- 500: a statement has failed -/
  | database
  /-- 500: a row is no model -/
  | invalidRow
deriving DecidableEq

section
variable (rows : Dict Text Folder) (db : FolderDb) (user : VerifiedUser) (failing : Option FolderStatement)
variable (userId id : Text)

/-- `Folders.delete_folder_by_id_and_user_id`: the rows, and the ids that it returns -/
def deleteFolderRows : Dict Text Folder × List Text :=
  if failing = some .folder then (rows, [])
  else if (rows.get id).any fun f => f.userId = userId then
    match descendOr (haltedNext (fun c => failing = some (.children c)) fun s => childModels s.1 userId)
        (stuckLeave (fun c => failing = some (.child c) ∨ failing = some (.delete c)) fun s c =>
          (s.1.erase c, s.2 ++ [c])) rows.size id ([id], (rows, [id])) with
    | .ok (_, rows', folderIds) => if failing = some (.delete id) then (rows', []) else (rows'.erase id, folderIds)
    | .error (rows', _) => (rows', [])
  else (rows, [])

/-- The row is in the folder of the user. -/
def FiledRow.isIn (userId folderId : Text) (r : FiledRow) : Bool := r.userId = userId && r.folderId = some folderId

/-- `Chats.delete_chats_by_user_id_and_folder_id`, or `move_chats_by_user_id_and_folder_id` to no folder -/
def clearChats (deleteContents : Bool) (chats : List FiledRow) (userId folderId : Text) : List FiledRow :=
  if deleteContents then chats.filter fun r => !r.isIn userId folderId
  else chats.map fun r => if r.isIn userId folderId then { r with folderId := none } else r

/-- `AccessGrants.revoke_all_access` -/
def revokeAllAccess (grants : List AccessGrant) (resourceType resourceId : Text) : List AccessGrant :=
  grants.filter fun g => !(g.resourceType = resourceType && g.resourceId = resourceId)

/-- `Automations.clear_folder_ids` -/
def clearFolderIds (automations : List FiledRow) (userId : Text) (folderIds : List Text) : List FiledRow :=
  automations.map fun r =>
    if r.userId = userId && r.folderId.any (· ∈ folderIds) then { r with folderId := none } else r

/-- One round of the clean-up; a failure among the chats is swallowed. -/
def cleanUp (deleteContents : Bool) (db : FolderDb) (folderId : Text) : Except FolderDb FolderDb :=
  let db :=
    if failing = some (.chats folderId) then db
    else { db with chats := clearChats deleteContents db.chats userId folderId }
  if failing = some (.grants folderId) then .error db
  else .ok { db with grants := revokeAllAccess db.grants (.lit "folder") folderId }

/-- The `try` of `delete_folder_by_id`. -/
def deleteTree (deleteContents : Bool) : FolderDb × Option DeletionError :=
  let (folders, folderIds) := deleteFolderRows db.folders failing userId id
  match folderIds.foldlM (cleanUp failing userId deleteContents) { db with folders := folders } with
  | .error db => (db, some .deleting)
  | .ok db =>
    if folderIds ≠ [] ∧ failing = some .automations then (db, some .deleting)
    else ({ db with automations := clearFolderIds db.automations userId folderIds }, none)

/-- The folder that is to be deleted. -/
def folderToDelete : Except DeletionError Folder :=
  match if failing = some .ownFolder then none else getFolderByIdAndUserId rows id user.id with
  | some folder => .ok folder
  | none =>
    match if failing = some .anyFolder then none else getFolderById rows id with
    | none => .error .notFound
    | some folder => if user.isAdmin then .ok folder else .error .prohibited

/-- `Chats.count_chats_by_folder_ids_and_user_id`, which passes over the internal ones -/
def countChats (chats : List FiledRow) (folderIds : List Text) (userId : Text) : ℕ :=
  chats.countP fun r => r.userId = userId && r.folderId.any (· ∈ folderIds) && !r.internal

/-- What is raised before anything is deleted; `mayDeleteChats` is the permission `chat.delete` of the user. -/
def deletionRefused (mayDeleteChats : Bool) : Option DeletionError :=
  if failing = some .subtree then some .database
  else
    match getFolderIdsInSubtree db.folders id userId with
    | none => some .invalidRow
    | some folderIds =>
      if folderIds ≠ [] ∧ failing = some .countChats then some .database
      else if countChats db.chats folderIds userId ≠ 0 then
        if failing = some .permission then some .database
        else if !user.isAdmin && !mayDeleteChats then some .prohibited
        else none
      else none

/-- `delete_folder_by_id`: the database, and what is raised; it returns `True` if that is nothing. -/
def deleteFolderById (mayDeleteChats deleteContents : Bool) : FolderDb × Option DeletionError :=
  match folderToDelete db.folders user failing id with
  | .error error => (db, some error)
  | .ok folder =>
    match deletionRefused db user failing folder.userId id mayDeleteChats with
    | some error => (db, some error)
    | none =>
      let (db', error) := deleteTree db failing folder.userId id deleteContents
      -- the `finally`, whose exception takes the place of the result
      if failing = some .subfolders then (db', some .database)
      else if (childModels db'.folders folder.userId id).isNone then (db', some .invalidRow)
      else (db', error)

end

/-! ## What may be left -/

/-- A folder, a chat, an automation or a grant refers to the folder. -/
def FolderDb.RefersTo (db : FolderDb) (id : Text) : Prop :=
  (∃ e ∈ db.folders.entries, e.2.parentId = some id) ∨ (∃ r ∈ db.chats, r.folderId = some id) ∨
    (∃ r ∈ db.automations, r.folderId = some id) ∨
    ∃ g ∈ db.grants, g.resourceType = .lit "folder" ∧ g.resourceId = id

instance (db : FolderDb) (id : Text) : Decidable (db.RefersTo id) := inferInstanceAs (Decidable (_ ∨ _ ∨ _ ∨ _))

/-- The folder was there, and is not any more. -/
def Removed (db db' : FolderDb) (id : Text) : Prop := (db.folders.get id).isSome ∧ db'.folders.get id = none

instance (db db' : FolderDb) (id : Text) : Decidable (Removed db db' id) := inferInstanceAs (Decidable (_ ∧ _))

/-- **A deletion leaves nothing dangling**: if it returns `True`, nothing refers to a folder that is gone, and if it
    raises, then no folder is gone, or nothing refers to one. -/
def LeavesNothing (db : FolderDb) (result : FolderDb × Option DeletionError) : Prop :=
  (result.2 = none → ∀ id, Removed db result.1 id → ¬ result.1.RefersTo id) ∧
    (result.2 ≠ none → (∀ id, ¬ Removed db result.1 id) ∨ ∀ id, Removed db result.1 id → ¬ result.1.RefersTo id)

/-! ## When nothing is -/

section
variable (rows : Dict Text Folder) (failing : Option FolderStatement) (userId id : Text)
variable (children folderIds : List Text)

/-- The statement that fails is one of those that delete the folder and its children. -/
def StopsDeletion : Prop :=
  failing = some .folder ∨ (∃ c ∈ id :: children, failing = some (.children c) ∨ failing = some (.delete c)) ∨
    ∃ c ∈ children, failing = some (.child c)

instance : Decidable (StopsDeletion failing id children) := inferInstanceAs (Decidable (_ ∨ _ ∨ _))

/-- The deletion of the children does not come to `c`: to delete it fails, or to list the children of it, or of a folder
    above it. -/
def NotReached (c : Text) : Prop :=
  Stops (fun a b => (folderForest rows userId).Up b a) id (fun c => failing = some (.children c))
    (fun c => failing = some (.child c) ∨ failing = some (.delete c)) c

/-- The folders whose rows are deleted: all, or the children before the first that is not reached. -/
def Gone (c : Text) : Prop :=
  (¬ StopsDeletion failing id children ∧ c ∈ id :: children) ∨
    (StopsDeletion failing id children ∧ failing ≠ some .folder ∧ ∃ before after, children = before ++ c :: after ∧
      ∀ b ∈ before ++ [c], ¬ NotReached rows failing userId id b)

/-- The clean-up comes to the chats of the folder. -/
def ChatsCleared (c : Text) : Prop :=
  ∃ before after, folderIds = before ++ c :: after ∧ failing ≠ some (.chats c) ∧
    ∀ b ∈ before, failing ≠ some (.grants b)

/-- The clean-up comes to the grants of the folder. -/
def GrantsCleared (c : Text) : Prop :=
  ∃ before after, folderIds = before ++ c :: after ∧ ∀ b ∈ before ++ [c], failing ≠ some (.grants b)

/-- The clean-up comes to the automations. -/
def AutomationsCleared : Prop := failing ≠ some .automations ∧ ∀ b ∈ folderIds, failing ≠ some (.grants b)

/-- **The condition on the folders that are gone**: no other folder is in one; chats and automations in one are the
    owner's; and if there are some, or grants, then the folders have been deleted, and the clean-up comes to them. -/
structure NothingLeft (db : FolderDb) : Prop where
  folders : ∀ c, Gone db.folders failing userId id children c → ∀ k f, db.folders.get k = some f →
    f.parentId = some c → Gone db.folders failing userId id children k
  chats : ∀ c, Gone db.folders failing userId id children c → ∀ r ∈ db.chats, r.folderId = some c →
    r.userId = userId ∧ ¬ StopsDeletion failing id children ∧ ChatsCleared failing (id :: children) c
  automations : ∀ c, Gone db.folders failing userId id children c → ∀ r ∈ db.automations, r.folderId = some c →
    r.userId = userId ∧ ¬ StopsDeletion failing id children ∧ AutomationsCleared failing (id :: children)
  grants : ∀ c, Gone db.folders failing userId id children c → ∀ g ∈ db.grants, g.resourceType = .lit "folder" →
    g.resourceId = c → ¬ StopsDeletion failing id children ∧ GrantsCleared failing (id :: children) c

end

section
variable {rows : Dict Text Folder} {db db' : FolderDb} {failing : Option FolderStatement} {userId id c u : Text}
variable {children folderIds : List Text} {deleteContents : Bool}

/-! ## The clean-up -/

/-- A user has a row in the folder. -/
def HasRow (filed : List FiledRow) (userId folderId : Text) : Prop :=
  ∃ r ∈ filed, r.userId = userId ∧ r.folderId = some folderId

/-- There is a grant for the folder. -/
def HasGrant (grants : List AccessGrant) (folderId : Text) : Prop :=
  ∃ g ∈ grants, g.resourceType = .lit "folder" ∧ g.resourceId = folderId

theorem hasRow_clearChats (chats : List FiledRow) (folderId : Text) :
    HasRow (clearChats deleteContents chats userId folderId) u c ↔
      HasRow chats u c ∧ ¬ (u = userId ∧ c = folderId) := by
  have hisIn : ∀ r : FiledRow, r.isIn userId folderId ↔ r.userId = userId ∧ r.folderId = some folderId := by
    simp [FiledRow.isIn]
  constructor
  · rintro ⟨r, hr, rfl, hfolder⟩
    cases deleteContents with
    | true =>
      obtain ⟨hr, hnot⟩ := List.mem_filter.1 hr
      rw [Bool.not_eq_true', ← Bool.not_eq_true, hisIn] at hnot
      exact ⟨⟨r, hr, rfl, hfolder⟩, fun h => hnot ⟨h.1, by rw [hfolder, h.2]⟩⟩
    | false =>
      obtain ⟨r', hr', rfl⟩ := List.mem_map.1 hr
      by_cases hin : r'.isIn userId folderId
      · rw [if_pos hin] at hfolder
        cases hfolder
      · rw [if_neg hin] at hfolder ⊢
        exact ⟨⟨r', hr', rfl, hfolder⟩, fun h => hin ((hisIn r').2 ⟨h.1, by rw [hfolder, h.2]⟩)⟩
  · rintro ⟨⟨r, hr, rfl, hfolder⟩, hnot⟩
    have hin : ¬ r.isIn userId folderId := by
      rw [hisIn]
      rintro ⟨huser, hfolder'⟩
      rw [hfolder] at hfolder'
      exact hnot ⟨huser, Option.some.inj hfolder'⟩
    refine ⟨r, ?_, rfl, hfolder⟩
    cases deleteContents with
    | true => exact List.mem_filter.2 ⟨hr, by simpa using hin⟩
    | false => exact List.mem_map.2 ⟨r, hr, if_neg hin⟩

theorem hasRow_clearFolderIds (automations : List FiledRow) :
    HasRow (clearFolderIds automations userId folderIds) u c ↔
      HasRow automations u c ∧ ¬ (u = userId ∧ c ∈ folderIds) := by
  constructor
  · rintro ⟨r, hr, rfl, hfolder⟩
    obtain ⟨r', hr', rfl⟩ := List.mem_map.1 hr
    split_ifs at hfolder ⊢ with hin
    exact ⟨⟨r', hr', rfl, hfolder⟩, fun h => hin (by simp [h.1, hfolder, h.2])⟩
  · rintro ⟨⟨r, hr, rfl, hfolder⟩, hnot⟩
    refine ⟨r, List.mem_map.2 ⟨r, hr, if_neg ?_⟩, rfl, hfolder⟩
    simpa [hfolder] using hnot

theorem hasGrant_revokeAllAccess (grants : List AccessGrant) (folderId : Text) :
    HasGrant (revokeAllAccess grants (.lit "folder") folderId) c ↔ HasGrant grants c ∧ c ≠ folderId := by
  simp only [HasGrant, revokeAllAccess, List.mem_filter, Bool.not_eq_true', Bool.and_eq_false_iff,
    decide_eq_false_iff_not]
  constructor
  · rintro ⟨g, ⟨hg, hnot⟩, htype, rfl⟩
    exact ⟨⟨g, hg, htype, rfl⟩, hnot.resolve_left (not_not.2 htype)⟩
  · rintro ⟨⟨g, hg, htype, rfl⟩, hne⟩
    exact ⟨g, ⟨hg, .inr hne⟩, htype, rfl⟩

/-- What the clean-up of some folders has done, however it ends. -/
structure CleanedUp (failing : Option FolderStatement) (userId : Text) (folderIds : List Text) (db db' : FolderDb) :
    Prop where
  folders : db'.folders = db.folders
  automations : db'.automations = db.automations
  chats : ∀ u c, HasRow db'.chats u c ↔ HasRow db.chats u c ∧ ¬ (u = userId ∧ ChatsCleared failing folderIds c)
  grants : ∀ c, HasGrant db'.grants c ↔ HasGrant db.grants c ∧ ¬ GrantsCleared failing folderIds c

theorem chatsCleared_cons {x : Text} : ChatsCleared failing (x :: folderIds) c ↔
    c = x ∧ failing ≠ some (.chats x) ∨ failing ≠ some (.grants x) ∧ ChatsCleared failing folderIds c := by
  constructor
  · rintro ⟨before, after, heq, hchats, hgrants⟩
    cases before with
    | nil =>
      cases heq
      exact .inl ⟨rfl, hchats⟩
    | cons b before =>
      cases heq
      exact .inr ⟨hgrants _ List.mem_cons_self, before, after, rfl, hchats,
        fun b hb => hgrants b (List.mem_cons_of_mem _ hb)⟩
  · rintro (⟨rfl, hchats⟩ | ⟨hx, before, after, rfl, hchats, hgrants⟩)
    · exact ⟨[], folderIds, rfl, hchats, by simp⟩
    · exact ⟨x :: before, after, rfl, hchats, List.forall_mem_cons.2 ⟨hx, hgrants⟩⟩

theorem grantsCleared_cons {x : Text} : GrantsCleared failing (x :: folderIds) c ↔
    failing ≠ some (.grants x) ∧ (c = x ∨ GrantsCleared failing folderIds c) := by
  constructor
  · rintro ⟨before, after, heq, hgrants⟩
    cases before with
    | nil =>
      cases heq
      exact ⟨hgrants _ (by simp), .inl rfl⟩
    | cons b before =>
      cases heq
      exact ⟨hgrants _ (by simp), .inr ⟨before, after, rfl, fun b hb => hgrants b (List.mem_cons_of_mem _ hb)⟩⟩
  · rintro ⟨hx, rfl | ⟨before, after, rfl, hgrants⟩⟩
    · exact ⟨[], folderIds, rfl, by simpa using hx⟩
    · exact ⟨x :: before, after, rfl, List.forall_mem_cons.2 ⟨hx, hgrants⟩⟩

theorem cleanUp_chats (failing : Option FolderStatement) (userId : Text) (deleteContents : Bool) (db : FolderDb)
    (folderId : Text) :
    ∃ db', (if failing = some (.chats folderId) then db
        else { db with chats := clearChats deleteContents db.chats userId folderId }) = db' ∧
      db'.folders = db.folders ∧ db'.automations = db.automations ∧ db'.grants = db.grants ∧
      ∀ u c, HasRow db'.chats u c ↔
        HasRow db.chats u c ∧ ¬ (u = userId ∧ c = folderId ∧ failing ≠ some (.chats folderId)) := by
  by_cases hfails : failing = some (.chats folderId)
  · refine ⟨db, if_pos hfails, rfl, rfl, rfl, fun u c => ?_⟩
    simp [hfails]
  · refine ⟨_, if_neg hfails, rfl, rfl, rfl, fun u c => ?_⟩
    rw [hasRow_clearChats]
    simp [hfails]

/-- **The loop of the clean-up**: it ends at the grants of a folder, if that is where a statement fails. -/
theorem cleanUp_loop (failing : Option FolderStatement) (userId : Text) (deleteContents : Bool) (folderIds : List Text)
    (db : FolderDb) :
    ∃ db', CleanedUp failing userId folderIds db db' ∧
      ((∃ b ∈ folderIds, failing = some (.grants b)) ∧
          folderIds.foldlM (cleanUp failing userId deleteContents) db = .error db' ∨
        (∀ b ∈ folderIds, failing ≠ some (.grants b)) ∧
          folderIds.foldlM (cleanUp failing userId deleteContents) db = .ok db') := by
  induction folderIds generalizing db with
  | nil =>
    refine ⟨db, ⟨rfl, rfl, fun u c => ?_, fun c => ?_⟩, .inr ⟨by simp, rfl⟩⟩
    · simp [ChatsCleared]
    · simp [GrantsCleared]
  | cons x folderIds ih =>
    obtain ⟨db₁, hdb₁, hfolders, hautomations, hgrants, hchats⟩ :=
      cleanUp_chats failing userId deleteContents db x
    rw [List.foldlM_cons, cleanUp, hdb₁]
    by_cases hx : failing = some (.grants x)
    · refine ⟨db₁, ⟨hfolders, hautomations, fun u c => ?_, fun c => ?_⟩, .inl ⟨⟨x, List.mem_cons_self, hx⟩, ?_⟩⟩
      · rw [hchats, chatsCleared_cons]
        simp [hx]
      · rw [hgrants, grantsCleared_cons]
        simp [hx]
      · rw [if_pos hx]
        rfl
    · obtain ⟨db', hclean, hends⟩ := ih { db₁ with grants := revokeAllAccess db₁.grants (.lit "folder") x }
      refine ⟨db', ⟨hclean.folders.trans hfolders, hclean.automations.trans hautomations, fun u c => ?_,
        fun c => ?_⟩, ?_⟩
      · rw [hclean.chats, hchats, chatsCleared_cons]
        tauto
      · rw [hclean.grants, hasGrant_revokeAllAccess, hgrants, grantsCleared_cons]
        tauto
      · rw [if_neg hx]
        rcases hends with ⟨⟨b, hb, hfails⟩, hend⟩ | ⟨hall, hend⟩
        · exact .inl ⟨⟨b, List.mem_cons_of_mem _ hb, hfails⟩, hend⟩
        · exact .inr ⟨List.forall_mem_cons.2 ⟨hx, hall⟩, hend⟩

/-! ## The rows -/

theorem childModels_erased {done cs : List Text} (hcs : childModels rows userId c = some cs) :
    childModels (done.foldl Dict.erase rows) userId c = some (cs.filter fun c => c ∉ done) := by
  obtain ⟨rfl, hvalid⟩ := childModels_eq_some hcs
  rw [← childFolderIds_erased]
  refine childModels_eq fun c' hc' f hf => ?_
  rw [Dict.get_foldl_erase] at hf
  split_ifs at hf
  simpa [hf] using hvalid c' (mem_childFolderIds_erased.1 hc').1

theorem mem_before_iff {α : Type*} {P : α → Prop} {before after : List α} {x : α} (hbefore : ∀ b ∈ before, P b)
    (hafter : ∀ b ∈ after.head?, ¬ P b) :
    x ∈ before ↔ ∃ before' after', before ++ after = before' ++ x :: after' ∧ ∀ b ∈ before' ++ [x], P b := by
  constructor
  · intro hx
    obtain ⟨l, r, rfl⟩ := List.append_of_mem hx
    refine ⟨l, r ++ after, by simp, fun b hb => hbefore b ?_⟩
    rcases List.mem_append.1 hb with hb | hb
    · exact List.mem_append_left _ hb
    · rw [List.mem_singleton.1 hb]
      exact hx
  · rintro ⟨before', after', heq, hgood⟩
    obtain ⟨l, rfl, hl⟩ | ⟨l, rfl, hl⟩ := List.append_eq_append_iff.1 heq
    · -- what is cut off begins among the good ones
      cases l with
      | nil =>
        rw [List.nil_append] at hl
        exact absurd (hgood x (by simp)) (hafter x (by simp [hl]))
      | cons b l =>
        cases hl
        exact absurd (hgood b (by simp)) (hafter b (by simp))
    · cases l with
      | nil =>
        rw [List.nil_append] at hl
        exact absurd (hgood x (by simp)) (hafter x (by simp [← hl]))
      | cons b l =>
        cases hl
        simp

theorem walked_children (hchildren : getChildrenFolders rows id userId = some children) :
    ((rows.get id).any fun f => f.userId = userId) ∧ ∃ n cs seen', rows.size = n + 1 ∧
      childModels rows userId id = some cs ∧
      Walked (fun s : Dict Text Folder × List Text => childModels s.1 userId)
        (fun s c => (s.1.erase c, s.2 ++ [c])) n cs [id] (rows, [id]) children seen' := by
  rw [getChildrenFolders] at hchildren
  split_ifs at hchildren with hown
  cases hwalk : descend (fun _ => childModels rows userId) (fun folders c => folders ++ [c]) rows.size id
      ([id], []) with
  | error s =>
    rw [hwalk] at hchildren
    cases hchildren
  | ok s =>
    rw [hwalk] at hchildren
    obtain ⟨n, cs, left, hsize, hcs, hw, hleft⟩ := walked_of_descend hwalk
    have hs : s.2 = children := Option.some.inj hchildren
    rw [foldl_concat_ids, List.nil_append] at hleft
    rw [← hleft, hs] at hw
    refine ⟨hown, n, cs, s.1, hsize, hcs, ?_⟩
    have hfading : Walked (fun s : Dict Text Folder × List Text => childModels s.1 userId)
        (fun s c => (s.1.erase c, s.2 ++ [c])) n (cs.filter fun _ => true) [id] (rows, [id]) children s.1 := by
      refine hw.fading (fun done k cs hcs => ?_) _ [] (fun _ _ _ => rfl) (by simp)
      rw [foldl_delete]
      convert childModels_erased hcs
    rwa [List.filter_true] at hfading

theorem follows_erase (rows : Dict Text Folder) (userId : Text) :
    Lib.Follows (fun s : Dict Text Folder × List Text => childModels s.1 userId) (fun s c => (s.1.erase c, s.2 ++ [c]))
      (fun a b => (folderForest rows userId).Up b a)
      (fun s => ∀ a b, (folderForest s.1 userId).Up a b → (folderForest rows userId).Up a b) where
  leave s c hs a b hup := by
    obtain ⟨f, hf, howner, hparent⟩ := up_folderForest.1 hup
    rw [Dict.get_erase] at hf
    split_ifs at hf
    exact hs a b (up_folderForest.2 ⟨f, hf, howner, hparent⟩)
  next s k cs hs hcs c hc := by
    rw [(childModels_eq_some hcs).1] at hc
    exact hs c k (mem_childFolderIds.1 hc)

/-- **What the deletion of the rows does**, wherever it stops. -/
theorem deleteFolderRows_spec (failing : Option FolderStatement)
    (hchildren : getChildrenFolders rows id userId = some children) :
    (∀ c f, (deleteFolderRows rows failing userId id).1.get c = some f ↔
      rows.get c = some f ∧ ¬ Gone rows failing userId id children c) ∧
    (deleteFolderRows rows failing userId id).2 = if StopsDeletion failing id children then [] else id :: children := by
  obtain ⟨hown, n, cs, seen', hsize, hcs, hw⟩ := walked_children hchildren
  by_cases hfolder : failing = some .folder
  · have hstops : StopsDeletion failing id children := .inl hfolder
    have hgone : ∀ c, ¬ Gone rows failing userId id children c := by
      rintro c (⟨hnot, -⟩ | ⟨-, hne, -⟩)
      · exact hnot hstops
      · exact hne hfolder
    rw [deleteFolderRows, if_pos hfolder, if_pos hstops]
    exact ⟨fun c f => by simp [hgone], rfl⟩
  · have hget : ∀ {out : List Text} {c f}, (out.foldl Dict.erase rows).get c = some f ↔
        rows.get c = some f ∧ c ∉ out := by
      intro out c f
      rw [Dict.get_foldl_erase]
      by_cases hc : c ∈ out <;> simp [hc]
    have hgone : ∀ {before after}, children = before ++ after → StopsDeletion failing id children →
        (∀ b ∈ before, ¬ NotReached rows failing userId id b) →
        (∀ b ∈ after.head?, NotReached rows failing userId id b) →
          ∀ c, Gone rows failing userId id children c ↔ c ∈ before := by
      intro before after heq hstops hbefore hafter c
      rw [mem_before_iff hbefore fun b hb => not_not.2 (hafter b hb), ← heq]
      constructor
      · rintro (⟨hnot, -⟩ | ⟨-, -, hc⟩)
        · exact absurd hstops hnot
        · exact hc
      · exact fun hc => .inr ⟨hstops, hfolder, hc⟩
    rw [deleteFolderRows, if_neg hfolder, if_pos hown, hsize]
    obtain ⟨before, after, heq, hbefore, hafter, hfails, hwalk⟩ | ⟨hid, hreached, hwalk⟩ :=
      hw.descendOr_eq (fun c => failing = some (.children c))
        (fun c => failing = some (.child c) ∨ failing = some (.delete c)) hcs (follows_erase rows userId)
        (fun _ _ h => h) fun a b c ha hb => Option.some.inj (Option.some.inj (ha.symm.trans hb))
    · have hstops : StopsDeletion failing id children := by
        rcases hfails with hid | ⟨b, hb, hfail | hfail | hfail⟩
        · exact .inr (.inl ⟨id, List.mem_cons_self, .inl hid⟩)
        · exact .inr (.inl ⟨b, List.mem_cons_of_mem _ hb, .inl hfail⟩)
        · exact .inr (.inr ⟨b, hb, hfail⟩)
        · exact .inr (.inl ⟨b, List.mem_cons_of_mem _ hb, .inr hfail⟩)
      rw [hwalk, if_pos hstops, foldl_delete]
      refine ⟨fun c f => ?_, rfl⟩
      rw [hgone heq hstops hbefore hafter]
      exact hget
    · rw [hwalk, foldl_delete]
      by_cases hdelete : failing = some (.delete id)
      · have hstops : StopsDeletion failing id children := .inr (.inl ⟨id, List.mem_cons_self, .inr hdelete⟩)
        rw [if_pos hstops]
        simp only [if_pos hdelete]
        refine ⟨fun c f => ?_, trivial⟩
        rw [hgone (List.append_nil children).symm hstops hreached (by simp)]
        exact hget
      · have hstops : ¬ StopsDeletion failing id children := by
          rintro (hfail | ⟨b, hb, hfail⟩ | ⟨b, hb, hfail⟩)
          · exact hfolder hfail
          · rcases List.mem_cons.1 hb with rfl | hb
            · exact hfail.elim hid hdelete
            · rcases hfail with hfail | hfail
              · exact hreached b hb (.inr ⟨b, hfail, .refl⟩)
              · exact hreached b hb (.inl (.inr hfail))
          · exact hreached b hb (.inl (.inl hfail))
        simp only [if_neg hdelete, if_neg hstops]
        refine ⟨fun c f => ?_, rfl⟩
        have hgone' : Gone rows failing userId id children c ↔ c ∈ id :: children :=
          ⟨fun h => h.elim (fun h => h.2) fun h => absurd h.1 hstops, fun h => .inl ⟨hstops, h⟩⟩
        rw [hgone', Dict.get_erase]
        by_cases hc : c = id
        · simp [hc]
        · rw [if_neg hc, hget, List.mem_cons, or_iff_right hc]

/-! ## The whole -/

theorem deleteTree_spec (db : FolderDb) (failing : Option FolderStatement) (userId id : Text) (deleteContents : Bool) :
    let folderIds := (deleteFolderRows db.folders failing userId id).2
    let db' := (deleteTree db failing userId id deleteContents).1
    db'.folders = (deleteFolderRows db.folders failing userId id).1 ∧
      (∀ u c, HasRow db'.chats u c ↔ HasRow db.chats u c ∧ ¬ (u = userId ∧ ChatsCleared failing folderIds c)) ∧
      (∀ u c, HasRow db'.automations u c ↔
        HasRow db.automations u c ∧ ¬ (u = userId ∧ c ∈ folderIds ∧ AutomationsCleared failing folderIds)) ∧
      ∀ c, HasGrant db'.grants c ↔ HasGrant db.grants c ∧ ¬ GrantsCleared failing folderIds c := by
  obtain ⟨db', hclean, hends⟩ := cleanUp_loop failing userId deleteContents
    (deleteFolderRows db.folders failing userId id).2
    { db with folders := (deleteFolderRows db.folders failing userId id).1 }
  have hautomations : db'.automations = db.automations := hclean.automations
  simp only [deleteTree]
  obtain ⟨⟨b, hb, hfails⟩, hend⟩ | ⟨hall, hend⟩ := hends
  · rw [hend]
    refine ⟨hclean.folders, hclean.chats, fun u c => ?_, hclean.grants⟩
    simp only [hautomations]
    exact (and_iff_left fun h => h.2.2.2 b hb hfails).symm
  · rw [hend]
    by_cases hfails : (deleteFolderRows db.folders failing userId id).2 ≠ [] ∧ failing = some .automations
    · simp only [if_pos hfails]
      refine ⟨hclean.folders, hclean.chats, fun u c => ?_, hclean.grants⟩
      rw [hautomations]
      exact (and_iff_left fun h => h.2.2.1 hfails.2).symm
    · simp only [if_neg hfails]
      refine ⟨hclean.folders, hclean.chats, fun u c => ?_, hclean.grants⟩
      rw [hasRow_clearFolderIds, hautomations]
      refine and_congr_right fun _ => not_congr (and_congr_right fun _ => (and_iff_left_of_imp fun hc => ?_).symm)
      exact ⟨fun hfail => hfails ⟨List.ne_nil_of_mem hc, hfail⟩, hall⟩

theorem refersTo_iff : db.RefersTo c ↔ (∃ k f, db.folders.get k = some f ∧ f.parentId = some c) ∨
    (∃ u, HasRow db.chats u c) ∨ (∃ u, HasRow db.automations u c) ∨ HasGrant db.grants c := by
  have hrows : ∀ filed : List FiledRow, (∃ r ∈ filed, r.folderId = some c) ↔ ∃ u, HasRow filed u c := by
    intro filed
    constructor
    · rintro ⟨r, hr, hfolder⟩
      exact ⟨r.userId, r, hr, rfl, hfolder⟩
    · rintro ⟨-, r, hr, -, hfolder⟩
      exact ⟨r, hr, hfolder⟩
  have hfolders : (∃ e ∈ db.folders.entries, e.2.parentId = some c) ↔
      ∃ k f, db.folders.get k = some f ∧ f.parentId = some c := by
    constructor
    · rintro ⟨e, he, hparent⟩
      exact ⟨e.1, e.2, Dict.get_of_mem he, hparent⟩
    · rintro ⟨k, f, hf, hparent⟩
      exact ⟨(k, f), Dict.mem_entries_iff.2 hf, hparent⟩
  rw [FolderDb.RefersTo, hfolders, hrows, hrows]
  rfl

theorem leavesNothing_iff_refers (db : FolderDb) (result : FolderDb × Option DeletionError) :
    LeavesNothing db result ↔ ∀ c, Removed db result.1 c → ¬ result.1.RefersTo c := by
  constructor
  · rintro ⟨hreturns, hraises⟩ c hremoved
    by_cases hnone : result.2 = none
    · exact hreturns hnone c hremoved
    · rcases hraises hnone with hnothing | hclean
      · exact absurd hremoved (hnothing c)
      · exact hclean c hremoved
  · exact fun h => ⟨fun _ => h, fun _ => .inr h⟩

theorem isSome_of_gone (hchildren : getChildrenFolders rows id userId = some children)
    (hgone : Gone rows failing userId id children c) : (rows.get c).isSome := by
  obtain ⟨hown, -⟩ := walked_children hchildren
  obtain ⟨f, hf, howner⟩ := Option.any_eq_true _ _ |>.1 hown
  have hmem : c ∈ id :: children := by
    rcases hgone with ⟨-, hc⟩ | ⟨-, -, before, after, rfl, -⟩
    · exact hc
    · simp
  rcases List.mem_cons.1 hmem with rfl | hc
  · rw [hf]
    rfl
  · rw [← of_decide_eq_true howner] at hchildren
    have hc' : c ∈ (getChildrenFolders rows id f.userId).getD [] := by rwa [hchildren]
    obtain ⟨-, hpath, -⟩ := (mem_getChildrenFolders hf).1 hc'
    obtain ⟨p, hup, -⟩ := TransGen.head'_iff.1 hpath
    obtain ⟨g, hg, -⟩ := up_folderForest.1 hup
    rw [hg]
    rfl

/-- **What the `try` leaves behind**, if it is as the condition says. -/
theorem deleteTree_iff (db : FolderDb) (failing : Option FolderStatement) (deleteContents : Bool)
    (hchildren : getChildrenFolders db.folders id userId = some children) :
    (∀ c, Removed db (deleteTree db failing userId id deleteContents).1 c →
      ¬ (deleteTree db failing userId id deleteContents).1.RefersTo c) ↔ NothingLeft failing userId id children db := by
  obtain ⟨hrows, hids⟩ := deleteFolderRows_spec failing hchildren
  obtain ⟨hfolders, hchats, hautomations, hgrants⟩ := deleteTree_spec db failing userId id deleteContents
  rw [hids] at hchats hautomations hgrants
  have hremoved : ∀ c, Removed db (deleteTree db failing userId id deleteContents).1 c ↔
      Gone db.folders failing userId id children c := by
    intro c
    rw [Removed, hfolders]
    constructor
    · rintro ⟨hsome, hnone⟩
      obtain ⟨f, hf⟩ := Option.isSome_iff_exists.1 hsome
      by_contra hgone
      rw [(hrows c f).2 ⟨hf, hgone⟩] at hnone
      cases hnone
    · intro hgone
      refine ⟨isSome_of_gone hchildren hgone, Option.eq_none_iff_forall_ne_some.2 fun f hf => ?_⟩
      exact ((hrows c f).1 hf).2 hgone
  have hchatsCleared : ∀ c,
      ChatsCleared failing (if StopsDeletion failing id children then [] else id :: children) c ↔
      ¬ StopsDeletion failing id children ∧ ChatsCleared failing (id :: children) c := by
    intro c
    split_ifs with hstops
    · simp [ChatsCleared, hstops]
    · simp [hstops]
  have hgrantsCleared : ∀ c,
      GrantsCleared failing (if StopsDeletion failing id children then [] else id :: children) c ↔
      ¬ StopsDeletion failing id children ∧ GrantsCleared failing (id :: children) c := by
    intro c
    split_ifs with hstops
    · simp [GrantsCleared, hstops]
    · simp [hstops]
  have hautomationsCleared : ∀ c, Gone db.folders failing userId id children c →
      (c ∈ (if StopsDeletion failing id children then [] else id :: children) ∧
        AutomationsCleared failing (if StopsDeletion failing id children then [] else id :: children) ↔
      ¬ StopsDeletion failing id children ∧ AutomationsCleared failing (id :: children)) := by
    intro c hgone
    split_ifs with hstops
    · simp [hstops]
    · have hc : c ∈ id :: children := hgone.elim (fun h => h.2) fun h => absurd h.1 hstops
      exact and_congr_left fun _ => iff_of_true hc hstops
  simp only [hremoved, refersTo_iff, hfolders, hrows, hchats, hautomations, hgrants, hchatsCleared, hgrantsCleared]
  constructor
  · intro h
    refine ⟨fun c hgone k f hf hparent => ?_, fun c hgone r hr hfolder => ?_, fun c hgone r hr hfolder => ?_,
      fun c hgone g hg htype hid => ?_⟩
    · by_contra hnot
      exact h c hgone (.inl ⟨k, f, ⟨hf, hnot⟩, hparent⟩)
    · by_contra hnot
      exact h c hgone (.inr (.inl ⟨r.userId, ⟨r, hr, rfl, hfolder⟩, hnot⟩))
    · by_contra hnot
      refine h c hgone (.inr (.inr (.inl ⟨r.userId, ⟨r, hr, rfl, hfolder⟩, fun hcleared => hnot ⟨hcleared.1, ?_⟩⟩)))
      exact (hautomationsCleared c hgone).1 hcleared.2
    · by_contra hnot
      exact h c hgone (.inr (.inr (.inr ⟨⟨g, hg, htype, hid⟩, hnot⟩)))
  · rintro h c hgone (⟨k, f, ⟨hf, hnot⟩, hparent⟩ | ⟨u, ⟨r, hr, rfl, hfolder⟩, hnot⟩ |
      ⟨u, ⟨r, hr, rfl, hfolder⟩, hnot⟩ | ⟨⟨g, hg, htype, hid⟩, hnot⟩)
    · exact hnot (h.folders c hgone k f hf hparent)
    · exact hnot (h.chats c hgone r hr hfolder)
    · obtain ⟨howner, hcleared⟩ := h.automations c hgone r hr hfolder
      exact hnot ⟨howner, (hautomationsCleared c hgone).2 hcleared⟩
    · exact hnot (h.grants c hgone g hg htype hid)

theorem folderToDelete_eq_ok {user : VerifiedUser} {folder : Folder}
    (h : folderToDelete rows user failing id = .ok folder) : rows.get id = some folder := by
  rw [folderToDelete] at h
  split at h
  · next hown =>
    cases h
    split_ifs at hown
    exact (getFolderByIdAndUserId_eq_some.1 hown).1
  · split at h
    · cases h
    · next hany =>
      split_ifs at h
      cases h
      split_ifs at hany
      exact (getFolderById_eq_some.1 hany).1

theorem subtree_of_not_refused {user : VerifiedUser} {mayDeleteChats : Bool}
    (h : deletionRefused db user failing userId id mayDeleteChats = none) :
    ∃ folderIds, getFolderIdsInSubtree db.folders id userId = some folderIds := by
  rw [deletionRefused] at h
  cases hids : getFolderIdsInSubtree db.folders id userId with
  | none =>
    rw [hids] at h
    split_ifs at h
  | some folderIds => exact ⟨folderIds, rfl⟩

theorem exists_children {f : Folder} (hf : rows.get id = some f)
    (hids : getFolderIdsInSubtree rows id f.userId = some folderIds) :
    ∃ children, getChildrenFolders rows id f.userId = some children := by
  have hown : (rows.get id).any fun g => g.userId = f.userId := by simp [hf]
  rw [getFolderIdsInSubtree, if_pos hown] at hids
  obtain ⟨hall, -⟩ := Option.ite_none_right_eq_some.1 hids
  have hvalid : ∀ c g, TransGen (folderForest rows f.userId).Up c id → rows.get c = some g → g.valid := by
    intro c g hpath hg
    have hc := List.all_eq_true.1 hall c ((mem_subtreeIds (hf ▸ rfl)).2 hpath.to_reflTransGen)
    simpa [hg] using hc
  obtain ⟨⟨left, seen, hwalk, -⟩, -⟩ := below_folder hvalid hf
  exact ⟨left, by rw [getChildrenFolders, if_pos hown, hwalk]⟩

end

/-! ## The result -/

/-- **A deletion leaves nothing dangling if and only if the condition holds**, unless it is refused before anything is
    deleted. -/
theorem leavesNothing_iff (db : FolderDb) (user : VerifiedUser) (failing : Option FolderStatement) (id : Text)
    (mayDeleteChats deleteContents : Bool) :
    LeavesNothing db (deleteFolderById db user failing id mayDeleteChats deleteContents) ↔
      ∀ folder children, folderToDelete db.folders user failing id = .ok folder →
        deletionRefused db user failing folder.userId id mayDeleteChats = none →
          getChildrenFolders db.folders id folder.userId = some children →
            NothingLeft failing folder.userId id children db := by
  have hsame : ∀ error, LeavesNothing db (db, some error) := by
    intro error
    refine ⟨nofun, fun _ => .inl fun c ⟨hsome, hnone⟩ => ?_⟩
    rw [hnone] at hsome
    cases hsome
  rw [deleteFolderById]
  cases hfolder : folderToDelete db.folders user failing id with
  | error error => exact iff_of_true (hsame error) nofun
  | ok folder =>
    simp only
    cases hrefused : deletionRefused db user failing folder.userId id mayDeleteChats with
    | some error =>
      refine iff_of_true (hsame error) fun folder' children h hnone => ?_
      cases h
      rw [hrefused] at hnone
      cases hnone
    | none =>
      obtain ⟨folderIds, hids⟩ := subtree_of_not_refused hrefused
      obtain ⟨children, hchildren⟩ := exists_children (folderToDelete_eq_ok hfolder) hids
      have hleaves := deleteTree_iff db failing deleteContents hchildren
      have hresult : ∀ error, LeavesNothing db ((deleteTree db failing folder.userId id deleteContents).1, error) ↔
          NothingLeft failing folder.userId id children db := fun error => (leavesNothing_iff_refers _ _).trans hleaves
      refine Iff.trans ?_ ⟨fun h folder' children' heq _ hchildren' => ?_,
        fun h => h folder children rfl hrefused hchildren⟩
      · split_ifs
        · exact hresult _
        · exact hresult _
        · exact hresult _
      · cases heq
        rw [hchildren] at hchildren'
        cases hchildren'
        exact h

namespace Sample

def filedChat : FolderDb where
  folders := (Dict.empty.set (.lit "a") (folderUnder none "A")).set (.lit "b") (folderUnder (some (.lit "a")) "B")
  chats := [{ userId := .lit "u", folderId := some (.lit "b") }]
  automations := []
  grants := []

end Sample

/-- The deletion of the outer folder fails after the inner one is gone: `True` is returned, and the chat stays. -/
theorem leavesNothing_fails : ¬ ∀ (db : FolderDb) (user : VerifiedUser) (failing : Option FolderStatement) (id : Text)
    (mayDeleteChats deleteContents : Bool),
      LeavesNothing db (deleteFolderById db user failing id mayDeleteChats deleteContents) := by
  intro h
  let result := deleteFolderById Sample.filedChat Sample.folderOwner (some (.delete (.lit "a"))) (.lit "a") true true
  have hleaves : LeavesNothing Sample.filedChat result := h _ _ _ _ _ _
  have hreturns : result.2 = none := by decide +kernel
  have hremoved : Removed Sample.filedChat result.1 (.lit "b") := by decide +kernel
  have hrefers : result.1.RefersTo (.lit "b") := by decide +kernel
  exact hleaves.1 hreturns _ hremoved hrefers

end TideBot
