/-
  Folders (`models/folders.py`, `routers/folders.py`, `utils/access_control/folders.py`).

  A row names its owner and its parent.  Nothing in the table ties the two: that parents exist, belong
  to the same owner and run in no circle, and that siblings have different names, is up to the
  handlers.  A name may be NULL: an update that says `null` writes it, and such a row is no
  `FolderModel` any more.

  Of a row the contents are left out, so what the handlers find out about the files of a form is
  part of the request (`filesError`).  The check for the feature comes first in each handler, and is left
  out too.  `lower` is the function of that name of the database.
-/
import TideBot.Access.Grants
import TideBot.Lib.Reach

namespace TideBot

open Lib

/-! ## The table -/

/-- A row of `folder`. -/
structure Folder where
  userId : Text
  parentId : Option Text
  name : Option Text
deriving DecidableEq

/-- Is the row a `FolderModel`? -/
def Folder.valid (f : Folder) : Bool := f.name.isSome

/-- What a handler raises: the status, and what the detail says. -/
inductive FolderError where
  /-- 404 -/
  | notFound
  /-- 403 -/
  | prohibited
  /-- 400, `Folder already exists` -/
  | alreadyExists
  /-- 400, `Cannot move a folder into itself or one of its subfolders` -/
  | intoItself
  /-- 400, `Error updating folder` -/
  | updating
  /-- 500: a row is no model -/
  | invalidRow
deriving DecidableEq

section
variable (lower : Text → Text) (rows : Dict Text Folder)

/-- `Folders.get_folder_by_id_and_user_id` -/
def getFolderByIdAndUserId (id userId : Text) : Option Folder :=
  (rows.get id).filter fun f => f.userId = userId && f.valid

/-- `Folders.get_folder_by_id` -/
def getFolderById (id : Text) : Option Folder := (rows.get id).filter Folder.valid

/-- `Folders.get_folder_by_parent_id_and_user_id_and_name`, with the id of the folder -/
def getFolderByParentIdAndUserIdAndName (parentId : Option Text) (userId name : Text) : Option (Text × Folder) :=
  rows.entries.find? fun e =>
    e.2.parentId = parentId && e.2.userId = userId && e.2.name.any fun n => lower n = lower name

/-- The ids of `Folders.get_folders_by_parent_id_and_user_id`. -/
def childFolderIds (userId id : Text) : List Text :=
  (rows.entries.filter fun e => e.2.parentId = some id && e.2.userId = userId).map Prod.fst

/-- The folder, and what is below it. -/
def subtreeIds (userId id : Text) : List Text := spread (childFolderIds rows userId) rows.size ([id], [id])

/-- `Folders.get_folder_ids_by_id_and_user_id_in_subtree`; `none`: it comes to a row that is no model. -/
def getFolderIdsInSubtree (id userId : Text) : Option (List Text) :=
  if (rows.get id).any fun f => f.userId = userId then
    let ids := subtreeIds rows userId id
    if ids.all fun id' => (rows.get id').all Folder.valid then some ids else none
  else some []

/-- `Folders.update_folder_parent_id_by_id_and_user_id` -/
def updateFolderParentId (id userId : Text) (parentId : Option Text) : Dict Text Folder :=
  match rows.get id with
  | some f => if f.userId = userId then rows.set id { f with parentId := parentId } else rows
  | none => rows

/-- `Folders.update_folder_by_id_and_user_id`, of a form whose name is not set, null or a name: the rows, and
    whether a model is returned. -/
def updateFolderById (id userId : Text) (name : Option (Option Text)) : Dict Text Folder × Bool :=
  match rows.get id with
  | some f =>
    if f.userId ≠ userId then (rows, false)
    else
      -- a name that is not set is looked for as NULL
      let existingFolder := rows.entries.find? fun e =>
        e.2.name = name.join && e.2.parentId = f.parentId && e.2.userId = userId
      if existingFolder.any fun e => e.1 ≠ id then (rows, false)
      else
        let f' := { f with name := name.getD f.name }
        (rows.set id f', f'.valid)
  | none => (rows, false)

/-! ## Access -/

variable (db : GrantDb)

/-- The parent that `has_folder_access` goes to. -/
def folderAbove (id : Text) : Option Text :=
  ((getFolderById rows id).bind Folder.parentId).bind fun p =>
    if p ≠ [] then (getFolderById rows p).map fun _ => p else none

/-- `has_folder_access`, of a folder that is there -/
def hasFolderAccess (userId id permission : Text) : Bool :=
  (trail (folderAbove rows) rows.size [] (some id)).any fun id' =>
    (getFolderById rows id').any (fun f => f.userId = userId) || db.hasAccess userId (.lit "folder") id' permission none

/-! ## Handlers -/

/-- The parent of a new folder, if it is another user's. -/
def sharedParent (user : VerifiedUser) (parentId : Option Text) : Option (Text × Folder) :=
  parentId.bind fun p =>
    if p = [] then none else ((getFolderById rows p).filter fun f => f.userId ≠ user.id).map fun f => (p, f)

/-- `create_folder` -/
def createFolder (user : VerifiedUser) (newId name : Text) (parentId : Option Text) (filesError : Option FolderError) :
    Dict Text Folder × Option FolderError :=
  if (getFolderByParentIdAndUserIdAndName lower rows parentId user.id name).isSome then (rows, some .alreadyExists)
  else
    match sharedParent rows user parentId with
    | some (p, parent) =>
      if !user.isAdmin && !hasFolderAccess rows db user.id p (.lit "write") then (rows, some .prohibited)
      else if filesError.isSome then (rows, filesError)
      else (rows.set newId ⟨parent.userId, parentId, some name⟩, none)
    | none =>
      if filesError.isSome then (rows, filesError)
      else (rows.set newId ⟨user.id, parentId, some name⟩, none)

/-- The folder that `update_folder_name_by_id` is for. -/
def folderToUpdate (user : VerifiedUser) (id : Text) : Option Folder :=
  (getFolderByIdAndUserId rows id user.id).or
    ((getFolderById rows id).filter fun _ => user.isAdmin || hasFolderAccess rows db user.id id (.lit "write"))

/-- `update_folder_name_by_id` -/
def updateFolderNameById (user : VerifiedUser) (id : Text) (name : Option (Option Text))
    (filesError : Option FolderError) : Dict Text Folder × Option FolderError :=
  match folderToUpdate rows db user id with
  | none => (rows, some .notFound)
  | some folder =>
    if name.join.any fun n => (getFolderByParentIdAndUserIdAndName lower rows folder.parentId folder.userId n).any
        fun e => e.1 ≠ id then (rows, some .alreadyExists)
    else if filesError.isSome then (rows, filesError)
    else
      let (rows', updated) := updateFolderById rows id folder.userId name
      (rows', if updated then none else some .updating)

/-- `update_folder_parent_id_by_id` up to its write: what it raises -/
def moveError (user : VerifiedUser) (id : Text) (parentId : Option Text) : Option FolderError :=
  match getFolderByIdAndUserId rows id user.id with
  | none => some .notFound
  | some folder =>
    if (getFolderByParentIdAndUserIdAndName lower rows parentId user.id (folder.name.getD [])).isSome then
      some .alreadyExists
    else
      match parentId with
      | none | some [] => none
      | some p =>
        match getFolderIdsInSubtree rows id user.id with
        | none => some .invalidRow
        | some ids => if p ∈ ids then some .intoItself else none

/-- `update_folder_parent_id_by_id` -/
def updateFolderParentIdById (user : VerifiedUser) (id : Text) (parentId : Option Text) :
    Dict Text Folder × Option FolderError :=
  match moveError lower rows user id parentId with
  | some error => (rows, some error)
  | none => (updateFolderParentId rows id user.id parentId, none)

/-! ### The repair -/

/-- Where `is_in_parent_cycle` ends. -/
def parentCycleEnd (parentById : Dict Text (Option Text)) : ℕ → List Text → Option Text → Option Text
  | n + 1, seenIds, some currentId =>
    if currentId = [] ∨ currentId ∈ seenIds then some currentId
    else parentCycleEnd parentById n (currentId :: seenIds) (parentById.get currentId).join
  | _, _, currentId => currentId

/-- `is_in_parent_cycle` -/
def isInParentCycle (parentById : Dict Text (Option Text)) (folderId : Text) : Bool :=
  parentCycleEnd parentById (parentById.size + 1) [folderId] (parentById.get folderId).join = some folderId

/-- One round of the loop of `get_folders`. -/
def repairFolder (userId : Text) (state : Dict Text (Option Text) × Dict Text Folder) (folder : Text × Folder) :
    Dict Text (Option Text) × Dict Text Folder :=
  match folder.2.parentId with
  | none | some [] => state
  | some p =>
    if (state.1.get p).isNone || isInParentCycle state.1 folder.1 then
      (state.1.set folder.1 none, updateFolderParentId state.2 folder.1 userId none)
    else state

/-- `Folders.get_folders_by_user_id` -/
def foldersOf (userId : Text) : List (Text × Folder) := rows.entries.filter fun e => e.2.userId = userId

/-- `parent_by_id` -/
def parentByIdOf (userId : Text) : Dict Text (Option Text) :=
  (foldersOf rows userId).foldl (fun d e => d.set e.1 e.2.parentId) .empty

/-- `get_folders` -/
def getFolders (user : VerifiedUser) : Dict Text Folder × Option FolderError :=
  let folders := foldersOf rows user.id
  if folders.all fun e => e.2.valid then
    ((folders.foldl (repairFolder user.id) (parentByIdOf rows user.id, rows)).2, none)
  else (rows, some .invalidRow)

end

end TideBot
