/-
  Knowledge bases (`models/knowledge.py`): their files, and their directories.

  A row of `knowledge_file` links a file to a knowledge base, and puts it into a directory, or at the root.  A row of
  `knowledge_directory` names its knowledge base and its parent.  The tables have foreign keys: a parent
  must be there, a directory goes with its parent, and a link to a directory that goes is set to
  NULL.  PostgreSQL keeps them; SQLite does not unless it is told to, and nothing tells it to.

  What else a file is attached to (channels, shared chats, models) is given by functions: nothing here
  changes it.
-/
import TideBot.Access.Grants

namespace TideBot

open Lib

/-- A row of `knowledge`. -/
structure KnowledgeRow where
  userId : Text
  /-- `meta['source'] == 'external'` -/
  isExternal : Bool
deriving DecidableEq

/-- A row of `knowledge_directory`. -/
structure KnowledgeDirectory where
  knowledgeId : Text
  parentId : Option Text
  name : Text
deriving DecidableEq

/-- A row of `knowledge_file`. -/
structure KnowledgeFile where
  knowledgeId : Text
  fileId : Text
  directoryId : Option Text
deriving DecidableEq

/-- A row of `file`. -/
structure FileRow where
  userId : Text
  filename : Text
  /-- `file.data` is not empty -/
  hasData : Bool
  /-- `meta['collection_name']` -/
  collectionName : Option Text
  /-- `meta['file_hash']` -/
  fileHash : Option Text
deriving DecidableEq

/-- What a file is attached to, apart from knowledge bases. -/
structure Attachments where
  /-- has the user a channel with the file? -/
  channels : Text → Text → Bool
  sharedChats : Text → List Text
  /-- the models that attach the file, with their owners -/
  modelOwners : Text → List (Text × Text)

/-- The tables. -/
structure KnowledgeDb where
  knowledge : Dict Text KnowledgeRow
  directories : Dict Text KnowledgeDirectory
  knowledgeFiles : List KnowledgeFile
  files : Dict Text FileRow
  grants : GrantDb
  attachments : Attachments

/-- What a handler raises. -/
inductive KnowledgeError where
  /-- 400 or 404 -/
  | notFound
  /-- 400, `External knowledge bases are read-only.` -/
  | external
  /-- 400 or 403 -/
  | prohibited
  /-- 400: the file has no data -/
  | notProcessed
  /-- 400: what the processing of the file says -/
  | processing
  /-- 400: `Failed to create directory. …`, `Failed to update directory. …` -/
  | failedDirectory
  /-- 500, `Failed to delete directory.` -/
  | failedDelete
deriving DecidableEq

namespace KnowledgeDb

variable (db : KnowledgeDb)

/-- `Knowledges.get_knowledges_by_file_id`: a join of knowledge bases and links. -/
def getKnowledgesByFileId (fileId : Text) : List (Text × KnowledgeRow) :=
  (db.knowledgeFiles.filter fun l => l.fileId = fileId).filterMap fun l =>
    (db.knowledge.get l.knowledgeId).map fun k => (l.knowledgeId, k)

/-- `Knowledges.has_file` -/
def hasFile (knowledgeId fileId : Text) : Bool :=
  db.knowledgeFiles.any fun l => l.knowledgeId = knowledgeId && l.fileId = fileId

/-- `Knowledges.add_file_to_knowledge_by_id`: there is one link of a knowledge base to a file, and, with foreign
    keys, its directory is there. -/
def addFileToKnowledge (foreignKeys : Bool) (knowledgeId fileId : Text) (directoryId : Option Text) : KnowledgeDb :=
  if db.hasFile knowledgeId fileId then db
  else if foreignKeys && directoryId.any fun d => (db.directories.get d).isNone then db
  else { db with knowledgeFiles := db.knowledgeFiles ++ [⟨knowledgeId, fileId, directoryId⟩] }

/-- `_verify_knowledge_write_access`, and the same check of the handlers that add files: what it raises -/
def writeAccessError (user : VerifiedUser) (id : Text) : Option KnowledgeError :=
  match db.knowledge.get id with
  | none => some .notFound
  | some knowledge =>
    if knowledge.isExternal then some .external
    else if knowledge.userId ≠ user.id ∧
        !db.grants.hasAccess user.id (.lit "knowledge") id (.lit "write") none ∧ !user.isAdmin then some .prohibited
    else none

end KnowledgeDb

end TideBot
