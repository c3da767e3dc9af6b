/-
  Access to files through knowledge bases (`utils/access_control/files.py`, `routers/knowledge.py`).

  A knowledge base lets its users write a file only if it belongs to the owner of the file.  Somebody who may
  write to a knowledge base of the owner could still put a file there that they may only read.
  What prevents it is the processing of the file, which comes before the link: for anyone but an admin it
  looks for the file among those of the user (`process_file`, `process_files_batch`).

  What comes of the processing of a file that it finds is part of the action: its collection may be
  recorded in the file.  So is whether the user may create a knowledge base, and which grants it gets.
-/
import TideBot.Knowledge.Rows
import TideBot.Lib.Machine

namespace TideBot

open Lib

/-! ## Access to a file -/

section
variable (db : KnowledgeDb)

/-- Does the knowledge base let the user read or write the file? -/
def knowledgeConfers (accessType userId : Text) (file : FileRow) (id : Text) (knowledge : KnowledgeRow) : Bool :=
  (knowledge.userId = userId || db.grants.hasAccess userId (.lit "knowledge") id accessType none) &&
    (accessType = .lit "read" || knowledge.userId = file.userId)

/-- The same for the workspace models that attach the file. -/
def modelsConfer (accessType userId : Text) (file : FileRow) (fileId : Text) : Bool :=
  let modelOwners := (db.attachments.modelOwners fileId).filter fun m =>
    accessType = .lit "read" || m.2 = file.userId
  modelOwners.any (fun m => m.2 = userId) ||
    db.grants.getAccessibleResourceIds userId (.lit "model") (modelOwners.map Prod.fst) accessType none ≠ []

/-- The same for shared chats. -/
def chatsConfer (userId fileId : Text) : Bool :=
  let sharedChatIds := db.attachments.sharedChats fileId
  sharedChatIds ≠ [] &&
    db.grants.getAccessibleResourceIds userId (.lit "shared_chat") sharedChatIds (.lit "read") none ≠ []

/-- `has_access_to_file` -/
def hasAccessToFile (fileId accessType userId : Text) : Bool :=
  match db.files.get fileId with
  | none => false
  | some file =>
    file.userId = userId ||
    ((db.getKnowledgesByFileId fileId).any fun k => knowledgeConfers db accessType userId file k.1 k.2) ||
    (file.collectionName.any fun id =>
      id ≠ [] && (db.knowledge.get id).any fun k => knowledgeConfers db accessType userId file id k) ||
    (accessType = .lit "read" && db.attachments.channels fileId userId) ||
    (accessType = .lit "read" && chatsConfer db userId fileId) ||
    modelsConfer db accessType userId file fileId

/-! ## Actions -/

/-- What comes of the processing of a file. -/
inductive Processed where
  | failed
  /-- without embedding -/
  | bypassed
  | embedded
deriving DecidableEq

/-- May the user have the file processed? -/
def processable (user : VerifiedUser) (fileId : Text) : Bool :=
  (db.files.get fileId).any fun file => file.userId = user.id || user.isAdmin

/-- `process_file`; `none`: it raises. -/
def processFile (user : VerifiedUser) (knowledgeId fileId : Text) (processed : Processed) : Option KnowledgeDb :=
  match db.files.get fileId with
  | none => none
  | some file =>
    if !processable db user fileId then none
    else
      match processed with
      | .failed => none
      | .bypassed => some db
      | .embedded =>
        some { db with files := db.files.set fileId { file with collectionName := some knowledgeId } }

/-- `add_file_to_knowledge_by_id` -/
def addFileToKnowledgeById (foreignKeys : Bool) (user : VerifiedUser) (id fileId : Text) (directoryId : Option Text)
    (processed : Processed) : KnowledgeDb × Option KnowledgeError :=
  match db.writeAccessError user id with
  | some error => (db, some error)
  | none =>
    match db.files.get fileId with
    | none => (db, some .notFound)
    | some file =>
      if !file.hasData then (db, some .notProcessed)
      else if file.userId ≠ user.id ∧ !user.isAdmin ∧ !hasAccessToFile db fileId (.lit "read") user.id then
        (db, some .prohibited)
      else
        match processFile db user id fileId processed with
        | none => (db, some .processing)
        | some db => (db.addFileToKnowledge foreignKeys id fileId directoryId, none)

/-- `add_files_to_knowledge_batch`, of files with their directories; `completed` says of which of them the
    processing completes. -/
def addFilesToKnowledgeBatch (foreignKeys : Bool) (user : VerifiedUser) (id : Text) (form : List (Text × Option Text))
    (completed : Text → Bool) : KnowledgeDb × Option KnowledgeError :=
  match db.writeAccessError user id with
  | some error => (db, some error)
  | none =>
    if form.any fun e => (db.files.get e.1).isNone then (db, some .notFound)
    else if !user.isAdmin && form.any fun e => !((db.files.get e.1).any fun file => file.userId = user.id) &&
        !hasAccessToFile db e.1 (.lit "read") user.id then (db, some .prohibited)
    else
      let newEntries := form.filter fun e => !db.hasFile id e.1
      let successfulFileIds := (newEntries.map Prod.fst).dedup.filter fun fileId =>
        processable db user fileId && completed fileId
      -- `dir_map`: of two entries for a file the later one counts
      let directoryOf (fileId : Text) : Option Text := (newEntries.reverse.find? fun e => e.1 = fileId).bind Prod.snd
      (successfulFileIds.foldl (fun db fileId => db.addFileToKnowledge foreignKeys id fileId (directoryOf fileId)) db,
        none)

/-- `create_new_knowledge`, once the user may, with the grants that the new knowledge base gets: type and id of the
    principal, and permission -/
def createNewKnowledge (user : VerifiedUser) (newId : Text) (isExternal : Bool) (grants : List (Text × Text × Text)) :
    KnowledgeDb :=
  { db with
    knowledge := db.knowledge.set newId ⟨user.id, isExternal⟩
    grants := { db.grants with
      grants := (db.grants.grants.filter fun g =>
          !(g.resourceType = .lit "knowledge" && g.resourceId = newId)) ++
        grants.map fun g => ⟨.lit "knowledge", newId, g.1, g.2.1, g.2.2⟩ } }

end

/-- What a user does. -/
inductive FileAction where
  | create (newId : Text) (isExternal : Bool) (grants : List (Text × Text × Text))
  | add (id fileId : Text) (directoryId : Option Text) (processed : Processed)
  | addBatch (id : Text) (form : List (Text × Option Text)) (completed : Text → Bool)

/-- The actions of one user. -/
def fileMachine (foreignKeys : Bool) (user : VerifiedUser) :
    Machine KnowledgeDb FileAction (Option KnowledgeError) where
  step db
    | .create newId isExternal grants =>
      if (db.knowledge.get newId).isSome then none else some (createNewKnowledge db user newId isExternal grants, none)
    | .add id fileId directoryId processed =>
      some (addFileToKnowledgeById db foreignKeys user id fileId directoryId processed)
    | .addBatch id form completed => some (addFilesToKnowledgeBatch db foreignKeys user id form completed)

/-! ## What stays as it is -/

/-- For the file nothing that lets the user write it is added: the links of the file stay, the knowledge bases and
    grants that are there stay, and new knowledge bases are the user's. -/
structure NothingConferred (db db' : KnowledgeDb) (userId fileId : Text) : Prop where
  file : db'.files.get fileId = db.files.get fileId
  links : (db'.knowledgeFiles.filter fun l => l.fileId = fileId) = db.knowledgeFiles.filter fun l => l.fileId = fileId
  knowledge : ∀ id k, db'.knowledge.get id = some k → k.userId = userId ∨ db.knowledge.get id = some k
  grants : ∀ id, (db.knowledge.get id).isSome →
    db'.grants.hasAccess userId (.lit "knowledge") id (.lit "write") none =
      db.grants.hasAccess userId (.lit "knowledge") id (.lit "write") none
  models : ∀ ids, db'.grants.getAccessibleResourceIds userId (.lit "model") ids (.lit "write") none = [] ↔
    db.grants.getAccessibleResourceIds userId (.lit "model") ids (.lit "write") none = []
  attachments : db'.attachments = db.attachments

section
variable {db db' : KnowledgeDb} {user : VerifiedUser} {userId fileId id : Text} {file : FileRow}

/-- A knowledge base that lets a user write another's file is not the user's own. -/
theorem knowledgeConfers_write {k : KnowledgeRow} : knowledgeConfers db (.lit "write") userId file id k ↔
    (k.userId = userId ∨ db.grants.hasAccess userId (.lit "knowledge") id (.lit "write") none) ∧
      k.userId = file.userId := by
  simp [knowledgeConfers]

theorem NothingConferred.confers (h : NothingConferred db db' userId fileId) (hother : file.userId ≠ userId)
    {k : KnowledgeRow} (hk : db'.knowledge.get id = some k)
    (hc : knowledgeConfers db' (.lit "write") userId file id k) :
    db.knowledge.get id = some k ∧ knowledgeConfers db (.lit "write") userId file id k := by
  obtain ⟨haccess, howner⟩ := knowledgeConfers_write.1 hc
  have hk' : db.knowledge.get id = some k :=
    (h.knowledge id k hk).resolve_left fun hown => hother (howner.symm.trans hown)
  refine ⟨hk', knowledgeConfers_write.2 ⟨haccess.imp (fun hown => hown) fun hgrant => ?_, howner⟩⟩
  rwa [← h.grants id (by rw [hk']; rfl)]

theorem mem_getKnowledgesByFileId {k : Text × KnowledgeRow} : k ∈ db.getKnowledgesByFileId fileId ↔
    (∃ l ∈ db.knowledgeFiles.filter fun l => l.fileId = fileId, l.knowledgeId = k.1) ∧
      db.knowledge.get k.1 = some k.2 := by
  simp only [KnowledgeDb.getKnowledgesByFileId, List.mem_filterMap, Option.map_eq_some_iff]
  constructor
  · rintro ⟨l, hl, row, hrow, rfl⟩
    exact ⟨⟨l, hl, rfl⟩, hrow⟩
  · rintro ⟨⟨l, hl, hid⟩, hrow⟩
    exact ⟨l, hl, k.2, hid ▸ hrow, by rw [hid]⟩

theorem NothingConferred.modelsConfer (h : NothingConferred db db' userId fileId) :
    TideBot.modelsConfer db' (.lit "write") userId file fileId =
      TideBot.modelsConfer db (.lit "write") userId file fileId := by
  simp only [TideBot.modelsConfer, h.attachments, ne_eq, decide_not, h.models]

/-- **Whoever may write the file might before.** -/
theorem NothingConferred.write (h : NothingConferred db db' userId fileId)
    (hother : ∀ file, db.files.get fileId = some file → file.userId ≠ userId)
    (hwrite : hasAccessToFile db' fileId (.lit "write") userId) : hasAccessToFile db fileId (.lit "write") userId := by
  unfold hasAccessToFile at hwrite ⊢
  rw [h.file] at hwrite
  cases hfile : db.files.get fileId with
  | none =>
    rw [hfile] at hwrite
    cases hwrite
  | some file =>
    have hne := hother file hfile
    have hread : (Text.lit "write" : Text) ≠ .lit "read" := by simp
    rw [hfile] at hwrite
    simp only [hne, decide_false, Bool.false_or, hread, Bool.false_and, Bool.or_false, Bool.or_eq_true] at hwrite ⊢
    rcases hwrite with (hlinked | hcollection) | hmodels
    · refine .inl (.inl ?_)
      obtain ⟨k, hk, hconfers⟩ := List.any_eq_true.1 hlinked
      obtain ⟨⟨l, hl, hid⟩, hrow⟩ := mem_getKnowledgesByFileId.1 hk
      obtain ⟨hrow', hconfers'⟩ := h.confers hne hrow hconfers
      exact List.any_eq_true.2 ⟨k, mem_getKnowledgesByFileId.2 ⟨⟨l, h.links ▸ hl, hid⟩, hrow'⟩, hconfers'⟩
    · refine .inl (.inr ?_)
      obtain ⟨id, hid, hcollection⟩ := (Option.any_eq_true _ _).1 hcollection
      obtain ⟨hnil, hknowledge⟩ := Bool.and_eq_true_iff.1 hcollection
      obtain ⟨k, hk, hconfers⟩ := (Option.any_eq_true _ _).1 hknowledge
      obtain ⟨hk', hconfers'⟩ := h.confers hne hk hconfers
      refine (Option.any_eq_true _ _).2 ⟨id, hid, Bool.and_eq_true_iff.2 ⟨hnil, ?_⟩⟩
      exact (Option.any_eq_true _ _).2 ⟨k, hk', hconfers'⟩
    · exact .inr (h.modelsConfer ▸ hmodels)

theorem NothingConferred.refl : NothingConferred db db userId fileId :=
  ⟨rfl, rfl, fun _ _ => .inr, fun _ _ => rfl, fun _ => Iff.rfl, rfl⟩

/-! ## The actions -/

theorem NothingConferred.link (h : NothingConferred db db' userId fileId) {foreignKeys : Bool} {other : Text}
    {directoryId : Option Text} (hne : other ≠ fileId) :
    NothingConferred db (db'.addFileToKnowledge foreignKeys id other directoryId) userId fileId := by
  unfold KnowledgeDb.addFileToKnowledge
  split_ifs
  · exact h
  · exact h
  · refine { h with links := ?_ }
    rw [List.filter_append, h.links]
    simp [hne]

theorem NothingConferred.links_foldl (h : NothingConferred db db' userId fileId) {foreignKeys : Bool}
    {directoryOf : Text → Option Text} {fileIds : List Text} (hne : ∀ other ∈ fileIds, other ≠ fileId) :
    NothingConferred db
      (fileIds.foldl (fun db other => db.addFileToKnowledge foreignKeys id other (directoryOf other)) db') userId
      fileId := by
  induction fileIds generalizing db' with
  | nil => exact h
  | cons other rest ih =>
    exact ih (h.link (hne other List.mem_cons_self)) fun o ho => hne o (List.mem_cons_of_mem _ ho)

/-- **A file that the user may have processed is not another's.** -/
theorem ne_of_processable (huser : user.isAdmin = false)
    (hother : ∀ file, db.files.get fileId = some file → file.userId ≠ user.id) {other : Text}
    (hp : processable db user other) : other ≠ fileId := by
  rintro rfl
  obtain ⟨file, hfile, hown⟩ := (Option.any_eq_true _ _).1 hp
  simp only [huser, Bool.or_false, decide_eq_true_eq] at hown
  exact hother file hfile hown

theorem NothingConferred.process {other : Text} {processed : Processed} (hne : other ≠ fileId)
    (hdb : processFile db user id other processed = some db') : NothingConferred db db' userId fileId := by
  unfold processFile at hdb
  cases hfile : db.files.get other with
  | none =>
    rw [hfile] at hdb
    cases hdb
  | some file =>
    rw [hfile] at hdb
    obtain ⟨-, hdb⟩ := Option.ite_none_left_eq_some.1 hdb
    cases processed with
    | failed => cases hdb
    | bypassed =>
      cases hdb
      exact .refl
    | embedded =>
      cases hdb
      refine { (NothingConferred.refl : NothingConferred db db userId fileId) with file := ?_ }
      rw [Dict.get_set, if_neg hne.symm]

theorem processable_of_processFile {other : Text} {processed : Processed}
    (hdb : processFile db user id other processed = some db') : processable db user other := by
  unfold processFile at hdb
  cases hfile : db.files.get other with
  | none =>
    rw [hfile] at hdb
    cases hdb
  | some file =>
    rw [hfile] at hdb
    obtain ⟨hp, -⟩ := Option.ite_none_left_eq_some.1 hdb
    simpa using hp

theorem NothingConferred.add (huser : user.isAdmin = false)
    (hother : ∀ file, db.files.get fileId = some file → file.userId ≠ user.id) {foreignKeys : Bool} {other : Text}
    {directoryId : Option Text} {processed : Processed} :
    NothingConferred db (addFileToKnowledgeById db foreignKeys user id other directoryId processed).1 user.id
      fileId := by
  unfold addFileToKnowledgeById
  split
  · exact .refl
  split
  · exact .refl
  split
  · exact .refl
  split
  · exact .refl
  split
  · exact .refl
  rename_i db' hdb
  have hne := ne_of_processable huser hother (processable_of_processFile hdb)
  exact (NothingConferred.process hne hdb).link hne

theorem NothingConferred.addBatch (huser : user.isAdmin = false)
    (hother : ∀ file, db.files.get fileId = some file → file.userId ≠ user.id) {foreignKeys : Bool}
    {form : List (Text × Option Text)} {completed : Text → Bool} :
    NothingConferred db (addFilesToKnowledgeBatch db foreignKeys user id form completed).1 user.id fileId := by
  unfold addFilesToKnowledgeBatch
  split
  · exact .refl
  split
  · exact .refl
  split
  · exact .refl
  refine NothingConferred.refl.links_foldl fun other hin => ?_
  obtain ⟨hp, -⟩ := Bool.and_eq_true_iff.1 (List.mem_filter.1 hin).2
  exact ne_of_processable huser hother hp

theorem granted_createNewKnowledge {newId : Text} {isExternal : Bool} {grants : List (Text × Text × Text)}
    {resourceType resourceId permission : Text} (hne : resourceType = .lit "knowledge" → resourceId ≠ newId) :
    (createNewKnowledge db user newId isExternal grants).grants.Granted userId resourceType resourceId permission ↔
      db.grants.Granted userId resourceType resourceId permission := by
  refine exists_congr fun g => and_congr_left fun _ => ?_
  simp only [mem_grantsOf, createNewKnowledge, List.mem_append, List.mem_filter, List.mem_map]
  refine and_congr_left ?_
  rintro ⟨rfl, rfl, -⟩
  constructor
  · rintro (⟨hg, -⟩ | ⟨e, -, rfl⟩)
    · exact hg
    · exact absurd rfl (hne rfl)
  · intro hg
    exact .inl ⟨hg, by simpa [imp_iff_not_or] using hne⟩

theorem NothingConferred.create {newId : Text} (hnew : db.knowledge.get newId = none) {isExternal : Bool}
    {grants : List (Text × Text × Text)} :
    NothingConferred db (createNewKnowledge db user newId isExternal grants) user.id fileId where
  file := rfl
  links := rfl
  attachments := rfl
  knowledge id k hk := by
    simp only [createNewKnowledge, Dict.get_set] at hk
    split_ifs at hk with hid
    · cases hk
      exact .inl rfl
    · exact .inr hk
  grants id hid := by
    have hne : id ≠ newId := by
      rintro rfl
      rw [hnew] at hid
      cases hid
    rw [Bool.eq_iff_iff, GrantDb.hasAccess_iff, GrantDb.hasAccess_iff, granted_createNewKnowledge fun _ => hne]
  models ids := by
    simp only [List.eq_nil_iff_forall_not_mem, GrantDb.mem_getAccessibleResourceIds]
    refine forall_congr' fun id => not_congr (and_congr_right fun _ => granted_createNewKnowledge fun htype => ?_)
    simp at htype

/-- **What a user does confers nothing on them for a file of another.** -/
theorem fileMachine_step (huser : user.isAdmin = false)
    (hother : ∀ file, db.files.get fileId = some file → file.userId ≠ user.id) {foreignKeys : Bool}
    {action : FileAction} {result : Option KnowledgeError}
    (hstep : (fileMachine foreignKeys user).step db action = some (db', result)) :
    NothingConferred db db' user.id fileId := by
  cases action with
  | create newId isExternal grants =>
    obtain ⟨hnew, hs⟩ := Option.ite_none_left_eq_some.1 hstep
    obtain rfl : createNewKnowledge db user newId isExternal grants = db' := congrArg Prod.fst (Option.some.inj hs)
    exact .create (by simpa using hnew)
  | add id other directoryId processed =>
    obtain rfl : (addFileToKnowledgeById db foreignKeys user id other directoryId processed).1 = db' :=
      congrArg Prod.fst (Option.some.inj hstep)
    exact .add huser hother
  | addBatch id form completed =>
    obtain rfl : (addFilesToKnowledgeBatch db foreignKeys user id form completed).1 = db' :=
      congrArg Prod.fst (Option.some.inj hstep)
    exact .addBatch huser hother

end

/-! ## Runs -/

/-- **A file of another that a user may not write they may not write after anything they do alone.** -/
theorem writeNotLaundered {foreignKeys : Bool} {user : VerifiedUser} (huser : user.isAdmin = false)
    {db db' : KnowledgeDb} {fileId : Text} (hother : ∀ file, db.files.get fileId = some file → file.userId ≠ user.id)
    (hwrite : hasAccessToFile db fileId (.lit "write") user.id = false)
    {tr : List (FileAction × Option KnowledgeError)} (hrun : (fileMachine foreignKeys user).Run db tr db') :
    hasAccessToFile db' fileId (.lit "write") user.id = false := by
  refine (hrun.invariant (I := fun db => (∀ file, db.files.get fileId = some file → file.userId ≠ user.id) ∧
    hasAccessToFile db fileId (.lit "write") user.id = false) ?_ ⟨hother, hwrite⟩).2
  rintro db action db' result - ⟨hother, hwrite⟩ hstep
  have hnothing := fileMachine_step huser hother hstep
  refine ⟨fun file hfile => hother file (hnothing.file ▸ hfile), ?_⟩
  rw [← Bool.not_eq_true] at hwrite ⊢
  exact fun hwrite' => hwrite (hnothing.write hother hwrite')

namespace Sample

/-- `o` lets `u` read the file `f` in one knowledge base and write to another one. -/
def sharedKnowledge : KnowledgeDb where
  knowledge := (Dict.empty.set (.lit "read") ⟨.lit "o", false⟩).set (.lit "write") ⟨.lit "o", false⟩
  directories := .empty
  knowledgeFiles := [⟨.lit "read", .lit "f", none⟩]
  files := (Dict.empty.set (.lit "f") ⟨.lit "o", .lit "f.txt", true, none, none⟩).set (.lit "g")
    ⟨.lit "u", .lit "g.txt", true, none, none⟩
  grants := ⟨[⟨.lit "knowledge", .lit "read", .lit "user", .lit "u", .lit "read"⟩,
    ⟨.lit "knowledge", .lit "write", .lit "user", .lit "u", .lit "write"⟩], [], [], .empty⟩
  attachments := ⟨fun _ _ => false, fun _ => [], fun _ => []⟩

def knowledgeUser : VerifiedUser := ⟨.lit "u", false⟩

end Sample

/-- The user may add their own file, and not the one that they may only read. -/
theorem writeNotLaundered_refused :
    ∃ tr db', (fileMachine false Sample.knowledgeUser).Run Sample.sharedKnowledge tr db' ∧
    hasAccessToFile Sample.sharedKnowledge (.lit "f") (.lit "read") (.lit "u") ∧
    tr.map Prod.snd = [none, none, some .processing] ∧
    hasAccessToFile db' (.lit "f") (.lit "write") (.lit "u") = false := by
  obtain ⟨⟨tr, db'⟩, hm, hout⟩ : ∃ r ∈ (fileMachine false Sample.knowledgeUser).exec (fun _ _ => True)
      Sample.sharedKnowledge [.create (.lit "mine") false [], .add (.lit "write") (.lit "g") none .embedded,
        .add (.lit "write") (.lit "f") none .embedded],
      r.1.map Prod.snd = [none, none, some .processing] := by
    decide +kernel
  refine ⟨tr, db', Machine.runIn_of_exec hm, by decide +kernel, hout, ?_⟩
  have huser : Sample.knowledgeUser.isAdmin = false := rfl
  refine writeNotLaundered huser ?_ (by decide +kernel) (Machine.runIn_of_exec hm)
  intro file hfile
  obtain rfl : ⟨.lit "o", .lit "f.txt", true, none, none⟩ = file := Option.some.inj hfile
  decide

end TideBot
