/-
  Directories of knowledge bases (`models/knowledge.py`, `routers/knowledge.py`).

  A directory names its parent by an id that the client sends, and nothing says that it is a directory of
  the same knowledge base.  A move looks for a circle before it writes, and another move may be written
  in between.  Whether the children of a directory that is deleted go with it is up to the
  foreign keys.

  The ways up and down stop when they run out of fuel, where the source would go on for ever, or as
  far as the stack allows.
-/
import TideBot.Knowledge.Rows
import TideBot.Lib.Descent
import TideBot.Lib.Forest
import TideBot.Lib.Machine
import TideBot.Lib.Reach

namespace TideBot

open Lib Relation

namespace KnowledgeDb

variable (db : KnowledgeDb)

/-! ## Writes -/

/-- `select(KnowledgeDirectory.id).filter_by(parent_id=directory_id)` -/
def childDirectoryIds (directoryId : Text) : List Text :=
  (db.directories.entries.filter fun e => e.2.parentId = some directoryId).map Prod.fst

/-- The directory, and what is below it. -/
def directorySubtreeIds (directoryId : Text) : List Text :=
  spread db.childDirectoryIds db.directories.size ([directoryId], [directoryId])

/-- `UniqueConstraint('knowledge_id', 'parent_id', 'name')`: no NULL is like another. -/
def nameTaken (directoryId : Text) (row : KnowledgeDirectory) : Bool :=
  row.parentId.isSome && db.directories.entries.any fun e => e.1 ≠ directoryId && e.2 = row

/-- A row is inserted or updated; `none`: a constraint refuses it. -/
def writeDirectory (foreignKeys : Bool) (directoryId : Text) (row : KnowledgeDirectory) : Option KnowledgeDb :=
  if foreignKeys && row.parentId.any fun p => (db.directories.get p).isNone then none
  else if db.nameTaken directoryId row then none
  else some { db with directories := db.directories.set directoryId row }

/-- A row, if it is there, is updated, and read again. -/
def updateDirectoryRow (foreignKeys : Bool) (directoryId : Text) (change : KnowledgeDirectory → KnowledgeDirectory) :
    Option KnowledgeDb :=
  (db.directories.get directoryId).bind fun d => db.writeDirectory foreignKeys directoryId (change d)

/-- `rename_directory` -/
def renameDirectory (foreignKeys : Bool) (directoryId name : Text) : Option KnowledgeDb :=
  db.updateDirectoryRow foreignKeys directoryId fun d => { d with name := name }

/-- What `move_directory` goes to next when it looks for a circle. -/
def directoryAbove (directoryId : Text) : Option Text :=
  ((db.directories.get directoryId).bind KnowledgeDirectory.parentId).filter fun p => p ≠ []

/-- Does `move_directory` come to the directory on its way up? -/
def findsCircle (directoryId : Text) : Option Text → Bool
  | none | some [] => false
  | some p => directoryId ∈ trail db.directoryAbove (db.directories.size + 1) [] (some p)

/-- The write of `move_directory` -/
def moveDirectory (foreignKeys : Bool) (directoryId : Text) (newParentId : Option Text) : Option KnowledgeDb :=
  db.updateDirectoryRow foreignKeys directoryId fun d => { d with parentId := newParentId }

/-! ## Deletion -/

/-- `delete(KnowledgeFile).filter_by(directory_id=directory_id)` -/
def deleteFilesIn (directoryId : Text) (links : List KnowledgeFile) : List KnowledgeFile :=
  links.filter fun l => l.directoryId ≠ some directoryId

/-- `update(KnowledgeFile).filter_by(directory_id=directory_id).values(directory_id=target_directory_id)` -/
def moveFilesIn (target : Option Text) (directoryId : Text) (links : List KnowledgeFile) : List KnowledgeFile :=
  links.map fun l => if l.directoryId = some directoryId then { l with directoryId := target } else l

/-- `_delete_files_in_subtree`; `none`: it does not come to an end. -/
def deleteFilesInSubtree (directoryId : Text) : Option (List KnowledgeFile) :=
  visit db.childDirectoryIds deleteFilesIn (db.directories.size + 1) directoryId db.knowledgeFiles

/-- `_move_files_from_subtree`, which begins with the children. -/
def moveFilesFromSubtree (directoryId : Text) (target : Option Text) (links : List KnowledgeFile) :
    Option (List KnowledgeFile) :=
  (db.childDirectoryIds directoryId).foldlM
    (fun links c => visit db.childDirectoryIds (moveFilesIn target) db.directories.size c links) links

/-- `delete(KnowledgeDirectory).filter_by(id=directory_id)`: with foreign keys what is below goes too (`CASCADE`),
    and links lose their directory (`SET NULL`). -/
def deleteDirectoryRow (foreignKeys : Bool) (directoryId : Text) : KnowledgeDb :=
  if foreignKeys then
    let ids := db.directorySubtreeIds directoryId
    { db with
      directories := db.directories.filter fun e => e.1 ∉ ids
      knowledgeFiles := db.knowledgeFiles.map fun l =>
        if l.directoryId.any fun d => d ∈ ids then { l with directoryId := none } else l }
  else { db with directories := db.directories.erase directoryId }

/-- The links once the files of the directory are moved, or deleted. -/
def linksAfterDelete (directoryId : Text) (parentId : Option Text) (moveFilesToParent : Bool) :
    Option (List KnowledgeFile) :=
  if moveFilesToParent then
    db.moveFilesFromSubtree directoryId parentId (moveFilesIn parentId directoryId db.knowledgeFiles)
  else db.deleteFilesInSubtree directoryId

/-- `delete_directory`; `none`: it returns `False`. -/
def deleteDirectory (foreignKeys : Bool) (directoryId : Text) (moveFilesToParent : Bool) : Option KnowledgeDb :=
  (db.directories.get directoryId).bind fun directory =>
    (db.linksAfterDelete directoryId directory.parentId moveFilesToParent).map fun links =>
      { db with knowledgeFiles := links }.deleteDirectoryRow foreignKeys directoryId

/-! ## Handlers -/

/-- `create_knowledge_directory`, of a directory that gets the id `newId` -/
def createKnowledgeDirectory (foreignKeys : Bool) (user : VerifiedUser) (newId id name : Text)
    (parentId : Option Text) : KnowledgeDb × Option KnowledgeError :=
  match db.writeAccessError user id with
  | some error => (db, some error)
  | none =>
    match db.writeDirectory foreignKeys newId ⟨id, parentId, name⟩ with
    | none => (db, some .failedDirectory)
    | some db' => (db', none)

/-- The check that a directory belongs to the knowledge base. -/
def ownDirectoryError (id directoryId : Text) : Option KnowledgeError :=
  if (db.directories.get directoryId).any fun d => d.knowledgeId = id then none else some .notFound

/-- `delete_knowledge_directory` -/
def deleteKnowledgeDirectory (foreignKeys : Bool) (user : VerifiedUser) (id directoryId : Text) (moveFiles : Bool) :
    KnowledgeDb × Option KnowledgeError :=
  match (db.writeAccessError user id).or (db.ownDirectoryError id directoryId) with
  | some error => (db, some error)
  | none =>
    match db.deleteDirectory foreignKeys directoryId moveFiles with
    | none => (db, some .failedDelete)
    | some db' => (db', none)

end KnowledgeDb

/-- `KnowledgeDirectoryUpdateForm`; a parent that is not set is `none`. -/
structure DirectoryForm where
  name : Option Text
  parentId : Option (Option Text)
deriving DecidableEq

/-- `update_knowledge_directory` up to its first write: what it raises -/
def KnowledgeDb.updateDirectoryError (db : KnowledgeDb) (user : VerifiedUser) (id directoryId : Text)
    (form : DirectoryForm) : Option KnowledgeError :=
  ((db.writeAccessError user id).or (db.ownDirectoryError id directoryId)).or
    (if form.parentId.any fun p => db.findsCircle directoryId p then some .failedDirectory else none)

/-- The writes of `update_directory`: the move, and then the new name. -/
def KnowledgeDb.updateDirectory (db : KnowledgeDb) (foreignKeys : Bool) (directoryId : Text) (form : DirectoryForm) :
    KnowledgeDb × Option KnowledgeError :=
  match (match form.parentId with
    | none => some db
    | some p => db.moveDirectory foreignKeys directoryId p) with
  | none => (db, some .failedDirectory)
  | some moved =>
    match form.name with
    | none => (moved, if (moved.directories.get directoryId).isSome then none else some .failedDirectory)
    | some name =>
      match moved.renameDirectory foreignKeys directoryId name with
      | none => (moved, some .failedDirectory)
      | some renamed => (renamed, none)

/-- An update that has been checked. -/
structure DirectoryUpdate where
  id : Text
  directoryId : Text
  form : DirectoryForm

/-- The tables, and the updates under way. -/
structure DirectoryUpdates where
  db : KnowledgeDb
  updates : Dict ℕ DirectoryUpdate

inductive DirectoryStep where
  | create (user : VerifiedUser) (newId id name : Text) (parentId : Option Text)
  | check (call : ℕ) (user : VerifiedUser) (id directoryId : Text) (form : DirectoryForm)
  | write (call : ℕ)
  | delete (user : VerifiedUser) (id directoryId : Text) (moveFiles : Bool)

/-- The handlers, under interleaved calls. -/
def directoryMachine (foreignKeys : Bool) : Machine DirectoryUpdates DirectoryStep (Option KnowledgeError) where
  step s
    | .create user newId id name parentId =>
      if (s.db.directories.get newId).isSome then none
      else
        let (db, error) := s.db.createKnowledgeDirectory foreignKeys user newId id name parentId
        some ({ s with db := db }, error)
    | .check call user id directoryId form =>
      if (s.updates.get call).isSome then none
      else
        match s.db.updateDirectoryError user id directoryId form with
        | some error => some (s, some error)
        | none => some ({ s with updates := s.updates.set call ⟨id, directoryId, form⟩ }, none)
    | .write call =>
      (s.updates.get call).map fun u =>
        let (db, error) := s.db.updateDirectory foreignKeys u.directoryId u.form
        ({ db := db, updates := s.updates.erase call }, error)
    | .delete user id directoryId moveFiles =>
      let (db, error) := s.db.deleteKnowledgeDirectory foreignKeys user id directoryId moveFiles
      some ({ s with db := db }, error)

/-! ## What should hold -/

/-- The parents. -/
def directoryForest (db : KnowledgeDb) : Forest Text := fun id =>
  (db.directories.get id).map KnowledgeDirectory.parentId

/-- **Each directory is at the root or in a directory of its knowledge base, no circle runs through parents, and links
    are to directories of their knowledge base.** -/
structure DirectoriesKept (db : KnowledgeDb) : Prop where
  parents : ∀ id d, db.directories.get id = some d → ∀ p ∈ d.parentId,
    ∃ e, db.directories.get p = some e ∧ e.knowledgeId = d.knowledgeId
  acyclic : (directoryForest db).Acyclic
  links : ∀ l ∈ db.knowledgeFiles, ∀ d ∈ l.directoryId,
    ∃ e, db.directories.get d = some e ∧ e.knowledgeId = l.knowledgeId

/-! ## Paths -/

/-- The loop of `sync_knowledge_diff` that goes up from a directory: the next one, if it finds it. -/
def parentIn (existing : List (Text × KnowledgeDirectory)) (directoryId : Text) : Option Text :=
  ((existing.find? fun e => e.1 = directoryId).bind fun e => e.2.parentId).filter fun p =>
    p ≠ [] && existing.any fun e => e.1 = p

/-- The directories on the way to the root, with the directory; `none`: the loop does not come to an end. -/
def pathIds (existing : List (Text × KnowledgeDirectory)) (directoryId : Text) : Option (List Text) :=
  climb (parentIn existing) existing.length (some directoryId)

/-! ## The condition -/

/-- A new parent is a directory of the knowledge base, or is refused because it is not there. -/
def ParentFits (db : KnowledgeDb) (foreignKeys : Bool) (id : Text) (parentId : Option Text) : Prop :=
  ∀ p ∈ parentId, (∀ e ∈ db.directories.get p, e.knowledgeId = id) ∧ (db.directories.get p = none → foreignKeys)

/-- **The condition on a step**: a new parent fits; a directory that is moved does not go below itself when the move is
    written; without foreign keys a directory that is deleted has no children. -/
def DirectoryStepFits (foreignKeys : Bool) (s : DirectoryUpdates) : DirectoryStep → Prop
  | .create user _ id _ parentId => s.db.writeAccessError user id = none → ParentFits s.db foreignKeys id parentId
  | .check .. => True
  | .write call => ∀ u ∈ s.updates.get call, ∀ d ∈ s.db.directories.get u.directoryId, ∀ parentId ∈ u.form.parentId,
      ParentFits s.db foreignKeys d.knowledgeId parentId ∧
        (s.db.nameTaken u.directoryId { d with parentId := parentId } = false →
          ∀ p ∈ parentId, p ∉ s.db.directorySubtreeIds u.directoryId)
  | .delete user id directoryId _ =>
      s.db.writeAccessError user id = none → s.db.ownDirectoryError id directoryId = none →
        foreignKeys ∨ s.db.childDirectoryIds directoryId = []

instance (db : KnowledgeDb) (foreignKeys : Bool) (id : Text) (parentId : Option Text) :
    Decidable (ParentFits db foreignKeys id parentId) :=
  inferInstanceAs (Decidable (∀ _ ∈ _, (∀ _ ∈ _, _) ∧ (_ → _)))

instance (foreignKeys : Bool) (s : DirectoryUpdates) :
    (i : DirectoryStep) → Decidable (DirectoryStepFits foreignKeys s i)
  | .create .. => inferInstanceAs (Decidable (_ → _))
  | .check .. => inferInstanceAs (Decidable True)
  | .write _ => inferInstanceAs (Decidable (∀ _ ∈ _, ∀ _ ∈ _, ∀ _ ∈ _, _ ∧ (_ → ∀ _ ∈ _, _)))
  | .delete .. => inferInstanceAs (Decidable (_ → _ → _))

section
variable {foreignKeys : Bool} {db db' : KnowledgeDb} {id directoryId c p : Text} {d row : KnowledgeDirectory}
variable {parentId target : Option Text}

/-! ## Parents and children -/

theorem up_directoryForest :
    (directoryForest db).Up c p ↔ ∃ e, db.directories.get c = some e ∧ e.parentId = some p := by
  simp [Forest.Up, directoryForest]

theorem mem_childDirectoryIds : c ∈ db.childDirectoryIds p ↔ (directoryForest db).Up c p := by
  simp only [KnowledgeDb.childDirectoryIds, List.mem_map, List.mem_filter, decide_eq_true_eq, up_directoryForest]
  constructor
  · rintro ⟨e, ⟨he, hparent⟩, rfl⟩
    exact ⟨e.2, Dict.mem_entries_iff.1 he, hparent⟩
  · rintro ⟨e, he, hparent⟩
    exact ⟨(c, e), ⟨Dict.mem_entries_iff.2 he, hparent⟩, rfl⟩

theorem mem_keys_toFinset : c ∈ db.directories.keys.toFinset ↔ (db.directories.get c).isSome := by
  rw [List.mem_toFinset, Dict.mem_keys_iff, Option.isSome_iff_exists]

theorem card_keys_le : db.directories.keys.toFinset.card ≤ db.directories.size := by
  refine (List.toFinset_card_le _).trans ?_
  simp [Dict.keys, Dict.size]

theorem isSome_of_mem_childDirectoryIds (h : c ∈ db.childDirectoryIds p) : (db.directories.get c).isSome := by
  obtain ⟨e, he, -⟩ := up_directoryForest.1 (mem_childDirectoryIds.1 h)
  rw [he]
  rfl

/-- **What the deletion of a row takes with it is what is below the directory.** -/
theorem mem_directorySubtreeIds (hid : (db.directories.get id).isSome) :
    c ∈ db.directorySubtreeIds id ↔ ReflTransGen (directoryForest db).Up c id := by
  rw [KnowledgeDb.directorySubtreeIds, mem_spread (U := db.directories.keys.toFinset)
    (fun _ _ _ hc => mem_keys_toFinset.2 (isSome_of_mem_childDirectoryIds hc)) (mem_keys_toFinset.2 hid) card_keys_le]
  simp only [mem_childDirectoryIds]
  exact reflTransGen_swap

theorem DirectoriesKept.knowledgeId_eq (h : DirectoriesKept db) (hd : db.directories.get id = some d)
    (hpath : ReflTransGen (directoryForest db).Up c id) :
    ∃ e, db.directories.get c = some e ∧ e.knowledgeId = d.knowledgeId := by
  induction hpath using ReflTransGen.head_induction_on with
  | refl => exact ⟨d, hd, rfl⟩
  | head hup _ ih =>
    obtain ⟨e, he, hparent⟩ := up_directoryForest.1 hup
    obtain ⟨e', he', hid⟩ := ih
    obtain ⟨e'', he'', heq⟩ := h.parents _ e he _ hparent
    obtain rfl : e' = e'' := Option.some.inj (he'.symm.trans he'')
    exact ⟨e, he, heq.symm.trans hid⟩

/-! ## Writes -/

theorem writeDirectory_eq_some (h : db.writeDirectory foreignKeys id row = some db') :
    (foreignKeys → ∀ p ∈ row.parentId, (db.directories.get p).isSome) ∧ db.nameTaken id row = false ∧
      db' = { db with directories := db.directories.set id row } := by
  obtain ⟨hfk, h⟩ := Option.ite_none_left_eq_some.1 h
  obtain ⟨hname, h⟩ := Option.ite_none_left_eq_some.1 h
  refine ⟨fun hkeys p hp => ?_, by simpa using hname, (Option.some.inj h).symm⟩
  rw [Option.isSome_iff_ne_none]
  intro hnone
  exact hfk (Bool.and_eq_true_iff.2 ⟨hkeys, (Option.any_eq_true _ _).2 ⟨p, hp, Option.isNone_iff_eq_none.2 hnone⟩⟩)

theorem ParentFits.parent (h : ParentFits db foreignKeys id parentId)
    (hfk : foreignKeys → ∀ p ∈ parentId, (db.directories.get p).isSome) :
    ∀ p ∈ parentId, ∃ e, db.directories.get p = some e ∧ e.knowledgeId = id := by
  intro p hp
  obtain ⟨hown, hmissing⟩ := h p hp
  cases he : db.directories.get p with
  | none =>
    have hsome := hfk (hmissing he) p hp
    rw [he] at hsome
    cases hsome
  | some e => exact ⟨e, rfl, hown e he⟩

theorem up_set : (directoryForest { db with directories := db.directories.set id row }).Up c p ↔
    (c = id ∧ row.parentId = some p) ∨ (c ≠ id ∧ (directoryForest db).Up c p) := by
  rw [up_directoryForest, up_directoryForest]
  simp only [Dict.get_set]
  by_cases hc : c = id <;> simp [hc]

/-- **A row that is written keeps the forest, if its parent is of the same knowledge base, and not below it.** -/
theorem DirectoriesKept.set (h : DirectoriesKept db)
    (hrow : ∀ d, db.directories.get id = some d → d.knowledgeId = row.knowledgeId)
    (hparent : ∀ p ∈ row.parentId, ∃ e, db.directories.get p = some e ∧ e.knowledgeId = row.knowledgeId)
    (hbelow : ∀ p ∈ row.parentId, ¬ ReflTransGen (directoryForest db).Up p id) :
    DirectoriesKept { db with directories := db.directories.set id row } where
  parents a e he p hp := by
    -- a directory keeps its knowledge base
    have hkept : ∀ p k, (∃ e, db.directories.get p = some e ∧ e.knowledgeId = k) →
        ∃ e, (db.directories.set id row).get p = some e ∧ e.knowledgeId = k := by
      rintro p k ⟨e', he', hk⟩
      rw [Dict.get_set]
      by_cases hpid : p = id
      · subst hpid
        exact ⟨row, if_pos rfl, (hrow e' he').symm.trans hk⟩
      · exact ⟨e', by rw [if_neg hpid, he'], hk⟩
    have hget : (db.directories.set id row).get a = some e := he
    rw [Dict.get_set] at hget
    split_ifs at hget with ha
    · cases hget
      exact hkept p _ (hparent p hp)
    · exact hkept p _ (h.parents a e hget p hp)
  acyclic := by
    cases hid : db.directories.get id with
    | none =>
      -- nothing has a parent that is not there
      refine h.acyclic.add_leaf (k := id) fun a b hup => ?_
      have hisSome : ∀ {e}, db.directories.get b = some e → b ≠ id := by
        rintro e he rfl
        rw [hid] at he
        cases he
      rcases up_set.1 hup with ⟨rfl, hb⟩ | ⟨-, hup⟩
      · obtain ⟨e, he, -⟩ := hparent b hb
        exact ⟨hisSome he, .inl rfl⟩
      · obtain ⟨e, he, hb⟩ := up_directoryForest.1 hup
        obtain ⟨e', he', -⟩ := h.parents a e he b hb
        exact ⟨hisSome he', .inr hup⟩
    | some d =>
      have hnode : (directoryForest db id).isSome := by simp [directoryForest, hid]
      have hmove : directoryForest { db with directories := db.directories.set id row } =
          (directoryForest db).move id row.parentId := by
        funext a
        simp only [directoryForest, Forest.move, Dict.get_set]
        by_cases ha : a = id <;> simp [ha, hid]
      rw [hmove]
      exact (h.acyclic.move_iff hnode).2 hbelow
  links l hl x hx := by
    obtain ⟨e, he, hk⟩ := h.links l hl x hx
    change ∃ e, (db.directories.set id row).get x = some e ∧ e.knowledgeId = l.knowledgeId
    rw [Dict.get_set]
    by_cases hxid : x = id
    · subst hxid
      exact ⟨row, if_pos rfl, (hrow e he).symm.trans hk⟩
    · exact ⟨e, by rw [if_neg hxid, he], hk⟩

theorem DirectoriesKept.create (h : DirectoriesKept db) (hnew : db.directories.get id = none)
    (hfits : ParentFits db foreignKeys row.knowledgeId row.parentId)
    (hw : db.writeDirectory foreignKeys id row = some db') : DirectoriesKept db' := by
  obtain ⟨hfk, -, rfl⟩ := writeDirectory_eq_some hw
  have hparent := hfits.parent hfk
  refine h.set (fun d hd => ?_) hparent fun p hp hpath => ?_
  · rw [hnew] at hd
    cases hd
  · -- the way up from the parent meets directories only
    obtain ⟨e, he, -⟩ := hparent p hp
    rcases hpath.cases_tail with heq | ⟨b, -, hup⟩
    · rw [← heq, hnew] at he
      cases he
    · obtain ⟨e', he', hb⟩ := up_directoryForest.1 hup
      obtain ⟨e'', he'', -⟩ := h.parents b e' he' id hb
      rw [hnew] at he''
      cases he''

theorem DirectoriesKept.move (h : DirectoriesKept db) (hd : db.directories.get id = some d)
    (hfits : ParentFits db foreignKeys d.knowledgeId parentId)
    (hbelow : db.nameTaken id { d with parentId := parentId } = false → ∀ p ∈ parentId, p ∉ db.directorySubtreeIds id)
    (hw : db.moveDirectory foreignKeys id parentId = some db') : DirectoriesKept db' := by
  rw [KnowledgeDb.moveDirectory, KnowledgeDb.updateDirectoryRow, hd, Option.bind_some] at hw
  obtain ⟨hfk, hname, rfl⟩ := writeDirectory_eq_some hw
  refine h.set (fun d' hd' => ?_) (hfits.parent hfk) fun p hp hpath => ?_
  · obtain rfl : d = d' := Option.some.inj (hd.symm.trans hd')
    rfl
  · exact hbelow hname p hp ((mem_directorySubtreeIds (by rw [hd]; rfl)).2 hpath)

theorem DirectoriesKept.rename (h : DirectoriesKept db) {name : Text}
    (hw : db.renameDirectory foreignKeys id name = some db') : DirectoriesKept db' := by
  obtain ⟨d, hd, hw⟩ := Option.bind_eq_some_iff.1 hw
  obtain ⟨-, -, rfl⟩ := writeDirectory_eq_some hw
  refine h.set (fun d' hd' => ?_) (h.parents id d hd) fun p hp hpath => ?_
  · obtain rfl : d = d' := Option.some.inj (hd.symm.trans hd')
    rfl
  · exact h.acyclic id (.head' (up_directoryForest.2 ⟨d, hd, hp⟩) hpath)

/-! ## Deletion -/

theorem foldl_deleteFilesIn {ids : List Text} {links : List KnowledgeFile} :
    ids.foldl (fun links c => KnowledgeDb.deleteFilesIn c links) links =
      links.filter fun l => !l.directoryId.any fun x => x ∈ ids := by
  induction ids generalizing links with
  | nil => simp
  | cons c ids ih =>
    rw [List.foldl_cons, ih, KnowledgeDb.deleteFilesIn, List.filter_filter]
    refine List.filter_congr fun l _ => ?_
    cases l.directoryId with
    | none => simp
    | some x => by_cases hx : x = c <;> simp [hx]

theorem foldl_moveFilesIn {ids : List Text} {links : List KnowledgeFile} (htarget : ∀ t ∈ target, t ∉ ids) :
    ids.foldl (fun links c => KnowledgeDb.moveFilesIn target c links) links =
      links.map fun l => if l.directoryId.any fun x => x ∈ ids then { l with directoryId := target } else l := by
  induction ids generalizing links with
  | nil => simp
  | cons c ids ih =>
    have hrest : ∀ t ∈ target, t ∉ ids := fun t ht hin => htarget t ht (List.mem_cons_of_mem _ hin)
    have htargetIds : target.any (fun x => x ∈ ids) = false := by
      rw [Option.any_eq_false]
      intro t ht
      simpa using hrest t ht
    rw [List.foldl_cons, ih hrest, KnowledgeDb.moveFilesIn, List.map_map]
    refine List.map_congr_left fun l _ => ?_
    cases hl : l.directoryId with
    | none => simp [hl]
    | some x => by_cases hx : x = c <;> simp [hl, hx, htargetIds]

/-- What becomes of the links when the directories of a subtree go: a link that stays was there, outside of the
    subtree, or is moved out of it; a link outside of it stays. -/
structure LinksLeft (ids : List Text) (target : Option Text) (links links' : List KnowledgeFile) : Prop where
  was : ∀ l ∈ links', ∃ l₀ ∈ links, l₀.knowledgeId = l.knowledgeId ∧ ∀ x ∈ l.directoryId, x ∉ ids ∧
    (l₀.directoryId = some x ∨ target = some x ∧ ∃ y ∈ l₀.directoryId, y ∈ ids)
  stays : ∀ l ∈ links, (∀ x ∈ l.directoryId, x ∉ ids) → l ∈ links'

theorem LinksLeft.delete {ids : List Text} {links : List KnowledgeFile} :
    LinksLeft ids target links (links.filter fun l => !l.directoryId.any fun x => x ∈ ids) where
  was l hl := by
    obtain ⟨hl, hout⟩ := List.mem_filter.1 hl
    refine ⟨l, hl, rfl, fun x hx => ⟨fun hin => ?_, .inl hx⟩⟩
    have hany := (Option.any_eq_true (fun x => decide (x ∈ ids)) _).2 ⟨x, hx, decide_eq_true hin⟩
    rw [hany] at hout
    cases hout
  stays l hl hout := by
    refine List.mem_filter.2 ⟨hl, ?_⟩
    rw [Bool.not_eq_true', Option.any_eq_false]
    intro x hx
    simpa using hout x hx

theorem LinksLeft.move {ids : List Text} {links : List KnowledgeFile} (htarget : ∀ t ∈ target, t ∉ ids) :
    LinksLeft ids target links
      (links.map fun l => if l.directoryId.any fun x => x ∈ ids then { l with directoryId := target } else l) where
  was l hl := by
    obtain ⟨l₀, hl₀, rfl⟩ := List.mem_map.1 hl
    split_ifs with hany
    · obtain ⟨y, hy, hin⟩ := (Option.any_eq_true _ _).1 hany
      exact ⟨l₀, hl₀, rfl, fun x hx => ⟨htarget x hx, .inr ⟨hx, y, hy, of_decide_eq_true hin⟩⟩⟩
    · refine ⟨l₀, hl₀, rfl, fun x hx => ⟨fun hin => hany ?_, .inl hx⟩⟩
      exact (Option.any_eq_true (fun x => decide (x ∈ ids)) _).2 ⟨x, hx, decide_eq_true hin⟩
  stays l hl hout := by
    refine List.mem_map.2 ⟨l, hl, if_neg fun hany => ?_⟩
    obtain ⟨y, hy, hin⟩ := (Option.any_eq_true _ _).1 hany
    exact hout y hy (of_decide_eq_true hin)

/-- **The recursions come to an end, and come to what is below the directory.** -/
theorem visits_of_acyclic (h : (directoryForest db).Acyclic) (hid : (db.directories.get id).isSome) :
    ∃ ids : List Text, (∀ c, c ∈ ids ↔ c ∈ db.directorySubtreeIds id) ∧
      ∀ {σ : Type} (act : Text → σ → σ) (s : σ), visit db.childDirectoryIds act (db.directories.size + 1) id s =
        some (ids.foldl (fun s c => act c s) s) := by
  have hacyclic : ∀ k, ¬ TransGen (fun a b => b ∈ db.childDirectoryIds a) k k := by
    intro k hk
    simp only [mem_childDirectoryIds] at hk
    exact h k (transGen_swap.1 hk)
  obtain ⟨ids, hids, hvisit⟩ := visit_eq (U := db.directories.keys.toFinset) (k := id) (n := db.directories.size + 1)
    (fun _ _ _ hc => mem_keys_toFinset.2 (isSome_of_mem_childDirectoryIds hc)) hacyclic (mem_keys_toFinset.2 hid)
    (card_keys_le.trans (Nat.le_succ _))
  refine ⟨ids, fun c => ?_, hvisit⟩
  rw [hids, mem_directorySubtreeIds hid]
  simp only [mem_childDirectoryIds]
  exact reflTransGen_swap

theorem parent_not_below (h : (directoryForest db).Acyclic) (hd : db.directories.get id = some d) :
    ∀ p ∈ d.parentId, p ∉ db.directorySubtreeIds id := by
  intro p hp hin
  have hpath := (mem_directorySubtreeIds (by rw [hd]; rfl)).1 hin
  exact h id (.head' (up_directoryForest.2 ⟨d, hd, hp⟩) hpath)

/-- **What `delete_directory` does with the links**: those of the subtree are moved, or deleted. -/
theorem linksAfterDelete_eq (h : (directoryForest db).Acyclic) (hd : db.directories.get id = some d)
    (moveFiles : Bool) : db.linksAfterDelete id d.parentId moveFiles =
      some (if moveFiles then db.knowledgeFiles.map fun l =>
          if l.directoryId.any fun x => x ∈ db.directorySubtreeIds id then { l with directoryId := d.parentId } else l
        else db.knowledgeFiles.filter fun l => !l.directoryId.any fun x => x ∈ db.directorySubtreeIds id) := by
  obtain ⟨ids, hids, hvisit⟩ := visits_of_acyclic h (show (db.directories.get id).isSome by rw [hd]; rfl)
  simp only [← hids]
  cases moveFiles with
  | true =>
    -- the directory itself, and then what is below it
    have hmove : db.linksAfterDelete id d.parentId true = visit db.childDirectoryIds
        (KnowledgeDb.moveFilesIn d.parentId) (db.directories.size + 1) id db.knowledgeFiles := rfl
    rw [hmove, hvisit, foldl_moveFilesIn fun p hp hin => parent_not_below h hd p hp ((hids p).1 hin)]
    rfl
  | false =>
    have hdelete : db.linksAfterDelete id d.parentId false =
        visit db.childDirectoryIds KnowledgeDb.deleteFilesIn (db.directories.size + 1) id db.knowledgeFiles := rfl
    rw [hdelete, hvisit, foldl_deleteFilesIn]
    rfl

theorem DirectoriesKept.linksAfterDelete (h : DirectoriesKept db) (hd : db.directories.get id = some d)
    (moveFiles : Bool) : ∃ links, db.linksAfterDelete id d.parentId moveFiles = some links ∧
      LinksLeft (db.directorySubtreeIds id) d.parentId db.knowledgeFiles links := by
  refine ⟨_, linksAfterDelete_eq h.acyclic hd moveFiles, ?_⟩
  cases moveFiles with
  | true => exact .move (parent_not_below h.acyclic hd)
  | false => exact .delete

theorem DirectoriesKept.deleteDirectory (h : DirectoriesKept db) (foreignKeys : Bool)
    (hd : db.directories.get id = some d) (moveFiles : Bool) :
    ∃ links, db.deleteDirectory foreignKeys id moveFiles =
        some ({ db with knowledgeFiles := links }.deleteDirectoryRow foreignKeys id) ∧
      LinksLeft (db.directorySubtreeIds id) d.parentId db.knowledgeFiles links := by
  obtain ⟨links, hlinks, hleft⟩ := h.linksAfterDelete hd moveFiles
  exact ⟨links, by rw [KnowledgeDb.deleteDirectory, hd, Option.bind_some, hlinks, Option.map_some], hleft⟩

theorem DirectoriesKept.links_left (h : DirectoriesKept db) (hd : db.directories.get id = some d)
    {links : List KnowledgeFile} (hleft : LinksLeft (db.directorySubtreeIds id) d.parentId db.knowledgeFiles links) :
    ∀ l ∈ links, ∀ x ∈ l.directoryId, x ∉ db.directorySubtreeIds id ∧
      ∃ e, db.directories.get x = some e ∧ e.knowledgeId = l.knowledgeId := by
  intro l hl x hx
  obtain ⟨l₀, hl₀, hk, hdir⟩ := hleft.was l hl
  obtain ⟨hout, hwas | ⟨htarget, y, hy, hin⟩⟩ := hdir x hx
  · exact ⟨hout, hk ▸ h.links l₀ hl₀ x hwas⟩
  · -- the parent of the directory, and the directory that the link was to, are of the same knowledge base
    obtain ⟨e, he, hek⟩ := h.parents id d hd x htarget
    obtain ⟨e', he', hek'⟩ := h.links l₀ hl₀ y hy
    obtain ⟨e'', he'', hbelow⟩ := h.knowledgeId_eq hd ((mem_directorySubtreeIds (by rw [hd]; rfl)).1 hin)
    obtain rfl : e' = e'' := Option.some.inj (he'.symm.trans he'')
    exact ⟨hout, e, he, by rw [hek, ← hbelow, hek', hk]⟩

/-- **`delete_directory` keeps the forest, with foreign keys, or if the directory has no children.** -/
theorem DirectoriesKept.delete (h : DirectoriesKept db) (hd : db.directories.get id = some d)
    (hchildren : foreignKeys ∨ db.childDirectoryIds id = []) {moveFiles : Bool}
    (hs : db.deleteDirectory foreignKeys id moveFiles = some db') : DirectoriesKept db' := by
  have hsome : (db.directories.get id).isSome := by rw [hd]; rfl
  obtain ⟨links, heq, hleft⟩ := h.deleteDirectory foreignKeys hd moveFiles
  obtain rfl := Option.some.inj (heq.symm.trans hs)
  have hlinks := h.links_left hd hleft
  -- a directory that stays has a parent that stays
  have hup : ∀ a e p, db.directories.get a = some e → a ∉ db.directorySubtreeIds id → p ∈ e.parentId →
      p ∉ db.directorySubtreeIds id := by
    intro a e p he hout hp hin
    refine hout ((mem_directorySubtreeIds hsome).2 (.head (up_directoryForest.2 ⟨e, he, hp⟩) ?_))
    exact (mem_directorySubtreeIds hsome).1 hin
  cases foreignKeys with
  | true =>
    have hget : ∀ a e, ({ db with knowledgeFiles := links }.deleteDirectoryRow true id).directories.get a = some e ↔
        db.directories.get a = some e ∧ a ∉ db.directorySubtreeIds id := by
      intro a e
      simp only [KnowledgeDb.deleteDirectoryRow, if_true, Dict.get_filter, decide_eq_true_eq]
      rfl
    refine ⟨fun a e he p hp => ?_, ?_, fun l hl x hx => ?_⟩
    · obtain ⟨he, hout⟩ := (hget a e).1 he
      obtain ⟨e', he', hk⟩ := h.parents a e he p hp
      exact ⟨e', (hget p e').2 ⟨he', hup a e p he hout hp⟩, hk⟩
    · refine h.acyclic.of_ancestors fun a b hab => ?_
      obtain ⟨e, he, hb⟩ := up_directoryForest.1 hab
      exact .single (up_directoryForest.2 ⟨e, ((hget a e).1 he).1, hb⟩)
    · obtain ⟨l₀, hl₀, rfl⟩ := List.mem_map.1 hl
      split_ifs at hx ⊢ with hany
      · cases hx
      · obtain ⟨hout, e, he, hk⟩ := hlinks l₀ hl₀ x hx
        exact ⟨e, (hget x e).2 ⟨he, hout⟩, hk⟩
  | false =>
    have hnone := hchildren.resolve_left Bool.false_ne_true
    have hget : ∀ a e, ({ db with knowledgeFiles := links }.deleteDirectoryRow false id).directories.get a = some e ↔
        db.directories.get a = some e ∧ a ≠ id := by
      intro a e
      have herase : ({ db with knowledgeFiles := links }.deleteDirectoryRow false id).directories =
          db.directories.erase id := rfl
      rw [herase, Dict.erase, Dict.get_filter]
      simp
    refine ⟨fun a e he p hp => ?_, ?_, fun l hl x hx => ?_⟩
    · obtain ⟨hwas, -⟩ := (hget a e).1 he
      obtain ⟨e', he', hk⟩ := h.parents a e hwas p hp
      refine ⟨e', (hget p e').2 ⟨he', ?_⟩, hk⟩
      rintro rfl
      have hin : a ∈ db.childDirectoryIds p := mem_childDirectoryIds.2 (up_directoryForest.2 ⟨e, hwas, hp⟩)
      rw [hnone] at hin
      cases hin
    · refine h.acyclic.of_ancestors fun a b hab => ?_
      obtain ⟨e, he, hb⟩ := up_directoryForest.1 hab
      exact .single (up_directoryForest.2 ⟨e, ((hget a e).1 he).1, hb⟩)
    · obtain ⟨hout, e, he, hk⟩ := hlinks l hl x hx
      refine ⟨e, (hget x e).2 ⟨he, ?_⟩, hk⟩
      rintro rfl
      exact hout ((mem_directorySubtreeIds hsome).2 .refl)

/-! ## Steps -/

variable {s s' : DirectoryUpdates} {i : DirectoryStep} {o : Option KnowledgeError}

theorem DirectoriesKept.update (h : DirectoriesKept db) {form : DirectoryForm}
    (hfits : ∀ d ∈ db.directories.get id, ∀ parentId ∈ form.parentId, ParentFits db foreignKeys d.knowledgeId parentId ∧
      (db.nameTaken id { d with parentId := parentId } = false → ∀ p ∈ parentId, p ∉ db.directorySubtreeIds id)) :
    DirectoriesKept (db.updateDirectory foreignKeys id form).1 := by
  unfold KnowledgeDb.updateDirectory
  split
  · exact h
  rename_i moved hmoved
  have hkept : DirectoriesKept moved := by
    cases hparent : form.parentId with
    | none =>
      rw [hparent] at hmoved
      exact Option.some.inj hmoved ▸ h
    | some parentId =>
      rw [hparent] at hmoved
      obtain ⟨d, hd, -⟩ := Option.bind_eq_some_iff.1 hmoved
      obtain ⟨hp, hbelow⟩ := hfits d hd parentId hparent
      exact h.move hd hp hbelow hmoved
  split
  · exact hkept
  split
  · exact hkept
  · rename_i hrenamed
    exact hkept.rename hrenamed

/-- **One step.** -/
theorem DirectoriesKept.step (h : DirectoriesKept s.db) (hfits : DirectoryStepFits foreignKeys s i)
    (hs : (directoryMachine foreignKeys).step s i = some (s', o)) : DirectoriesKept s'.db := by
  cases i with
  | create user newId id name parentId =>
    obtain ⟨hnew, hs⟩ := Option.ite_none_left_eq_some.1 hs
    obtain rfl := congrArg Prod.fst (Option.some.inj hs)
    change DirectoriesKept (s.db.createKnowledgeDirectory foreignKeys user newId id name parentId).1
    unfold KnowledgeDb.createKnowledgeDirectory
    split
    · exact h
    rename_i haccess
    split
    · exact h
    · rename_i hw
      exact h.create (by simpa using hnew) (hfits haccess) hw
  | check call user id directoryId form =>
    obtain ⟨-, hs⟩ := Option.ite_none_left_eq_some.1 hs
    split at hs <;> cases hs <;> exact h
  | write call =>
    obtain ⟨u, hu, hs⟩ := Option.map_eq_some_iff.1 hs
    obtain rfl := congrArg Prod.fst hs
    exact h.update (hfits u hu)
  | delete user id directoryId moveFiles =>
    obtain rfl := congrArg Prod.fst (Option.some.inj hs)
    change DirectoriesKept (s.db.deleteKnowledgeDirectory foreignKeys user id directoryId moveFiles).1
    unfold KnowledgeDb.deleteKnowledgeDirectory
    split
    · exact h
    rename_i hnone
    obtain ⟨haccess, hown⟩ := Option.or_eq_none_iff.1 hnone
    split
    · exact h
    · rename_i hdelete
      obtain ⟨d, hd, -⟩ := Option.bind_eq_some_iff.1 hdelete
      exact h.delete hd (hfits haccess hown) hdelete

/-- The knowledge base that a request is for. -/
def DirectoryStep.knowledgeId (s : DirectoryUpdates) : DirectoryStep → Option Text
  | .create _ _ id _ _ => some id
  | .check _ _ id _ _ => some id
  | .write call => (s.updates.get call).map DirectoryUpdate.id
  | .delete _ id _ _ => some id

/-- Directories and links of other knowledge bases are still there. -/
def OthersStay (knowledgeId : Option Text) (db db' : KnowledgeDb) : Prop :=
  (∀ a d, db.directories.get a = some d → some d.knowledgeId ≠ knowledgeId → (db'.directories.get a).isSome) ∧
    ∀ l ∈ db.knowledgeFiles, some l.knowledgeId ≠ knowledgeId → l ∈ db'.knowledgeFiles

/-- All directories and links are still there. -/
structure AllStay (db db' : KnowledgeDb) : Prop where
  directories : ∀ a, (db.directories.get a).isSome → (db'.directories.get a).isSome
  links : db'.knowledgeFiles = db.knowledgeFiles

theorem AllStay.refl : AllStay db db := ⟨fun _ h => h, rfl⟩

theorem AllStay.trans {db'' : KnowledgeDb} (h : AllStay db db') (h' : AllStay db' db'') : AllStay db db'' :=
  ⟨fun a ha => h'.directories a (h.directories a ha), h'.links.trans h.links⟩

theorem AllStay.others (h : AllStay db db') {k : Option Text} : OthersStay k db db' :=
  ⟨fun a _ hd _ => h.directories a (hd ▸ rfl), fun _ hl _ => h.links ▸ hl⟩

theorem AllStay.write (hw : db.writeDirectory foreignKeys id row = some db') : AllStay db db' := by
  obtain ⟨-, -, rfl⟩ := writeDirectory_eq_some hw
  refine ⟨fun a ha => ?_, rfl⟩
  change ((db.directories.set id row).get a).isSome
  rw [Dict.get_set]
  split_ifs
  · rfl
  · exact ha

theorem AllStay.updateRow {change : KnowledgeDirectory → KnowledgeDirectory}
    (hw : db.updateDirectoryRow foreignKeys id change = some db') : AllStay db db' := by
  obtain ⟨d, -, hw⟩ := Option.bind_eq_some_iff.1 hw
  exact .write hw

theorem AllStay.update {form : DirectoryForm} : AllStay db (db.updateDirectory foreignKeys id form).1 := by
  unfold KnowledgeDb.updateDirectory
  split
  · exact .refl
  rename_i moved hmoved
  have hstay : AllStay db moved := by
    cases hparent : form.parentId with
    | none =>
      rw [hparent] at hmoved
      exact Option.some.inj hmoved ▸ .refl
    | some parentId =>
      rw [hparent] at hmoved
      exact .updateRow hmoved
  split
  · exact hstay
  split
  · exact hstay
  · rename_i hrenamed
    exact hstay.trans (.updateRow hrenamed)

/-- **A deletion leaves other knowledge bases alone.** -/
theorem DirectoriesKept.othersStay_delete (h : DirectoriesKept db) (hd : db.directories.get id = some d)
    {moveFiles : Bool} (hs : db.deleteDirectory foreignKeys id moveFiles = some db') :
    OthersStay (some d.knowledgeId) db db' := by
  have hsome : (db.directories.get id).isSome := by rw [hd]; rfl
  obtain ⟨links, heq, hleft⟩ := h.deleteDirectory foreignKeys hd moveFiles
  obtain rfl := Option.some.inj (heq.symm.trans hs)
  -- what is below the directory is of its knowledge base
  have hout : ∀ a e, db.directories.get a = some e → e.knowledgeId ≠ d.knowledgeId → a ∉ db.directorySubtreeIds id := by
    intro a e he hne hin
    obtain ⟨e', he', hk⟩ := h.knowledgeId_eq hd ((mem_directorySubtreeIds hsome).1 hin)
    obtain rfl : e = e' := Option.some.inj (he.symm.trans he')
    exact hne hk
  have hlinks : ∀ l ∈ db.knowledgeFiles, l.knowledgeId ≠ d.knowledgeId →
      ∀ x ∈ l.directoryId, x ∉ db.directorySubtreeIds id := by
    intro l hl hne x hx
    obtain ⟨e, he, hk⟩ := h.links l hl x hx
    exact hout x e he (hk ▸ hne)
  refine ⟨fun a e he hne => ?_, fun l hl hne => ?_⟩
  · have hstays := hout a e he fun heq => hne (congrArg some heq)
    cases foreignKeys with
    | true =>
      have hget : ({ db with knowledgeFiles := links }.deleteDirectoryRow true id).directories.get a = some e := by
        simp only [KnowledgeDb.deleteDirectoryRow, if_true, Dict.get_filter, decide_eq_true_eq]
        exact ⟨he, hstays⟩
      rw [hget]
      rfl
    | false =>
      have hget : ({ db with knowledgeFiles := links }.deleteDirectoryRow false id).directories.get a = some e := by
        change (db.directories.erase id).get a = some e
        rw [Dict.get_erase_of_ne, he]
        rintro rfl
        exact hstays ((mem_directorySubtreeIds hsome).2 .refl)
      rw [hget]
      rfl
  · have hstays := hlinks l hl fun heq => hne (congrArg some heq)
    have hmem := hleft.stays l hl hstays
    cases foreignKeys with
    | true =>
      refine List.mem_map.2 ⟨l, hmem, if_neg fun hany => ?_⟩
      obtain ⟨x, hx, hin⟩ := (Option.any_eq_true _ _).1 hany
      exact hstays x hx (of_decide_eq_true hin)
    | false => exact hmem

/-- **No step removes anything of a knowledge base that it is not for.** -/
theorem DirectoriesKept.othersStay (h : DirectoriesKept s.db)
    (hs : (directoryMachine foreignKeys).step s i = some (s', o)) : OthersStay (i.knowledgeId s) s.db s'.db := by
  cases i with
  | create user newId id name parentId =>
    obtain ⟨-, hs⟩ := Option.ite_none_left_eq_some.1 hs
    obtain rfl := congrArg Prod.fst (Option.some.inj hs)
    change OthersStay (some id) s.db (s.db.createKnowledgeDirectory foreignKeys user newId id name parentId).1
    unfold KnowledgeDb.createKnowledgeDirectory
    split
    · exact AllStay.refl.others
    split
    · exact AllStay.refl.others
    · rename_i hw
      exact (AllStay.write hw).others
  | check call user id directoryId form =>
    obtain ⟨-, hs⟩ := Option.ite_none_left_eq_some.1 hs
    split at hs <;> cases hs <;> exact AllStay.refl.others
  | write call =>
    obtain ⟨u, -, hs⟩ := Option.map_eq_some_iff.1 hs
    obtain rfl := congrArg Prod.fst hs
    exact AllStay.update.others
  | delete user id directoryId moveFiles =>
    obtain rfl := congrArg Prod.fst (Option.some.inj hs)
    change OthersStay (some id) s.db (s.db.deleteKnowledgeDirectory foreignKeys user id directoryId moveFiles).1
    unfold KnowledgeDb.deleteKnowledgeDirectory
    split
    · exact AllStay.refl.others
    rename_i hnone
    obtain ⟨-, hown⟩ := Option.or_eq_none_iff.1 hnone
    split
    · exact AllStay.refl.others
    · rename_i hdelete
      obtain ⟨d, hd, -⟩ := Option.bind_eq_some_iff.1 hdelete
      have hk : d.knowledgeId = id := by
        unfold KnowledgeDb.ownDirectoryError at hown
        split_ifs at hown with hany
        rw [hd] at hany
        exact of_decide_eq_true hany
      exact hk ▸ h.othersStay_delete hd hdelete

/-! ## Paths -/

theorem parentIn_eq_some {existing : List (Text × KnowledgeDirectory)}
    (hexisting : existing.Perm (db.directories.entries.filter fun e => e.2.knowledgeId = id))
    (hp : parentIn existing c = some p) : (directoryForest db).Up c p ∧ p ∈ existing.map Prod.fst := by
  obtain ⟨hbind, hfilter⟩ := Option.filter_eq_some_iff.1 hp
  obtain ⟨e, he, hparent⟩ := Option.bind_eq_some_iff.1 hbind
  obtain rfl : e.1 = c := by simpa using List.find?_some he
  have hin := (List.mem_filter.1 (hexisting.mem_iff.1 (List.mem_of_find?_eq_some he))).1
  refine ⟨up_directoryForest.2 ⟨e.2, Dict.mem_entries_iff.1 hin, hparent⟩, ?_⟩
  obtain ⟨e', he', hid⟩ := List.any_eq_true.1 (Bool.and_eq_true_iff.1 hfilter).2
  exact List.mem_map.2 ⟨e', he', of_decide_eq_true hid⟩

/-- **The path of each directory is found.** -/
theorem DirectoriesKept.pathIds (h : DirectoriesKept db) {existing : List (Text × KnowledgeDirectory)}
    (hexisting : existing.Perm (db.directories.entries.filter fun e => e.2.knowledgeId = id)) :
    ∀ e ∈ existing, (pathIds existing e.1).isSome := by
  intro e he
  refine climb_isSome (U := (existing.map Prod.fst).toFinset) ?_ ?_ ?_ ?_
  · intro k _ a ha
    exact List.mem_toFinset.2 (parentIn_eq_some hexisting ha).2
  · intro k hk
    exact h.acyclic k (hk.lift (fun a => a) fun _ _ hup => (parentIn_eq_some hexisting hup).1)
  · intro k hk
    cases hk
    exact List.mem_toFinset.2 (List.mem_map_of_mem he)
  · exact (List.toFinset_card_le _).trans (by simp)

/-- The ways up and down come to an end. -/
structure WalksEnd (db : KnowledgeDb) : Prop where
  paths : ∀ (id : Text) (existing : List (Text × KnowledgeDirectory)),
    existing.Perm (db.directories.entries.filter fun e => e.2.knowledgeId = id) →
      ∀ e ∈ existing, (pathIds existing e.1).isSome
  deletions : ∀ directoryId d, db.directories.get directoryId = some d → ∀ moveFiles,
    (db.linksAfterDelete directoryId d.parentId moveFiles).isSome

theorem DirectoriesKept.walksEnd (h : DirectoriesKept db) : WalksEnd db where
  paths _ _ hexisting := h.pathIds hexisting
  deletions directoryId d hd moveFiles := by
    obtain ⟨links, hlinks, -⟩ := h.linksAfterDelete hd moveFiles
    rw [hlinks]
    rfl

/-! ## Runs -/

/-- **In a run whose steps fit, the directories of each knowledge base form a forest in every state; the ways up and
    down come to an end; and no request removes anything of another knowledge base.** -/
theorem directoriesStayForests (foreignKeys : Bool) {tr : List (DirectoryStep × Option KnowledgeError)}
    (hrun : (directoryMachine foreignKeys).RunIn (DirectoryStepFits foreignKeys) s tr s') (h : DirectoriesKept s.db) :
    DirectoriesKept s'.db ∧ WalksEnd s'.db ∧ ∀ xs i o ys, tr = xs ++ (i, o) :: ys →
      ∃ t t', (directoryMachine foreignKeys).Run s xs t ∧ (directoryMachine foreignKeys).step t i = some (t', o) ∧
        OthersStay (i.knowledgeId t) t.db t'.db := by
  have hkept : ∀ {tr s'}, (directoryMachine foreignKeys).RunIn (DirectoryStepFits foreignKeys) s tr s' →
      DirectoriesKept s'.db := fun hrun =>
    hrun.invariant (I := fun s => DirectoriesKept s.db) (fun _ _ _ _ hfits h hs => h.step hfits hs) h
  refine ⟨hkept hrun, (hkept hrun).walksEnd, ?_⟩
  rintro xs i o ys rfl
  obtain ⟨t, t', hxs, -, hs, -⟩ := hrun.split
  exact ⟨t, t', hxs.run, hs, (hkept hxs).othersStay hs⟩

end

namespace Sample

/-- The knowledge bases of two users, with two directories in the first. -/
def twoKnowledges : DirectoryUpdates where
  db :=
    { knowledge := (Dict.empty.set (.lit "a") ⟨.lit "u", false⟩).set (.lit "b") ⟨.lit "v", false⟩
      directories := (Dict.empty.set (.lit "x") ⟨.lit "a", none, .lit "X"⟩).set (.lit "y") ⟨.lit "a", none, .lit "Y"⟩
      knowledgeFiles := [⟨.lit "a", .lit "f", some (.lit "x")⟩]
      files := .empty
      grants := ⟨[], [], [], .empty⟩
      attachments := ⟨fun _ _ => false, fun _ => [], fun _ => []⟩ }
  updates := .empty

def knowledgeOwner : VerifiedUser := ⟨.lit "u", false⟩

def otherOwner : VerifiedUser := ⟨.lit "v", false⟩

theorem twoKnowledges_kept : DirectoriesKept twoKnowledges.db := by
  have hroots : ∀ e ∈ twoKnowledges.db.directories.entries, e.2.parentId = none := by decide +kernel
  refine ⟨fun id d hd p hp => ?_, fun k hk => ?_, fun l hl x hx => ?_⟩
  · rw [hroots _ (Dict.mem_entries_iff.2 hd)] at hp
    cases hp
  · obtain ⟨p, hup, -⟩ := TransGen.head'_iff.1 hk
    obtain ⟨d, hd, hparent⟩ := up_directoryForest.1 hup
    rw [hroots _ (Dict.mem_entries_iff.2 hd)] at hparent
    cases hparent
  · obtain rfl : l = ⟨.lit "a", .lit "f", some (.lit "x")⟩ := List.mem_singleton.1 hl
    cases hx
    exact ⟨⟨.lit "a", none, .lit "X"⟩, by decide +kernel, rfl⟩

end Sample

/-- A directory is moved into another, and may not be moved back; it goes with the other one, and its file with it. -/
theorem directoriesStayForests_delete : ∃ tr s', (directoryMachine true).RunIn (DirectoryStepFits true)
    Sample.twoKnowledges tr s' ∧ tr.map Prod.snd = [none, none, some .failedDirectory, none] ∧
      s'.db.directories.entries = [] ∧ s'.db.knowledgeFiles = [] ∧ DirectoriesKept s'.db := by
  obtain ⟨⟨tr, s'⟩, hm, hout, hdirs, hlinks⟩ : ∃ r ∈ (directoryMachine true).exec (DirectoryStepFits true)
      Sample.twoKnowledges
      [.check 0 Sample.knowledgeOwner (.lit "a") (.lit "x") ⟨none, some (some (.lit "y"))⟩, .write 0,
        .check 1 Sample.knowledgeOwner (.lit "a") (.lit "y") ⟨none, some (some (.lit "x"))⟩,
        .delete Sample.knowledgeOwner (.lit "a") (.lit "y") false],
      r.1.map Prod.snd = [none, none, some .failedDirectory, none] ∧ r.2.db.directories.entries = [] ∧
        r.2.db.knowledgeFiles = [] := by
    decide +kernel
  exact ⟨tr, s', Machine.runIn_of_exec hm, hout, hdirs, hlinks,
    (directoriesStayForests true (Machine.runIn_of_exec hm) Sample.twoKnowledges_kept).1⟩

/-- A directory is created in one of another knowledge base, and goes with it.  Two moves that are both checked before
    either is written make a circle.  Without foreign keys a directory stays when its parent goes. -/
theorem directoriesStayForests_fails : DirectoriesKept Sample.twoKnowledges.db ∧
    (∃ tr s, (directoryMachine true).Run Sample.twoKnowledges tr s ∧ ¬ DirectoriesKept s.db ∧
      ∃ s' i, (directoryMachine true).step s i = some (s', none) ∧ ¬ OthersStay (i.knowledgeId s) s.db s'.db) ∧
    (∃ tr s, (directoryMachine true).Run Sample.twoKnowledges tr s ∧ ¬ (directoryForest s.db).Acyclic) ∧
    ∃ tr s, (directoryMachine false).Run Sample.twoKnowledges tr s ∧ ¬ DirectoriesKept s.db := by
  refine ⟨Sample.twoKnowledges_kept, ?_, ?_, ?_⟩
  · obtain ⟨⟨tr, s⟩, hm, hx, hz, hgone⟩ : ∃ r ∈ (directoryMachine true).exec (fun _ _ => True) Sample.twoKnowledges
        [.create Sample.otherOwner (.lit "z") (.lit "b") (.lit "Z") (some (.lit "x"))],
        r.2.db.directories.get (.lit "x") = some ⟨.lit "a", none, .lit "X"⟩ ∧
          r.2.db.directories.get (.lit "z") = some ⟨.lit "b", some (.lit "x"), .lit "Z"⟩ ∧
          ((directoryMachine true).step r.2 (.delete Sample.knowledgeOwner (.lit "a") (.lit "x") true)).map
            (fun q => (q.1.db.directories.get (.lit "z"), q.2)) = some (none, none) := by
      decide +kernel
    refine ⟨tr, s, Machine.runIn_of_exec hm, fun h => ?_, ?_⟩
    · obtain ⟨e, he, hk⟩ := h.parents _ _ hz _ rfl
      obtain rfl := Option.some.inj (hx.symm.trans he)
      exact absurd hk (by decide)
    · obtain ⟨⟨s', o⟩, hs, hq⟩ := Option.map_eq_some_iff.1 hgone
      obtain ⟨hnone, rfl⟩ := Prod.mk.inj hq
      refine ⟨s', _, hs, fun h => ?_⟩
      have hstays := h.1 _ _ hz (by simp [DirectoryStep.knowledgeId])
      rw [hnone] at hstays
      cases hstays
  · obtain ⟨⟨tr, s⟩, hm, hx, hy⟩ : ∃ r ∈ (directoryMachine true).exec (fun _ _ => True) Sample.twoKnowledges
        [.check 0 Sample.knowledgeOwner (.lit "a") (.lit "x") ⟨none, some (some (.lit "y"))⟩,
          .check 1 Sample.knowledgeOwner (.lit "a") (.lit "y") ⟨none, some (some (.lit "x"))⟩, .write 0, .write 1],
        r.2.db.directories.get (.lit "x") = some ⟨.lit "a", some (.lit "y"), .lit "X"⟩ ∧
          r.2.db.directories.get (.lit "y") = some ⟨.lit "a", some (.lit "x"), .lit "Y"⟩ := by
      decide +kernel
    refine ⟨tr, s, Machine.runIn_of_exec hm, fun h => h (.lit "x") ?_⟩
    exact .tail (.single (up_directoryForest.2 ⟨_, hx, rfl⟩)) (up_directoryForest.2 ⟨_, hy, rfl⟩)
  · obtain ⟨⟨tr, s⟩, hm, hx, hy⟩ : ∃ r ∈ (directoryMachine false).exec (fun _ _ => True) Sample.twoKnowledges
        [.check 0 Sample.knowledgeOwner (.lit "a") (.lit "x") ⟨none, some (some (.lit "y"))⟩, .write 0,
          .delete Sample.knowledgeOwner (.lit "a") (.lit "y") true],
        r.2.db.directories.get (.lit "x") = some ⟨.lit "a", some (.lit "y"), .lit "X"⟩ ∧
          r.2.db.directories.get (.lit "y") = none := by
      decide +kernel
    refine ⟨tr, s, Machine.runIn_of_exec hm, fun h => ?_⟩
    obtain ⟨e, he, -⟩ := h.parents _ _ hx _ rfl
    rw [hy] at he
    cases he

end TideBot
