/-
  Deleting a knowledge directory accounts for every file (`models/knowledge.py`).

  The links of a subtree are moved, or deleted, by a recursion of its own; the directories go by the cascade of the
  foreign keys.  In a forest both come to the same directories.
-/
import TideBot.Knowledge.Directories

namespace TideBot

open Lib Relation

/-- The directories are a forest: parents are there, and run in no circle. -/
structure DirectoryForest (db : KnowledgeDb) : Prop where
  parents : ∀ id d, db.directories.get id = some d → ∀ p ∈ d.parentId, (db.directories.get p).isSome
  acyclic : (directoryForest db).Acyclic

/-- Is the directory `id`, or is below it? -/
def InSubtree (db : KnowledgeDb) (id c : Text) : Prop := ReflTransGen (directoryForest db).Up c id

/-- Is the link to a directory of the subtree? -/
def KnowledgeFile.LinksInto (l : KnowledgeFile) (db : KnowledgeDb) (id : Text) : Prop :=
  ∃ x ∈ l.directoryId, InSubtree db id x

open Classical in
/-- The links that are left of a deletion: those of the subtree are attached to the parent, or removed. -/
noncomputable def linksWithout (db : KnowledgeDb) (id : Text) (parentId : Option Text) (moveFiles : Bool) :
    List KnowledgeFile :=
  if moveFiles then
    db.knowledgeFiles.map fun l => if l.LinksInto db id then { l with directoryId := parentId } else l
  else db.knowledgeFiles.filter fun l => ¬l.LinksInto db id

section
variable {db : KnowledgeDb} {id : Text} {d : KnowledgeDirectory} {l : KnowledgeFile}

theorem linksInto_iff (hd : db.directories.get id = some d) :
    l.LinksInto db id ↔ l.directoryId.any fun x => x ∈ db.directorySubtreeIds id := by
  rw [Option.any_eq_true, KnowledgeFile.LinksInto]
  refine exists_congr fun x => and_congr_right fun _ => ?_
  rw [decide_eq_true_iff, mem_directorySubtreeIds (by rw [hd]; rfl), InSubtree]

open Classical in
/-- **The recursion and the cascade come to the same directories.** -/
theorem linksAfterDelete_eq_linksWithout (h : DirectoryForest db) (hd : db.directories.get id = some d)
    (moveFiles : Bool) :
    db.linksAfterDelete id d.parentId moveFiles = some (linksWithout db id d.parentId moveFiles) := by
  rw [linksAfterDelete_eq h.acyclic hd, linksWithout]
  congr 1
  cases moveFiles with
  | true =>
    refine List.map_congr_left fun l _ => ?_
    simp only [linksInto_iff hd]
  | false =>
    refine List.filter_congr fun l _ => ?_
    rw [Bool.eq_iff_iff, Bool.not_eq_true', decide_eq_true_iff, linksInto_iff hd, Bool.not_eq_true]

open Classical in
theorem not_inSubtree_of_mem (h : DirectoryForest db) (hd : db.directories.get id = some d) {moveFiles : Bool}
    (hl : l ∈ linksWithout db id d.parentId moveFiles) : ∀ x ∈ l.directoryId, ¬InSubtree db id x := by
  intro x hx hin
  cases moveFiles with
  | true =>
    obtain ⟨l₀, -, rfl⟩ := List.mem_map.1 hl
    split_ifs at hx with hinto
    · -- the parent is not below the directory
      exact parent_not_below h.acyclic hd x hx ((mem_directorySubtreeIds (by rw [hd]; rfl)).2 hin)
    · exact hinto ⟨x, hx, hin⟩
  | false => exact of_decide_eq_true (List.mem_filter.1 hl).2 ⟨x, hx, hin⟩

theorem deleteDirectoryRow_links {links : List KnowledgeFile}
    (hlinks : ∀ l ∈ links, ∀ x ∈ l.directoryId, x ∉ db.directorySubtreeIds id) :
    ({ db with knowledgeFiles := links }.deleteDirectoryRow true id).knowledgeFiles = links := by
  have hkept : ∀ l ∈ links, (if l.directoryId.any fun x => x ∈ db.directorySubtreeIds id then
      { l with directoryId := none } else l) = l := by
    intro l hl
    refine if_neg fun hany => ?_
    obtain ⟨x, hx, hin⟩ := (Option.any_eq_true _ _).1 hany
    exact hlinks l hl x hx (of_decide_eq_true hin)
  exact (List.map_congr_left hkept).trans (List.map_id _)

/-- **A deletion accounts for every file**: the links of the subtree are attached to the parent, or removed, the others
    stay as they are, the directories that are left are those outside of the subtree, and no link is to one that is
    not. -/
theorem deleteDirectory_accounts (h : DirectoryForest db) (hd : db.directories.get id = some d) (moveFiles : Bool) :
    ∃ db', db.deleteDirectory true id moveFiles = some db' ∧
      db'.knowledgeFiles = linksWithout db id d.parentId moveFiles ∧
      (∀ c e, db'.directories.get c = some e ↔ db.directories.get c = some e ∧ ¬InSubtree db id c) ∧
      ∀ l ∈ db'.knowledgeFiles, ∀ x ∈ l.directoryId, ¬InSubtree db id x := by
  have hsome : (db.directories.get id).isSome := by rw [hd]; rfl
  have hlinks : ({ db with knowledgeFiles := linksWithout db id d.parentId moveFiles }.deleteDirectoryRow true
      id).knowledgeFiles = linksWithout db id d.parentId moveFiles := by
    refine deleteDirectoryRow_links fun l hl x hx hin => ?_
    exact not_inSubtree_of_mem h hd hl x hx ((mem_directorySubtreeIds hsome).1 hin)
  refine ⟨{ db with knowledgeFiles := linksWithout db id d.parentId moveFiles }.deleteDirectoryRow true id, ?_,
    hlinks, ?_, ?_⟩
  · rw [KnowledgeDb.deleteDirectory, hd, Option.bind_some, linksAfterDelete_eq_linksWithout h hd, Option.map_some]
  · intro c e
    rw [InSubtree, ← mem_directorySubtreeIds hsome]
    simp only [KnowledgeDb.deleteDirectoryRow, if_true, Dict.get_filter, decide_eq_true_eq]
    rfl
  · rw [hlinks]
    exact fun l hl => not_inSubtree_of_mem h hd hl

end

namespace Sample

/-- A directory in a directory in a directory, each with a file. -/
def nestedDirectories : KnowledgeDb where
  knowledge := Dict.empty.set (.lit "k") ⟨.lit "u", false⟩
  directories := ((Dict.empty.set (.lit "x") ⟨.lit "k", none, .lit "X"⟩).set (.lit "y")
    ⟨.lit "k", some (.lit "x"), .lit "Y"⟩).set (.lit "z") ⟨.lit "k", some (.lit "y"), .lit "Z"⟩
  knowledgeFiles := [⟨.lit "k", .lit "f", some (.lit "x")⟩, ⟨.lit "k", .lit "g", some (.lit "y")⟩,
    ⟨.lit "k", .lit "h", some (.lit "z")⟩]
  files := .empty
  grants := ⟨[], [], [], .empty⟩
  attachments := ⟨fun _ _ => false, fun _ => [], fun _ => []⟩

theorem nestedDirectories_forest : DirectoryForest nestedDirectories where
  parents := by
    have hall : ∀ e ∈ nestedDirectories.directories.entries, ∀ p ∈ e.2.parentId,
        (nestedDirectories.directories.get p).isSome := by decide +kernel
    exact fun id d hd => hall _ (Dict.mem_entries_iff.2 hd)
  acyclic := by
    -- the parent comes earlier in the alphabet
    have hall : ∀ e ∈ nestedDirectories.directories.entries, ∀ p ∈ e.2.parentId, p < e.1 := by decide +kernel
    intro k hk
    have hlt : ∀ a b, (directoryForest nestedDirectories).Up a b → b < a := by
      intro a b hup
      obtain ⟨d, hd, hparent⟩ := up_directoryForest.1 hup
      exact hall _ (Dict.mem_entries_iff.2 hd) b hparent
    have hself : TransGen (fun a b : Text => b < a) k k := TransGen.mono hlt _ _ hk
    rw [transGen_eq_self] at hself
    exact lt_irrefl k hself

end Sample

/-- The directory in the middle is deleted, and its files go to its parent. -/
theorem deleteDirectory_accounts_nested : ∃ db',
    Sample.nestedDirectories.deleteDirectory true (.lit "y") true = some db' ∧
    db'.knowledgeFiles = linksWithout Sample.nestedDirectories (.lit "y") (some (.lit "x")) true ∧
    (∀ c e, db'.directories.get c = some e ↔
      Sample.nestedDirectories.directories.get c = some e ∧ ¬InSubtree Sample.nestedDirectories (.lit "y") c) ∧
    ∀ l ∈ db'.knowledgeFiles, ∀ x ∈ l.directoryId, ¬InSubtree Sample.nestedDirectories (.lit "y") x :=
  deleteDirectory_accounts (d := ⟨.lit "k", some (.lit "x"), .lit "Y"⟩) Sample.nestedDirectories_forest
    (by decide +kernel) true

end TideBot
