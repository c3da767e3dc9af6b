/-
  Moves of folders, at the same time.

  `update_folder_parent_id_by_id` asks for the folders below the one that is to be moved, and writes
  afterwards; another move may be written in between.  A write keeps the folders of each user a
  forest if and only if what was asked for would be answered in the same way when it is made
  (`acyclic_write_iff`); two moves that are both checked before either is written make a circle
  (`folderMovesKeepForests_fails`).
-/
import TideBot.Folders.Rows
import TideBot.Lib.Forest
import TideBot.Lib.Machine

namespace TideBot

open Lib Relation

/-- The folders of a user, with their parents. -/
def folderForest (rows : Dict Text Folder) (userId : Text) : Forest Text := fun id =>
  ((rows.get id).filter fun f => f.userId = userId).map Folder.parentId

/-- A move that has been checked. -/
structure FolderMove where
  user : VerifiedUser
  id : Text
  parentId : Option Text

/-- The rows, and the moves under way. -/
structure FolderMoves where
  rows : Dict Text Folder
  moves : Dict ℕ FolderMove

inductive FolderMoveStep where
  | check (call : ℕ) (user : VerifiedUser) (id : Text) (parentId : Option Text)
  | write (call : ℕ)

/-- `update_folder_parent_id_by_id`, under interleaved calls. -/
def folderMoveMachine (lower : Text → Text) : Machine FolderMoves FolderMoveStep (Option FolderError) where
  step s
    | .check call user id parentId =>
      if (s.moves.get call).isSome then none
      else
        match moveError lower s.rows user id parentId with
        | some error => some (s, some error)
        | none => some ({ s with moves := s.moves.set call ⟨user, id, parentId⟩ }, none)
    | .write call =>
      (s.moves.get call).map fun m =>
        ({ rows := updateFolderParentId s.rows m.id m.user.id m.parentId, moves := s.moves.erase call }, none)

/-- **The condition on a step**: the new parent of a folder is not in its subtree when it is written. -/
def MoveFits (s : FolderMoves) : FolderMoveStep → Prop
  | .check .. => True
  | .write call => ∀ m ∈ s.moves.get call, ∀ p ∈ m.parentId, p ∉ subtreeIds s.rows m.user.id m.id

instance (s : FolderMoves) : (i : FolderMoveStep) → Decidable (MoveFits s i)
  | .check .. => inferInstanceAs (Decidable True)
  | .write _ => inferInstanceAs (Decidable (∀ _ ∈ _, ∀ _ ∈ _, _ ∉ _))

/-- The folders of each user form a forest. -/
def FoldersForest (rows : Dict Text Folder) : Prop := ∀ userId, (folderForest rows userId).Acyclic

section
variable {lower : Text → Text} {rows : Dict Text Folder} {userId userId' id c p : Text} {parentId : Option Text}
variable {s s' : FolderMoves} {tr : List (FolderMoveStep × Option FolderError)} {i : FolderMoveStep}
variable {o : Option FolderError}

/-! ## Subtrees -/

theorem up_folderForest : (folderForest rows userId).Up c p ↔
    ∃ f, rows.get c = some f ∧ f.userId = userId ∧ f.parentId = some p := by
  simp only [Forest.Up, folderForest, Option.map_eq_some_iff, Option.filter_eq_some_iff, decide_eq_true_eq, and_assoc]

theorem mem_childFolderIds : c ∈ childFolderIds rows userId p ↔ (folderForest rows userId).Up c p := by
  simp only [childFolderIds, List.mem_map, List.mem_filter, Bool.and_eq_true, decide_eq_true_eq, up_folderForest]
  constructor
  · rintro ⟨e, ⟨he, hparent, huser⟩, rfl⟩
    exact ⟨e.2, Dict.mem_entries_iff.1 he, huser, hparent⟩
  · rintro ⟨f, hf, huser, hparent⟩
    exact ⟨(c, f), ⟨Dict.mem_entries_iff.2 hf, hparent, huser⟩, rfl⟩

/-- **The subtree of a folder: what is below it.** -/
theorem mem_subtreeIds (hid : (rows.get id).isSome) :
    c ∈ subtreeIds rows userId id ↔ ReflTransGen (folderForest rows userId).Up c id := by
  have hkeys : ∀ k, k ∈ rows.keys.toFinset ↔ (rows.get k).isSome := by
    intro k
    rw [List.mem_toFinset, Dict.mem_keys_iff, Option.isSome_iff_exists]
  have hcard : rows.keys.toFinset.card ≤ rows.size := by
    refine (List.toFinset_card_le _).trans ?_
    simp [Dict.keys, Dict.size]
  rw [subtreeIds, mem_spread (U := rows.keys.toFinset) ?_ ((hkeys id).2 hid) hcard]
  · simp only [mem_childFolderIds]
    exact reflTransGen_swap
  · intro k _ c hc
    obtain ⟨f, hf, -⟩ := up_folderForest.1 (mem_childFolderIds.1 hc)
    exact (hkeys c).2 (hf ▸ rfl)

/-! ## Writes -/

theorem get_updateFolderParentId (rows : Dict Text Folder) (id userId : Text) (parentId : Option Text) (c : Text) :
    (updateFolderParentId rows id userId parentId).get c =
    (rows.get c).map fun f => if c = id ∧ f.userId = userId then { f with parentId := parentId } else f := by
  unfold updateFolderParentId
  by_cases heq : c = id
  · subst heq
    cases hc : rows.get c with
    | none => simp [hc]
    | some f => by_cases huser : f.userId = userId <;> simp [huser, hc]
  · cases rows.get id with
    | none => simp [heq]
    | some f => by_cases huser : f.userId = userId <;> simp [huser, heq, Dict.get_set]

theorem folderForest_of_get {f : Folder} (h : rows.get c = some f) :
    folderForest rows userId c = if f.userId = userId then some f.parentId else none := by
  rw [folderForest, h, Option.filter_some]
  split_ifs <;> simp_all

theorem folderForest_of_none (h : rows.get c = none) : folderForest rows userId c = none := by
  rw [folderForest, h]
  rfl

theorem folderForest_update_self :
    folderForest (updateFolderParentId rows id userId parentId) userId = (folderForest rows userId).move id parentId := by
  funext c
  have hget := get_updateFolderParentId rows id userId parentId c
  cases hc : rows.get c with
  | none =>
    rw [hc] at hget
    rw [folderForest_of_none hget, Forest.move, folderForest_of_none hc]
    simp
  | some f =>
    rw [hc] at hget
    rw [folderForest_of_get hget, Forest.move, folderForest_of_get hc]
    by_cases huser : f.userId = userId <;> by_cases heq : c = id <;> simp [huser, heq]

theorem folderForest_update_of_ne (hne : userId' ≠ userId) :
    folderForest (updateFolderParentId rows id userId parentId) userId' = folderForest rows userId' := by
  funext c
  have hget := get_updateFolderParentId rows id userId parentId c
  cases hc : rows.get c with
  | none =>
    rw [hc] at hget
    rw [folderForest_of_none hget, folderForest_of_none hc]
  | some f =>
    rw [hc] at hget
    rw [folderForest_of_get hget, folderForest_of_get hc]
    by_cases huser : f.userId = userId <;> by_cases heq : c = id <;> simp [huser, heq, hne.symm]

/-- **A write keeps the forests if and only if the new parent is not in the subtree.** -/
theorem acyclic_write_iff {f : Folder} (h : FoldersForest rows) (hf : rows.get id = some f) (huser : f.userId = userId) :
    FoldersForest (updateFolderParentId rows id userId parentId) ↔ ∀ p ∈ parentId, p ∉ subtreeIds rows userId id := by
  have hnode : (folderForest rows userId id).isSome := by simp [folderForest, hf, huser]
  have hmove := (h userId).move_iff (o := parentId) hnode
  rw [← folderForest_update_self] at hmove
  have hsubtree : ∀ p, p ∈ subtreeIds rows userId id ↔ ReflTransGen (folderForest rows userId).Up p id :=
    fun p => mem_subtreeIds (hf ▸ rfl)
  simp only [hsubtree]
  refine ⟨fun hall p hp => hmove.1 (hall userId) p hp, fun hall userId' => ?_⟩
  by_cases heq : userId' = userId
  · exact heq ▸ hmove.2 hall
  · rw [folderForest_update_of_ne heq]
    exact h userId'

theorem updateFolderParentId_of_ne (h : ∀ f, rows.get id = some f → f.userId ≠ userId) :
    updateFolderParentId rows id userId parentId = rows := by
  unfold updateFolderParentId
  cases hf : rows.get id with
  | none => rfl
  | some f => exact if_neg (h f hf)

/-! ## Runs -/

theorem FoldersForest.step (h : FoldersForest s.rows) (hfits : MoveFits s i)
    (hs : (folderMoveMachine lower).step s i = some (s', o)) : FoldersForest s'.rows := by
  cases i with
  | check call user id parentId =>
    obtain ⟨-, hs⟩ := Option.ite_none_left_eq_some.1 hs
    split at hs <;> cases hs <;> exact h
  | write call =>
    obtain ⟨m, hm, hs⟩ := Option.map_eq_some_iff.1 hs
    cases hs
    by_cases hown : ∃ f, s.rows.get m.id = some f ∧ f.userId = m.user.id
    · obtain ⟨f, hf, huser⟩ := hown
      exact (acyclic_write_iff h hf huser).2 (hfits m hm)
    · push Not at hown
      dsimp only
      rw [updateFolderParentId_of_ne hown]
      exact h

/-- **In a run in which every write fits, the folders of each user form a forest in every state.** -/
theorem folderMovesKeepForests (lower : Text → Text)
    (hrun : (folderMoveMachine lower).RunIn MoveFits s tr s') (hforest : FoldersForest s.rows) :
    FoldersForest s'.rows :=
  hrun.invariant (I := fun s => FoldersForest s.rows) (fun _ _ _ _ hfits h hs => h.step hfits hs) hforest

end

namespace Sample

def twoFolders : FolderMoves :=
  ⟨(Dict.empty.set (.lit "a") ⟨.lit "u", none, some (.lit "A")⟩).set (.lit "b") ⟨.lit "u", none, some (.lit "B")⟩, .empty⟩

def folderUser : VerifiedUser := ⟨.lit "u", false⟩

theorem twoFolders_forest : FoldersForest twoFolders.rows := by
  intro userId k hk
  obtain ⟨p, hup, -⟩ := TransGen.head'_iff.1 hk
  obtain ⟨f, hf, -, hparent⟩ := up_folderForest.1 hup
  have hroots : ∀ e ∈ twoFolders.rows.entries, e.2.parentId = none := by decide +kernel
  rw [hroots _ (Dict.mem_entries_iff.2 hf)] at hparent
  cases hparent

end Sample

/-- One move after the other: the second is refused. -/
theorem folderMovesKeepForests_refused : ∃ tr s', (folderMoveMachine id).RunIn MoveFits Sample.twoFolders tr s' ∧
    tr.map Prod.snd = [none, none, some .intoItself] ∧ FoldersForest s'.rows := by
  obtain ⟨⟨tr, s'⟩, hm, hout⟩ : ∃ r ∈ (folderMoveMachine id).exec MoveFits Sample.twoFolders
      [.check 0 Sample.folderUser (.lit "a") (some (.lit "b")), .write 0,
        .check 1 Sample.folderUser (.lit "b") (some (.lit "a"))],
      r.1.map Prod.snd = [none, none, some .intoItself] := by
    decide +kernel
  exact ⟨tr, s', Machine.runIn_of_exec hm, hout,
    folderMovesKeepForests id (Machine.runIn_of_exec hm) Sample.twoFolders_forest⟩

/-- Both moves are checked before either is written. -/
theorem folderMovesKeepForests_fails : FoldersForest Sample.twoFolders.rows ∧
    ∃ tr s', (folderMoveMachine id).Run Sample.twoFolders tr s' ∧ ¬ FoldersForest s'.rows := by
  obtain ⟨⟨tr, s'⟩, hm, ha, hb⟩ : ∃ r ∈ (folderMoveMachine id).exec (fun _ _ => True) Sample.twoFolders
      [.check 0 Sample.folderUser (.lit "a") (some (.lit "b")), .check 1 Sample.folderUser (.lit "b") (some (.lit "a")),
        .write 0, .write 1],
      r.2.rows.get (.lit "a") = some ⟨.lit "u", some (.lit "b"), some (.lit "A")⟩ ∧
        r.2.rows.get (.lit "b") = some ⟨.lit "u", some (.lit "a"), some (.lit "B")⟩ := by
    decide +kernel
  refine ⟨Sample.twoFolders_forest, tr, s', Machine.runIn_of_exec hm, fun h => h (.lit "u") (.lit "a") ?_⟩
  exact .tail (.single (up_folderForest.2 ⟨_, ha, rfl, rfl⟩)) (up_folderForest.2 ⟨_, hb, rfl, rfl⟩)

end TideBot
