/-
  The subtree of a folder, in four ways.

  The list of ids goes down with a worklist, the list of children by recursion, and the deletion by recursion
  over a table from which it deletes meanwhile.  The counts of unread chats go up, from each folder
  that has some.  Whatever the parents say, all of them come to the same folders (`subtreesAgree`).

  The chats of the database are outside: `direct` is what `count_unread_by_folder_ids` returns.  Nor
  is there a limit to the recursion.
-/
import TideBot.Folders.Repair
import TideBot.Lib.DepthFirst

namespace TideBot

open Lib Relation

section
variable (rows : Dict Text Folder)

/-- `Folders.get_folders_by_parent_id_and_user_id`; `none`: one of them is no model. -/
def childModels (userId id : Text) : Option (List Text) :=
  let ids := childFolderIds rows userId id
  if ids.all fun c => (rows.get c).all Folder.valid then some ids else none

/-- `Folders.get_children_folders_by_id_and_user_id`: the ids; `none` if the folder is not there, or one of
    them is no model. -/
def getChildrenFolders (id userId : Text) : Option (List Text) :=
  if (rows.get id).any fun f => f.userId = userId then
    match descend (fun _ => childModels rows userId) (fun folders c => folders ++ [c]) rows.size id ([id], []) with
    | .ok (_, folders) => some folders
    | .error _ => none
  else none

/-- `Folders.delete_folder_by_id_and_user_id`: the rows, and the ids that it returns -/
def deleteFolder (id userId : Text) : Dict Text Folder × List Text :=
  if (rows.get id).any fun f => f.userId = userId then
    match descend (fun s => childModels s.1 userId) (fun s c => (s.1.erase c, s.2 ++ [c])) rows.size id
        ([id], (rows, [id])) with
    | .ok (_, rows', folderIds) => (rows'.erase id, folderIds)
    | .error (rows', _) => (rows', [])
  else (rows, [])

/-- The count of a folder, added to those of the folders that the walk up from it meets. -/
def addUnread (parentById : Dict Text (Option Text)) (unreadCounts : Dict Text ℕ) (e : Text × ℕ) : Dict Text ℕ :=
  let walked := trail (parentFrom parentById) (parentById.size + parentById.size) []
    (if e.1 = [] then none else some e.1)
  walked.foldl (fun counts c =>
    match counts.get c with
    | some count => counts.set c (count + e.2)
    | none => counts) unreadCounts

/-- `get_folder_unread_counts`; `none`: a folder of the user is no model. -/
def getFolderUnreadCounts (userId : Text) (direct : Dict Text ℕ) : Option (Dict Text ℕ) :=
  if (foldersOf rows userId).all fun e => e.2.valid then
    let parentById := parentByIdOf rows userId
    let unreadCounts := parentById.entries.foldl (fun d e => d.set e.1 0) .empty
    some (direct.entries.foldl (addUnread parentById) unreadCounts)
  else none

end

section
variable {rows rows' : Dict Text Folder} {userId id c p : Text} {f : Folder} {parentById : Dict Text (Option Text)}
variable {done left : List Text} {direct counts : Dict Text ℕ}

/-! ## Down -/

theorem childFolderIds_mem_keys (hc : c ∈ childFolderIds rows userId p) : c ∈ rows.keys.toFinset := by
  obtain ⟨f, hf, -⟩ := up_folderForest.1 (mem_childFolderIds.1 hc)
  exact List.mem_toFinset.2 (Dict.mem_keys_iff.2 ⟨f, hf⟩)

theorem childModels_eq (hvalid : ∀ c ∈ childFolderIds rows userId p, ∀ f, rows.get c = some f → f.valid) :
    childModels rows userId p = some (childFolderIds rows userId p) := by
  rw [childModels, if_pos]
  rw [List.all_eq_true]
  intro c hc
  obtain ⟨f, hf, -⟩ := up_folderForest.1 (mem_childFolderIds.1 hc)
  simpa [hf] using hvalid c hc f hf

theorem childModels_eq_some {cs : List Text} (h : childModels rows userId p = some cs) :
    cs = childFolderIds rows userId p ∧ ∀ c ∈ cs, (rows.get c).all Folder.valid := by
  obtain ⟨hall, heq⟩ := Option.ite_none_right_eq_some.1 h
  cases heq
  exact ⟨rfl, List.all_eq_true.1 hall⟩

theorem valid_below (hvalid : ∀ id f, rows.get id = some f → f.userId = userId → f.valid) :
    ∀ c f, TransGen (folderForest rows userId).Up c id → rows.get c = some f → f.valid := by
  intro c f hpath hf
  obtain ⟨p, hup, -⟩ := TransGen.head'_iff.1 hpath
  obtain ⟨g, hg, huser, -⟩ := up_folderForest.1 hup
  rw [hf] at hg
  cases hg
  exact hvalid c f hf huser

theorem foldl_delete {out : List Text} :
    left.foldl (fun (s : Dict Text Folder × List Text) c => (s.1.erase c, s.2 ++ [c])) (rows, out) =
      (left.foldl Dict.erase rows, out ++ left) := by
  induction left generalizing rows out with
  | nil => simp
  | cons c left ih =>
    rw [List.foldl_cons, ih, List.foldl_cons, List.append_assoc]
    rfl

theorem foldl_concat_ids {out : List Text} : left.foldl (fun folders c => folders ++ [c]) out = out ++ left := by
  induction left generalizing out with
  | nil => simp
  | cons c left ih => rw [List.foldl_cons, ih, List.append_assoc, List.singleton_append]

theorem childFolderIds_erased : childFolderIds (done.foldl Dict.erase rows) userId p =
    (childFolderIds rows userId p).filter fun c => c ∉ done := by
  induction done generalizing rows with
  | nil => simp
  | cons x done ih =>
    have hfirst : childFolderIds (rows.erase x) userId p = (childFolderIds rows userId p).filter fun c => c ≠ x := by
      rw [childFolderIds, childFolderIds, List.filter_map, Dict.erase, Dict.filter, List.filter_filter,
        List.filter_filter]
      refine congrArg _ (List.filter_congr fun e _ => ?_)
      rw [Bool.and_comm]
      rfl
    rw [List.foldl_cons, ih, hfirst, List.filter_filter]
    refine List.filter_congr fun c _ => ?_
    rw [← Bool.decide_and, decide_eq_decide, List.mem_cons, not_or, and_comm]

theorem mem_childFolderIds_erased :
    c ∈ childFolderIds (done.foldl Dict.erase rows) userId p ↔ c ∈ childFolderIds rows userId p ∧ c ∉ done := by
  rw [childFolderIds_erased, List.mem_filter, decide_eq_true_eq]

/-- **Below a folder**: the walk of the children, and that of the deletion. -/
theorem below_folder (hvalid : ∀ c f, TransGen (folderForest rows userId).Up c id → rows.get c = some f → f.valid)
    (hf : rows.get id = some f) :
    (∃ left seen', descend (fun _ => childModels rows userId) (fun folders c => folders ++ [c]) rows.size id
        ([id], []) = .ok (seen', left) ∧ (id :: left).Nodup ∧
          ∀ c, c ∈ id :: left ↔ ReflTransGen (folderForest rows userId).Up c id) ∧
    ∃ left seen', descend (fun s => childModels s.1 userId) (fun s c => (s.1.erase c, s.2 ++ [c])) rows.size id
        ([id], (rows, [id])) = .ok (seen', left.foldl Dict.erase rows, id :: left) ∧ (id :: left).Nodup ∧
          ∀ c, c ∈ id :: left ↔ ReflTransGen (folderForest rows userId).Up c id := by
  classical
  let U := rows.keys.toFinset.filter fun c => ReflTransGen (folderForest rows userId).Up c id
  have hbelow : ∀ k ∈ U, ∀ c ∈ childFolderIds rows userId k, TransGen (folderForest rows userId).Up c id :=
    fun k hk c hc => .head' (mem_childFolderIds.1 hc) (Finset.mem_filter.1 hk).2
  have hU : ∀ k ∈ U, ∀ c ∈ childFolderIds rows userId k, c ∈ U :=
    fun k hk c hc => Finset.mem_filter.2 ⟨childFolderIds_mem_keys hc, (hbelow k hk c hc).to_reflTransGen⟩
  have hid : id ∈ U := Finset.mem_filter.2 ⟨List.mem_toFinset.2 (Dict.mem_keys_iff.2 ⟨f, hf⟩), .refl⟩
  have hcard : U.card ≤ rows.size := by
    refine (Finset.card_filter_le _ _).trans ((List.toFinset_card_le _).trans ?_)
    rw [Dict.keys, List.length_map, Dict.size]
  have hreach : ∀ c, ReflTransGen (fun a b => b ∈ childFolderIds rows userId a) id c ↔
      ReflTransGen (folderForest rows userId).Up c id := by
    intro c
    simp only [mem_childFolderIds]
    exact reflTransGen_swap
  constructor
  · have hfades : Fades (fun _ => childModels rows userId) (fun folders c => folders ++ [c])
        (childFolderIds rows userId) U ([] : List Text) :=
      fun _ k hk => ⟨_, childModels_eq fun c hc f hf => hvalid c f (hbelow k hk c hc) hf, fun _ hc => hc,
        fun _ hc => .inl hc⟩
    obtain ⟨left, seen', heq, hnodup, hmem⟩ := descend_eq hfades hU hid hcard
    refine ⟨left, seen', ?_, hnodup, fun c => (hmem c).trans (hreach c)⟩
    rw [heq, foldl_concat_ids, List.nil_append]
  · have hfades : Fades (fun s => childModels s.1 userId) (fun s c => (s.1.erase c, s.2 ++ [c]))
        (childFolderIds rows userId) U (rows, [id]) := by
      intro done k hk
      refine ⟨childFolderIds (done.foldl Dict.erase rows) userId k, ?_, ?_, ?_⟩
      · rw [foldl_delete]
        refine childModels_eq fun c hc f hget => ?_
        rw [Dict.get_foldl_erase] at hget
        split_ifs at hget
        exact hvalid c f (hbelow k hk c (mem_childFolderIds_erased.1 hc).1) hget
      · exact fun c hc => (mem_childFolderIds_erased.1 hc).1
      · intro c hc
        by_cases hdone : c ∈ done
        · exact .inr hdone
        · exact .inl (mem_childFolderIds_erased.2 ⟨hc, hdone⟩)
    obtain ⟨left, seen', heq, hnodup, hmem⟩ := descend_eq hfades hU hid hcard
    refine ⟨left, seen', ?_, hnodup, fun c => (hmem c).trans (hreach c)⟩
    rw [heq, foldl_delete, List.singleton_append]

/-- **The children of a folder**: what is below it in the tree of the user, if all of that are models. -/
theorem mem_getChildrenFolders (hf : rows.get id = some f) :
    c ∈ (getChildrenFolders rows id f.userId).getD [] ↔ c ≠ id ∧ TransGen (folderForest rows f.userId).Up c id ∧
      ∀ c g, TransGen (folderForest rows f.userId).Up c id → rows.get c = some g → g.valid := by
  have hown : (rows.get id).any fun g => g.userId = f.userId := by simp [hf]
  by_cases hvalid : ∀ c g, TransGen (folderForest rows f.userId).Up c id → rows.get c = some g → g.valid
  · obtain ⟨⟨left, seen, hchildren, hnodup, hmem⟩, -⟩ := below_folder hvalid hf
    have hleft : c ∈ left ↔ c ≠ id ∧ TransGen (folderForest rows f.userId).Up c id := by
      have hiff := hmem c
      rw [reflTransGen_iff_eq_or_transGen, List.mem_cons] at hiff
      constructor
      · intro hc
        have hne : c ≠ id := fun heq => (List.nodup_cons.1 hnodup).1 (heq ▸ hc)
        exact ⟨hne, (hiff.1 (.inr hc)).resolve_left hne.symm⟩
      · rintro ⟨hne, hpath⟩
        exact (hiff.2 (.inr hpath)).resolve_left hne
    rw [getChildrenFolders, if_pos hown, hchildren]
    show c ∈ left ↔ _
    rw [hleft]
    exact ⟨fun h => ⟨h.1, h.2, hvalid⟩, fun h => ⟨h.1, h.2.1⟩⟩
  · refine iff_of_false (fun hc => ?_) fun h => hvalid h.2.2
    rw [getChildrenFolders, if_pos hown] at hc
    cases hwalk : descend (fun _ => childModels rows f.userId) (fun folders c => folders ++ [c]) rows.size id
        ([id], []) with
    | error s =>
      rw [hwalk] at hc
      cases hc
    | ok s =>
      refine hvalid fun c g hpath hg => ?_
      -- the walk has come to the folder above, and could tell its children
      obtain ⟨p, hup, hpath'⟩ := TransGen.head'_iff.1 hpath
      have htold : (childModels rows f.userId p).isSome := by
        refine isSome_of_descend (R := fun a b => (folderForest rows f.userId).Up b a) hwalk ?_
          (reflTransGen_swap.1 hpath')
        intro a b cs hb hcs
        rw [(childModels_eq_some hcs).1]
        exact mem_childFolderIds.2 hb
      obtain ⟨cs, hcs⟩ := Option.isSome_iff_exists.1 htold
      obtain ⟨rfl, hall⟩ := childModels_eq_some hcs
      have hc := hall c (mem_childFolderIds.2 hup)
      simpa [hg] using hc

/-! ## Up -/

theorem get_foldl_add {walked : List Text} {count : ℕ} (hnodup : walked.Nodup) :
    (walked.foldl (fun counts c =>
      match counts.get c with
      | some m => counts.set c (m + count)
      | none => counts) counts).get c = (counts.get c).map fun m => if c ∈ walked then m + count else m := by
  induction walked generalizing counts with
  | nil => simp
  | cons a walked ih =>
    obtain ⟨ha, hnodup⟩ := List.nodup_cons.1 hnodup
    rw [List.foldl_cons, ih hnodup]
    cases hget : counts.get a with
    | none =>
      by_cases hc : c = a
      · simp [hc, hget]
      · simp [hc]
    | some m =>
      by_cases hc : c = a
      · subst hc
        simp [hget, ha]
      · simp [hc, Dict.get_set_of_ne]

/-- **What the counts come to**: each folder has what the walks that meet it bring. -/
theorem get_foldl_addUnread {entries : List (Text × ℕ)} :
    (entries.foldl (addUnread parentById) counts).get c = (counts.get c).map fun m =>
      m + (entries.map fun e => if c ∈ trail (parentFrom parentById) (parentById.size + parentById.size) []
        (if e.1 = [] then none else some e.1) then e.2 else 0).sum := by
  induction entries generalizing counts with
  | nil => simp
  | cons e entries ih =>
    rw [List.foldl_cons, ih, addUnread, get_foldl_add (nodup_trail ..).1, Option.map_map]
    congr 1
    funext m
    rw [Function.comp_apply, List.map_cons, List.sum_cons]
    split_ifs <;> omega

theorem mem_walked (hids : rows.get [] = none) (hf : rows.get c = some f) (huser : f.userId = userId) :
    c ∈ trail (parentFrom (parentByIdOf rows userId))
      ((parentByIdOf rows userId).size + (parentByIdOf rows userId).size) [] (if p = [] then none else some p) ↔
      ReflTransGen (folderForest rows userId).Up p c := by
  have hleads : Leads (parentsBefore rows userId) p c ↔ ReflTransGen (folderForest rows userId).Up p c := by
    rw [Leads, reflTransGen_iff_eq_or_transGen, reflTransGen_iff_eq_or_transGen, transGen_parentsBefore hids (hf ▸ rfl)]
  rw [← hleads]
  have hne : ∀ {a f}, rows.get a = some f → a ≠ [] := by
    rintro a f hf rfl
    rw [hids] at hf
    cases hf
  constructor
  · intro h
    split_ifs at h
    · cases hsize : (parentByIdOf rows userId).size <;> rw [hsize] at h <;> cases h
    · exact reached_of_mem_trail h
  · intro h
    obtain ⟨g, hg, hown⟩ : ∃ g, rows.get p = some g ∧ g.userId = userId := by
      rcases ReflTransGen.cases_head h with rfl | ⟨b, hup, -⟩
      · exact ⟨f, hf, huser⟩
      · obtain ⟨g, hg, hown, -⟩ := exists_of_parentsBefore hup
        exact ⟨g, hg, hown⟩
    let parentById := parentByIdOf rows userId
    let U := parentById.keys.toFinset ∪ (parentById.entries.filterMap Prod.snd).toFinset
    have hU : ∀ k ∈ U, ∀ a, parentFrom parentById k = some a → a ∈ U := by
      intro k _ a hup
      obtain ⟨hjoin, -⟩ := Option.filter_eq_some_iff.1 hup
      have hentry := Dict.mem_entries_iff.2 (Option.join_eq_some_iff.1 hjoin)
      exact Finset.mem_union_right _ (List.mem_toFinset.2 (List.mem_filterMap.2 ⟨_, hentry, rfl⟩))
    have hp : p ∈ U := by
      refine Finset.mem_union_left _ (List.mem_toFinset.2 (Dict.mem_keys_iff.2 ⟨g.parentId, ?_⟩))
      rw [get_parentByIdOf, folderForest_of_get hg, if_pos hown]
    have hcard : U.card ≤ parentById.size + parentById.size := by
      refine (Finset.card_union_le _ _).trans (Nat.add_le_add ?_ ?_)
      · refine (List.toFinset_card_le _).trans ?_
        rw [Dict.keys, List.length_map, Dict.size]
      · exact (List.toFinset_card_le _).trans (List.length_filterMap_le _ _)
    have hne : p ≠ [] := by
      rintro rfl
      rw [hids] at hg
      cases hg
    rw [if_neg hne]
    exact (mem_trail hU hp hcard).2 h

theorem sum_getD {ids : List Text} (hids : ids.Nodup) (d : Dict Text ℕ) :
    (ids.map fun c => (d.get c).getD 0).sum = (d.entries.map fun e => if e.1 ∈ ids then e.2 else 0).sum := by
  obtain ⟨entries, hnodup⟩ := d
  simp only [Dict.get]
  induction entries with
  | nil => simp
  | cons e entries ih =>
    obtain ⟨hnew, hrest⟩ := List.nodup_cons.1 hnodup
    have hsplit : ∀ c, ((((e :: entries).find? fun e => e.1 = c).map Prod.snd).getD 0) =
        (if e.1 = c then e.2 else 0) + (((entries.find? fun e => e.1 = c).map Prod.snd).getD 0) := by
      intro c
      by_cases hc : e.1 = c
      · have hnone : entries.find? (fun e => e.1 = c) = none := by
          rw [List.find?_eq_none]
          intro e' he' heq
          exact hnew (hc ▸ of_decide_eq_true heq ▸ List.mem_map_of_mem he')
        simp [hc, hnone]
      · simp [hc]
    simp only [hsplit, List.sum_map_add, List.map_cons, List.sum_cons, ih hrest]
    congr 1
    clear hsplit ih
    induction ids with
    | nil => simp
    | cons a ids ih =>
      obtain ⟨ha, hids⟩ := List.nodup_cons.1 hids
      rw [List.map_cons, List.sum_cons, ih hids]
      by_cases he : e.1 = a
      · simp [he, ha]
      · simp [he]

theorem foldersOf_valid (hvalid : ∀ id f, rows.get id = some f → f.userId = userId → f.valid) :
    (foldersOf rows userId).all fun e => e.2.valid := by
  rw [List.all_eq_true]
  intro e he
  obtain ⟨hget, huser⟩ := mem_foldersOf.1 he
  exact hvalid e.1 e.2 hget huser

theorem nodup_subtreeIds (hf : rows.get id = some f) : (subtreeIds rows userId id).Nodup := by
  refine nodup_spread (U := rows.keys.toFinset) (fun k _ c hc => childFolderIds_mem_keys hc)
    (List.mem_toFinset.2 (Dict.mem_keys_iff.2 ⟨f, hf⟩)) ?_
  refine (List.toFinset_card_le _).trans ?_
  rw [Dict.keys, List.length_map, Dict.size]

/-- **The count of a folder is the sum over its subtree.** -/
theorem get_getFolderUnreadCounts (hids : rows.get [] = none)
    (hvalid : ∀ id f, rows.get id = some f → f.userId = userId → f.valid) (hf : rows.get id = some f)
    (huser : f.userId = userId) (direct : Dict Text ℕ) :
    ∃ counts, getFolderUnreadCounts rows userId direct = some counts ∧
      counts.get id = some (((subtreeIds rows userId id).map fun c => (direct.get c).getD 0).sum) := by
  refine ⟨_, if_pos (foldersOf_valid hvalid), ?_⟩
  have hzero := Dict.get_foldl_map (fun _ (_ : Option Text) => 0) (d := parentByIdOf rows userId) (k := id)
  rw [get_foldl_addUnread, hzero, get_parentByIdOf, folderForest_of_get hf, if_pos huser, Option.map_some,
    Option.map_some, zero_add, sum_getD (nodup_subtreeIds hf)]
  congr 2
  refine List.map_congr_left fun e _ => if_congr ?_ rfl rfl
  rw [mem_walked hids hf huser, mem_subtreeIds (hf ▸ rfl)]

/-! ## All four -/

/-- **All computations of a subtree agree**, whatever the parents say. -/
theorem subtreesAgree (hids : rows.get [] = none)
    (hvalid : ∀ id f, rows.get id = some f → f.userId = userId → f.valid) (hf : rows.get id = some f)
    (huser : f.userId = userId) (direct : Dict Text ℕ) :
    ∃ ids children counts, getFolderIdsInSubtree rows id userId = some ids ∧
      getChildrenFolders rows id userId = some children ∧ getFolderUnreadCounts rows userId direct = some counts ∧
      ids.Nodup ∧ (id :: children).Nodup ∧ (deleteFolder rows id userId).2.Nodup ∧
      (∀ c, c ∈ id :: children ↔ c ∈ ids) ∧ (∀ c, c ∈ (deleteFolder rows id userId).2 ↔ c ∈ ids) ∧
      counts.get id = some ((ids.map fun c => (direct.get c).getD 0).sum) := by
  obtain ⟨counts, hcounts, hsum⟩ := get_getFolderUnreadCounts hids hvalid hf huser direct
  obtain ⟨⟨children, seen, hchildren, hnodup, hmem⟩, deleted, seen', hdeleted, hnodup', hmem'⟩ :=
    below_folder (valid_below hvalid) hf
  have hown : (rows.get id).any fun f => f.userId = userId := by simpa [hf] using huser
  have hdelete : (deleteFolder rows id userId).2 = id :: deleted := by rw [deleteFolder, if_pos hown, hdeleted]
  have hids' : (subtreeIds rows userId id).all fun id' => (rows.get id').all Folder.valid := by
    rw [List.all_eq_true]
    intro c hc
    rcases ReflTransGen.cases_head ((mem_subtreeIds (hf ▸ rfl)).1 hc) with rfl | ⟨p, hup, -⟩
    · simpa [hf] using hvalid c f hf huser
    · obtain ⟨g, hg, hown', -⟩ := up_folderForest.1 hup
      simpa [hg] using hvalid c g hg hown'
  refine ⟨subtreeIds rows userId id, children, counts, ?_, ?_, hcounts, nodup_subtreeIds hf, hnodup, ?_, ?_, ?_, hsum⟩
  · rw [getFolderIdsInSubtree, if_pos hown]
    exact if_pos hids'
  · rw [getChildrenFolders, if_pos hown, hchildren]
  · rw [hdelete]
    exact hnodup'
  · intro c
    rw [hmem, mem_subtreeIds (hf ▸ rfl)]
  · intro c
    rw [hdelete, hmem', mem_subtreeIds (hf ▸ rfl)]

/-- The subtree of a folder on a circle. -/
theorem subtreesAgree_tangled : ∃ ids children counts,
    getFolderIdsInSubtree Sample.tangledFolders (.lit "a") (.lit "u") = some ids ∧
    getChildrenFolders Sample.tangledFolders (.lit "a") (.lit "u") = some children ∧
    getFolderUnreadCounts Sample.tangledFolders (.lit "u") (Dict.empty.set (.lit "c") 2) = some counts ∧
    ids.Nodup ∧ (Text.lit "a" :: children).Nodup ∧ (deleteFolder Sample.tangledFolders (.lit "a") (.lit "u")).2.Nodup ∧
    (∀ c, c ∈ Text.lit "a" :: children ↔ c ∈ ids) ∧
    (∀ c, c ∈ (deleteFolder Sample.tangledFolders (.lit "a") (.lit "u")).2 ↔ c ∈ ids) ∧
    counts.get (.lit "a") = some ((ids.map fun c => ((Dict.empty.set (.lit "c") 2).get c).getD 0).sum) := by
  have hvalid : ∀ e ∈ Sample.tangledFolders.entries, e.2.valid = true := by decide +kernel
  exact subtreesAgree (f := Sample.folderUnder (some (.lit "b")) "A") (by decide +kernel)
    (fun id f hf _ => hvalid (id, f) (Dict.mem_entries_iff.2 hf)) (by decide +kernel) rfl _

end

end TideBot
