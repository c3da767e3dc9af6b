/-
  The folders that are shared with a user (`get_shared_folders` in `routers/folders.py`).

  The list goes down: from each folder with a grant for the user to the folders of its owner below it, with the
  permission of the grants of that folder.  `has_folder_access` goes up, over whoever's folders, until one belongs to
  the user or grants the permission.  A folder with grants of its own is listed with these, and one without with those
  of the folder from which the list comes to it first, whatever the others grant (`SharedTruly`).

  The rows are in the order of `updated_at`, the newest first, in which both queries give them; `names` are the
  names of the users.
-/
import TideBot.Folders.Subtrees

namespace TideBot

open Lib Relation

/-! ## The list -/

/-- An entry of the list: the folder, `owner_name` and `permission`. -/
structure SharedFolder where
  id : Text
  folder : Folder
  ownerName : Text
  permission : Text
deriving DecidableEq

section
variable (rows : Dict Text Folder) (db : GrantDb) (names : Dict Text Text) (userId : Text)

/-- `Folders.get_folders_by_ids`; `none`: one of them is no model. -/
def getFoldersByIds (ids : List Text) : Option (List (Text × Folder)) :=
  let folders := rows.entries.filter fun e => e.1 ∈ ids
  if folders.all fun e => e.2.valid then some folders else none

/-- `Folders.get_shared_folder_ids_for_user` -/
def getSharedFolderIdsForUser (userGroupIds : List Text) : Dict Text Text :=
  let grants := db.grants.filter fun g =>
    g.resourceType = .lit "folder" && anyOf (principalConditions userId userGroupIds) g
  grants.foldl (fun folderPerms g =>
    if folderPerms.get g.resourceId ≠ some (.lit "write") then folderPerms.set g.resourceId g.permission
    else folderPerms) .empty

/-- The entry of a folder. -/
def sharedEntry (permission : Text) (folder : Text × Folder) : SharedFolder :=
  ⟨folder.1, folder.2, (names.get folder.2.userId).getD (.lit "Unknown"), permission⟩

/-- The children of a shared folder, as they are found. -/
def childEntries (folder : Text × Folder) : List (Text × Folder) :=
  ((getChildrenFolders rows folder.1 folder.2.userId).getD []).filterMap fun c => (rows.get c).map fun f => (c, f)

/-- The child is put on the list if it has not been seen: `seen_ids` and `results`. -/
def addChild (permission : Text) (state : List Text × List SharedFolder) (child : Text × Folder) :
    List Text × List SharedFolder :=
  if child.1 ∈ state.1 then state else (child.1 :: state.1, state.2 ++ [sharedEntry names permission child])

/-- `get_shared_folders`; `none`: a row is no model. -/
def getSharedFolders : Option (List SharedFolder) :=
  let folderPerms := getSharedFolderIdsForUser db userId (db.getGroupsByMemberId userId)
  let permissionOf := fun folder : Text × Folder => (folderPerms.get folder.1).getD []
  (getFoldersByIds rows folderPerms.keys).map fun folders =>
    let sharedFolders := folders.filter fun e => e.2.userId ≠ userId
    let results := sharedFolders.map fun e => sharedEntry names (permissionOf e) e
    (sharedFolders.foldl
      (fun state folder => (childEntries rows folder).foldl (addChild names (permissionOf folder)) state)
      (sharedFolders.map Prod.fst, results)).2

/-! ## What it says -/

/-- The folder is in the list. -/
def ListedIn (results : Option (List SharedFolder)) (id : Text) : Prop := ∃ es ∈ results, ∃ e ∈ es, e.id = id

/-- The folder is in the list with the permission. -/
def ListedAs (results : Option (List SharedFolder)) (id permission : Text) : Prop :=
  ∃ es ∈ results, ∃ e ∈ es, e.id = id ∧ e.permission = permission

instance (results : Option (List SharedFolder)) (id : Text) : Decidable (ListedIn results id) :=
  decidable_of_iff (results.any fun es => es.any fun e => e.id = id) (by
    simp [ListedIn, Option.any_eq_true])

instance (results : Option (List SharedFolder)) (id permission : Text) : Decidable (ListedAs results id permission) :=
  decidable_of_iff (results.any fun es => es.any fun e => e.id = id && e.permission = permission) (by
    simp [ListedAs, Option.any_eq_true])

/-- **The list says of the folder what `has_folder_access` says.** -/
def ListedTruly (id : Text) : Prop :=
  let results := getSharedFolders rows db names userId
  (ListedIn results id ↔
      hasFolderAccess rows db userId id (.lit "read") ∨ hasFolderAccess rows db userId id (.lit "write")) ∧
    (ListedAs results id (.lit "write") ↔ hasFolderAccess rows db userId id (.lit "write"))

instance (id : Text) : Decidable (ListedTruly rows db names userId id) := inferInstanceAs (Decidable (_ ∧ _))

/-! ## When it does -/

/-- The folder has a grant for the user. -/
def SharedWith (id : Text) : Prop :=
  ∃ g ∈ db.grants, g.resourceType = .lit "folder" ∧ g.resourceId = id ∧ db.For userId g

/-- The list comes from the folder to `id`: the folder has a grant for the user and belongs to somebody else, `id` is
    below it in the tree of its owner, and all rows of that tree below it are models. -/
def ComesTo (e : Text × Folder) (id : Text) : Prop :=
  SharedWith db userId e.1 ∧ e.2.userId ≠ userId ∧ id ≠ e.1 ∧ TransGen (folderForest rows e.2.userId).Up id e.1 ∧
    ∀ c f, TransGen (folderForest rows e.2.userId).Up c e.1 → rows.get c = some f → f.valid

/-- The folder whose grants `id` is listed with: itself, if it has one for the user, else the newest from which the
    list comes to it. -/
def ListedFrom (id s : Text) : Prop :=
  SharedWith db userId id ∧ s = id ∨
    ¬ SharedWith db userId id ∧ ∃ newer e older, rows.entries = newer ++ e :: older ∧ e.1 = s ∧
      ComesTo rows db userId e id ∧ ∀ e' ∈ newer, ¬ ComesTo rows db userId e' id

/-- **The condition on a folder**: if it or a folder on the way up belongs to the user or grants a permission, then all
    folders with a grant for the user are models, and the folder is listed from one, which grants `write` if that
    was the permission. -/
def SharedTruly (id : Text) : Prop :=
  ∀ a f, ∀ permission ∈ [Text.lit "read", .lit "write"], ReflTransGen (fun a b => folderAbove rows a = some b) id a →
    getFolderById rows a = some f → (f.userId = userId ∨ db.Granted userId (.lit "folder") a permission) →
      (∀ e ∈ rows.entries, SharedWith db userId e.1 → e.2.valid) ∧ ∃ s, ListedFrom rows db userId id s ∧
        (permission = .lit "write" → db.Granted userId (.lit "folder") s (.lit "write"))

end

section
variable {rows : Dict Text Folder} {db : GrantDb} {names folderPerms : Dict Text Text} {userId id a permission : Text}
variable {f : Folder} {e child : Text × Folder} {x : SharedFolder}

/-! ## Up -/

theorem isSome_above (hid : (getFolderById rows id).isSome)
    (hpath : ReflTransGen (fun a b => folderAbove rows a = some b) id a) : (getFolderById rows a).isSome := by
  induction hpath with
  | refl => exact hid
  | tail _ hup _ =>
    obtain ⟨p, -, hp⟩ := Option.bind_eq_some_iff.1 hup
    split_ifs at hp
    obtain ⟨g, hg, rfl⟩ := Option.map_eq_some_iff.1 hp
    rw [hg]
    rfl

/-- **`has_folder_access`**: the folder, or one on the way up, belongs to the user or grants the permission. -/
theorem hasFolderAccess_iff (hid : (getFolderById rows id).isSome) : hasFolderAccess rows db userId id permission ↔
    ∃ a f, ReflTransGen (fun a b => folderAbove rows a = some b) id a ∧ getFolderById rows a = some f ∧
      (f.userId = userId ∨ db.Granted userId (.lit "folder") a permission) := by
  have hkey : ∀ a, (getFolderById rows a).isSome → a ∈ rows.keys.toFinset := by
    intro a ha
    obtain ⟨f, hf⟩ := Option.isSome_iff_exists.1 ha
    exact List.mem_toFinset.2 (Dict.mem_keys_iff.2 ⟨f, (getFolderById_eq_some.1 hf).1⟩)
  have hU : ∀ k ∈ rows.keys.toFinset, ∀ a, folderAbove rows k = some a → a ∈ rows.keys.toFinset := by
    intro k _ a hup
    obtain ⟨p, -, hp⟩ := Option.bind_eq_some_iff.1 hup
    split_ifs at hp
    obtain ⟨g, hg, rfl⟩ := Option.map_eq_some_iff.1 hp
    exact hkey p (hg ▸ rfl)
  have hcard : rows.keys.toFinset.card ≤ rows.size := by
    refine (List.toFinset_card_le _).trans ?_
    rw [Dict.keys, List.length_map, Dict.size]
  simp only [hasFolderAccess, List.any_eq_true, mem_trail hU (hkey id hid) hcard, Bool.or_eq_true,
    Option.any_eq_true, decide_eq_true_eq, GrantDb.hasAccess_iff]
  constructor
  · rintro ⟨a, hpath, hgives⟩
    obtain ⟨f, hf⟩ := Option.isSome_iff_exists.1 (isSome_above hid hpath)
    refine ⟨a, f, hpath, hf, ?_⟩
    rcases hgives with ⟨g, hg, howner⟩ | hgranted
    · rw [hf] at hg
      cases hg
      exact .inl howner
    · exact .inr hgranted
  · rintro ⟨a, f, hpath, hf, howner | hgranted⟩
    · exact ⟨a, hpath, .inl ⟨f, hf, howner⟩⟩
    · exact ⟨a, hpath, .inr hgranted⟩

/-! ## Down -/

theorem get_foldl_perms (grants : List AccessGrant) (folderPerms : Dict Text Text) (id : Text) :
    let folderPerms' := grants.foldl (fun folderPerms g =>
      if folderPerms.get g.resourceId ≠ some (.lit "write") then folderPerms.set g.resourceId g.permission
      else folderPerms) folderPerms
    ((folderPerms'.get id).isSome ↔ (folderPerms.get id).isSome ∨ ∃ g ∈ grants, g.resourceId = id) ∧
      (folderPerms'.get id = some (.lit "write") ↔ folderPerms.get id = some (.lit "write") ∨
        ∃ g ∈ grants, g.resourceId = id ∧ g.permission = .lit "write") := by
  induction grants generalizing folderPerms with
  | nil => simp
  | cons g grants ih =>
    simp only [List.foldl_cons, List.exists_mem_cons_iff]
    obtain ⟨hsome, hwrite⟩ := ih (if folderPerms.get g.resourceId ≠ some (.lit "write") then
      folderPerms.set g.resourceId g.permission else folderPerms)
    rw [hsome, hwrite]
    by_cases hw : folderPerms.get g.resourceId = some (.lit "write")
    · rw [if_neg (not_not.2 hw)]
      by_cases hid : g.resourceId = id
      · subst hid
        simp [hw]
      · simp [hid]
    · rw [if_pos hw]
      by_cases hid : g.resourceId = id
      · subst hid
        simp [hw]
      · simp [hid, Dict.get_set_of_ne _ (Ne.symm hid)]

theorem mem_sharedGrants {g : AccessGrant} :
    (g ∈ db.grants.filter fun g =>
      g.resourceType = .lit "folder" && anyOf (principalConditions userId (db.getGroupsByMemberId userId)) g) ↔
      g ∈ db.grants ∧ g.resourceType = .lit "folder" ∧ db.For userId g := by
  rw [List.mem_filter, Bool.and_eq_true, decide_eq_true_eq, anyOf_principalConditions]
  rfl

/-- **The folders with a grant for the user.** -/
theorem isSome_sharedIds : ((getSharedFolderIdsForUser db userId (db.getGroupsByMemberId userId)).get id).isSome ↔
    SharedWith db userId id := by
  refine (get_foldl_perms _ .empty id).1.trans ?_
  simp only [Dict.get_empty, Option.isSome_none, Bool.false_eq_true, false_or, mem_sharedGrants, SharedWith]
  exact exists_congr fun g => by tauto

/-- **The folders that are listed with `write`.** -/
theorem get_sharedIds_eq_write :
    (getSharedFolderIdsForUser db userId (db.getGroupsByMemberId userId)).get id = some (.lit "write") ↔
      db.Granted userId (.lit "folder") id (.lit "write") := by
  refine (get_foldl_perms _ .empty id).2.trans ?_
  simp only [Dict.get_empty, reduceCtorEq, false_or, mem_sharedGrants, GrantDb.Granted, mem_grantsOf]
  exact exists_congr fun g => by tauto

/-! ## The loop -/

section
variable {permissionOf : Text × Folder → Text} {children folders : List (Text × Folder)}
variable {state : List Text × List SharedFolder} {q : Text}

theorem listedIn_iff {results : Option (List SharedFolder)} : ListedIn results id ↔ ∃ q, ListedAs results id q := by
  constructor
  · rintro ⟨es, hes, x, hx, hid⟩
    exact ⟨x.permission, es, hes, x, hx, hid, rfl⟩
  · rintro ⟨-, es, hes, x, hx, hid, -⟩
    exact ⟨es, hes, x, hx, hid⟩

theorem listedAs_some {es : List SharedFolder} : ListedAs (some es) id q ↔ ∃ x ∈ es, x.id = id ∧ x.permission = q := by
  simp [ListedAs]

theorem listedAs_children (names : Dict Text Text) (permission id q : Text) (children : List (Text × Folder))
    (state : List Text × List SharedFolder) :
    let state' := children.foldl (addChild names permission) state
    (id ∈ state'.1 ↔ id ∈ state.1 ∨ ∃ c ∈ children, c.1 = id) ∧
      (ListedAs (some state'.2) id q ↔ ListedAs (some state.2) id q ∨
        id ∉ state.1 ∧ (∃ c ∈ children, c.1 = id) ∧ permission = q) := by
  induction children generalizing state with
  | nil => simp
  | cons c children ih =>
    simp only [List.foldl_cons, List.exists_mem_cons_iff]
    obtain ⟨hseen, hlisted⟩ := ih (addChild names permission state c)
    rw [hseen, hlisted, addChild]
    split_ifs with hc
    · constructor
      · constructor
        · rintro (hin | hchild)
          · exact .inl hin
          · exact .inr (.inr hchild)
        · rintro (hin | rfl | hchild)
          · exact .inl hin
          · exact .inl hc
          · exact .inr hchild
      · refine or_congr_right (and_congr_right fun hnot => and_congr_left fun _ => (or_iff_right ?_).symm)
        rintro rfl
        exact hnot hc
    · have hnew : ListedAs (some (state.2 ++ [sharedEntry names permission c])) id q ↔
          ListedAs (some state.2) id q ∨ c.1 = id ∧ permission = q := by
        simp only [listedAs_some, List.mem_append, List.mem_singleton, or_and_right, exists_or, exists_eq_left]
        rfl
      refine ⟨by rw [List.mem_cons, @eq_comm _ id, or_assoc, or_left_comm], ?_⟩
      rw [hnew, List.mem_cons, @eq_comm _ id]
      by_cases hid : c.1 = id
      · subst hid
        simp [hc]
      · simp [hid]

/-- **A child is listed with the permission of the first folder that has it.** -/
theorem listedAs_loop (folders : List (Text × Folder)) (state : List Text × List SharedFolder) :
    ListedAs (some (folders.foldl (fun state folder =>
      (childEntries rows folder).foldl (addChild names (permissionOf folder)) state) state).2) id q ↔
    ListedAs (some state.2) id q ∨ id ∉ state.1 ∧
      ∃ e, folders.find? (fun e => (childEntries rows e).any fun c => c.1 = id) = some e ∧ permissionOf e = q := by
  induction folders generalizing state with
  | nil => simp
  | cons folder folders ih =>
    obtain ⟨hseen, hlisted⟩ :=
      listedAs_children names (permissionOf folder) id q (childEntries rows folder) state
    rw [List.foldl_cons, ih, hseen, hlisted, List.find?_cons]
    by_cases hchild : ∃ c ∈ childEntries rows folder, c.1 = id
    · have hany : (childEntries rows folder).any (fun c => c.1 = id) = true := by simpa using hchild
      simp [hany, hchild]
    · have hany : (childEntries rows folder).any (fun c => c.1 = id) = false := by
        rw [List.any_eq_false]
        exact fun c hc heq => hchild ⟨c, hc, of_decide_eq_true heq⟩
      simp [hany, hchild]

end

/-! ## The list -/

section
variable {q s : Text}

theorem mem_sharedKeys : id ∈ (getSharedFolderIdsForUser db userId (db.getGroupsByMemberId userId)).keys ↔
    SharedWith db userId id := by
  rw [← isSome_sharedIds, Dict.mem_keys_iff, Option.isSome_iff_exists]

theorem any_childEntries (he : e ∈ rows.entries) : (childEntries rows e).any (fun c => c.1 = id) ↔
    id ≠ e.1 ∧ TransGen (folderForest rows e.2.userId).Up id e.1 ∧
      ∀ c f, TransGen (folderForest rows e.2.userId).Up c e.1 → rows.get c = some f → f.valid := by
  rw [← mem_getChildrenFolders (Dict.get_of_mem he)]
  simp only [List.any_eq_true, decide_eq_true_eq, childEntries, List.mem_filterMap, Option.map_eq_some_iff]
  constructor
  · rintro ⟨-, ⟨c, hc, f, -, rfl⟩, rfl⟩
    exact hc
  · intro hc
    obtain ⟨-, hpath, -⟩ := (mem_getChildrenFolders (Dict.get_of_mem he)).1 hc
    obtain ⟨p, hup, -⟩ := TransGen.head'_iff.1 hpath
    obtain ⟨f, hf, -⟩ := up_folderForest.1 hup
    exact ⟨(id, f), ⟨id, hc, f, hf, rfl⟩, rfl⟩

theorem getFoldersByIds_eq_some {ids : List Text} {folders : List (Text × Folder)} :
    getFoldersByIds rows ids = some folders ↔
      (∀ e ∈ rows.entries, e.1 ∈ ids → e.2.valid) ∧ rows.entries.filter (fun e => e.1 ∈ ids) = folders := by
  rw [getFoldersByIds, Option.ite_none_right_eq_some, Option.some_inj, List.all_eq_true]
  refine and_congr_left fun _ => ⟨fun h e he hid => h e (List.mem_filter.2 ⟨he, decide_eq_true hid⟩), fun h e he => ?_⟩
  obtain ⟨he, hid⟩ := List.mem_filter.1 he
  exact h e he (of_decide_eq_true hid)

theorem listedAs_direct (names : Dict Text Text) (permissionOf : Text × Folder → Text) (q : Text)
    (hf : rows.get id = some f) (howner : f.userId ≠ userId) {folders : List (Text × Folder)}
    (hfolders : ∀ e, e ∈ folders ↔ e ∈ rows.entries ∧ SharedWith db userId e.1 ∧ e.2.userId ≠ userId) :
    (id ∈ folders.map Prod.fst ↔ SharedWith db userId id) ∧
      (ListedAs (some (folders.map fun e => sharedEntry names (permissionOf e) e)) id q ↔
        SharedWith db userId id ∧ permissionOf (id, f) = q) := by
  have hrow : ∀ e ∈ rows.entries, e.1 = id → e = (id, f) := by
    rintro ⟨c, g⟩ he rfl
    have hg : rows.get c = some g := Dict.get_of_mem he
    rw [hf] at hg
    cases hg
    rfl
  have hin : (id, f) ∈ folders ↔ SharedWith db userId id := by
    rw [hfolders]
    exact ⟨fun h => h.2.1, fun h => ⟨Dict.mem_entries_iff.2 hf, h, howner⟩⟩
  constructor
  · rw [List.mem_map, ← hin]
    constructor
    · rintro ⟨e, he, hid⟩
      rw [hrow e ((hfolders e).1 he).1 hid] at he
      exact he
    · intro he
      exact ⟨_, he, rfl⟩
  · rw [listedAs_some, ← hin]
    constructor
    · rintro ⟨x, hx, hid, hperm⟩
      obtain ⟨e, he, rfl⟩ := List.mem_map.1 hx
      obtain rfl := hrow e ((hfolders e).1 he).1 hid
      exact ⟨he, hperm⟩
    · rintro ⟨he, hperm⟩
      exact ⟨_, List.mem_map_of_mem he, rfl, hperm⟩

theorem first_iff {comes : Text × Folder → Bool} (hcomes : ∀ e ∈ rows.entries, comes e ↔ ComesTo rows db userId e id) :
    rows.entries.find? comes = some e ↔ ∃ newer older, rows.entries = newer ++ e :: older ∧
      ComesTo rows db userId e id ∧ ∀ e' ∈ newer, ¬ ComesTo rows db userId e' id := by
  rw [List.find?_eq_some_iff_append]
  constructor
  · rintro ⟨hcome, newer, older, hrows, hnot⟩
    refine ⟨newer, older, hrows, (hcomes e (by simp [hrows])).1 hcome, fun e' he' hcome' => ?_⟩
    have hfound := (hcomes e' (by simp [hrows, he'])).2 hcome'
    have hnotfound := hnot e' he'
    rw [hfound] at hnotfound
    cases hnotfound
  · rintro ⟨newer, older, hrows, hcome, hnot⟩
    refine ⟨(hcomes e (by simp [hrows])).2 hcome, newer, older, hrows, fun e' he' => ?_⟩
    rw [Bool.not_eq_true', ← Bool.not_eq_true, hcomes e' (by simp [hrows, he'])]
    exact hnot e' he'

/-- **What the list says of a folder of another user.** -/
theorem listedAs_iff (hf : rows.get id = some f) (howner : f.userId ≠ userId) :
    ListedAs (getSharedFolders rows db names userId) id q ↔ (∀ e ∈ rows.entries, SharedWith db userId e.1 → e.2.valid) ∧
      ∃ s, ListedFrom rows db userId id s ∧
        (getSharedFolderIdsForUser db userId (db.getGroupsByMemberId userId)).get s = some q := by
  let folderPerms := getSharedFolderIdsForUser db userId (db.getGroupsByMemberId userId)
  have hget : ∀ s, SharedWith db userId s → ((folderPerms.get s).getD [] = q ↔ folderPerms.get s = some q) := by
    intro s hs
    obtain ⟨v, hv⟩ := Option.isSome_iff_exists.1 (isSome_sharedIds.2 hs)
    have hv : folderPerms.get s = some v := hv
    rw [hv, Option.getD_some, Option.some_inj]
  by_cases hvalid : ∀ e ∈ rows.entries, SharedWith db userId e.1 → e.2.valid
  · have hmodels := getFoldersByIds_eq_some.2
      ⟨fun e he hid => hvalid e he (mem_sharedKeys.1 hid), rfl⟩
    have hfolders : ∀ e,
        e ∈ (rows.entries.filter fun e => e.1 ∈ folderPerms.keys).filter (fun e => e.2.userId ≠ userId) ↔
          e ∈ rows.entries ∧ SharedWith db userId e.1 ∧ e.2.userId ≠ userId := by
      intro e
      rw [List.mem_filter, List.mem_filter, decide_eq_true_eq, decide_eq_true_eq, mem_sharedKeys, and_assoc]
    obtain ⟨hseen, hdirect⟩ :=
      listedAs_direct names (fun e => (folderPerms.get e.1).getD []) q hf howner hfolders
    rw [getSharedFolders]
    simp only [hmodels, Option.map_some]
    rw [listedAs_loop, hdirect, hseen, List.find?_filter, List.find?_filter]
    have hcomes : ∀ e ∈ rows.entries, decide (decide (e.1 ∈ folderPerms.keys) = true ∧
        decide (decide (e.2.userId ≠ userId) = true ∧ ((childEntries rows e).any fun c => c.1 = id) = true) = true) ↔
          ComesTo rows db userId e id := by
      intro e he
      simp only [decide_eq_true_eq, folderPerms, mem_sharedKeys, any_childEntries he]
      rfl
    refine Iff.trans ?_ (and_iff_right hvalid).symm
    constructor
    · rintro (⟨hshared, hperm⟩ | ⟨hnot, e, hfind, hperm⟩)
      · exact ⟨id, .inl ⟨hshared, rfl⟩, (hget id hshared).1 hperm⟩
      · obtain ⟨newer, older, hrows, hcome, hfirst⟩ := (first_iff hcomes).1 hfind
        exact ⟨e.1, .inr ⟨hnot, newer, e, older, hrows, rfl, hcome, hfirst⟩, (hget e.1 hcome.1).1 hperm⟩
    · rintro ⟨s, ⟨hshared, rfl⟩ | ⟨hnot, newer, e, older, hrows, rfl, hcome, hfirst⟩, hperm⟩
      · exact .inl ⟨hshared, (hget s hshared).2 hperm⟩
      · exact .inr ⟨hnot, e, (first_iff hcomes).2 ⟨newer, older, hrows, hcome, hfirst⟩, (hget e.1 hcome.1).2 hperm⟩
  · refine iff_of_false ?_ fun h => hvalid h.1
    rintro ⟨es, hes, -⟩
    obtain ⟨folders, hmodels, -⟩ := Option.map_eq_some_iff.1 hes
    exact hvalid fun e he hshared => (getFoldersByIds_eq_some.1 hmodels).1 e he (mem_sharedKeys.2 hshared)

theorem ListedFrom.above (hids : rows.get [] = none)
    (hmodels : ∀ e ∈ rows.entries, SharedWith db userId e.1 → e.2.valid) (h : ListedFrom rows db userId id s) :
    SharedWith db userId s ∧ ReflTransGen (fun a b => folderAbove rows a = some b) id s := by
  obtain ⟨hshared, rfl⟩ | ⟨-, newer, e, older, hrows, rfl, hcome, -⟩ := h
  · exact ⟨hshared, .refl⟩
  · obtain ⟨hshared, -, -, hpath, hvalid⟩ := hcome
    refine ⟨hshared, ?_⟩
    have he : e ∈ rows.entries := by simp [hrows]
    have hmodel : (getFolderById rows e.1).isSome := by
      rw [getFolderById_eq_some.2 ⟨Dict.get_of_mem he, hmodels e he hshared⟩]
      rfl
    have hup : ∀ c p, (folderForest rows e.2.userId).Up c p → TransGen (folderForest rows e.2.userId).Up c e.1 →
        (getFolderById rows p).isSome → folderAbove rows c = some p := by
      intro c p hup hpath hp
      obtain ⟨g, hg, -, hparent⟩ := up_folderForest.1 hup
      obtain ⟨g', hg'⟩ := Option.isSome_iff_exists.1 hp
      have hne : p ≠ [] := by
        rintro rfl
        rw [(getFolderById_eq_some.1 hg').1] at hids
        cases hids
      rw [folderAbove, getFolderById_eq_some.2 ⟨hg, hvalid c g hpath hg⟩]
      simp [hparent, hne, hg']
    induction hpath using TransGen.head_induction_on with
    | single hlast => exact .single (hup _ _ hlast (.single hlast) hmodel)
    | head hfirst hrest ih =>
      obtain ⟨p, hnext, -⟩ := TransGen.head'_iff.1 hrest
      obtain ⟨g, hg, -⟩ := up_folderForest.1 hnext
      refine .head (hup _ _ hfirst (.head hfirst hrest) ?_) ih
      rw [getFolderById_eq_some.2 ⟨hg, hvalid _ g hrest hg⟩]
      rfl

end

end

/-! ## The result -/

/-- **The list tells the truth of a folder of another user if and only if the condition holds of it.** -/
theorem listedTruly_iff {rows : Dict Text Folder} {db : GrantDb} (names : Dict Text Text) {userId id : Text}
    {f : Folder} (hids : rows.get [] = none)
    (hgrants : ∀ g ∈ db.grants, g.resourceType = .lit "folder" → g.permission ∈ [Text.lit "read", .lit "write"])
    (hf : getFolderById rows id = some f) (howner : f.userId ≠ userId) :
    ListedTruly rows db names userId id ↔ SharedTruly rows db userId id := by
  have hid : (getFolderById rows id).isSome := by simp [hf]
  have hrow := (getFolderById_eq_some.1 hf).1
  have haccess : ∀ {permission}, hasFolderAccess rows db userId id permission ↔ _ := hasFolderAccess_iff hid
  have hwrite : ∀ {s}, _ ↔ db.Granted userId (.lit "folder") s (.lit "write") := get_sharedIds_eq_write
  constructor
  · rintro ⟨hin, has⟩ a g permission hpermission hpath hg hgives
    have hhas := haccess.2 ⟨a, g, hpath, hg, hgives⟩
    by_cases hw : permission = .lit "write"
    · subst hw
      obtain ⟨hmodels, s, hfrom, hs⟩ := (listedAs_iff hrow howner).1 (has.2 hhas)
      exact ⟨hmodels, s, hfrom, fun _ => hwrite.1 hs⟩
    · have hread : permission = .lit "read" := by simpa [hw] using hpermission
      subst hread
      obtain ⟨q, hq⟩ := listedIn_iff.1 (hin.2 (.inl hhas))
      obtain ⟨hmodels, s, hfrom, -⟩ := (listedAs_iff hrow howner).1 hq
      exact ⟨hmodels, s, hfrom, fun heq => absurd heq hw⟩
  · intro h
    constructor
    · constructor
      · intro hlisted
        obtain ⟨q, hq⟩ := listedIn_iff.1 hlisted
        obtain ⟨hmodels, s, hfrom, -⟩ := (listedAs_iff hrow howner).1 hq
        obtain ⟨⟨g, hg, htype, hres, hfor⟩, hpath⟩ := hfrom.above hids hmodels
        obtain ⟨f', hf'⟩ := Option.isSome_iff_exists.1 (isSome_above hid hpath)
        have hgranted : db.Granted userId (.lit "folder") s g.permission :=
          ⟨g, mem_grantsOf.2 ⟨hg, htype, hres, rfl⟩, hfor⟩
        rcases List.mem_pair.1 (hgrants g hg htype) with hread | hwrites
        · exact .inl (haccess.2 ⟨s, f', hpath, hf', .inr (hread ▸ hgranted)⟩)
        · exact .inr (haccess.2 ⟨s, f', hpath, hf', .inr (hwrites ▸ hgranted)⟩)
      · intro hhas
        obtain ⟨permission, hpermission, a, g, hpath, hg, hgives⟩ : ∃ permission ∈ [Text.lit "read", .lit "write"],
            ∃ a f, ReflTransGen (fun a b => folderAbove rows a = some b) id a ∧ getFolderById rows a = some f ∧
              (f.userId = userId ∨ db.Granted userId (.lit "folder") a permission) := by
          rcases hhas with hread | hwrites
          · exact ⟨_, by simp, haccess.1 hread⟩
          · exact ⟨_, by simp, haccess.1 hwrites⟩
        obtain ⟨hmodels, s, hfrom, -⟩ := h a g permission hpermission hpath hg hgives
        obtain ⟨q, hq⟩ := Option.isSome_iff_exists.1 (isSome_sharedIds.2 (hfrom.above hids hmodels).1)
        exact listedIn_iff.2 ⟨q, (listedAs_iff hrow howner).2 ⟨hmodels, s, hfrom, hq⟩⟩
    · constructor
      · intro hlisted
        obtain ⟨hmodels, s, hfrom, hs⟩ := (listedAs_iff hrow howner).1 hlisted
        obtain ⟨-, hpath⟩ := hfrom.above hids hmodels
        obtain ⟨f', hf'⟩ := Option.isSome_iff_exists.1 (isSome_above hid hpath)
        exact haccess.2 ⟨s, f', hpath, hf', .inr (hwrite.1 hs)⟩
      · intro hhas
        obtain ⟨a, g, hpath, hg, hgives⟩ := haccess.1 hhas
        obtain ⟨hmodels, s, hfrom, hs⟩ := h a g _ (by simp) hpath hg hgives
        exact (listedAs_iff hrow howner).2 ⟨hmodels, s, hfrom, hwrite.2 (hs rfl)⟩

namespace Sample

def nestedFolders : Dict Text Folder :=
  ((Dict.empty.set (.lit "a") (folderUnder none "A")).set (.lit "b") (folderUnder (some (.lit "a")) "B")).set (.lit "c")
    (folderUnder (some (.lit "b")) "C")

def grantFor (id permission : String) : AccessGrant :=
  ⟨.lit "folder", .lit id, .lit "user", .lit "v", .lit permission⟩

def outerGrant : GrantDb := ⟨[grantFor "a" "write"], [], [], .empty⟩

/-- The outermost folder may be written, and the next one read. -/
def nestedGrants : GrantDb := ⟨[grantFor "a" "write", grantFor "b" "read"], [], [], .empty⟩

end Sample

/-- A folder is listed with what is granted two folders above. -/
theorem listedTruly_outer : ListedTruly Sample.nestedFolders Sample.outerGrant .empty (.lit "v") (.lit "c") ∧
    SharedTruly Sample.nestedFolders Sample.outerGrant (.lit "v") (.lit "c") := by
  have htruly : ListedTruly Sample.nestedFolders Sample.outerGrant .empty (.lit "v") (.lit "c") := by decide +kernel
  exact ⟨htruly, (listedTruly_iff .empty (f := Sample.folderUnder (some (.lit "b")) "C") (by decide +kernel)
    (by decide +kernel) (by decide +kernel) (by decide +kernel)).1 htruly⟩

/-- A folder that may be written, because the one above it may, is listed with `read`. -/
theorem listedTruly_fails : ¬ ∀ (rows : Dict Text Folder) (db : GrantDb) (names : Dict Text Text) (userId id : Text)
    (f : Folder), rows.get [] = none →
      (∀ g ∈ db.grants, g.resourceType = .lit "folder" → g.permission ∈ [Text.lit "read", .lit "write"]) →
        getFolderById rows id = some f → f.userId ≠ userId → ListedTruly rows db names userId id := by
  intro h
  have htruly := h Sample.nestedFolders Sample.nestedGrants .empty (.lit "v") (.lit "b")
    (Sample.folderUnder (some (.lit "a")) "B") (by decide +kernel) (by decide +kernel) (by decide +kernel)
    (by decide +kernel)
  have hread : ¬ ListedAs (getSharedFolders Sample.nestedFolders Sample.nestedGrants .empty (.lit "v")) (.lit "b")
      (.lit "write") := by
    decide +kernel
  have hwrite : hasFolderAccess Sample.nestedFolders Sample.nestedGrants (.lit "v") (.lit "b") (.lit "write") := by
    decide +kernel
  exact hread (htruly.2.2 hwrite)

end TideBot
