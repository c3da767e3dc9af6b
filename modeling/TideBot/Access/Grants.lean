/-
  Access grants (`models/access_grants.py`, `utils/access_control/__init__.py`).

  A grant gives a principal a permission on a resource.  Who has access is asked in six places: for
  one resource, for a list of them, for all users of one, for the rows of a query (twice), and for grants
  that are kept in a list instead of in the table.  `Granted` says it once; each place is shown to
  agree with it.

  Only what decides access is modelled of a grant, a user and a document; ids of grants and
  times are left out.
-/
import TideBot.Lib.Dict
import TideBot.Lib.PyJson

namespace TideBot

open Lib

/-! ## Tables -/

/-- A row of `access_grant`. -/
structure AccessGrant where
  resourceType : Text
  resourceId : Text
  principalType : Text
  principalId : Text
  permission : Text
deriving DecidableEq

/-- A row that a query selects from; every row is inserted with an owner. -/
structure DocumentModel where
  id : Text
  userId : Text

/-- Grants, groups with their members, and the roles of users. -/
structure GrantDb where
  grants : List AccessGrant
  groups : List Text
  /-- `group_member`: a group and a user -/
  members : List (Text × Text)
  users : Dict Text Text

/-- The user of a request. -/
structure VerifiedUser where
  id : Text
  isAdmin : Bool

/-- The `filter` of a query. -/
structure AccessFilter where
  groupIds : List Text
  userId : Option Text

namespace GrantDb

variable (db : GrantDb)

/-- `Groups.get_groups_by_member_id`, the ids: a join of groups and members. -/
def getGroupsByMemberId (userId : Text) : List Text := db.groups.filter fun g => (g, userId) ∈ db.members

/-- `Groups.get_group_user_ids_by_id` -/
def getGroupUserIdsById (groupId : Text) : List Text := (db.members.filter fun m => m.1 = groupId).map Prod.snd

/-- `user_group_ids`, or the groups of the user. -/
def groupIdsOf (userId : Text) (userGroupIds : Option (List Text)) : List Text :=
  userGroupIds.getD (db.getGroupsByMemberId userId)

end GrantDb

/-! ## Principals -/

/-- `AccessGrant.principal_type == 'user'`, and the wildcard -/
def AccessGrant.isPublic (g : AccessGrant) : Bool := g.principalType = .lit "user" && g.principalId = .lit "*"

def AccessGrant.isForUser (userId : Text) (g : AccessGrant) : Bool :=
  g.principalType = .lit "user" && g.principalId = userId

def AccessGrant.isForGroups (groupIds : List Text) (g : AccessGrant) : Bool :=
  g.principalType = .lit "group" && g.principalId ∈ groupIds

/-- The `conditions` of `has_access` and `get_accessible_resource_ids`. -/
def principalConditions (userId : Text) (userGroupIds : List Text) : List (AccessGrant → Bool) :=
  [AccessGrant.isPublic, AccessGrant.isForUser userId] ++
    if userGroupIds ≠ [] then [AccessGrant.isForGroups userGroupIds] else []

/-- `or_` -/
def anyOf {α : Type*} (conditions : List (α → Bool)) (x : α) : Bool := conditions.any fun c => c x

namespace GrantDb

variable (db : GrantDb)

/-! ## The checks -/

/-- `AccessGrants.has_access` -/
def hasAccess (userId resourceType resourceId permission : Text) (userGroupIds : Option (List Text)) : Bool :=
  let conditions := principalConditions userId (db.groupIdsOf userId userGroupIds)
  (db.grants.filter fun g => g.resourceType = resourceType && g.resourceId = resourceId &&
    g.permission = permission && anyOf conditions g).head?.isSome

/-- `AccessGrants.get_accessible_resource_ids` -/
def getAccessibleResourceIds (userId resourceType : Text) (resourceIds : List Text) (permission : Text)
    (userGroupIds : Option (List Text)) : List Text :=
  if resourceIds = [] then []
  else
    let conditions := principalConditions userId (db.groupIdsOf userId userGroupIds)
    ((db.grants.filter fun g => g.resourceType = resourceType && g.resourceId ∈ resourceIds &&
      g.permission = permission && anyOf conditions g).map AccessGrant.resourceId).dedup

/-- The grants for a permission on a resource. -/
def grantsOf (resourceType resourceId permission : Text) : List AccessGrant :=
  db.grants.filter fun g => g.resourceType = resourceType && g.resourceId = resourceId && g.permission = permission

/-- The users that a grant adds to `user_ids_with_access`. -/
def grantedUserIds (g : AccessGrant) : List Text :=
  if g.principalType = .lit "user" then [g.principalId]
  else if g.principalType = .lit "group" then db.getGroupUserIdsById g.principalId
  else []

/-- `AccessGrants.get_users_with_access`, the ids and roles of the users. -/
def getUsersWithAccess (resourceType resourceId permission : Text) : List (Text × Text) :=
  let grants := db.grantsOf resourceType resourceId permission
  if grants.any AccessGrant.isPublic then db.users.entries.filter fun u => u.2 ≠ .lit "pending"
  else
    let userIdsWithAccess := grants.flatMap db.grantedUserIds
    if userIdsWithAccess = [] then []
    else db.users.entries.filter fun u => u.1 ∈ userIdsWithAccess

end GrantDb

/-- The principals of a filter. -/
def filterConditions (filter : AccessFilter) : List (AccessGrant → Bool) :=
  let userId := filter.userId.getD []
  [AccessGrant.isPublic] ++ (if userId ≠ [] then [AccessGrant.isForUser userId] else []) ++
    if filter.groupIds ≠ [] then [AccessGrant.isForGroups filter.groupIds] else []

/-- The `EXISTS` of both filters. -/
def grantExists (grants : List AccessGrant) (filter : AccessFilter) (resourceType : Text) (row : DocumentModel)
    (permission : Text) : Bool :=
  grants.any fun g => g.resourceType = resourceType && g.resourceId = row.id && g.permission = permission &&
    anyOf (filterConditions filter) g

namespace GrantDb

variable (db : GrantDb)

/-- `AccessGrants._has_read_only_permission_filter`: does the query select the row? -/
def hasReadOnlyPermissionFilter (filter : AccessFilter) (resourceType : Text) (row : DocumentModel) : Bool :=
  let userId := filter.userId.getD []
  let conditions := [grantExists db.grants filter resourceType row (.lit "read"),
    !grantExists db.grants filter resourceType row (.lit "write")] ++
      if userId ≠ [] then [(row.userId ≠ userId : Bool)] else []
  conditions.all id

/-- `AccessGrants.has_permission_filter`: does the query select the row? -/
def hasPermissionFilter (filter : AccessFilter) (resourceType : Text) (permission : Text) (row : DocumentModel) : Bool :=
  let userId := filter.userId.getD []
  if permission = .lit "read_only" then db.hasReadOnlyPermissionFilter filter resourceType row
  else if filter.groupIds = [] ∧ userId = [] then true
  else
    let ownerOrGrant := [grantExists db.grants filter resourceType row permission] ++
      if userId ≠ [] then [(row.userId = userId : Bool)] else []
    ownerOrGrant.any id

end GrantDb

/-! ### Grants in a list -/

/-- `principal_id in user_group_ids`; `none`: it raises. -/
def inGroupIds (userGroupIds : List Text) : Json → Option Bool
  | .str s => some (s ∈ userGroupIds)
  | .arr _ | .obj _ => none
  | _ => some false

/-- The loop of `has_access`. -/
def hasAccessLoop (userId permission : Text) (userGroupIds : List Text) : List Json → Option Bool
  | [] => some false
  | grant :: rest =>
    if !grant.isObj || !(grant.get (.lit "permission")).eqStr permission then
      hasAccessLoop userId permission userGroupIds rest
    else
      let principalType := grant.get (.lit "principal_type")
      let principalId := grant.get (.lit "principal_id")
      if principalType.eqStr (.lit "user") && (principalId.eqStr (.lit "*") || principalId.eqStr userId) then some true
      else if principalType.eqStr (.lit "group") && userGroupIds ≠ [] then do
        if ← inGroupIds userGroupIds principalId then return true
        hasAccessLoop userId permission userGroupIds rest
      else hasAccessLoop userId permission userGroupIds rest

/-- `has_access` of grants in a list; `none`: it raises. -/
def GrantDb.hasListedAccess (db : GrantDb) (userId permission : Text) (accessGrants : List Json)
    (userGroupIds : Option (List Text)) : Option Bool :=
  if accessGrants = [] then some false
  else hasAccessLoop userId permission (db.groupIdsOf userId userGroupIds) accessGrants

/-- `AccessGrantModel.model_dump` -/
def AccessGrant.toJson (g : AccessGrant) : Json :=
  .obj [(.lit "resource_type", .str g.resourceType), (.lit "resource_id", .str g.resourceId),
    (.lit "principal_type", .str g.principalType), (.lit "principal_id", .str g.principalId),
    (.lit "permission", .str g.permission)]

/-! ## What they agree on -/

/-- The grant is for everyone, for the user, or for a group of the user. -/
def GrantDb.For (db : GrantDb) (userId : Text) (g : AccessGrant) : Prop :=
  g.isPublic ∨ g.isForUser userId ∨ g.isForGroups (db.getGroupsByMemberId userId)

/-- **A grant for the user gives the permission on the resource.** -/
def GrantDb.Granted (db : GrantDb) (userId resourceType resourceId permission : Text) : Prop :=
  ∃ g ∈ db.grantsOf resourceType resourceId permission, db.For userId g

/-- Every group that has members is there. -/
def GrantDb.GroupsConsistent (db : GrantDb) : Prop := ∀ m ∈ db.members, m.1 ∈ db.groups

instance (db : GrantDb) : Decidable db.GroupsConsistent :=
  inferInstanceAs (Decidable (∀ m ∈ db.members, m.1 ∈ db.groups))

section
variable {db : GrantDb} {g : AccessGrant} {userId resourceType resourceId permission : Text} {groupIds : List Text}

theorem isForGroups_nil : g.isForGroups [] = false := by
  simp [AccessGrant.isForGroups]

theorem anyOf_ite_groups :
    (anyOf (if groupIds ≠ [] then [AccessGrant.isForGroups groupIds] else []) g : Bool) = g.isForGroups groupIds := by
  by_cases hnil : groupIds = []
  · simp [hnil, anyOf, isForGroups_nil]
  · simp [hnil, anyOf]

theorem anyOf_append {α : Type*} {cs cs' : List (α → Bool)} {x : α} :
    anyOf (cs ++ cs') x = (anyOf cs x || anyOf cs' x) := List.any_append

theorem anyOf_principalConditions : anyOf (principalConditions userId groupIds) g ↔
    g.isPublic ∨ g.isForUser userId ∨ g.isForGroups groupIds := by
  rw [principalConditions, anyOf_append, anyOf_ite_groups]
  simp [anyOf, or_assoc]

theorem mem_grantsOf : g ∈ db.grantsOf resourceType resourceId permission ↔ g ∈ db.grants ∧
    g.resourceType = resourceType ∧ g.resourceId = resourceId ∧ g.permission = permission := by
  simp [GrantDb.grantsOf, and_assoc]

namespace GrantDb

theorem hasAccess_iff : db.hasAccess userId resourceType resourceId permission none ↔
    db.Granted userId resourceType resourceId permission := by
  simp only [hasAccess, List.isSome_head?, ne_eq, List.filter_eq_nil_iff, Bool.and_eq_true, decide_eq_true_eq,
    anyOf_principalConditions, not_forall, not_not, Granted, For, mem_grantsOf, groupIdsOf, Option.getD_none]
  constructor
  · rintro ⟨g, hg, ⟨⟨htype, hid⟩, hperm⟩, hfor⟩
    exact ⟨g, ⟨hg, htype, hid, hperm⟩, hfor⟩
  · rintro ⟨g, ⟨hg, htype, hid, hperm⟩, hfor⟩
    exact ⟨g, hg, ⟨⟨htype, hid⟩, hperm⟩, hfor⟩

theorem hasAccess_some : db.hasAccess userId resourceType resourceId permission (some (db.getGroupsByMemberId userId)) =
    db.hasAccess userId resourceType resourceId permission none := rfl

theorem mem_getAccessibleResourceIds {resourceIds : List Text} :
    resourceId ∈ db.getAccessibleResourceIds userId resourceType resourceIds permission none ↔
      resourceId ∈ resourceIds ∧ db.Granted userId resourceType resourceId permission := by
  by_cases hnil : resourceIds = []
  · simp [getAccessibleResourceIds, hnil]
  · simp only [getAccessibleResourceIds, if_neg hnil, List.mem_dedup, List.mem_map, List.mem_filter, Bool.and_eq_true,
      decide_eq_true_eq, anyOf_principalConditions, Granted, For, mem_grantsOf, groupIdsOf, Option.getD_none]
    constructor
    · rintro ⟨g, ⟨hg, ⟨⟨htype, hin⟩, hperm⟩, hfor⟩, rfl⟩
      exact ⟨hin, g, ⟨hg, htype, rfl, hperm⟩, hfor⟩
    · rintro ⟨hin, g, ⟨hg, htype, rfl, hperm⟩, hfor⟩
      exact ⟨g, ⟨hg, ⟨⟨htype, hin⟩, hperm⟩, hfor⟩, rfl⟩

theorem mem_getGroupsByMemberId (hgroups : db.GroupsConsistent) {groupId : Text} :
    groupId ∈ db.getGroupsByMemberId userId ↔ userId ∈ db.getGroupUserIdsById groupId := by
  simp only [getGroupsByMemberId, getGroupUserIdsById, List.mem_filter, decide_eq_true_eq, List.mem_map]
  constructor
  · rintro ⟨-, hm⟩
    exact ⟨_, ⟨hm, rfl⟩, rfl⟩
  · rintro ⟨m, ⟨hm, rfl⟩, rfl⟩
    exact ⟨hgroups m hm, hm⟩

theorem mem_grantedUserIds (hgroups : db.GroupsConsistent) :
    userId ∈ db.grantedUserIds g ↔ g.isForUser userId ∨ g.isForGroups (db.getGroupsByMemberId userId) := by
  have hgroup : (Text.lit "group" : Text) ≠ .lit "user" := by simp
  unfold grantedUserIds AccessGrant.isForUser AccessGrant.isForGroups
  split_ifs with huser hgrp
  · simp [huser, eq_comm]
  · simp [hgrp, mem_getGroupsByMemberId hgroups]
  · simp [huser, hgrp]

theorem mem_getUsersWithAccess (hgroups : db.GroupsConsistent) {role : Text} (huser : db.users.get userId = some role)
    (hrole : role ≠ .lit "pending") :
    userId ∈ (db.getUsersWithAccess resourceType resourceId permission).map Prod.fst ↔
      db.Granted userId resourceType resourceId permission := by
  have hin : (userId, role) ∈ db.users.entries := Dict.mem_entries_iff.2 huser
  unfold getUsersWithAccess
  by_cases hpublic : (db.grantsOf resourceType resourceId permission).any AccessGrant.isPublic
  · rw [if_pos hpublic]
    obtain ⟨g, hg, hpub⟩ := List.any_eq_true.1 hpublic
    refine iff_of_true (List.mem_map.2 ⟨_, List.mem_filter.2 ⟨hin, ?_⟩, rfl⟩) ⟨g, hg, .inl hpub⟩
    simpa using hrole
  · rw [if_neg hpublic]
    have hids : userId ∈ (db.grantsOf resourceType resourceId permission).flatMap db.grantedUserIds ↔
        db.Granted userId resourceType resourceId permission := by
      simp only [List.mem_flatMap, mem_grantedUserIds hgroups, Granted, For]
      refine exists_congr fun g => and_congr_right fun hg => ?_
      have hpub : ¬ g.isPublic := fun hpub => hpublic (List.any_eq_true.2 ⟨g, hg, hpub⟩)
      exact (or_iff_right hpub).symm
    dsimp only
    split_ifs with hnil
    · rw [← hids, hnil]
      simp
    · rw [← hids]
      constructor
      · intro hmem
        obtain ⟨u, hu, rfl⟩ := List.mem_map.1 hmem
        simpa using (List.mem_filter.1 hu).2
      · intro hmem
        exact List.mem_map.2 ⟨_, List.mem_filter.2 ⟨hin, by simpa using hmem⟩, rfl⟩

/-- The filter of a query for the rows of the user. -/
def filterFor (db : GrantDb) (userId : Text) : AccessFilter := ⟨db.getGroupsByMemberId userId, some userId⟩

theorem anyOf_filterConditions (hne : userId ≠ []) :
    anyOf (filterConditions (db.filterFor userId)) g ↔ db.For userId g := by
  have hconditions : filterConditions (db.filterFor userId) =
      [AccessGrant.isPublic] ++ (if userId ≠ [] then [AccessGrant.isForUser userId] else []) ++
        if db.getGroupsByMemberId userId ≠ [] then [AccessGrant.isForGroups (db.getGroupsByMemberId userId)]
        else [] := rfl
  rw [hconditions, anyOf_append, anyOf_append, anyOf_ite_groups, if_pos hne, For]
  simp [anyOf, or_assoc]

theorem grantExists_iff (hne : userId ≠ []) {row : DocumentModel} :
    grantExists db.grants (db.filterFor userId) resourceType row permission ↔
      db.Granted userId resourceType row.id permission := by
  simp only [grantExists, List.any_eq_true, Bool.and_eq_true, decide_eq_true_eq, anyOf_filterConditions hne,
    Granted, mem_grantsOf]
  refine exists_congr fun g => ?_
  tauto

theorem hasPermissionFilter_iff (hne : userId ≠ []) (hperm : permission ≠ .lit "read_only") {row : DocumentModel} :
    db.hasPermissionFilter (db.filterFor userId) resourceType permission row ↔
      row.userId = userId ∨ db.Granted userId resourceType row.id permission := by
  have hsome : ¬ ((db.filterFor userId).groupIds = [] ∧ ((db.filterFor userId).userId).getD [] = []) :=
    fun h => hne h.2
  simp only [hasPermissionFilter, if_neg hperm, if_neg hsome]
  have howner : (db.filterFor userId).userId.getD [] = userId := rfl
  simp only [howner, if_pos hne, List.cons_append, List.nil_append, List.any_cons, id_eq, List.any_nil, Bool.or_false,
    Bool.or_eq_true, grantExists_iff hne, decide_eq_true_eq]
  exact or_comm

theorem hasReadOnlyPermissionFilter_iff (hne : userId ≠ []) {row : DocumentModel} :
    db.hasReadOnlyPermissionFilter (db.filterFor userId) resourceType row ↔ row.userId ≠ userId ∧
      db.Granted userId resourceType row.id (.lit "read") ∧ ¬ db.Granted userId resourceType row.id (.lit "write") := by
  have howner : (db.filterFor userId).userId.getD [] = userId := rfl
  simp only [hasReadOnlyPermissionFilter, howner, if_pos hne, List.cons_append, List.nil_append, List.all_cons, id_eq,
    List.all_nil, Bool.and_true, Bool.and_eq_true, grantExists_iff hne, Bool.not_eq_true', ← Bool.not_eq_true,
    decide_eq_true_eq]
  tauto

end GrantDb

/-! ### Grants in a list -/

theorem get_toJson : g.toJson.get (.lit "permission") = .str g.permission ∧
    g.toJson.get (.lit "principal_type") = .str g.principalType ∧
    g.toJson.get (.lit "principal_id") = .str g.principalId := by
  simp [AccessGrant.toJson, Json.get, Json.field]

/-- **The loop finds a grant for the permission and the user, if there is one.** -/
theorem hasAccessLoop_map {grants : List AccessGrant} : hasAccessLoop userId permission groupIds
    (grants.map AccessGrant.toJson) = some (grants.any fun g => g.permission = permission &&
      (g.isPublic || g.isForUser userId || g.isForGroups groupIds)) := by
  induction grants with
  | nil => rfl
  | cons g rest ih =>
    obtain ⟨hperm, htype, hid⟩ := get_toJson (g := g)
    have hobj : g.toJson.isObj = true := rfl
    rw [List.map_cons, hasAccessLoop, ih, hperm, htype, hid, hobj, List.any_cons]
    simp only [Json.eqStr, inGroupIds, Option.pure_def, Option.bind_eq_bind, Option.bind_some]
    by_cases hp : g.permission = permission
    · by_cases huser : g.principalType = .lit "user" ∧ (g.principalId = .lit "*" ∨ g.principalId = userId)
      · have hfor : (g.isPublic || g.isForUser userId) = true := by
          simpa [AccessGrant.isPublic, AccessGrant.isForUser, ← and_or_left] using huser
        simp [hp, huser, hfor]
      · have hfor : (g.isPublic || g.isForUser userId) = false := by
          rw [← Bool.not_eq_true]
          simpa [AccessGrant.isPublic, AccessGrant.isForUser, ← and_or_left] using huser
        by_cases hgroup : g.principalType = .lit "group" ∧ groupIds ≠ []
        · by_cases hin : g.principalId ∈ groupIds <;>
            simp [hp, hgroup, hfor, hin, AccessGrant.isForGroups]
        · have hnot : g.isForGroups groupIds = false := by
            rw [← Bool.not_eq_true]
            intro h
            simp only [AccessGrant.isForGroups, Bool.and_eq_true, decide_eq_true_eq] at h
            exact hgroup ⟨h.1, List.ne_nil_of_mem h.2⟩
          simp [hp, huser, hgroup, hfor, hnot]
    · simp [hp]

theorem GrantDb.hasListedAccess_grants : db.hasListedAccess userId permission
    ((db.grants.filter fun g => g.resourceType = resourceType && g.resourceId = resourceId).map AccessGrant.toJson)
    none = some (db.hasAccess userId resourceType resourceId permission none) := by
  have hloop : ∀ grants, db.hasListedAccess userId permission grants none =
      hasAccessLoop userId permission (db.getGroupsByMemberId userId) grants := by
    intro grants
    unfold hasListedAccess
    split_ifs with hnil
    · rw [hnil]
      rfl
    · rfl
  rw [hloop, hasAccessLoop_map, Option.some_inj, Bool.eq_iff_iff, hasAccess_iff]
  simp only [List.any_eq_true, List.mem_filter, Bool.and_eq_true, Bool.or_eq_true, decide_eq_true_eq, Granted, For,
    mem_grantsOf]
  refine exists_congr fun g => ?_
  tauto

end

/-! ## The result -/

/-- **All checks give the same answer.** -/
theorem grantChecksAgree (db : GrantDb) (hgroups : db.GroupsConsistent) (userId : Text) (hne : userId ≠ [])
    (resourceType resourceId permission : Text) (hperm : permission ∈ [Text.lit "read", .lit "write"]) :
    (∀ resourceIds, resourceId ∈ resourceIds → (db.hasAccess userId resourceType resourceId permission none ↔
      resourceId ∈ db.getAccessibleResourceIds userId resourceType resourceIds permission none)) ∧
    (∀ role, db.users.get userId = some role → role ≠ .lit "pending" →
      (db.hasAccess userId resourceType resourceId permission none ↔
        userId ∈ (db.getUsersWithAccess resourceType resourceId permission).map Prod.fst)) ∧
    (db.hasListedAccess userId permission
      ((db.grants.filter fun g => g.resourceType = resourceType && g.resourceId = resourceId).map AccessGrant.toJson)
      none = some (db.hasAccess userId resourceType resourceId permission none)) ∧
    ∀ row : DocumentModel, row.id = resourceId →
      (db.hasPermissionFilter (db.filterFor userId) resourceType permission row ↔
        row.userId = userId ∨ db.hasAccess userId resourceType resourceId permission none) ∧
      (db.hasPermissionFilter (db.filterFor userId) resourceType (.lit "read_only") row ↔
        row.userId ≠ userId ∧ db.hasAccess userId resourceType resourceId (.lit "read") none ∧
          ¬ db.hasAccess userId resourceType resourceId (.lit "write") none) := by
  have hother : permission ≠ .lit "read_only" := by
    rintro rfl
    simp at hperm
  refine ⟨?_, ?_, ?_, ?_⟩
  · intro resourceIds hin
    rw [GrantDb.hasAccess_iff, GrantDb.mem_getAccessibleResourceIds]
    exact (and_iff_right hin).symm
  · intro role huser hrole
    rw [GrantDb.hasAccess_iff, GrantDb.mem_getUsersWithAccess hgroups huser hrole]
  · exact GrantDb.hasListedAccess_grants
  · rintro row rfl
    rw [GrantDb.hasPermissionFilter_iff hne hother]
    have hreadOnly : db.hasPermissionFilter (db.filterFor userId) resourceType (.lit "read_only") row =
        db.hasReadOnlyPermissionFilter (db.filterFor userId) resourceType row := rfl
    rw [hreadOnly, GrantDb.hasReadOnlyPermissionFilter_iff hne]
    simp only [GrantDb.hasAccess_iff, ne_eq, and_self]

namespace Sample

def groupGrant : GrantDb :=
  ⟨[⟨.lit "note", .lit "n", .lit "group", .lit "g", .lit "read"⟩], [.lit "g"], [(.lit "g", .lit "u")], .empty⟩

end Sample

/-- A member of the group finds the note in a list. -/
theorem grantChecksAgree_group : Sample.groupGrant.hasAccess (.lit "u") (.lit "note") (.lit "n") (.lit "read") none ∧
    .lit "n" ∈ Sample.groupGrant.getAccessibleResourceIds (.lit "u") (.lit "note") [.lit "m", .lit "n"] (.lit "read")
      none := by
  have hagree := grantChecksAgree Sample.groupGrant (by decide +kernel) (.lit "u") (by decide) (.lit "note") (.lit "n")
    (.lit "read") (by decide)
  have hhas : Sample.groupGrant.hasAccess (.lit "u") (.lit "note") (.lit "n") (.lit "read") none := by decide +kernel
  exact ⟨hhas, (hagree.1 _ (by decide)).1 hhas⟩

end TideBot
