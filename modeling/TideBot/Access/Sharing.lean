/-
  Sharing a resource (`utils/access_control/__init__.py`, `models/access_grants.py`).

  The grants that a user submits are dictionaries and models, and may be malformed.  `filter_allowed_access_grants`
  takes out the kinds of grants that the user may not give; it looks for each kind in the normalized list, but takes
  the entries out of the submitted one.  `set_access_grants` normalizes what is left, and stores it.

  Of the well-formed entries each filter takes out those of one kind, no others (`mem_stripUnless_iff`); so what is
  stored is what is submitted, well-formed and permitted (`mem_stored_iff`), without repetition.
-/
import TideBot.Access.Grants
import TideBot.Access.Permissions

namespace TideBot

open Lib

/-! ## Entries -/

/-- An entry of a list of grants: a dictionary, a model with its fields, or any other object with its attributes. -/
inductive GrantEntry where
  | dict (items : PyDict)
  | model (fields : PyDict)
  | other (attributes : PyDict)

namespace GrantEntry

/-- `grant.get(name) if isinstance(grant, dict) else getattr(grant, name, None)` -/
def getattr (name : String) : GrantEntry → Json
  | .dict items => items.fetch name
  | .model fields => fields.fetch name
  | .other attributes => attributes.fetch name

/-- The dictionary that is normalized: of a model, `model_dump()`. -/
def asDict : GrantEntry → Option PyDict
  | .dict items => some items
  | .model fields => some fields
  | .other _ => none

/-- `principal_type == type` -/
def hasType (type : String) (e : GrantEntry) : Bool := (e.getattr "principal_type").eqStr (.lit type)

/-- `principal_id == '*'` -/
def hasWildcard (e : GrantEntry) : Bool := (e.getattr "principal_id").eqStr (.lit "*")

end GrantEntry

/-- A grant as `normalize_access_grants` gives it; `none` is an id that is drawn. -/
structure NormalizedGrant where
  id : Option Text
  principalType : Text
  principalId : Text
  permission : Text

/-- `key` -/
def NormalizedGrant.key (g : NormalizedGrant) : Text × Text × Text := (g.principalType, g.principalId, g.permission)

/-- What `normalize_access_grants` makes of an entry. -/
def normalizeEntry (e : GrantEntry) : Option NormalizedGrant :=
  match e.asDict with
  | none => none
  | some grant =>
    match grant.fetch "principal_type", grant.fetch "principal_id", grant.fetch "permission" with
    | .str principalType, .str principalId, .str permission =>
      if principalType ∉ [.lit "user", .lit "group", .lit "anyone"] then none
      else if permission ∉ [.lit "read", .lit "write"] then none
      else if principalId = [] then none
      else if principalType = .lit "anyone" ∧ (principalId ≠ .lit "*" ∨ permission ≠ .lit "read") then none
      else
        let id := match grant.fetch "id" with
          | .str id => if id = [] then none else some id
          | _ => none
        some ⟨id, principalType, principalId, permission⟩
    | _, _, _ => none

/-- `normalize_access_grants` -/
def normalizeAccessGrants (accessGrants : List GrantEntry) : List NormalizedGrant :=
  ((accessGrants.filterMap normalizeEntry).foldl (fun deduped g => deduped.set g.key g) Dict.empty).entries.map Prod.snd

/-! ## Filters -/

/-- `has_public_read_access_grant`, and `has_public_write_access_grant` -/
def hasPublicAccessGrant (permission : String) (accessGrants : List GrantEntry) : Bool :=
  (normalizeAccessGrants accessGrants).any fun g =>
    g.principalType = .lit "user" && g.principalId = .lit "*" && g.permission = .lit permission

/-- `has_anyone_read_access_grant` -/
def hasAnyoneReadAccessGrant (accessGrants : List GrantEntry) : Bool :=
  (normalizeAccessGrants accessGrants).any fun g =>
    g.principalType = .lit "anyone" && g.principalId = .lit "*" && g.permission = .lit "read"

/-- `has_user_access_grant` -/
def hasUserAccessGrant (accessGrants : List GrantEntry) : Bool :=
  (normalizeAccessGrants accessGrants).any fun g => g.principalType = .lit "user" && g.principalId ≠ .lit "*"

/-- `strip_user_access_grants` -/
def stripUserAccessGrants (accessGrants : List GrantEntry) : List GrantEntry :=
  accessGrants.filter fun e => !(e.hasType "user" && !e.hasWildcard)

/-- `strip_anyone_access_grants` -/
def stripAnyoneAccessGrants (accessGrants : List GrantEntry) : List GrantEntry :=
  accessGrants.filter fun e => !e.hasType "anyone"

/-- The list without the entries of a kind, if there are any that are not permitted; `permitted` is asked only if
    there are. -/
def stripUnless (found : List GrantEntry → Bool) (permitted : Option Bool) (strip : List GrantEntry → List GrantEntry)
    (accessGrants : List GrantEntry) : Option (List GrantEntry) :=
  if found accessGrants then
    match permitted with
    | none => none
    | some true => some accessGrants
    | some false => some (strip accessGrants)
  else some accessGrants

section
variable (permitted : Text → Option Bool) (userRole publicPermissionKey : Text) (anyonePermissionKey : Option Text)

/-- Is there a key, and may the user share with anyone? -/
def anyonePermitted : Option Bool :=
  match anyonePermissionKey with
  | none => some false
  | some key => if key = [] then some false else if userRole = .lit "admin" then some true else permitted key

/-- `filter_allowed_access_grants`, where `permitted` is `has_permission` of the user. -/
def filterAllowedAccessGrants (accessGrants : List GrantEntry) : Option (List GrantEntry) :=
  if accessGrants.isEmpty then some accessGrants
  else do
    let accessGrants ← stripUnless hasAnyoneReadAccessGrant (anyonePermitted permitted userRole anyonePermissionKey)
      stripAnyoneAccessGrants accessGrants
    if userRole = .lit "admin" then some accessGrants
    else
      let accessGrants ← stripUnless (fun gs => hasPublicAccessGrant "read" gs || hasPublicAccessGrant "write" gs)
        (permitted publicPermissionKey) (List.filter fun e => !(e.hasType "user" && e.hasWildcard)) accessGrants
      let accessGrants ← stripUnless hasUserAccessGrant (permitted (.lit "access_grants.allow_users"))
        stripUserAccessGrants accessGrants
      stripUnless (List.any · (GrantEntry.hasType "group")) (permitted (.lit "access_grants.allow_groups"))
        (List.filter fun e => !e.hasType "group") accessGrants

end

/-- `set_access_grants`: the table without the rows of the resource and with the new ones. -/
def setAccessGrants (grants : List AccessGrant) (resourceType resourceId : Text) (accessGrants : List GrantEntry) :
    List AccessGrant :=
  (grants.filter fun g => !(g.resourceType = resourceType && g.resourceId = resourceId)) ++
    (normalizeAccessGrants accessGrants).map fun g =>
      ⟨resourceType, resourceId, g.principalType, g.principalId, g.permission⟩

/-! ## What is submitted -/

/-- A principal and a permission that a grant may have. -/
def WellFormedGrant (principalType principalId permission : Text) : Prop :=
  principalType ∈ [Text.lit "user", .lit "group", .lit "anyone"] ∧ permission ∈ [Text.lit "read", .lit "write"] ∧
    principalId ≠ [] ∧
    (principalType = .lit "anyone" → principalId = .lit "*" ∧ permission = .lit "read")

/-- The entry is a dictionary or a model of a well-formed grant. -/
def GrantEntry.Submits (e : GrantEntry) (principalType principalId permission : Text) : Prop :=
  ∃ grant, e.asDict = some grant ∧ grant.fetch "principal_type" = .str principalType ∧
    grant.fetch "principal_id" = .str principalId ∧ grant.fetch "permission" = .str permission ∧
    WellFormedGrant principalType principalId permission

section
variable {e : GrantEntry} {principalType principalId permission : Text} {accessGrants : List GrantEntry}

/-- **An entry is normalized** just if it submits a grant. -/
theorem submits_iff : e.Submits principalType principalId permission ↔
    ∃ g, normalizeEntry e = some g ∧ g.key = (principalType, principalId, permission) := by
  unfold GrantEntry.Submits normalizeEntry
  rcases e.asDict with _ | grant
  · simp
  simp only [Option.some.injEq, exists_eq_left']
  split
  · rename_i pt pid perm hpt hpid hperm
    simp only [hpt, hpid, hperm, Json.str.injEq]
    constructor
    · rintro ⟨rfl, rfl, rfl, htype, hpermission, hne, hanyone⟩
      have hnot : ¬(pt = .lit "anyone" ∧ (pid ≠ .lit "*" ∨ perm ≠ .lit "read")) := by
        rintro ⟨rfl, hbad⟩
        have := hanyone rfl
        tauto
      rw [if_neg (not_not.2 htype), if_neg (not_not.2 hpermission), if_neg hne, if_neg hnot]
      exact ⟨_, rfl, rfl⟩
    · rintro ⟨g, hg, hkey⟩
      split_ifs at hg with htype hpermission hne hanyone
      cases hg
      obtain ⟨rfl, hrest⟩ := Prod.mk.inj hkey
      obtain ⟨rfl, rfl⟩ := Prod.mk.inj hrest
      refine ⟨rfl, rfl, rfl, htype, hpermission, hne, fun h => ?_⟩
      tauto
  · rename_i hother
    refine iff_of_false ?_ (by simp)
    rintro ⟨hpt, hpid, hperm, -⟩
    exact hother _ _ _ hpt hpid hperm

theorem GrantEntry.Submits.getattr (h : e.Submits principalType principalId permission) :
    e.getattr "principal_type" = .str principalType ∧ e.getattr "principal_id" = .str principalId := by
  obtain ⟨grant, hgrant, htype, hid, -⟩ := h
  cases e with
  | dict | model =>
    cases hgrant
    exact ⟨htype, hid⟩
  | other => cases hgrant

theorem GrantEntry.Submits.hasType (h : e.Submits principalType principalId permission) (type : String) :
    e.hasType type = decide (principalType = .lit type) := by
  rw [GrantEntry.hasType, h.getattr.1, Json.eqStr]

theorem GrantEntry.Submits.hasWildcard (h : e.Submits principalType principalId permission) :
    e.hasWildcard = decide (principalId = .lit "*") := by
  rw [GrantEntry.hasWildcard, h.getattr.2, Json.eqStr]

theorem foldl_deduped (gs : List NormalizedGrant) (deduped : Dict (Text × Text × Text) NormalizedGrant)
    (hkeys : ∀ f ∈ deduped.entries, f.2.key = f.1) :
    (∀ f ∈ (gs.foldl (fun deduped g => deduped.set g.key g) deduped).entries, f.2.key = f.1) ∧
      ∀ k, k ∈ (gs.foldl (fun deduped g => deduped.set g.key g) deduped).keys ↔
        k ∈ deduped.keys ∨ ∃ g ∈ gs, g.key = k := by
  induction gs generalizing deduped with
  | nil => simpa using hkeys
  | cons g gs ih =>
    have hset : ∀ f ∈ (deduped.set g.key g).entries, f.2.key = f.1 := by
      rintro ⟨k, g'⟩ hf
      rw [Dict.mem_entries_iff, Dict.get_set] at hf
      split_ifs at hf with hk
      · cases hf
        exact hk.symm
      · exact hkeys _ (Dict.mem_entries_iff.2 hf)
    obtain ⟨hih, hmem⟩ := ih _ hset
    refine ⟨hih, fun k => ?_⟩
    rw [List.foldl_cons, hmem]
    have hkey : k ∈ (deduped.set g.key g).keys ↔ k = g.key ∨ k ∈ deduped.keys := by
      simp only [Dict.mem_keys_iff, Dict.get_set]
      by_cases hk : k = g.key <;> simp [hk]
    rw [hkey]
    simp only [List.mem_cons, exists_eq_or_imp, eq_comm (a := g.key)]
    tauto

/-- **The normalized list** has the grants that are submitted, without repetition. -/
theorem normalizeAccessGrants_keys (accessGrants : List GrantEntry) :
    ((normalizeAccessGrants accessGrants).map NormalizedGrant.key).Nodup ∧
      ∀ principalType principalId permission,
        (principalType, principalId, permission) ∈ (normalizeAccessGrants accessGrants).map NormalizedGrant.key ↔
          ∃ e ∈ accessGrants, e.Submits principalType principalId permission := by
  obtain ⟨hkeys, hmem⟩ := foldl_deduped (accessGrants.filterMap normalizeEntry) .empty (by simp [Dict.empty])
  have hmap : (normalizeAccessGrants accessGrants).map NormalizedGrant.key =
      ((accessGrants.filterMap normalizeEntry).foldl (fun deduped g => deduped.set g.key g) Dict.empty).keys := by
    rw [normalizeAccessGrants, List.map_map, Dict.keys]
    exact List.map_congr_left fun f hf => hkeys f hf
  refine ⟨hmap ▸ Dict.nodup _, ?_⟩
  intro principalType principalId permission
  rw [hmap, hmem]
  simp only [submits_iff, List.mem_filterMap]
  constructor
  · rintro (hempty | ⟨g, ⟨e, he, hg⟩, hkey⟩)
    · cases hempty
    · exact ⟨e, he, g, hg, hkey⟩
  · rintro ⟨e, he, g, hg, hkey⟩
    exact .inr ⟨g, ⟨e, he, hg⟩, hkey⟩

theorem any_normalized {p : NormalizedGrant → Bool} {q : Text → Text → Text → Prop}
    (hp : ∀ g, p g = true ↔ q g.principalType g.principalId g.permission) :
    (normalizeAccessGrants accessGrants).any p = true ↔ ∃ e ∈ accessGrants, ∃ principalType principalId permission,
      e.Submits principalType principalId permission ∧ q principalType principalId permission := by
  obtain ⟨-, hmem⟩ := normalizeAccessGrants_keys accessGrants
  rw [List.any_eq_true]
  constructor
  · rintro ⟨g, hg, hpg⟩
    obtain ⟨e, he, hsubmits⟩ := (hmem _ _ _).1 (List.mem_map.2 ⟨g, hg, rfl⟩)
    exact ⟨e, he, _, _, _, hsubmits, (hp g).1 hpg⟩
  · rintro ⟨e, he, pt, pid, perm, hsubmits, hq⟩
    obtain ⟨g, hg, hkey⟩ := List.mem_map.1 ((hmem pt pid perm).2 ⟨e, he, hsubmits⟩)
    obtain ⟨rfl, hrest⟩ := Prod.mk.inj hkey
    obtain ⟨rfl, rfl⟩ := Prod.mk.inj hrest
    exact ⟨g, hg, (hp g).2 hq⟩

/-! ## What is taken out -/

theorem mem_filter_not_iff {p : GrantEntry → Bool} {q : Prop} (hp : p e = true ↔ q) :
    e ∈ (accessGrants.filter fun e => !p e) ↔ e ∈ accessGrants ∧ ¬q := by
  rw [List.mem_filter, ← hp]
  simp

/-- **A filter takes out one kind of the well-formed entries**, unless it is permitted. -/
theorem mem_stripUnless_iff {found : List GrantEntry → Bool} {permitted : Option Bool}
    {strip : List GrantEntry → List GrantEntry} {q : Prop} {allowed : List GrantEntry}
    (h : stripUnless found permitted strip accessGrants = some allowed)
    (hfound : e ∈ accessGrants → q → found accessGrants = true)
    (hstrip : e ∈ strip accessGrants ↔ e ∈ accessGrants ∧ ¬q) :
    e ∈ allowed ↔ e ∈ accessGrants ∧ (q → permitted = some true) := by
  unfold stripUnless at h
  split_ifs at h with hany
  · rcases permitted with _ | _ | _
    · cases h
    · cases h
      simpa using hstrip
    · cases h
      simp
  · cases h
    refine ⟨fun he => ⟨he, fun hq => absurd (hfound he hq) hany⟩, And.left⟩

theorem hasAnyoneReadAccessGrant_of_mem (he : e ∈ accessGrants) (h : e.Submits principalType principalId permission)
    (hkind : principalType = .lit "anyone") : hasAnyoneReadAccessGrant accessGrants = true := by
  obtain ⟨-, -, -, -, -, -, -, -, hanyone⟩ := id h
  obtain ⟨hwildcard, hread⟩ := hanyone hkind
  refine (any_normalized (q := fun pt pid perm => pt = .lit "anyone" ∧ pid = .lit "*" ∧ perm = .lit "read") ?_).2
    ⟨e, he, _, _, _, h, hkind, hwildcard, hread⟩
  intro g
  simp [and_assoc]

theorem hasPublicAccessGrant_of_mem (he : e ∈ accessGrants) (h : e.Submits principalType principalId permission)
    (hkind : principalType = .lit "user" ∧ principalId = .lit "*") :
    (hasPublicAccessGrant "read" accessGrants || hasPublicAccessGrant "write" accessGrants) = true := by
  have hfound : ∀ perm : String, permission = .lit perm → hasPublicAccessGrant perm accessGrants = true := by
    intro perm hperm
    refine (any_normalized (q := fun pt pid p => pt = .lit "user" ∧ pid = .lit "*" ∧ p = .lit perm) ?_).2
      ⟨e, he, _, _, _, h, hkind.1, hkind.2, hperm⟩
    intro g
    simp [and_assoc]
  obtain ⟨-, -, -, -, -, -, hpermission, -⟩ := h
  rw [Bool.or_eq_true]
  rcases List.mem_pair.1 hpermission with hread | hwrite
  · exact .inl (hfound _ hread)
  · exact .inr (hfound _ hwrite)

theorem hasUserAccessGrant_of_mem (he : e ∈ accessGrants) (h : e.Submits principalType principalId permission)
    (hkind : principalType = .lit "user" ∧ principalId ≠ .lit "*") : hasUserAccessGrant accessGrants = true := by
  refine (any_normalized (q := fun pt pid _ => pt = .lit "user" ∧ pid ≠ .lit "*") ?_).2 ⟨e, he, _, _, _, h, hkind⟩
  intro g
  simp

variable {permitted : Text → Option Bool} {userRole publicPermissionKey : Text} {anyonePermissionKey : Option Text}

variable (permitted userRole publicPermissionKey anyonePermissionKey) in
/-- May the user give grants of this kind? -/
def KindPermitted (principalType principalId : Text) : Prop :=
  if principalType = .lit "anyone" then anyonePermitted permitted userRole anyonePermissionKey = some true
  else if userRole = .lit "admin" then True
  else if principalType = .lit "group" then permitted (.lit "access_grants.allow_groups") = some true
  else if principalId = .lit "*" then permitted publicPermissionKey = some true
  else permitted (.lit "access_grants.allow_users") = some true

/-- **What is allowed** of the well-formed entries is what is permitted. -/
theorem mem_allowed_iff {allowed : List GrantEntry}
    (h : filterAllowedAccessGrants permitted userRole publicPermissionKey anyonePermissionKey accessGrants =
      some allowed)
    (hsubmits : e.Submits principalType principalId permission) :
    e ∈ allowed ↔ e ∈ accessGrants ∧
      KindPermitted permitted userRole publicPermissionKey anyonePermissionKey principalType principalId := by
  have htypes : principalType = .lit "user" ∨ principalType = .lit "group" ∨ principalType = .lit "anyone" := by
    obtain ⟨-, -, -, -, -, htype, -⟩ := hsubmits
    simpa using htype
  by_cases hempty : accessGrants.isEmpty
  · rw [filterAllowedAccessGrants, if_pos hempty] at h
    cases h
    rw [List.isEmpty_iff.1 hempty]
    simp
  rw [filterAllowedAccessGrants, if_neg hempty] at h
  obtain ⟨noAnyone, hanyone, h⟩ := Option.bind_eq_some_iff.1 h
  have hmemAnyone := mem_stripUnless_iff (e := e) (q := principalType = .lit "anyone") hanyone
    (fun he => hasAnyoneReadAccessGrant_of_mem he hsubmits) (mem_filter_not_iff (by simp [hsubmits.hasType]))
  split_ifs at h with hadmin
  · cases h
    rw [hmemAnyone, KindPermitted]
    by_cases hkind : principalType = .lit "anyone" <;> simp [hkind, hadmin]
  obtain ⟨noPublic, hpublic, h⟩ := Option.bind_eq_some_iff.1 h
  have hmemPublic := mem_stripUnless_iff (e := e) (q := principalType = .lit "user" ∧ principalId = .lit "*") hpublic
    (fun he => hasPublicAccessGrant_of_mem he hsubmits)
    (mem_filter_not_iff (by simp [hsubmits.hasType, hsubmits.hasWildcard]))
  obtain ⟨noUsers, husers, hgroups⟩ := Option.bind_eq_some_iff.1 h
  have hmemUsers := mem_stripUnless_iff (e := e) (q := principalType = .lit "user" ∧ principalId ≠ .lit "*") husers
    (fun he => hasUserAccessGrant_of_mem he hsubmits)
    (mem_filter_not_iff (by simp [hsubmits.hasType, hsubmits.hasWildcard]))
  have hmemGroups := mem_stripUnless_iff (e := e) (q := principalType = .lit "group") hgroups
    (fun he hkind => List.any_eq_true.2 ⟨e, he, by simp [hsubmits.hasType, hkind]⟩)
    (mem_filter_not_iff (by simp [hsubmits.hasType]))
  rw [hmemGroups, hmemUsers, hmemPublic, hmemAnyone, KindPermitted]
  rcases htypes with rfl | rfl | rfl
  · by_cases hwildcard : principalId = .lit "*" <;> simp [hwildcard, hadmin]
  · simp [hadmin]
  · simp

/-! ## What is stored -/

/-- The rows of a resource. -/
def rowsOf (grants : List AccessGrant) (resourceType resourceId : Text) : List AccessGrant :=
  grants.filter fun g => g.resourceType = resourceType && g.resourceId = resourceId

theorem rowsOf_setAccessGrants (grants : List AccessGrant) (resourceType resourceId : Text) :
    rowsOf (setAccessGrants grants resourceType resourceId accessGrants) resourceType resourceId =
      ((normalizeAccessGrants accessGrants).map NormalizedGrant.key).map fun k =>
        ⟨resourceType, resourceId, k.1, k.2.1, k.2.2⟩ := by
  rw [rowsOf, setAccessGrants, List.filter_append, List.filter_filter, List.map_map]
  have hnone : (grants.filter fun g => (g.resourceType = resourceType && g.resourceId = resourceId) &&
      !(g.resourceType = resourceType && g.resourceId = resourceId)) = [] := by
    refine List.filter_eq_nil_iff.2 fun g _ => ?_
    simp
  rw [hnone, List.nil_append]
  refine List.filter_eq_self.2 fun g hg => ?_
  obtain ⟨g', -, rfl⟩ := List.mem_map.1 hg
  simp

/-- **What is stored** is stored once, and is what the list submits. -/
theorem mem_stored_iff (grants : List AccessGrant) (resourceType resourceId : Text) :
    (rowsOf (setAccessGrants grants resourceType resourceId accessGrants) resourceType resourceId).Nodup ∧
      ∀ g, g ∈ rowsOf (setAccessGrants grants resourceType resourceId accessGrants) resourceType resourceId ↔
        (g.resourceType = resourceType ∧ g.resourceId = resourceId) ∧
          ∃ e ∈ accessGrants, e.Submits g.principalType g.principalId g.permission := by
  obtain ⟨hnodup, hmem⟩ := normalizeAccessGrants_keys accessGrants
  rw [rowsOf_setAccessGrants]
  refine ⟨hnodup.map ?_, ?_⟩
  · rintro ⟨pt, pid, perm⟩ ⟨pt', pid', perm'⟩ h
    simpa using h
  · rintro ⟨type, id, pt, pid, perm⟩
    rw [← hmem, List.mem_map]
    constructor
    · rintro ⟨⟨pt', pid', perm'⟩, hk, heq⟩
      cases heq
      exact ⟨⟨rfl, rfl⟩, hk⟩
    · rintro ⟨⟨rfl, rfl⟩, hk⟩
      exact ⟨_, hk, rfl⟩

/-- What is asked of the rows of a resource, after the grants that a user has submitted are filtered and stored. -/
structure SharingKept (permitted : Text → Option Bool) (userRole publicPermissionKey : Text)
    (anyonePermissionKey : Option Text) (accessGrants : List GrantEntry) (stored : List AccessGrant) : Prop where
  noPublic : userRole ≠ .lit "admin" → permitted publicPermissionKey ≠ some true →
    ∀ g ∈ stored, ¬(g.principalType = .lit "user" ∧ g.principalId = .lit "*")
  noUsers : userRole ≠ .lit "admin" → permitted (.lit "access_grants.allow_users") ≠ some true →
    ∀ g ∈ stored, g.principalType = .lit "user" → g.principalId = .lit "*"
  noGroups : userRole ≠ .lit "admin" → permitted (.lit "access_grants.allow_groups") ≠ some true →
    ∀ g ∈ stored, g.principalType ≠ .lit "group"
  noAnyone : anyonePermitted permitted userRole anyonePermissionKey ≠ some true →
    ∀ g ∈ stored, g.principalType ≠ .lit "anyone"
  submitted : ∀ g ∈ stored, ∃ e ∈ accessGrants, e.Submits g.principalType g.principalId g.permission
  once : ∀ e ∈ accessGrants, ∀ principalType principalId permission, e.Submits principalType principalId permission →
    KindPermitted permitted userRole publicPermissionKey anyonePermissionKey principalType principalId →
    (stored.filter fun g => g.principalType = principalType && g.principalId = principalId &&
      g.permission = permission).length = 1

end

/-- **No forbidden sharing is stored**, and all that is permitted is, for all that can be submitted. -/
theorem sharing_stored (environ : String → String → Bool) (groups : List GroupModel) (defaultPermissions : PyDict)
    (userRole publicPermissionKey : Text) (anyonePermissionKey : Option Text) (accessGrants : List GrantEntry)
    (grants : List AccessGrant) (resourceType resourceId : Text) {allowed : List GrantEntry}
    (h : filterAllowedAccessGrants (fun key => hasPermission environ groups key defaultPermissions) userRole
      publicPermissionKey anyonePermissionKey accessGrants = some allowed) :
    SharingKept (fun key => hasPermission environ groups key defaultPermissions) userRole publicPermissionKey
      anyonePermissionKey accessGrants
      (rowsOf (setAccessGrants grants resourceType resourceId allowed) resourceType resourceId) := by
  obtain ⟨hnodup, hmem⟩ := @mem_stored_iff allowed grants resourceType resourceId
  have hstored : ∀ g ∈ rowsOf (setAccessGrants grants resourceType resourceId allowed) resourceType resourceId,
      (∃ e ∈ accessGrants, e.Submits g.principalType g.principalId g.permission) ∧
        KindPermitted (fun key => hasPermission environ groups key defaultPermissions) userRole publicPermissionKey
          anyonePermissionKey g.principalType g.principalId := by
    intro g hg
    obtain ⟨-, e, he, hsubmits⟩ := (hmem g).1 hg
    obtain ⟨he, hkind⟩ := (mem_allowed_iff h hsubmits).1 he
    exact ⟨⟨e, he, hsubmits⟩, hkind⟩
  refine ⟨?_, ?_, ?_, ?_, fun g hg => (hstored g hg).1, ?_⟩
  · rintro hrole hlacks g hg ⟨htype, hid⟩
    have hkind := (hstored g hg).2
    rw [KindPermitted, htype, hid] at hkind
    exact hlacks (by simpa [hrole] using hkind)
  · intro hrole hlacks g hg htype
    have hkind := (hstored g hg).2
    rw [KindPermitted, htype] at hkind
    by_contra hid
    exact hlacks (by simpa [hrole, hid] using hkind)
  · intro hrole hlacks g hg htype
    have hkind := (hstored g hg).2
    rw [KindPermitted, htype] at hkind
    exact hlacks (by simpa [hrole] using hkind)
  · intro hlacks g hg htype
    have hkind := (hstored g hg).2
    rw [KindPermitted, if_pos htype] at hkind
    exact hlacks hkind
  · intro e he principalType principalId permission hsubmits hkind
    have hrow : ⟨resourceType, resourceId, principalType, principalId, permission⟩ ∈
        rowsOf (setAccessGrants grants resourceType resourceId allowed) resourceType resourceId :=
      (hmem _).2 ⟨⟨rfl, rfl⟩, e, (mem_allowed_iff h hsubmits).2 ⟨he, hkind⟩, hsubmits⟩
    rw [← List.count_eq_one_of_mem hnodup hrow, List.count, List.countP_eq_length_filter]
    congr 1
    refine List.filter_congr fun g hg => ?_
    obtain ⟨⟨htype, hid⟩, -⟩ := (hmem g).1 hg
    cases g
    subst htype hid
    rw [Bool.eq_iff_iff, beq_iff_eq]
    simp [and_assoc]

namespace Sample

/-- A grant for everyone, one for a user, and an entry that is none. -/
def submittedGrants : List GrantEntry :=
  [.dict (((PyDict.put .empty "principal_type" (.str (.lit "user"))).put "principal_id" (.str (.lit "*"))).put
      "permission" (.str (.lit "read"))),
    .model (((PyDict.put .empty "principal_type" (.str (.lit "user"))).put "principal_id" (.str (.lit "u"))).put
      "permission" (.str (.lit "write"))),
    .other .empty]

end Sample

/-- A user who may share with users, but not with everyone. -/
theorem sharing_stored_users : ∃ allowed,
    filterAllowedAccessGrants (fun key => hasPermission (fun _ key => key = "allow_users") [] key .empty)
      (.lit "user") (.lit "sharing.public_models") none Sample.submittedGrants = some allowed ∧
    SharingKept (fun key => hasPermission (fun _ key => key = "allow_users") [] key .empty) (.lit "user")
      (.lit "sharing.public_models") none Sample.submittedGrants
      (rowsOf (setAccessGrants [] (.lit "model") (.lit "m") allowed) (.lit "model") (.lit "m")) ∧
    rowsOf (setAccessGrants [] (.lit "model") (.lit "m") allowed) (.lit "model") (.lit "m") =
      [⟨.lit "model", .lit "m", .lit "user", .lit "u", .lit "write"⟩] :=
  ⟨_, rfl, sharing_stored _ _ _ _ _ _ _ _ _ _ rfl, by decide +kernel⟩

end TideBot
