/-
  The table `browser_workflow` and its statements (`models/browser_extension.py`,
  `BrowserWorkflowTable`).

  A row holds a definition in encrypted form, and a version that an `UPDATE` compares and
  increments in one statement.  What a statement does to the row of an id is said once
  (`row_insert`, `update_cases`, `row_delete`); the proofs about the handlers use nothing else.
-/
import TideBot.Lib.Table
import TideBot.Workflow.Encryption

namespace TideBot

open Lib

/-- A row of `browser_workflow` (`BrowserWorkflow`). -/
structure BrowserWorkflow where
  id : Text
  userId : Text
  name : Text
  encryptedDefinition : Text
  definitionNonce : Text
  version : ℤ
  createdAt : ℤ
  updatedAt : ℤ
  deriving DecidableEq

/-- The primary key. -/
def WorkflowConstraints (rows : List BrowserWorkflow) : Prop := (rows.map BrowserWorkflow.id).Nodup

instance : DecidablePred WorkflowConstraints := fun rows =>
  inferInstanceAs (Decidable (rows.map BrowserWorkflow.id).Nodup)

theorem WorkflowConstraints.sublist {l l' : List BrowserWorkflow} (h : l'.Sublist l)
    (hl : WorkflowConstraints l) : WorkflowConstraints l' := List.Nodup.sublist (h.map _) hl

/-- The table `browser_workflow`. -/
abbrev BrowserWorkflows := Table BrowserWorkflow WorkflowConstraints

namespace BrowserWorkflow

variable (r : BrowserWorkflow)

/-- The definition, as it is stored. -/
def encrypted : EncryptedWorkflowDefinition := ⟨r.encryptedDefinition, r.definitionNonce⟩

/-- The `WHERE` of `get_by_id_and_user_id` and `delete`. -/
def ownedBy (workflowId userId : Text) : Bool := r.id = workflowId && r.userId = userId

/-- The `WHERE` of `update`. -/
def updatable (workflowId userId : Text) (expectedVersion : ℤ) : Bool :=
  r.ownedBy workflowId userId && r.version = expectedVersion

/-- The `SET` of `update`. -/
def updated (expectedVersion : ℤ) (name : Text) (e : EncryptedWorkflowDefinition) (now : ℤ) :
    BrowserWorkflow :=
  { r with
    name := name
    encryptedDefinition := e.ciphertext
    definitionNonce := e.nonce
    version := expectedVersion + 1
    updatedAt := now }

end BrowserWorkflow

namespace BrowserWorkflows

variable (T : BrowserWorkflows)

/-- The row with this primary key. -/
def row (id : Text) : Option BrowserWorkflow := T.find BrowserWorkflow.id id

/-! ## The statements -/

/-- `insert`; `none`: `IntegrityError`. -/
def insertWorkflow (workflowId userId name : Text) (e : EncryptedWorkflowDefinition) (version now : ℤ) :
    Option (BrowserWorkflows × BrowserWorkflow) :=
  let r : BrowserWorkflow := ⟨workflowId, userId, name, e.ciphertext, e.nonce, version, now, now⟩
  (T.insert r).map fun T' => (T', r)

/-- `get_by_id_and_user_id` -/
def getByIdAndUserId (workflowId userId : Text) : Option BrowserWorkflow :=
  (T.select (·.ownedBy workflowId userId)).head?

/-- `update`: compare and increment the version. -/
def updateWorkflow (workflowId userId : Text) (expectedVersion : ℤ) (name : Text)
    (e : EncryptedWorkflowDefinition) (now : ℤ) :
    Option (BrowserWorkflows × Option BrowserWorkflow) :=
  (T.update (·.updatable workflowId userId expectedVersion)
    (·.updated expectedVersion name e now)).map fun res => (res.1, res.2.head?)

/-- `delete`: was there such a row? -/
def deleteWorkflow (workflowId userId : Text) : BrowserWorkflows × Bool :=
  (T.delete WorkflowConstraints.sublist (·.ownedBy workflowId userId),
    (T.select (·.ownedBy workflowId userId)) ≠ [])

/-! ## What a statement does -/

variable {T} {T' : BrowserWorkflows} {r : BrowserWorkflow} {id userId name : Text}
  {e : EncryptedWorkflowDefinition} {version now : ℤ}

theorem row_id (h : row T id = some r) : r.id = id := Table.find_key _ h

theorem row_of_mem (h : r ∈ T.rows) : row T r.id = some r := Table.find_of_mem _ T.ok h

theorem row_insert (h : insertWorkflow T id userId name e version now = some (T', r)) :
    r = ⟨id, userId, name, e.ciphertext, e.nonce, version, now, now⟩ ∧ row T id = none ∧
      row T' id = some r ∧ ∀ k, k ≠ id → row T' k = row T k := by
  obtain ⟨T₁, hins, hr⟩ := Option.map_eq_some_iff.1 h
  obtain ⟨rfl, rfl⟩ := Prod.mk.inj hr
  obtain ⟨hnew, hrow⟩ := Table.find_insert BrowserWorkflow.id hins fun hK => hK
  refine ⟨rfl, hnew, (hrow id).trans (if_pos rfl), ?_⟩
  intro k hk
  exact (hrow k).trans (if_neg (Ne.symm hk))

theorem getByIdAndUserId_some (h : getByIdAndUserId T id userId = some r) :
    row T id = some r ∧ r.id = id ∧ r.userId = userId := by
  rw [getByIdAndUserId, Table.head?_select BrowserWorkflow.id T.ok
    fun r hr => by simpa using (Bool.and_eq_true_iff.1 hr).1, Option.filter_eq_some_iff] at h
  have howned := Bool.and_eq_true_iff.1 h.2
  exact ⟨h.1, by simpa using howned.1, by simpa using howned.2⟩

/-- **An update matches nothing, or increments the version** of the row with that version. -/
theorem update_cases {res : Option BrowserWorkflow}
    (h : updateWorkflow T id userId version name e now = some (T', res)) :
    (res = none ∧ ∀ k, row T' k = row T k) ∨
      ∃ r, row T id = some r ∧ r.userId = userId ∧ r.version = version ∧
        res = some (r.updated version name e now) ∧
        row T' id = some (r.updated version name e now) ∧ ∀ k, k ≠ id → row T' k = row T k := by
  obtain ⟨⟨T₁, rs⟩, hupd, hr⟩ := Option.map_eq_some_iff.1 h
  obtain ⟨rfl, rfl⟩ := Prod.mk.inj hr
  have hkey : ∀ r : BrowserWorkflow, r.updatable id userId version → r.id = id := by
    intro r hr
    simp only [BrowserWorkflow.updatable, BrowserWorkflow.ownedBy, Bool.and_eq_true,
      decide_eq_true_eq] at hr
    exact hr.1.1
  have hret : rs.head? = ((row T id).filter (·.updatable id userId version)).map
      (·.updated version name e now) := Table.returned_update BrowserWorkflow.id T.ok hkey hupd
  have hrow : ∀ k, row T₁ k = (row T k).map fun r =>
      if r.updatable id userId version then r.updated version name e now else r :=
    Table.find_update BrowserWorkflow.id (fun _ => rfl) hupd
  by_cases hmatch : ∃ r, row T id = some r ∧ r.updatable id userId version
  · obtain ⟨r, hr, hp⟩ := hmatch
    have hparts := hp
    simp only [BrowserWorkflow.updatable, BrowserWorkflow.ownedBy, Bool.and_eq_true,
      decide_eq_true_eq] at hparts
    refine .inr ⟨r, hr, hparts.1.2, hparts.2, ?_, ?_, ?_⟩
    · rw [hret, hr]
      simp [Option.filter, hp]
    · rw [hrow id, hr]
      simp [hp]
    · intro k hk
      rw [hrow k]
      cases hrk : row T k with
      | none => rfl
      | some r' =>
        have hne : ¬ r'.updatable id userId version := fun hp' =>
          hk ((row_id hrk).symm.trans (hkey r' hp'))
        simp [hne]
  · have hnone : ∀ k r', row T k = some r' → ¬ r'.updatable id userId version := by
      intro k r' hrk hp'
      have hid := (row_id hrk).symm.trans (hkey r' hp')
      exact hmatch ⟨r', hid ▸ hrk, hp'⟩
    refine .inl ⟨?_, ?_⟩
    · rw [hret]
      cases hr : row T id with
      | none => rfl
      | some r => simp [Option.filter, hnone id r hr]
    · intro k
      rw [hrow k]
      cases hrk : row T k with
      | none => rfl
      | some r' => simp [hnone k r' hrk]

theorem update_isSome (T : BrowserWorkflows) (id userId : Text) (version : ℤ) (name : Text)
    (e : EncryptedWorkflowDefinition) (now : ℤ) :
    ∃ T' res, updateWorkflow T id userId version name e now = some (T', res) := by
  have hok : WorkflowConstraints (Table.updated (·.updatable id userId version)
      (·.updated version name e now) T.rows) := by
    have hids : (Table.updated (·.updatable id userId version) (·.updated version name e now)
        T.rows).map BrowserWorkflow.id = T.rows.map BrowserWorkflow.id :=
      Table.map_updated (f := (·.updated version name e now)) BrowserWorkflow.id (fun _ => rfl) T.rows
    show ((Table.updated _ _ T.rows).map BrowserWorkflow.id).Nodup
    rw [hids]
    exact T.ok
  exact ⟨_, _, congrArg _ (dif_pos hok)⟩

theorem row_delete {k : Text} (h : row (deleteWorkflow T id userId).1 k = some r) :
    row T k = some r := by
  have hfind := Table.find_delete BrowserWorkflow.id WorkflowConstraints.sublist
    (p := (·.ownedBy id userId)) T.ok k
  exact (Option.filter_eq_some_iff.1 (hfind.symm.trans h)).1

end BrowserWorkflows

end TideBot
