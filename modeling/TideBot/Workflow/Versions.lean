/-
  `create_workflow`, `update_workflow` and `delete_workflow` (`routers/browser_extension.py`)
  as their database steps.

  An update reads the row, compares its version with the one in the request, encrypts the new
  definition under the next version, and issues one conditional `UPDATE`.  `WorkflowPc` is the
  position of a request between two such steps; the machine `workflowMachine` runs any number of
  requests of any users.  The answer of `_require_browser_permission` is part of a request, the
  bytes of `os.urandom(12)` and the id of `uuid4` are part of a step; an id is not given twice.

  The invariant (`WorkflowInv`) says of every row that its version counts the updates that
  succeeded, and that it holds what was written last, encrypted under its own user, id and
  version; and of every update that has started, where it stands (`Progress`).
-/
import TideBot.Lib.Machine
import TideBot.Workflow.Store

namespace TideBot

open Lib

/-! ## Requests -/

/-- `WorkflowCreateForm`; its definition is a `dict`. -/
structure WorkflowForm where
  name : Text
  definition : Json
  named : 1 ≤ name.length ∧ name.length ≤ 120
  dict : definition.isObj
  distinct : distinctKeys definition

/-- `WorkflowUpdateForm` -/
structure WorkflowUpdateForm extends WorkflowForm where
  version : ℤ
  positive : 1 ≤ version

/-- `WorkflowResponse` -/
structure WorkflowResponse where
  id : Text
  name : Text
  version : ℤ
  definition : Json
  createdAt : ℤ
  updatedAt : ℤ

/-- What the handlers call, and `WEBUI_SECRET_KEY`. -/
structure WorkflowEnv where
  crypto : Crypto
  floats : Json.FloatText
  urls : PyUrls
  secretKey : Text

/-- The answer: a workflow, `{'status': 'deleted'}`, an `HTTPException`, or the answer to an
    unhandled exception. -/
inductive WorkflowReply where
  | workflow (response : WorkflowResponse)
  | deleted
  | http (status : ℕ) (detail : Text)
  | serverError

namespace WorkflowReply

def notAllowed : WorkflowReply := .http 403 (.lit "browser_extension_not_allowed")

def notFound : WorkflowReply := .http 404 (.lit "workflow_not_found")

def versionConflict : WorkflowReply := .http 409 (.lit "workflow_version_conflict")

def invalidDefinition : WorkflowReply := .http 422 (.lit "invalid_workflow_definition")

end WorkflowReply

/-- Where a request stands: what it is about to do. -/
inductive WorkflowPc where
  /-- `BrowserWorkflows.insert` -/
  | inserting (userId : Text) (form : WorkflowForm) (workflowId : Text)
      (encrypted : EncryptedWorkflowDefinition)
  /-- `BrowserWorkflows.get_by_id_and_user_id` -/
  | reading (userId workflowId : Text) (form : WorkflowUpdateForm)
  /-- `encrypt_workflow_definition` -/
  | encrypting (userId workflowId : Text) (form : WorkflowUpdateForm) (current : BrowserWorkflow)
  /-- `BrowserWorkflows.update` -/
  | writing (userId workflowId : Text) (form : WorkflowUpdateForm) (current : BrowserWorkflow)
      (encrypted : EncryptedWorkflowDefinition)
  /-- `BrowserWorkflows.delete` -/
  | deleting (userId workflowId : Text)
  | done (reply : WorkflowReply)

section
variable (env : WorkflowEnv)

/-! ## The synchronous parts of the handlers -/

/-- `_safe_workflow` -/
def safeWorkflow (r : BrowserWorkflow) : WorkflowReply :=
  match decryptWorkflowDefinition env.crypto env.floats r.encrypted env.secretKey r.userId r.id
      r.version with
  | none => .serverError
  | some definition => .workflow ⟨r.id, r.name, r.version, definition, r.createdAt, r.updatedAt⟩

/-- `create_workflow`, up to the insertion. -/
def createWorkflow (userId : Text) (form : WorkflowForm) (allowed : Bool) (workflowId : Text)
    (nonce : Fin 12 → Byte) : WorkflowPc :=
  if !allowed then .done .notAllowed
  else match validatedWorkflowDefinition env.floats env.urls form.definition with
    | none => .done .invalidDefinition
    | some definition =>
      match encryptWorkflowDefinition env.crypto env.floats nonce definition env.secretKey userId
          workflowId 1 with
      | none => .done .serverError
      | some encrypted => .inserting userId form workflowId encrypted

/-- `update_workflow`, after it has read the row. -/
def compareVersion (userId workflowId : Text) (form : WorkflowUpdateForm) :
    Option BrowserWorkflow → WorkflowPc
  | none => .done .notFound
  | some current =>
    if current.version ≠ form.version then .done .versionConflict
    else .encrypting userId workflowId form current

/-- `update_workflow`, after it has compared the versions. -/
def encryptNext (userId workflowId : Text) (form : WorkflowUpdateForm) (current : BrowserWorkflow)
    (nonce : Fin 12 → Byte) : WorkflowPc :=
  match validatedWorkflowDefinition env.floats env.urls form.definition with
  | none => .done .invalidDefinition
  | some definition =>
    match encryptWorkflowDefinition env.crypto env.floats nonce definition env.secretKey userId
        workflowId (current.version + 1) with
    | none => .done .serverError
    | some encrypted => .writing userId workflowId form current encrypted

/-! ## The machine -/

/-- The table, the requests, and the ids that `uuid4` has given. -/
structure WorkflowWorld where
  workflows : BrowserWorkflows
  requests : ℕ → Option WorkflowPc
  issued : List Text

def WorkflowWorld.init : WorkflowWorld := ⟨⟨[], List.nodup_nil⟩, fun _ => none, []⟩

/-- Move request `i` to `pc`. -/
def WorkflowWorld.goto (w : WorkflowWorld) (i : ℕ) (pc : WorkflowPc) : WorkflowWorld :=
  { w with requests := Function.update w.requests i (some pc) }

/-- One atomic step; `now` is a reading of `time.time_ns()`. -/
inductive WorkflowAct where
  | create (i : ℕ) (userId : Text) (form : WorkflowForm) (allowed : Bool) (workflowId : Text)
      (nonce : Fin 12 → Byte)
  | insert (i : ℕ) (now : ℤ)
  | update (i : ℕ) (userId workflowId : Text) (form : WorkflowUpdateForm) (allowed : Bool)
  | read (i : ℕ)
  | encrypt (i : ℕ) (nonce : Fin 12 → Byte)
  | write (i : ℕ) (now : ℤ)
  | delete (i : ℕ) (userId workflowId : Text) (allowed : Bool)
  | remove (i : ℕ)

/-- What a step does that a claim about edits speaks of. -/
inductive WorkflowEffect where
  | quiet
  /-- An update has read the row at the version it names. -/
  | started (request : ℕ) (workflowId : Text) (version : ℤ) (definition : Json)
  | created (workflowId : Text) (definition : Json)
  /-- The `UPDATE` of a row of this version has matched. -/
  | updated (request : ℕ) (workflowId : Text) (version : ℤ) (definition : Json)

/-- What has become of a request that has read its row. -/
def startedOf (i : ℕ) : WorkflowPc → WorkflowEffect
  | .encrypting _ workflowId form current => .started i workflowId current.version form.definition
  | _ => .quiet

/-- One step; `none` if the request is not at that step, if its number is taken, or if the id is
    not new. -/
def WorkflowWorld.step (w : WorkflowWorld) : WorkflowAct → Option (WorkflowWorld × WorkflowEffect)
  | .create i userId form allowed workflowId nonce =>
    match w.requests i with
    | some _ => none
    | none =>
      if workflowId ∈ w.issued then none
      else some ({ w with issued := workflowId :: w.issued }.goto i
        (createWorkflow env userId form allowed workflowId nonce), .quiet)
  | .insert i now =>
    match w.requests i with
    | some (.inserting userId form workflowId encrypted) =>
      match BrowserWorkflows.insertWorkflow w.workflows workflowId userId (Text.strip form.name)
          encrypted 1 now with
      | none => some (w.goto i (.done .serverError), .quiet)
      | some (T, r) => some ({ w with workflows := T }.goto i (.done (safeWorkflow env r)),
          .created workflowId form.definition)
    | _ => none
  | .update i userId workflowId form allowed =>
    match w.requests i with
    | some _ => none
    | none => some (w.goto i
        (if allowed then .reading userId workflowId form else .done .notAllowed), .quiet)
  | .read i =>
    match w.requests i with
    | some (.reading userId workflowId form) =>
      let pc := compareVersion userId workflowId form
        (BrowserWorkflows.getByIdAndUserId w.workflows workflowId userId)
      some (w.goto i pc, startedOf i pc)
    | _ => none
  | .encrypt i nonce =>
    match w.requests i with
    | some (.encrypting userId workflowId form current) =>
      some (w.goto i (encryptNext env userId workflowId form current nonce), .quiet)
    | _ => none
  | .write i now =>
    match w.requests i with
    | some (.writing userId workflowId form current encrypted) =>
      match BrowserWorkflows.updateWorkflow w.workflows workflowId userId current.version
          (Text.strip form.name) encrypted now with
      | none => some (w.goto i (.done .serverError), .quiet)
      | some (T, none) =>
        some ({ w with workflows := T }.goto i (.done .versionConflict), .quiet)
      | some (T, some r) => some ({ w with workflows := T }.goto i (.done (safeWorkflow env r)),
          .updated i workflowId current.version form.definition)
    | _ => none
  | .delete i userId workflowId allowed =>
    match w.requests i with
    | some _ => none
    | none => some (w.goto i
        (if allowed then .deleting userId workflowId else .done .notAllowed), .quiet)
  | .remove i =>
    match w.requests i with
    | some (.deleting userId workflowId) =>
      let (T, found) := BrowserWorkflows.deleteWorkflow w.workflows workflowId userId
      some ({ w with workflows := T }.goto i (.done (if found then .deleted else .notFound)), .quiet)
    | _ => none

/-- The three endpoints with any number of requests in flight. -/
def workflowMachine : Machine WorkflowWorld WorkflowAct WorkflowEffect := ⟨WorkflowWorld.step env⟩

end

/-! ## What was written -/

/-- The version that an update of this row was from. -/
def WorkflowEffect.versionOf (id : Text) : WorkflowEffect → Option ℤ
  | .updated _ workflowId version _ => if workflowId = id then some version else none
  | _ => none

/-- The definition that was written to this row. -/
def WorkflowEffect.writtenTo (id : Text) : WorkflowEffect → Option Json
  | .created workflowId definition => if workflowId = id then some definition else none
  | .updated _ workflowId _ definition => if workflowId = id then some definition else none
  | _ => none

/-- The versions from which the updates of a row have succeeded. -/
def succeeded (id : Text) (es : List WorkflowEffect) : List ℤ := es.filterMap (·.versionOf id)

/-- What was last written to a row. -/
def lastWritten (id : Text) (es : List WorkflowEffect) : Option Json :=
  (es.filterMap (·.writtenTo id)).getLast?

section
variable {id : Text} {es : List WorkflowEffect} {x : WorkflowEffect}

theorem succeeded_snoc : succeeded id (es ++ [x]) = succeeded id es ++ (x.versionOf id).toList := by
  rw [succeeded, List.filterMap_append, succeeded]
  cases h : x.versionOf id <;> simp [h]

theorem lastWritten_snoc :
    lastWritten id (es ++ [x]) = (x.writtenTo id).or (lastWritten id es) := by
  rw [lastWritten, List.filterMap_append, lastWritten]
  cases h : x.writtenTo id <;> simp [h]

end

/-! ## What a step does -/

section
variable {env : WorkflowEnv} {w w' : WorkflowWorld} {act : WorkflowAct} {x : WorkflowEffect}

@[simp] theorem goto_requests (i j : ℕ) (pc : WorkflowPc) :
    (w.goto i pc).requests j = if j = i then some pc else w.requests j := by
  simp [WorkflowWorld.goto, Function.update_apply]

/-- The steps; the table of a step that neither inserts nor updates has no other rows than before. -/
inductive Stepped (env : WorkflowEnv) (w : WorkflowWorld) : WorkflowWorld → WorkflowEffect → Prop
  | create {i userId form allowed workflowId nonce} : w.requests i = none → workflowId ∉ w.issued →
      Stepped env w ({ w with issued := workflowId :: w.issued }.goto i
        (createWorkflow env userId form allowed workflowId nonce)) .quiet
  | insert {i userId form workflowId e now T r} :
      w.requests i = some (.inserting userId form workflowId e) →
      BrowserWorkflows.insertWorkflow w.workflows workflowId userId (Text.strip form.name) e 1 now =
        some (T, r) →
      Stepped env w ({ w with workflows := T }.goto i (.done (safeWorkflow env r)))
        (.created workflowId form.definition)
  | collide {i userId form workflowId e} : w.requests i = some (.inserting userId form workflowId e) →
      Stepped env w (w.goto i (.done .serverError)) .quiet
  | call {i pc} : w.requests i = none → (∀ u f id e, pc ≠ .inserting u f id e) →
      (∀ u id f c e, pc ≠ .writing u id f c e) → Stepped env w (w.goto i pc) .quiet
  | read {i userId workflowId form} : w.requests i = some (.reading userId workflowId form) →
      Stepped env w (w.goto i (compareVersion userId workflowId form
          (BrowserWorkflows.getByIdAndUserId w.workflows workflowId userId)))
        (startedOf i (compareVersion userId workflowId form
          (BrowserWorkflows.getByIdAndUserId w.workflows workflowId userId)))
  | encrypt {i userId workflowId form current nonce} :
      w.requests i = some (.encrypting userId workflowId form current) →
      Stepped env w (w.goto i (encryptNext env userId workflowId form current nonce)) .quiet
  | conflict {i userId workflowId form current e T} :
      w.requests i = some (.writing userId workflowId form current e) →
      (∀ {k r}, BrowserWorkflows.row T k = some r → BrowserWorkflows.row w.workflows k = some r) →
      Stepped env w ({ w with workflows := T }.goto i (.done .versionConflict)) .quiet
  | write {i userId workflowId form current e now T r} :
      w.requests i = some (.writing userId workflowId form current e) →
      BrowserWorkflows.row w.workflows workflowId = some r → r.userId = userId →
      r.version = current.version →
      BrowserWorkflows.row T workflowId =
        some (r.updated current.version (Text.strip form.name) e now) →
      (∀ k, k ≠ workflowId → BrowserWorkflows.row T k = BrowserWorkflows.row w.workflows k) →
      Stepped env w ({ w with workflows := T }.goto i (.done (safeWorkflow env
          (r.updated current.version (Text.strip form.name) e now))))
        (.updated i workflowId current.version form.definition)
  | remove {i userId workflowId reply T} : w.requests i = some (.deleting userId workflowId) →
      (∀ {k r}, BrowserWorkflows.row T k = some r → BrowserWorkflows.row w.workflows k = some r) →
      Stepped env w ({ w with workflows := T }.goto i (.done reply)) .quiet

/-- **The steps of the machine.** -/
theorem stepped (h : (workflowMachine env).step w act = some (w', x)) : Stepped env w w' x := by
  change WorkflowWorld.step env w act = some (w', x) at h
  cases act with
  | create i userId form allowed workflowId nonce =>
    simp only [WorkflowWorld.step] at h
    split at h
    · cases h
    · rename_i hnone
      split_ifs at h with hnew
      cases h
      exact .create hnone hnew
  | insert i now =>
    simp only [WorkflowWorld.step] at h
    split at h
    · rename_i userId form workflowId e hpc
      split at h
      · cases h
        exact .collide hpc
      · rename_i T r hins
        cases h
        exact .insert hpc hins
    · cases h
  | update i userId workflowId form allowed =>
    simp only [WorkflowWorld.step] at h
    split at h
    · cases h
    · rename_i hnone
      cases h
      refine .call hnone ?_ ?_
      · intros
        split <;> simp
      · intros
        split <;> simp
  | read i =>
    simp only [WorkflowWorld.step] at h
    split at h
    · rename_i userId workflowId form hpc
      cases h
      exact .read hpc
    · cases h
  | encrypt i nonce =>
    simp only [WorkflowWorld.step] at h
    split at h
    · rename_i userId workflowId form current hpc
      cases h
      exact .encrypt hpc
    · cases h
  | write i now =>
    simp only [WorkflowWorld.step] at h
    split at h
    · rename_i userId workflowId form current e hpc
      obtain ⟨T, res, hupd⟩ := BrowserWorkflows.update_isSome w.workflows workflowId userId
        current.version (Text.strip form.name) e now
      rw [hupd] at h
      rcases BrowserWorkflows.update_cases hupd with ⟨rfl, hrow⟩ | ⟨r, hr, huser, hver, rfl, hrow, hother⟩
      · cases h
        exact .conflict hpc fun hk => hrow _ ▸ hk
      · cases h
        exact .write hpc hr huser hver hrow hother
    · cases h
  | delete i userId workflowId allowed =>
    simp only [WorkflowWorld.step] at h
    split at h
    · cases h
    · rename_i hnone
      cases h
      refine .call hnone ?_ ?_
      · intros
        split <;> simp
      · intros
        split <;> simp
  | remove i =>
    simp only [WorkflowWorld.step] at h
    split at h
    · rename_i userId workflowId hpc
      cases h
      exact .remove hpc fun hk => BrowserWorkflows.row_delete hk
    · cases h

/-! ## The invariant -/

/-- The definition is what is decrypted. -/
def Encrypts (env : WorkflowEnv) (d : Json) (userId workflowId : Text) (version : ℤ)
    (e : EncryptedWorkflowDefinition) : Prop :=
  d.Readable env.floats ∧ d.isObj ∧ ∃ nonce, encryptWorkflowDefinition env.crypto env.floats nonce d
    env.secretKey userId workflowId version = some e

/-- Nothing but the definition itself can be what an encryption fails on. -/
def Usable (env : WorkflowEnv) (userId workflowId : Text) : Prop :=
  usableSecret env.secretKey ∧ Text.encodable userId ∧ Text.encodable workflowId

/-- Does the server accept the definition? -/
def WorkflowEnv.accepts (env : WorkflowEnv) (d : Json) : Bool :=
  (validatedWorkflowDefinition env.floats env.urls d).isSome

/-- Where an update stands that has started from version `v` of a workflow. -/
inductive Progress (env : WorkflowEnv) (es : List WorkflowEffect) (i : ℕ) (id : Text) (v : ℤ) (d : Json) :
    WorkflowPc → Prop
  | encrypting {userId form current} : current.version = v → form.definition = d →
      Usable env userId id → Progress env es i id v d (.encrypting userId id form current)
  | writing {userId form current e} : current.version = v → form.definition = d → env.accepts d →
      Progress env es i id v d (.writing userId id form current e)
  | refused : ¬ env.accepts d → Progress env es i id v d (.done .invalidDefinition)
  | failed : env.accepts d → ¬ d.encodable → Progress env es i id v d (.done .serverError)
  | conflict : env.accepts d → Progress env es i id v d (.done .versionConflict)
  | updated {response} : env.accepts d → .updated i id v d ∈ es →
      Progress env es i id v d (.done (.workflow response))

/-- What holds after the effects `es`. -/
structure WorkflowInv (env : WorkflowEnv) (es : List WorkflowEffect) (w : WorkflowWorld) : Prop where
  fresh : ∀ id, id ∉ w.issued → BrowserWorkflows.row w.workflows id = none ∧ succeeded id es = []
  inserting : ∀ i u f id e, w.requests i = some (.inserting u f id e) → id ∈ w.issued ∧
    BrowserWorkflows.row w.workflows id = none ∧ succeeded id es = [] ∧
    Encrypts env f.definition u id 1 e
  single : ∀ i j u f u' f' id e e', w.requests i = some (.inserting u f id e) →
    w.requests j = some (.inserting u' f' id e') → i = j
  writing : ∀ i u id f c e, w.requests i = some (.writing u id f c e) →
    Encrypts env f.definition u id (c.version + 1) e
  rows : ∀ id r, BrowserWorkflows.row w.workflows id = some r →
    r.version = (succeeded id es).length + 1 ∧
    ∃ d, lastWritten id es = some d ∧ Encrypts env d r.userId id r.version r.encrypted
  counted : ∀ id, succeeded id es = 
    (List.range (succeeded id es).length).map fun n : ℕ => (n : ℤ) + 1
  progress : ∀ i id v d, .started i id v d ∈ es →
    ∃ pc, w.requests i = some pc ∧ Progress env es i id v d pc

section
variable {es : List WorkflowEffect} {d : Json} {userId id : Text} {v : ℤ}
  {e : EncryptedWorkflowDefinition}

theorem Encrypts.usable (h : Encrypts env d userId id v e) : Usable env userId id := by
  obtain ⟨hread, -, nonce, henc⟩ := h
  have hsome := encryptWorkflowDefinition_isSome env.crypto nonce env.secretKey userId id v hread
  rw [henc] at hsome
  simp only [Option.isSome_some, Bool.true_eq, Bool.and_eq_true] at hsome
  exact ⟨hsome.1.2, hsome.2⟩

theorem Encrypts.decrypt (hC : env.crypto.Authentic) (h : Encrypts env d userId id v e) :
    decryptWorkflowDefinition env.crypto env.floats e env.secretKey userId id v = some d.sorted := by
  obtain ⟨hread, hobj, nonce, henc⟩ := h
  exact decrypt_encrypted hC hread hobj henc

theorem safeWorkflow_of_encrypts {r : BrowserWorkflow} (hC : env.crypto.Authentic)
    (h : Encrypts env d r.userId r.id r.version r.encrypted) :
    ∃ response, safeWorkflow env r = .workflow response := by
  unfold safeWorkflow
  rw [h.decrypt hC]
  exact ⟨_, rfl⟩

theorem encryptNext_cases (hF : env.floats.One) (userId workflowId : Text) (form : WorkflowUpdateForm)
    (current : BrowserWorkflow) (nonce : Fin 12 → Byte) :
    (¬ env.accepts form.definition ∧
      encryptNext env userId workflowId form current nonce = .done .invalidDefinition) ∨
    (env.accepts form.definition ∧ (Usable env userId workflowId → ¬ form.definition.encodable) ∧
      encryptNext env userId workflowId form current nonce = .done .serverError) ∨
    (env.accepts form.definition ∧ ∃ e,
      Encrypts env form.definition userId workflowId (current.version + 1) e ∧
      encryptNext env userId workflowId form current nonce =
        .writing userId workflowId form current e) := by
  unfold encryptNext WorkflowEnv.accepts
  cases hval : validatedWorkflowDefinition env.floats env.urls form.definition with
  | none => exact .inl ⟨by simp, rfl⟩
  | some d =>
    obtain ⟨rfl, -⟩ := accepted hval
    have hread := readable_accepted hF.reads form.distinct hval
    have hsome := encryptWorkflowDefinition_isSome env.crypto nonce env.secretKey userId workflowId
      (current.version + 1) hread
    right
    cases henc : encryptWorkflowDefinition env.crypto env.floats nonce form.definition env.secretKey
        userId workflowId (current.version + 1) with
    | none =>
      refine .inl ⟨rfl, ?_, by simp only [henc]⟩
      intro hu
      rw [henc, hu.1, hu.2.1, hu.2.2] at hsome
      simpa using hsome.symm
    | some e => exact .inr ⟨rfl, e, ⟨hread, form.dict, nonce, henc⟩, by simp only [henc]⟩

/-! ## Every step keeps it -/

theorem Progress.mono {i : ℕ} {pc : WorkflowPc} (h : Progress env es i id v d pc)
    (x : WorkflowEffect) : Progress env (es ++ [x]) i id v d pc := by
  cases h with
  | encrypting hv hd hu => exact .encrypting hv hd hu
  | writing hv hd hacc => exact .writing hv hd hacc
  | refused hacc => exact .refused hacc
  | failed hacc hd => exact .failed hacc hd
  | conflict hacc => exact .conflict hacc
  | updated hacc hmem => exact .updated hacc (List.mem_append_left _ hmem)

theorem WorkflowInv.progress_goto (h : WorkflowInv env es w) {i : ℕ} {pc : WorkflowPc}
    {T : BrowserWorkflows} {ids : List Text}
    (hnew : ∀ j id v d, x = .started j id v d → j = i)
    (hi : ∀ id v d, .started i id v d ∈ es ++ [x] → Progress env (es ++ [x]) i id v d pc) :
    ∀ j id v d, .started j id v d ∈ es ++ [x] →
      ∃ pc', (({ w with workflows := T, issued := ids } : WorkflowWorld).goto i pc).requests j =
        some pc' ∧ Progress env (es ++ [x]) j id v d pc' := by
  intro j id v d hmem
  simp only [goto_requests]
  split_ifs with hj
  · subst hj
    exact ⟨pc, rfl, hi id v d hmem⟩
  · rcases List.mem_append.1 hmem with hmem | hmem
    · obtain ⟨pc', hpc', hprog⟩ := h.progress j id v d hmem
      exact ⟨pc', hpc', hprog.mono x⟩
    · exact absurd (hnew j id v d (List.mem_singleton.1 hmem).symm) hj

/-- **A step that writes nothing**: the table has no other rows than before. -/
theorem WorkflowInv.goto (h : WorkflowInv env es w) {i : ℕ} {pc : WorkflowPc} {T : BrowserWorkflows}
    (hT : ∀ {k r}, BrowserWorkflows.row T k = some r → BrowserWorkflows.row w.workflows k = some r)
    (hver : ∀ id, x.versionOf id = none) (hwrite : ∀ id, x.writtenTo id = none)
    (hins : ∀ u f id e, pc ≠ .inserting u f id e)
    (henc : ∀ u id f c e, pc = .writing u id f c e →
      Encrypts env f.definition u id (c.version + 1) e)
    (hnew : ∀ j id v d, x = .started j id v d → j = i)
    (hi : ∀ id v d, .started i id v d ∈ es ++ [x] → Progress env (es ++ [x]) i id v d pc) :
    WorkflowInv env (es ++ [x]) (({ w with workflows := T } : WorkflowWorld).goto i pc) := by
  have hsucc : ∀ id, succeeded id (es ++ [x]) = succeeded id es := by
    intro id
    rw [succeeded_snoc, hver, Option.toList_none, List.append_nil]
  have hlast : ∀ id, lastWritten id (es ++ [x]) = lastWritten id es := by
    intro id
    rw [lastWritten_snoc, hwrite, Option.none_or]
  have hgone : ∀ {k}, BrowserWorkflows.row w.workflows k = none → BrowserWorkflows.row T k = none := by
    intro k hk
    cases hr : BrowserWorkflows.row T k with
    | none => rfl
    | some r => rw [hT hr] at hk; cases hk
  constructor
  · intro id hid
    rw [hsucc]
    exact ⟨hgone (h.fresh id hid).1, (h.fresh id hid).2⟩
  · intro j u f id e hj
    rw [goto_requests] at hj
    split_ifs at hj
    · exact absurd (Option.some.inj hj) (hins u f id e)
    · obtain ⟨hid, hnone, hs, he⟩ := h.inserting j u f id e hj
      exact ⟨hid, hgone hnone, (hsucc id).trans hs, he⟩
  · intro j k u f u' f' id e e' hj hk
    rw [goto_requests] at hj hk
    split_ifs at hj hk
    · exact absurd (Option.some.inj hj) (hins u f id e)
    · exact absurd (Option.some.inj hj) (hins u f id e)
    · exact absurd (Option.some.inj hk) (hins u' f' id e')
    · exact h.single j k u f u' f' id e e' hj hk
  · intro j u id f c e hj
    rw [goto_requests] at hj
    split_ifs at hj
    · exact henc u id f c e (Option.some.inj hj)
    · exact h.writing j u id f c e hj
  · intro id r hr
    rw [hsucc, hlast]
    exact h.rows id r (hT hr)
  · intro id
    rw [hsucc]
    exact h.counted id
  · exact h.progress_goto hnew hi

theorem inserting_of_goto {w : WorkflowWorld} {i j : ℕ} {pc : WorkflowPc} {u : Text} {f : WorkflowForm}
    (hins : ∀ u f id e, pc ≠ .inserting u f id e)
    (h : (w.goto i pc).requests j = some (.inserting u f id e)) :
    j ≠ i ∧ w.requests j = some (.inserting u f id e) := by
  rw [goto_requests] at h
  split_ifs at h with hj
  · exact absurd (Option.some.inj h) (hins u f id e)
  · exact ⟨hj, h⟩

theorem createWorkflow_cases (hF : env.floats.One) (userId id : Text) (form : WorkflowForm)
    (allowed : Bool) (nonce : Fin 12 → Byte) :
    (∃ reply, createWorkflow env userId form allowed id nonce = .done reply) ∨
      ∃ e, Encrypts env form.definition userId id 1 e ∧
        createWorkflow env userId form allowed id nonce = .inserting userId form id e := by
  unfold createWorkflow
  split_ifs
  · exact .inl ⟨_, rfl⟩
  · cases hval : validatedWorkflowDefinition env.floats env.urls form.definition with
    | none => exact .inl ⟨_, rfl⟩
    | some d =>
      obtain ⟨rfl, -⟩ := accepted hval
      cases henc : encryptWorkflowDefinition env.crypto env.floats nonce form.definition
          env.secretKey userId id 1 with
      | none => exact .inl ⟨.serverError, by simp only [henc]⟩
      | some e =>
        refine .inr ⟨e, ⟨readable_accepted hF.reads form.distinct hval, form.dict, nonce, henc⟩, ?_⟩
        simp only [henc]

theorem WorkflowInv.create (hF : env.floats.One) (h : WorkflowInv env es w) {i : ℕ}
    {form : WorkflowForm} {allowed : Bool} {nonce : Fin 12 → Byte} (hi : w.requests i = none)
    (hid : id ∉ w.issued) :
    WorkflowInv env (es ++ [.quiet]) (({ w with issued := id :: w.issued } : WorkflowWorld).goto i
      (createWorkflow env userId form allowed id nonce)) := by
  have hsucc : ∀ k, succeeded k (es ++ [.quiet]) = succeeded k es := by
    intro k
    rw [succeeded_snoc]
    exact List.append_nil _
  have hlast : ∀ k, lastWritten k (es ++ [.quiet]) = lastWritten k es := fun k => lastWritten_snoc
  have hpc := createWorkflow_cases hF userId id form allowed nonce
  -- who inserts is `i`, with the new id, or inserted before, with another
  have hcases : ∀ {j u f k e}, (({ w with issued := id :: w.issued } : WorkflowWorld).goto i
      (createWorkflow env userId form allowed id nonce)).requests j = some (.inserting u f k e) →
      (j = i ∧ k = id ∧ Encrypts env f.definition u k 1 e) ∨
        (k ≠ id ∧ w.requests j = some (.inserting u f k e)) := by
    intro j u f k e hj
    rw [goto_requests] at hj
    split_ifs at hj with hji
    · rcases hpc with ⟨reply, hpc⟩ | ⟨e', he', hpc⟩
      · rw [hpc] at hj
        cases hj
      · rw [hpc] at hj
        cases hj
        exact .inl ⟨hji, rfl, he'⟩
    · refine .inr ⟨?_, hj⟩
      rintro rfl
      exact hid (h.inserting j u f k e hj).1
  constructor
  · intro k hk
    rw [hsucc]
    exact h.fresh k fun hmem => hk (List.mem_cons_of_mem _ hmem)
  · intro j u f k e hj
    rw [hsucc]
    rcases hcases hj with ⟨-, rfl, he⟩ | ⟨-, hj⟩
    · exact ⟨List.mem_cons_self, (h.fresh k hid).1, (h.fresh k hid).2, he⟩
    · obtain ⟨hmem, hrest⟩ := h.inserting j u f k e hj
      exact ⟨List.mem_cons_of_mem _ hmem, hrest⟩
  · intro j j' u f u' f' k e e' hj hj'
    rcases hcases hj with ⟨rfl, rfl, -⟩ | ⟨hne, hj⟩
    · rcases hcases hj' with ⟨rfl, -, -⟩ | ⟨hne, -⟩
      · rfl
      · exact absurd rfl hne
    · rcases hcases hj' with ⟨-, rfl, -⟩ | ⟨-, hj'⟩
      · exact absurd rfl hne
      · exact h.single j j' u f u' f' k e e' hj hj'
  · intro j u k f c e hj
    rw [goto_requests] at hj
    split_ifs at hj
    · rcases hpc with ⟨reply, hpc⟩ | ⟨e', -, hpc⟩
      · rw [hpc] at hj
        cases hj
      · rw [hpc] at hj
        cases hj
    · exact h.writing j u k f c e hj
  · intro k r hr
    rw [hsucc, hlast]
    exact h.rows k r hr
  · intro k
    rw [hsucc]
    exact h.counted k
  · refine h.progress_goto (by simp) ?_
    intro k v d hmem
    have hold : .started i k v d ∈ es := by simpa using hmem
    obtain ⟨pc, hpc, -⟩ := h.progress i k v d hold
    rw [hi] at hpc
    cases hpc

theorem WorkflowInv.insert (h : WorkflowInv env es w) {i : ℕ} {form : WorkflowForm} {name : Text}
    {now : ℤ} {T : BrowserWorkflows} {r : BrowserWorkflow} {reply : WorkflowReply}
    (hi : w.requests i = some (.inserting userId form id e))
    (hins : BrowserWorkflows.insertWorkflow w.workflows id userId name e 1 now = some (T, r)) :
    WorkflowInv env (es ++ [.created id form.definition])
      (({ w with workflows := T } : WorkflowWorld).goto i (.done reply)) := by
  obtain ⟨rfl, hnone, hrow, hother⟩ := BrowserWorkflows.row_insert hins
  obtain ⟨hmem, -, hzero, henc⟩ := h.inserting i userId form id e hi
  have hsucc : ∀ k, succeeded k (es ++ [.created id form.definition]) = succeeded k es := by
    intro k
    rw [succeeded_snoc]
    exact List.append_nil _
  constructor
  · intro k hk
    have hne : k ≠ id := fun heq => hk (heq ▸ hmem)
    rw [hsucc]
    exact ⟨(hother k hne).trans (h.fresh k hk).1, (h.fresh k hk).2⟩
  · intro j u f k e' hj
    obtain ⟨hji, hj⟩ := inserting_of_goto (by simp) hj
    have hne : k ≠ id := by
      rintro rfl
      exact hji (h.single j i u f userId form k e' e hj hi)
    obtain ⟨hk, hgone, hs, he⟩ := h.inserting j u f k e' hj
    exact ⟨hk, (hother k hne).trans hgone, (hsucc k).trans hs, he⟩
  · intro j j' u f u' f' k e' e'' hj hj'
    exact h.single j j' u f u' f' k e' e'' (inserting_of_goto (by simp) hj).2
      (inserting_of_goto (by simp) hj').2
  · intro j u k f c e' hj
    rw [goto_requests] at hj
    split_ifs at hj
    · cases hj
    · exact h.writing j u k f c e' hj
  · intro k r' hr'
    rw [hsucc, lastWritten_snoc]
    by_cases hk : k = id
    · subst hk
      obtain rfl := Option.some.inj (hrow.symm.trans hr')
      rw [hzero]
      exact ⟨rfl, form.definition, by simp [WorkflowEffect.writtenTo], henc⟩
    · have hold := h.rows k r' ((hother k hk).symm.trans hr')
      have hwrite : (WorkflowEffect.created id form.definition).writtenTo k = none := if_neg (Ne.symm hk)
      rw [hwrite, Option.none_or]
      exact hold
  · intro k
    rw [hsucc]
    exact h.counted k
  · refine h.progress_goto (by simp) ?_
    intro k v d hmem'
    have hold : .started i k v d ∈ es := by simpa using hmem'
    obtain ⟨pc, hpc, hprog⟩ := h.progress i k v d hold
    rw [hi] at hpc
    cases hpc
    cases hprog

theorem WorkflowInv.write (hC : env.crypto.Authentic) (h : WorkflowInv env es w) {i : ℕ}
    {form : WorkflowUpdateForm} {name : Text} {now : ℤ} {current r : BrowserWorkflow}
    {T : BrowserWorkflows} (hi : w.requests i = some (.writing userId id form current e))
    (hr : BrowserWorkflows.row w.workflows id = some r) (huser : r.userId = userId)
    (hver : r.version = current.version)
    (hrow : BrowserWorkflows.row T id = some (r.updated current.version name e now))
    (hother : ∀ k, k ≠ id → BrowserWorkflows.row T k = BrowserWorkflows.row w.workflows k) :
    WorkflowInv env (es ++ [.updated i id current.version form.definition])
      (({ w with workflows := T } : WorkflowWorld).goto i
        (.done (safeWorkflow env (r.updated current.version name e now)))) := by
  have henc := h.writing i userId id form current e hi
  have hcount := (h.rows id r hr).1
  have hsucc : succeeded id (es ++ [.updated i id current.version form.definition]) =
      succeeded id es ++ [current.version] := by
    rw [succeeded_snoc]
    simp [WorkflowEffect.versionOf]
  have hsame : ∀ k, k ≠ id → succeeded k (es ++ [.updated i id current.version form.definition]) =
      succeeded k es := by
    intro k hk
    rw [succeeded_snoc, WorkflowEffect.versionOf, if_neg (Ne.symm hk), Option.toList_none,
      List.append_nil]
  have hne : ∀ {k}, BrowserWorkflows.row w.workflows k = none → k ≠ id := by
    rintro k hk rfl
    rw [hr] at hk
    cases hk
  constructor
  · intro k hk
    obtain ⟨hgone, hs⟩ := h.fresh k hk
    exact ⟨(hother k (hne hgone)).trans hgone, (hsame k (hne hgone)).trans hs⟩
  · intro j u f k e' hj
    obtain ⟨hk, hgone, hs, he⟩ := h.inserting j u f k e' (inserting_of_goto (by simp) hj).2
    exact ⟨hk, (hother k (hne hgone)).trans hgone, (hsame k (hne hgone)).trans hs, he⟩
  · intro j j' u f u' f' k e' e'' hj hj'
    exact h.single j j' u f u' f' k e' e'' (inserting_of_goto (by simp) hj).2
      (inserting_of_goto (by simp) hj').2
  · intro j u k f c e' hj
    rw [goto_requests] at hj
    split_ifs at hj
    · cases hj
    · exact h.writing j u k f c e' hj
  · intro k r' hr'
    by_cases hk : k = id
    · subst hk
      obtain rfl := Option.some.inj (hrow.symm.trans hr')
      refine ⟨?_, form.definition, ?_, ?_⟩
      · rw [hsucc, List.length_append, List.length_singleton]
        show current.version + 1 = _
        rw [← hver, hcount]
        push_cast
        ring
      · simp [lastWritten_snoc, WorkflowEffect.writtenTo]
      · show Encrypts env form.definition r.userId k (current.version + 1) e
        rw [huser]
        exact henc
    · have hold := h.rows k r' ((hother k hk).symm.trans hr')
      have hwrite : (WorkflowEffect.updated i id current.version form.definition).writtenTo k = none :=
        if_neg (Ne.symm hk)
      rw [hsame k hk, lastWritten_snoc, hwrite, Option.none_or]
      exact hold
  · intro k
    by_cases hk : k = id
    · subst hk
      rw [hsucc, List.length_append, List.length_singleton, List.range_succ, List.map_append,
        ← h.counted k, ← hver, hcount]
      rfl
    · rw [hsame k hk]
      exact h.counted k
  · refine h.progress_goto (by simp) ?_
    intro k v d hmem
    have hold : .started i k v d ∈ es := by simpa using hmem
    obtain ⟨pc, hpc, hprog⟩ := h.progress i k v d hold
    rw [hi] at hpc
    cases hpc
    cases hprog with
    | writing hv hd hacc =>
      have hrid := BrowserWorkflows.row_id hr
      have henc' : Encrypts env form.definition
          (r.updated current.version name e now).userId (r.updated current.version name e now).id
          (r.updated current.version name e now).version
          (r.updated current.version name e now).encrypted := by
        show Encrypts env form.definition r.userId r.id (current.version + 1) e
        rw [huser, hrid]
        exact henc
      obtain ⟨response, hresponse⟩ := safeWorkflow_of_encrypts hC henc'
      rw [hresponse]
      subst hv hd
      exact .updated hacc (List.mem_append_right _ List.mem_cons_self)

/-- **Every step keeps the invariant.** -/
theorem WorkflowInv.step (hC : env.crypto.Authentic) (hF : env.floats.One) (h : WorkflowInv env es w)
    (hs : Stepped env w w' x) : WorkflowInv env (es ++ [x]) w' := by
  have hquiet : ∀ {i pc}, w.requests i = some pc → ∀ id v d, .started i id v d ∈ es ++ [.quiet] →
      Progress env es i id v d pc := by
    intro i pc hpc id v d hmem
    obtain ⟨pc', hpc', hprog⟩ := h.progress i id v d (by simpa using hmem)
    rw [hpc] at hpc'
    cases hpc'
    exact hprog
  cases hs with
  | create hi hid => exact h.create hF hi hid
  | insert hi hins => exact h.insert hi hins
  | collide hi =>
    refine h.goto (T := w.workflows) (fun hk => hk) (fun _ => rfl) (fun _ => rfl) (by simp) (by simp) (by simp) ?_
    intro id v d hmem
    cases hquiet hi id v d hmem
  | call hi hins hwriting =>
    refine h.goto (T := w.workflows) (fun hk => hk) (fun _ => rfl) (fun _ => rfl) hins ?_ (by simp) ?_
    · intro u id f c e hpc
      exact absurd hpc (hwriting u id f c e)
    · intro id v d hmem
      obtain ⟨pc, hpc, -⟩ := h.progress _ id v d (by simpa using hmem)
      rw [hi] at hpc
      cases hpc
  | @read i userId workflowId form hi =>
    cases hget : BrowserWorkflows.getByIdAndUserId w.workflows workflowId userId with
    | none =>
      refine h.goto (T := w.workflows) (fun hk => hk) (fun _ => rfl) (fun _ => rfl) (by simp [compareVersion])
        (by simp [compareVersion]) (by simp [compareVersion, startedOf]) ?_
      intro id v d hmem
      cases hquiet hi id v d hmem
    | some current =>
      by_cases hver : current.version = form.version
      · have hpc : compareVersion userId workflowId form (some current) =
            .encrypting userId workflowId form current := by simp [compareVersion, hver]
        obtain ⟨hrow, hid, huser⟩ := BrowserWorkflows.getByIdAndUserId_some hget
        obtain ⟨-, d₀, -, henc⟩ := h.rows workflowId current hrow
        rw [hpc]
        refine h.goto (T := w.workflows) (fun hk => hk) (fun _ => rfl) (fun _ => rfl) (by simp) (by simp)
          ?_ ?_
        · intro j id v d hj
          cases hj
          rfl
        intro id v d hmem
        rcases List.mem_append.1 hmem with hmem | hmem
        · obtain ⟨pc', hpc', hprog⟩ := h.progress i id v d hmem
          rw [hi] at hpc'
          cases hpc'
          cases hprog
        · obtain ⟨-, rfl, rfl, rfl⟩ : i = i ∧ id = workflowId ∧ v = current.version ∧
              d = form.definition := by simpa [startedOf] using hmem
          exact .encrypting rfl rfl (huser ▸ henc.usable)
      · have hpc : compareVersion userId workflowId form (some current) = .done .versionConflict := by
          simp [compareVersion, hver]
        rw [hpc]
        refine h.goto (T := w.workflows) (fun hk => hk) (fun _ => rfl) (fun _ => rfl) (by simp) (by simp)
          (by simp [startedOf]) ?_
        intro id v d hmem
        cases hquiet hi id v d hmem
  | @encrypt i userId workflowId form current nonce hi =>
    rcases encryptNext_cases hF userId workflowId form current nonce with
      ⟨hacc, hpc⟩ | ⟨hacc, hd, hpc⟩ | ⟨hacc, e, henc, hpc⟩
    · rw [hpc]
      refine h.goto (T := w.workflows) (fun hk => hk) (fun _ => rfl) (fun _ => rfl) (by simp) (by simp)
        (by simp) ?_
      intro id v d hmem
      cases hquiet hi id v d hmem with
      | encrypting hv hd hu => exact .refused (hd ▸ hacc)
    · rw [hpc]
      refine h.goto (T := w.workflows) (fun hk => hk) (fun _ => rfl) (fun _ => rfl) (by simp) (by simp)
        (by simp) ?_
      intro id v d hmem
      cases hquiet hi id v d hmem with
      | encrypting hv hdef hu => exact .failed (hdef ▸ hacc) (hdef ▸ hd hu)
    · rw [hpc]
      refine h.goto (T := w.workflows) (fun hk => hk) (fun _ => rfl) (fun _ => rfl) (by simp) ?_
        (by simp) ?_
      · intro u id f c e' heq
        cases heq
        exact henc
      · intro id v d hmem
        cases hquiet hi id v d hmem with
        | encrypting hv hdef hu => exact .writing hv hdef (hdef ▸ hacc)
  | conflict hi hT =>
    refine h.goto hT (fun _ => rfl) (fun _ => rfl) (by simp) (by simp) (by simp) ?_
    intro id v d hmem
    cases hquiet hi id v d hmem with
    | writing hv hd hacc => exact .conflict hacc
  | write hi hr huser hver hrow hother => exact h.write hC hi hr huser hver hrow hother
  | remove hi hT =>
    refine h.goto hT (fun _ => rfl) (fun _ => rfl) (by simp) (by simp) (by simp) ?_
    intro id v d hmem
    cases hquiet hi id v d hmem

/-! ## Every run -/

theorem workflowInv_init : WorkflowInv env [] .init where
  fresh _ _ := ⟨rfl, rfl⟩
  inserting _ _ _ _ _ hi := by cases hi
  single _ _ _ _ _ _ _ _ _ hi := by cases hi
  writing _ _ _ _ _ _ hi := by cases hi
  rows _ _ hr := by cases hr
  counted _ := rfl
  progress _ _ _ _ hmem := by cases hmem

theorem workflowInv_run (hC : env.crypto.Authentic) (hF : env.floats.One)
    {tr : List (WorkflowAct × WorkflowEffect)} (h : (workflowMachine env).Run .init tr w) :
    WorkflowInv env (tr.map Prod.snd) w := by
  refine h.traceInvariant (I := fun tr w => WorkflowInv env (tr.map Prod.snd) w) ?_ workflowInv_init
  intro tr w act w' x _ hinv hs
  rw [List.map_append]
  exact hinv.step hC hF (stepped hs)

/-- No edit is lost, and every row can be decrypted. -/
structure EditsKept (env : WorkflowEnv) (es : List WorkflowEffect) (w : WorkflowWorld) : Prop where
  /-- The version of a row grows by one with every update of it that succeeds. -/
  versions : ∀ r ∈ w.workflows.rows, r.version = (succeeded r.id es).length + 1
  /-- From no version do two updates succeed. -/
  once : ∀ id, (succeeded id es).Nodup
  /-- An update whose definition is refused is answered so. -/
  refused : ∀ i id v d reply, .started i id v d ∈ es → w.requests i = some (.done reply) →
    ¬ env.accepts d → reply = .invalidDefinition
  /-- Another update has succeeded, or is answered with a conflict. -/
  answered : ∀ i id v d reply, .started i id v d ∈ es → w.requests i = some (.done reply) →
    env.accepts d → d.encodable → reply = .versionConflict ∨
      ∃ response, reply = .workflow response ∧ .updated i id v d ∈ es
  /-- What was last written to a row is what is decrypted. -/
  decrypts : ∀ r ∈ w.workflows.rows, ∃ d d', lastWritten r.id es = some d ∧
    decryptWorkflowDefinition env.crypto env.floats r.encrypted env.secretKey r.userId r.id r.version =
      some d' ∧ d'.Same d

/-- **Edits are not lost**, in any interleaving of creations, updates and deletions. -/
theorem editsKept (hC : env.crypto.Authentic) (hF : env.floats.One)
    {tr : List (WorkflowAct × WorkflowEffect)} (h : (workflowMachine env).Run .init tr w) :
    EditsKept env (tr.map Prod.snd) w := by
  have hinv := workflowInv_run hC hF h
  constructor
  · intro r hr
    exact (hinv.rows r.id r (BrowserWorkflows.row_of_mem hr)).1
  · intro id
    rw [hinv.counted id]
    exact List.nodup_range.map fun a b hab => by simpa using hab
  · intro i id v d reply hmem hreply hacc
    obtain ⟨pc, hpc, hprog⟩ := hinv.progress i id v d hmem
    rw [hreply] at hpc
    cases hpc
    cases hprog with
    | refused => rfl
    | failed hacc' | conflict hacc' | updated hacc' => exact absurd hacc' hacc
  · intro i id v d reply hmem hreply hacc hd
    obtain ⟨pc, hpc, hprog⟩ := hinv.progress i id v d hmem
    rw [hreply] at hpc
    cases hpc
    cases hprog with
    | refused hacc' => exact absurd hacc hacc'
    | failed _ hd' => exact absurd hd hd'
    | conflict => exact .inl rfl
    | @updated response _ hmem' => exact .inr ⟨response, rfl, hmem'⟩
  · intro r hr
    obtain ⟨-, d, hlast, henc⟩ := hinv.rows r.id r (BrowserWorkflows.row_of_mem hr)
    exact ⟨d, d.sorted, hlast, henc.decrypt hC, Json.same_sorted d⟩

end

end

/-! ### Two updates from one version, of which the second is invalid -/

def exampleEnv : WorkflowEnv := ⟨plainCrypto, oneText, exampleUrls, .lit "secret"⟩

def saveForm : WorkflowForm where
  name := .lit "Save"
  definition := clickDefinition (.lit "Save")
  named := by decide
  dict := rfl
  distinct := by decide +kernel

def updateForm : WorkflowUpdateForm := { saveForm with version := 1, positive := le_refl 1 }

def emptyForm : WorkflowUpdateForm where
  name := .lit "Save"
  definition := .obj []
  named := by decide
  dict := rfl
  distinct := by decide
  version := 1
  positive := le_refl 1

def twoUpdates : List WorkflowAct :=
  [.create 0 (.lit "user") saveForm true (.lit "workflow") (fun _ => 0), .insert 0 100,
    .update 1 (.lit "user") (.lit "workflow") updateForm true,
    .update 2 (.lit "user") (.lit "workflow") emptyForm true,
    .read 1, .read 2, .encrypt 1 (fun _ => 1), .encrypt 2 (fun _ => 2), .write 1 200]

/-- Does a request stand at an answer with this status? -/
def answeredWith (w : WorkflowWorld) (i : ℕ) (code : ℕ) : Bool :=
  match w.requests i with
  | some (.done (.http status _)) => status = code
  | _ => false

def WorkflowEffect.startsFrom (i : ℕ) (id : Text) (v : ℤ) : WorkflowEffect → Bool
  | .started j id' v' _ => j = i && id' = id && v' = v
  | _ => false

/-- Both updates started from version 1; the one that did not succeed is not answered with a
    conflict. -/
theorem invalid_instead_of_conflict :
    ∃ tr w, (workflowMachine exampleEnv).Run .init tr w ∧
      (tr.any fun e => e.2.startsFrom 1 (.lit "workflow") 1) ∧
      (tr.any fun e => e.2.startsFrom 2 (.lit "workflow") 1) ∧
      succeeded (.lit "workflow") (tr.map Prod.snd) = [1] ∧ answeredWith w 2 422 := by
  obtain ⟨⟨tr, w⟩, hm, hx⟩ : ∃ r ∈ (workflowMachine exampleEnv).exec (fun _ _ => True) .init twoUpdates,
      (r.1.any fun e => e.2.startsFrom 1 (.lit "workflow") 1) ∧
      (r.1.any fun e => e.2.startsFrom 2 (.lit "workflow") 1) ∧
      succeeded (.lit "workflow") (r.1.map Prod.snd) = [1] ∧ answeredWith r.2 2 422 := by
    decide +kernel
  exact ⟨tr, w, Machine.runIn_of_exec hm, hx⟩

theorem editsKept_twoUpdates :
    ∃ tr w, (workflowMachine exampleEnv).Run .init tr w ∧
      succeeded (.lit "workflow") (tr.map Prod.snd) = [1] ∧
      EditsKept exampleEnv (tr.map Prod.snd) w := by
  obtain ⟨⟨tr, w⟩, hm, hx⟩ : ∃ r ∈ (workflowMachine exampleEnv).exec (fun _ _ => True) .init twoUpdates,
      succeeded (.lit "workflow") (r.1.map Prod.snd) = [1] := by
    decide +kernel
  exact ⟨tr, w, Machine.runIn_of_exec hm, hx,
    editsKept plainCrypto_authentic ⟨rfl, rfl⟩ (Machine.runIn_of_exec hm)⟩

end TideBot
