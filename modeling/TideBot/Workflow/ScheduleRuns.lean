/-
  Requests for schedules at the same time, and the deletion of workflows.

  A handler reads whether the workflow is the user's, and later writes a schedule that points at it; the
  deletion of a workflow deletes the schedules that point at it, and then the workflow.  There are no
  foreign keys.  A run is reported with the time it was due; the report is a conditional `UPDATE`.

  A step is the part of a handler up to its statement, the statement, or a deletion of a workflow, of any
  number of requests of any users.
-/
import TideBot.Workflow.Schedules

namespace TideBot

open Lib

/-- `BrowserWorkflowTable.delete`, one transaction. -/
def ScheduleStore.deleteWorkflow (s : ScheduleStore) (workflowId userId : Text) : ScheduleStore × Bool :=
  let schedules := s.schedules.filter fun e => !(e.2.workflowId = workflowId && e.2.userId = userId)
  let (workflows, found) := BrowserWorkflows.deleteWorkflow s.workflows workflowId userId
  ({ s with schedules := schedules, workflows := workflows }, found)

/-- The tables, the requests before their statement, and the ids that `uuid4` has given. -/
structure ScheduleWorld where
  store : ScheduleStore
  calls : Dict ℕ (Text × ScheduleWrite)
  issued : List Text

inductive ScheduleStep where
  | read (call : ℕ) (userId : Text) (requestDeviceId : Option Text) (request : ScheduleRequest)
  | write (call : ℕ) (newId : Text) (now : ℤ)
  | deleteWorkflow (workflowId userId : Text)

inductive ScheduleOutput where
  | waiting
  /-- The reply to a request that has executed no statement. -/
  | replied (reply : ScheduleReply)
  | wrote (statement : ScheduleWrite) (reply : ScheduleReply)
  | workflowDeleted (found : Bool)
deriving DecidableEq

/-- Any number of requests; an id is not given twice. -/
def scheduleMachine : Machine ScheduleWorld ScheduleStep ScheduleOutput where
  step w
    | .read call userId requestDeviceId request =>
      if (w.calls.get call).isSome then none
      else match w.store.read userId requestDeviceId request with
        | .error reply => some (w, .replied reply)
        | .ok statement => some ({ w with calls := w.calls.set call (userId, statement) }, .waiting)
    | .write call newId now =>
      if newId ∈ w.issued then none
      else (w.calls.get call).map fun c =>
        let (store, reply) := w.store.write c.1 newId now c.2
        (⟨store, w.calls.erase call, newId :: w.issued⟩, .wrote c.2 reply)
    | .deleteWorkflow workflowId userId =>
      let (store, found) := w.store.deleteWorkflow workflowId userId
      some ({ w with store := store }, .workflowDeleted found)

/-- The workflow that a statement makes a schedule point at. -/
def ScheduleWrite.pointsAt (s : ScheduleStore) (userId : Text) : ScheduleWrite → Option Text
  | .insert form => some form.workflowId
  | .update scheduleId form => (s.getByIdAndUserId scheduleId userId).map fun _ => form.workflowId
  | .markRun .. | .delete _ => none

/-- **The condition on a step**: the workflow that a statement makes a schedule point at is still the user's. -/
def WorkflowThere (w : ScheduleWorld) : ScheduleStep → Prop
  | .read .. | .deleteWorkflow .. => True
  | .write call _ _ => ∀ c ∈ w.calls.get call, ∀ workflowId ∈ c.2.pointsAt w.store c.1,
      w.store.ownsWorkflow c.1 workflowId

instance (w : ScheduleWorld) : (i : ScheduleStep) → Decidable (WorkflowThere w i)
  | .read .. | .deleteWorkflow .. => inferInstanceAs (Decidable True)
  | .write .. => inferInstanceAs (Decidable (∀ _ ∈ _, ∀ _ ∈ _, _ = _))

/-- Every schedule points at a workflow of its user. -/
def ScheduleStore.Pointed (s : ScheduleStore) : Prop :=
  ∀ id row, s.schedules.get id = some row → s.ownsWorkflow row.userId row.workflowId

instance (s : ScheduleStore) : Decidable s.Pointed :=
  decidable_of_iff (∀ e ∈ s.schedules.entries, s.ownsWorkflow e.2.userId e.2.workflowId)
    ⟨fun h id row hget => h (id, row) (Dict.mem_entries_iff.2 hget),
      fun h e he => h e.1 e.2 (Dict.mem_entries_iff.1 he)⟩

/-! ## The workflows of schedules -/

variable {s : ScheduleStore} {scheduleId userId workflowId newId : Text} {now : ℤ} {row : BrowserSchedule}

theorem ownsWorkflow_iff :
    s.ownsWorkflow userId workflowId ↔
      ∃ r, BrowserWorkflows.row s.workflows workflowId = some r ∧ r.userId = userId := by
  rw [ScheduleStore.ownsWorkflow, Option.isSome_iff_exists]
  constructor
  · rintro ⟨r, hr⟩
    obtain ⟨hrow, -, huser⟩ := BrowserWorkflows.getByIdAndUserId_some hr
    exact ⟨r, hrow, huser⟩
  · rintro ⟨r, hrow, huser⟩
    refine ⟨r, ?_⟩
    rw [BrowserWorkflows.getByIdAndUserId, Table.head?_select BrowserWorkflow.id s.workflows.ok
      fun r hr => by simpa using (Bool.and_eq_true_iff.1 hr).1, Option.filter_eq_some_iff]
    exact ⟨hrow, by simp [BrowserWorkflow.ownedBy, BrowserWorkflows.row_id hrow, huser]⟩

theorem ownsWorkflow_deleteWorkflow {workflowId' userId' : Text} (h : s.ownsWorkflow userId' workflowId')
    (hother : ¬ (workflowId' = workflowId ∧ userId' = userId)) :
    (s.deleteWorkflow workflowId userId).1.ownsWorkflow userId' workflowId' := by
  obtain ⟨r, hrow, rfl⟩ := ownsWorkflow_iff.1 h
  refine ownsWorkflow_iff.2 ⟨r, ?_, rfl⟩
  have hfind := Table.find_delete BrowserWorkflow.id WorkflowConstraints.sublist (T := s.workflows)
    (p := (·.ownedBy workflowId userId)) s.workflows.ok workflowId'
  refine hfind.trans ?_
  have hid := BrowserWorkflows.row_id hrow
  rw [Option.filter_eq_some_iff]
  refine ⟨hrow, ?_⟩
  rw [Bool.not_eq_true', BrowserWorkflow.ownedBy, Bool.and_eq_false_iff, decide_eq_false_iff_not,
    decide_eq_false_iff_not, hid]
  exact not_and_or.1 hother

/-- **A deletion of a workflow leaves no schedule that points at it.** -/
theorem pointed_deleteWorkflow (h : s.Pointed) : (s.deleteWorkflow workflowId userId).1.Pointed := by
  intro id row hget
  obtain ⟨hget, hkept⟩ := Dict.get_filter.1 hget
  refine ownsWorkflow_deleteWorkflow (h id row hget) ?_
  rintro ⟨hworkflow, huser⟩
  simp [hworkflow, huser] at hkept

theorem pointed_setRow (h : s.Pointed) (hrow : s.ownsWorkflow row.userId row.workflowId) :
    (s.setRow scheduleId row).Pointed := by
  intro id row' hget
  rw [get_setRow] at hget
  split_ifs at hget
  · rw [← Option.some.inj hget]
    exact hrow
  · exact h id row' hget

theorem pointed_delete (h : s.Pointed) : (s.delete scheduleId userId).1.Pointed := by
  rcases delete_cases s scheduleId userId with ⟨hsame, -⟩ | ⟨row, -, -, hdeleted⟩
  · rw [hsame]
    exact h
  · rw [hdeleted]
    intro id row' hget
    rw [Dict.get_erase] at hget
    split_ifs at hget
    exact h id row' hget

/-- **A statement**, of a request whose workflow is there. -/
theorem pointed_write (h : s.Pointed) {statement : ScheduleWrite}
    (hthere : ∀ workflowId ∈ statement.pointsAt s userId, s.ownsWorkflow userId workflowId) :
    (s.write userId newId now statement).1.Pointed := by
  cases statement with
  | insert form =>
    dsimp only [ScheduleStore.write, ScheduleStore.insert]
    split_ifs
    · exact h
    · exact pointed_setRow h (hthere _ rfl)
  | update scheduleId form =>
    show (s.update scheduleId userId form now).1.Pointed
    rcases updateRow_cases s scheduleId userId (fun _ => true) (·.edited form now) with
      ⟨hsame, -⟩ | ⟨row, hget, huser, -, hupdated⟩
    · rw [ScheduleStore.update, hsame]
      exact h
    · rw [ScheduleStore.update, hupdated]
      refine pointed_setRow h ?_
      have hfound := getByIdAndUserId_eq_some.2 ⟨hget, huser⟩
      have howns := hthere form.workflowId (Option.map_eq_some_iff.2 ⟨row, hfound, rfl⟩)
      rw [← huser] at howns
      exact howns
  | markRun scheduleId form =>
    show (s.markRun scheduleId userId form now).1.Pointed
    rcases updateRow_cases s scheduleId userId (·.markable form.lastRunAt) (·.marked form now) with
      ⟨hsame, -⟩ | ⟨row, hget, -, -, hupdated⟩
    · rw [ScheduleStore.markRun, hsame]
      exact h
    · rw [ScheduleStore.markRun, hupdated]
      exact pointed_setRow h (h scheduleId row hget)
  | delete scheduleId => exact pointed_delete h

/-! ## The runs that are recorded -/

/-- A run that a step has recorded: the schedule, and when the run was due. -/
def ScheduleOutput.recordedRun : ScheduleOutput → Option (Text × ℤ)
  | .wrote (.markRun scheduleId form) (.schedule _ _) => some (scheduleId, form.lastRunAt)
  | .wrote _ _ | .waiting | .replied _ | .workflowDeleted _ => none

/-- The runs of a schedule that have been recorded. -/
def recordedRuns (scheduleId : Text) (tr : List (ScheduleStep × ScheduleOutput)) : List ℤ :=
  ((tr.filterMap fun e => e.2.recordedRun).filter (·.1 = scheduleId)).map Prod.snd

/-- What holds of the runs recorded so far. -/
structure RunsRecorded (tr : List (ScheduleStep × ScheduleOutput)) (w : ScheduleWorld) : Prop where
  issued : ∀ id row, w.store.schedules.get id = some row → id ∈ w.issued
  recorded : ∀ id t, t ∈ recordedRuns id tr → id ∈ w.issued ∧
    ∀ row, w.store.schedules.get id = some row → ∃ last, row.lastRunAt = some last ∧ t ≤ last
  increasing : ∀ id, (recordedRuns id tr).Pairwise (· < ·)

variable {tr : List (ScheduleStep × ScheduleOutput)} {w w' : ScheduleWorld} {i : ScheduleStep} {o : ScheduleOutput}

theorem recordedRuns_append (id : Text) :
    recordedRuns id (tr ++ [(i, o)]) =
      recordedRuns id tr ++ (o.recordedRun.toList.filter (·.1 = id)).map Prod.snd := by
  cases h : o.recordedRun <;> simp [recordedRuns, h]

/-- A schedule after a step: it is new, or it is one from before and its last run is not earlier. -/
def RowsLater (w w' : ScheduleWorld) : Prop :=
  ∀ id row', w'.store.schedules.get id = some row' → (id ∉ w.issued ∧ id ∈ w'.issued) ∨
    ∃ row, w.store.schedules.get id = some row ∧ ∀ last, row.lastRunAt = some last →
      ∃ last', row'.lastRunAt = some last' ∧ last ≤ last'

theorem RowsLater.of_rows (h : ∀ id row', w'.store.schedules.get id = some row' →
    w.store.schedules.get id = some row') : RowsLater w w' :=
  fun id row' hget => .inr ⟨row', h id row' hget, fun last hlast => ⟨last, hlast, le_rfl⟩⟩

theorem RunsRecorded.of_none (h : RunsRecorded tr w) (hsub : w.issued ⊆ w'.issued) (hrows : RowsLater w w')
    (hnone : o.recordedRun = none) : RunsRecorded (tr ++ [(i, o)]) w' := by
  have hruns : ∀ id, recordedRuns id (tr ++ [(i, o)]) = recordedRuns id tr := by
    intro id
    rw [recordedRuns_append, hnone]
    simp
  refine ⟨fun id row' hget => ?_, fun id t ht => ?_, fun id => (hruns id).symm ▸ h.increasing id⟩
  · rcases hrows id row' hget with ⟨-, hnew⟩ | ⟨row, hget, -⟩
    · exact hnew
    · exact hsub (h.issued id row hget)
  · rw [hruns] at ht
    obtain ⟨hissued, hrow⟩ := h.recorded id t ht
    refine ⟨hsub hissued, fun row' hget => ?_⟩
    rcases hrows id row' hget with ⟨hnew, -⟩ | ⟨row, hget, hlater⟩
    · exact absurd hissued hnew
    · obtain ⟨last, hlast, hle⟩ := hrow row hget
      obtain ⟨last', hlast', hle'⟩ := hlater last hlast
      exact ⟨last', hlast', hle.trans hle'⟩

/-- **A run is recorded** only if it is later than those that have been. -/
theorem RunsRecorded.of_markRun (h : RunsRecorded tr w) (hsub : w.issued ⊆ w'.issued) {form : ScheduleRunForm}
    {row' : BrowserSchedule} (hget : w.store.schedules.get scheduleId = some row)
    (hmarkable : row.markable form.lastRunAt) (hw' : w'.store = w.store.setRow scheduleId (row.marked form now)) :
    RunsRecorded (tr ++ [(i, .wrote (.markRun scheduleId form) (.schedule scheduleId row'))]) w' := by
  have hruns : ∀ id, recordedRuns id (tr ++ [(i, .wrote (.markRun scheduleId form) (.schedule scheduleId row'))]) =
      recordedRuns id tr ++ if scheduleId = id then [form.lastRunAt] else [] := by
    intro id
    rw [recordedRuns_append]
    split_ifs with hid <;> simp [ScheduleOutput.recordedRun, hid]
  have hget' : ∀ id, w'.store.schedules.get id =
      if id = scheduleId then some (row.marked form now) else w.store.schedules.get id := by
    intro id
    rw [hw']
    exact get_setRow
  have hearlier : ∀ t ∈ recordedRuns scheduleId tr, t < form.lastRunAt := by
    intro t ht
    obtain ⟨last, hlast, hle⟩ := (h.recorded scheduleId t ht).2 row hget
    rw [BrowserSchedule.markable, hlast, Bool.and_eq_true, Option.all_some, decide_eq_true_eq] at hmarkable
    exact hle.trans_lt hmarkable.2
  refine ⟨fun id row'' hget'' => ?_, fun id t ht => ?_, fun id => ?_⟩
  · rw [hget'] at hget''
    split_ifs at hget'' with hid
    · rw [hid]
      exact hsub (h.issued scheduleId row hget)
    · exact hsub (h.issued id row'' hget'')
  · rw [hruns, List.mem_append] at ht
    by_cases hid : id = scheduleId
    · subst hid
      refine ⟨hsub (h.issued id row hget), fun row'' hget'' => ⟨form.lastRunAt, ?_, ?_⟩⟩
      · rw [hget', if_pos rfl] at hget''
        rw [← Option.some.inj hget'']
        rfl
      · rcases ht with ht | ht
        · exact (hearlier t ht).le
        · rw [if_pos rfl] at ht
          exact (List.mem_singleton.1 ht).le
    · rw [if_neg (Ne.symm hid)] at ht
      obtain ⟨hissued, hrow⟩ := h.recorded id t (ht.resolve_right List.not_mem_nil)
      refine ⟨hsub hissued, fun row'' hget'' => hrow row'' ?_⟩
      rw [hget', if_neg hid] at hget''
      exact hget''
  · rw [hruns, List.pairwise_append]
    split_ifs with hid
    · subst hid
      refine ⟨h.increasing _, List.pairwise_singleton _ _, fun t ht t' ht' => ?_⟩
      rw [List.mem_singleton.1 ht']
      exact hearlier t ht
    · exact ⟨h.increasing _, .nil, by simp⟩

theorem rowsLater_setRow (hw' : w'.store = w.store.setRow scheduleId row)
    (hnew : (scheduleId ∉ w.issued ∧ scheduleId ∈ w'.issued) ∨ ∃ old, w.store.schedules.get scheduleId = some old ∧
      old.lastRunAt = row.lastRunAt) : RowsLater w w' := by
  intro id row' hget
  rw [hw', get_setRow] at hget
  split_ifs at hget with hid
  · obtain rfl := Option.some.inj hget
    subst hid
    rcases hnew with hnew | ⟨old, hold, hlast⟩
    · exact .inl hnew
    · exact .inr ⟨old, hold, fun last hl => ⟨last, hlast ▸ hl, le_rfl⟩⟩
  · exact .inr ⟨row', hget, fun last hlast => ⟨last, hlast, le_rfl⟩⟩

/-- **One step.** -/
theorem RunsRecorded.step (h : RunsRecorded tr w) (hs : scheduleMachine.step w i = some (w', o)) :
    RunsRecorded (tr ++ [(i, o)]) w' := by
  cases i with
  | read call userId requestDeviceId request =>
    obtain ⟨-, hs⟩ := Option.ite_none_left_eq_some.1 hs
    split at hs
    · cases hs
      exact h.of_none (fun _ => id) (.of_rows fun _ _ => id) rfl
    · cases hs
      exact h.of_none (fun _ => id) (.of_rows fun _ _ => id) rfl
  | write call newId now =>
    obtain ⟨hnew, hs⟩ := Option.ite_none_left_eq_some.1 hs
    obtain ⟨⟨userId, statement⟩, -, hs⟩ := Option.map_eq_some_iff.1 hs
    obtain ⟨rfl, rfl⟩ := Prod.mk.inj hs
    have hsub : w.issued ⊆ newId :: w.issued := List.subset_cons_self _ _
    cases statement with
    | insert form =>
      dsimp only [ScheduleStore.write, ScheduleStore.insert]
      split_ifs
      · exact h.of_none hsub (.of_rows fun _ _ => id) rfl
      · exact h.of_none hsub (rowsLater_setRow rfl (.inl ⟨hnew, List.mem_cons_self⟩)) rfl
    | update scheduleId form =>
      dsimp only [ScheduleStore.write, ScheduleStore.update]
      rcases updateRow_cases w.store scheduleId userId (fun _ => true) (·.edited form now) with
        ⟨hsame, -⟩ | ⟨row, hget, -, -, hupdated⟩
      · rw [hsame]
        exact h.of_none hsub (.of_rows fun _ _ => id) rfl
      · rw [hupdated]
        exact h.of_none hsub (rowsLater_setRow rfl (.inr ⟨row, hget, rfl⟩)) rfl
    | markRun scheduleId form =>
      dsimp only [ScheduleStore.write, ScheduleStore.markRun]
      rcases updateRow_cases w.store scheduleId userId (·.markable form.lastRunAt) (·.marked form now) with
        ⟨hsame, -⟩ | ⟨row, hget, -, hmarkable, hupdated⟩
      · rw [hsame]
        exact h.of_none hsub (.of_rows fun _ _ => id) rfl
      · rw [hupdated]
        exact h.of_markRun hsub hget hmarkable rfl
    | delete scheduleId =>
      dsimp only [ScheduleStore.write]
      refine h.of_none hsub (.of_rows fun id row' hget => ?_) (by cases (w.store.delete scheduleId userId).2 <;> rfl)
      rcases delete_cases w.store scheduleId userId with ⟨hsame, -⟩ | ⟨row, -, -, hdeleted⟩
      · rw [hsame] at hget
        exact hget
      · rw [hdeleted, Dict.get_erase] at hget
        split_ifs at hget
        exact hget
  | deleteWorkflow workflowId userId =>
    cases hs
    exact h.of_none (fun _ => id) (.of_rows fun id row' hget => (Dict.get_filter.1 hget).1) rfl

/-- A report of a run that is later than the last one, of a schedule that is active, is recorded. -/
theorem markRun_recorded {form : ScheduleRunForm} (hget : s.schedules.get scheduleId = some row)
    (huser : row.userId = userId) (hactive : row.isActive) (hlater : ∀ last, row.lastRunAt = some last →
      last < form.lastRunAt) :
    (s.write userId newId now (.markRun scheduleId form)).2 = .schedule scheduleId (row.marked form now) := by
  have hmarkable : row.markable form.lastRunAt := by
    rw [BrowserSchedule.markable, hactive, Bool.true_and]
    cases hlast : row.lastRunAt with
    | none => rfl
    | some last => exact decide_eq_true (hlater last hlast)
  dsimp only [ScheduleStore.write, ScheduleStore.markRun]
  rcases updateRow_cases s scheduleId userId (·.markable form.lastRunAt) (·.marked form now) with
    ⟨-, hnone⟩ | ⟨row', hget', -, -, hupdated⟩
  · exact absurd hmarkable (hnone row hget huser)
  · rw [hget] at hget'
    rw [hupdated, Option.some.inj hget']
    rfl

/-- **One step**, for the workflows. -/
theorem pointed_step (h : w.store.Pointed) (hthere : WorkflowThere w i)
    (hs : scheduleMachine.step w i = some (w', o)) : w'.store.Pointed := by
  cases i with
  | read call userId requestDeviceId request =>
    obtain ⟨-, hs⟩ := Option.ite_none_left_eq_some.1 hs
    split at hs
    · cases hs
      exact h
    · cases hs
      exact h
  | write call newId now =>
    obtain ⟨-, hs⟩ := Option.ite_none_left_eq_some.1 hs
    obtain ⟨c, hc, hs⟩ := Option.map_eq_some_iff.1 hs
    obtain rfl := congrArg Prod.fst hs
    exact pointed_write h (hthere c hc)
  | deleteWorkflow workflowId userId =>
    cases hs
    exact pointed_deleteWorkflow h

/-- **In a run in which no workflow goes between the check and the write, every schedule points at a workflow of its
    user; in every run the recorded runs of a schedule are strictly later and later**, and a report of a later run of
    an active schedule is recorded. -/
theorem schedulesPointed_and_runsOnce (hpointed : w.store.Pointed)
    (hissued : ∀ id row, w.store.schedules.get id = some row → id ∈ w.issued) :
    (∀ tr w', scheduleMachine.RunIn WorkflowThere w tr w' → w'.store.Pointed) ∧
    (∀ tr w', scheduleMachine.Run w tr w' → ∀ id, (recordedRuns id tr).Pairwise (· < ·)) ∧
    ∀ (s : ScheduleStore) userId id form newId now row, s.schedules.get id = some row → row.userId = userId →
      row.isActive → (∀ last, row.lastRunAt = some last → last < form.lastRunAt) →
      (s.write userId newId now (.markRun id form)).2 = .schedule id (row.marked form now) := by
  refine ⟨fun tr w' hrun => ?_, fun tr w' hrun => ?_, fun s userId id form newId now row => markRun_recorded⟩
  · exact hrun.invariant (I := fun w => w.store.Pointed) (fun w i t o hthere h hs => pointed_step h hthere hs) hpointed
  · have hstart : RunsRecorded [] w := ⟨hissued, by simp [recordedRuns], by simp [recordedRuns]⟩
    exact (hrun.traceInvariant (fun tr w i t o _ h hs => h.step hs) hstart).increasing

def Sample.scheduleWorld : ScheduleWorld := ⟨Sample.scheduleStore, .empty, [.lit "a", .lit "b"]⟩

theorem Sample.scheduleWorld_issued (id : Text) (row : BrowserSchedule)
    (hget : scheduleWorld.store.schedules.get id = some row) : id ∈ scheduleWorld.issued := by
  have hall : ∀ e ∈ scheduleWorld.store.schedules.entries, e.1 ∈ scheduleWorld.issued := by decide
  exact hall (id, row) (Dict.mem_entries_iff.2 hget)

/-- A run is reported twice, and the next one once; then the workflow is deleted. -/
theorem schedulesPointed_and_runsOnce_sample : ∃ tr w',
    scheduleMachine.RunIn WorkflowThere Sample.scheduleWorld tr w' ∧ w'.store.Pointed ∧
      w'.store.schedules.entries = [] ∧ recordedRuns (.lit "a") tr = [5, 7] ∧
      (recordedRuns (.lit "a") tr).Pairwise (· < ·) := by
  obtain ⟨⟨tr, w'⟩, hm, hempty, hruns⟩ : ∃ r ∈ scheduleMachine.exec WorkflowThere Sample.scheduleWorld
      [.read 0 (.lit "u") (some (.lit "A")) (.create (Sample.scheduleForm "A")), .write 0 (.lit "c") 3,
        .read 1 (.lit "u") (some (.lit "A")) (.completeRun (.lit "a") ⟨5, 6⟩),
        .read 2 (.lit "u") (some (.lit "A")) (.completeRun (.lit "a") ⟨5, 6⟩),
        .write 1 (.lit "d") 4, .write 2 (.lit "e") 5,
        .read 3 (.lit "u") none (.completeRun (.lit "a") ⟨7, 8⟩), .write 3 (.lit "f") 6,
        .deleteWorkflow (.lit "w") (.lit "u")],
      r.2.store.schedules.entries = [] ∧ recordedRuns (.lit "a") r.1 = [5, 7] := by
    decide +kernel
  have hrun := Machine.runIn_of_exec hm
  obtain ⟨hpointed, hincreasing, -⟩ := schedulesPointed_and_runsOnce (w := Sample.scheduleWorld) (by decide)
    Sample.scheduleWorld_issued
  exact ⟨tr, w', hrun, hpointed tr w' hrun, hempty, hruns, hincreasing tr w' hrun.run _⟩

/-- **A workflow is deleted between the check of a new schedule and its insertion.** -/
theorem not_schedulesPointed : ¬ ∀ w, w.store.Pointed → w.calls = .empty → ∀ tr w',
    scheduleMachine.Run w tr w' → w'.store.Pointed := by
  intro h
  obtain ⟨⟨tr, w'⟩, hm, hdangling⟩ : ∃ r ∈ scheduleMachine.exec (fun _ _ => True) Sample.scheduleWorld
      [.read 0 (.lit "u") (some (.lit "A")) (.create (Sample.scheduleForm "A")), .deleteWorkflow (.lit "w") (.lit "u"),
        .write 0 (.lit "c") 3], ¬ r.2.store.Pointed := by
    decide +kernel
  exact hdangling (h Sample.scheduleWorld (by decide) rfl tr w' (Machine.runIn_of_exec hm))

end TideBot
