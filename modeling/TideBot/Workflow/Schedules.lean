/-
  The schedules of the browser extension: the table `browser_schedule` (`models/browser_extension.py`,
  `BrowserScheduleTable`) and the handlers of `/schedules` (`routers/browser_extension.py`).

  A schedule belongs to a user and is assigned to one of their devices.  A request that comes with the
  access token of a device has `browser_extension_device_id` set; each handler compares it with something
  else, or does not compare it.  A handler reads (`read`) and then executes one statement (`write`).

  The permission of the user and the validation of the forms come before.
-/
import TideBot.Devices.Store
import TideBot.Lib.Dict
import TideBot.Lib.Machine
import TideBot.Workflow.Store

namespace TideBot

open Lib

/-! ## The rows -/

/-- A row of `browser_schedule` (`BrowserSchedule`), without its `id`. -/
structure BrowserSchedule where
  userId : Text
  workflowId : Text
  deviceId : Text
  name : Text
  rrule : Text
  timezone : Text
  isActive : Bool
  lastRunAt : Option ℤ
  nextRunAt : Option ℤ
  catchUpPending : Bool
  createdAt : ℤ
  updatedAt : ℤ
deriving DecidableEq

structure ScheduleForm where
  workflowId : Text
  deviceId : Text
  name : Text
  rrule : Text
  timezone : Text
  isActive : Bool
  nextRunAt : Option ℤ
deriving DecidableEq

/-- `ScheduleRunForm`; no handler uses its outcome. -/
structure ScheduleRunForm where
  lastRunAt : ℤ
  nextRunAt : ℤ
deriving DecidableEq

namespace BrowserSchedule

variable (row : BrowserSchedule)

/-- The `SET` of `update`. -/
def edited (form : ScheduleForm) (now : ℤ) : BrowserSchedule :=
  { row with
    workflowId := form.workflowId
    deviceId := form.deviceId
    name := form.name.strip
    rrule := form.rrule
    timezone := form.timezone
    isActive := form.isActive
    nextRunAt := form.nextRunAt
    catchUpPending := false
    updatedAt := now }

/-- The `WHERE` of `mark_run`, of the columns that are not keys. -/
def markable (lastRunAt : ℤ) : Bool := row.isActive && row.lastRunAt.all (· < lastRunAt)

/-- The `SET` of `mark_run`. -/
def marked (form : ScheduleRunForm) (now : ℤ) : BrowserSchedule :=
  { row with lastRunAt := form.lastRunAt, nextRunAt := form.nextRunAt, catchUpPending := false, updatedAt := now }

end BrowserSchedule

/-- The row that `insert` adds. -/
def ScheduleForm.row (form : ScheduleForm) (userId : Text) (now : ℤ) : BrowserSchedule where
  userId := userId
  workflowId := form.workflowId
  deviceId := form.deviceId
  name := form.name.strip
  rrule := form.rrule
  timezone := form.timezone
  isActive := form.isActive
  lastRunAt := none
  nextRunAt := form.nextRunAt
  catchUpPending := false
  createdAt := now
  updatedAt := now

/-! ## The statements -/

/-- The tables. -/
structure ScheduleStore where
  workflows : BrowserWorkflows
  devices : PairedDevices
  schedules : Dict Text BrowserSchedule

namespace ScheduleStore

variable (s : ScheduleStore)

def ownsWorkflow (userId workflowId : Text) : Bool :=
  (BrowserWorkflows.getByIdAndUserId s.workflows workflowId userId).isSome

def ownsDevice (userId deviceId : Text) : Bool :=
  (s.devices.select fun r => r.id = deviceId && r.userId = userId && r.revokedAt.isNone) ≠ []

/-- `get_by_id_and_user_id` -/
def getByIdAndUserId (scheduleId userId : Text) : Option BrowserSchedule :=
  (s.schedules.get scheduleId).filter (·.userId = userId)

/-- `list_by_user_id` -/
def listByUserId (userId : Text) : List (Text × BrowserSchedule) :=
  (s.schedules.entries.filter (·.2.userId = userId)).mergeSort (fun a b => b.2.createdAt ≤ a.2.createdAt)

def setRow (scheduleId : Text) (row : BrowserSchedule) : ScheduleStore :=
  { s with schedules := s.schedules.set scheduleId row }

/-- `insert`, the statement; `none`: `IntegrityError`. -/
def insert (scheduleId userId : Text) (form : ScheduleForm) (now : ℤ) : Option (ScheduleStore × BrowserSchedule) :=
  if (s.schedules.get scheduleId).isSome then none
  else some (s.setRow scheduleId (form.row userId now), form.row userId now)

/-- An `UPDATE` of a row of the user, if there is one that meets the rest of the `WHERE`. -/
def updateRow (scheduleId userId : Text) (p : BrowserSchedule → Bool) (f : BrowserSchedule → BrowserSchedule) :
    ScheduleStore × Option BrowserSchedule :=
  match (s.getByIdAndUserId scheduleId userId).filter p with
  | none => (s, none)
  | some row => (s.setRow scheduleId (f row), some (f row))

/-- `update`, the statement. -/
def update (scheduleId userId : Text) (form : ScheduleForm) (now : ℤ) : ScheduleStore × Option BrowserSchedule :=
  s.updateRow scheduleId userId (fun _ => true) (·.edited form now)

/-- `mark_run` -/
def markRun (scheduleId userId : Text) (form : ScheduleRunForm) (now : ℤ) : ScheduleStore × Option BrowserSchedule :=
  s.updateRow scheduleId userId (·.markable form.lastRunAt) (·.marked form now)

/-- `delete` -/
def delete (scheduleId userId : Text) : ScheduleStore × Bool :=
  match s.getByIdAndUserId scheduleId userId with
  | none => (s, false)
  | some _ => ({ s with schedules := s.schedules.erase scheduleId }, true)

end ScheduleStore

/-! ## The handlers -/

inductive ScheduleRequest where
  | list
  | create (form : ScheduleForm)
  | update (scheduleId : Text) (form : ScheduleForm)
  | completeRun (scheduleId : Text) (form : ScheduleRunForm)
  | delete (scheduleId : Text)
deriving DecidableEq

/-- The statement that a handler is about to execute. -/
inductive ScheduleWrite where
  | insert (form : ScheduleForm)
  | update (scheduleId : Text) (form : ScheduleForm)
  | markRun (scheduleId : Text) (form : ScheduleRunForm)
  | delete (scheduleId : Text)
deriving DecidableEq

inductive ScheduleReply where
  | schedules (rows : List (Text × BrowserSchedule))
  | schedule (scheduleId : Text) (row : BrowserSchedule)
  | deleted
  | http (status : ℕ) (detail : Text)
  | serverError
deriving DecidableEq

namespace ScheduleReply

def deviceMismatch : ScheduleReply := .http 403 (.lit "schedule_device_mismatch")

def workflowOrDeviceNotFound : ScheduleReply := .http 404 (.lit "workflow_or_device_not_found")

def notFound : ScheduleReply := .http 404 (.lit "schedule_not_found")

def runAlreadyRecorded : ScheduleReply := .http 409 (.lit "schedule_run_already_recorded")

/-- The schedules that are returned. -/
def rows : ScheduleReply → List (Text × BrowserSchedule)
  | .schedules rows => rows
  | .schedule scheduleId row => [(scheduleId, row)]
  | .deleted | .http .. | .serverError => []

end ScheduleReply

/-- `hmac.compare_digest`, of strings; `none`: `TypeError`, for one that is not ASCII. -/
def compareDigest (a b : Text) : Option Bool :=
  if a.all (·.val < 0x80) && b.all (·.val < 0x80) then some (a = b) else none

/-- The device of a request, if it is truthy. -/
def truthyDevice (requestDeviceId : Option Text) : Option Text := requestDeviceId.filter (· ≠ [])

/-- `request_device_id and not hmac.compare_digest(request_device_id, device_id)` -/
def deviceMismatch (requestDeviceId : Option Text) (deviceId : Text) : Option Bool :=
  match truthyDevice requestDeviceId with
  | none => some false
  | some requestDeviceId => (compareDigest requestDeviceId deviceId).map (!·)

/-- The schedules that `list_schedules` keeps. -/
def filterDevice (deviceId : Text) : List (Text × BrowserSchedule) → Option (List (Text × BrowserSchedule))
  | [] => some []
  | item :: items => do
    let keep ← compareDigest item.2.deviceId deviceId
    let items ← filterDevice deviceId items
    return if keep then item :: items else items

namespace ScheduleStore

variable (s : ScheduleStore) (userId : Text) (requestDeviceId : Option Text)

/-- `list_schedules` -/
def listSchedules : ScheduleReply :=
  match truthyDevice requestDeviceId with
  | none => .schedules (s.listByUserId userId)
  | some deviceId => ((filterDevice deviceId (s.listByUserId userId)).map .schedules).getD .serverError

/-- The comparison of `create_schedule`, `update_schedule` and `complete_schedule_run`, and what comes after. -/
def compareDevice (deviceId : Text) (next : Except ScheduleReply ScheduleWrite) : Except ScheduleReply ScheduleWrite :=
  match deviceMismatch requestDeviceId deviceId with
  | none => .error .serverError
  | some true => .error .deviceMismatch
  | some false => next

/-- The reads of `insert` and `update`. -/
def readOwned (form : ScheduleForm) (write : ScheduleWrite) : Except ScheduleReply ScheduleWrite :=
  if s.ownsWorkflow userId form.workflowId && s.ownsDevice userId form.deviceId then .ok write
  else .error .workflowOrDeviceNotFound

/-- A handler up to its statement: the reply, or the statement. -/
def read : ScheduleRequest → Except ScheduleReply ScheduleWrite
  | .list => .error (s.listSchedules userId requestDeviceId)
  | .create form => compareDevice requestDeviceId form.deviceId (s.readOwned userId form (.insert form))
  | .update scheduleId form =>
    compareDevice requestDeviceId form.deviceId (s.readOwned userId form (.update scheduleId form))
  | .completeRun scheduleId form =>
    match s.getByIdAndUserId scheduleId userId with
    | none => .error .notFound
    | some current => compareDevice requestDeviceId current.deviceId (.ok (.markRun scheduleId form))
  | .delete scheduleId => .ok (.delete scheduleId)

/-- The statement and what comes after it; `newId` is what `uuid4` gives. -/
def write (newId : Text) (now : ℤ) : ScheduleWrite → ScheduleStore × ScheduleReply
  | .insert form =>
    match s.insert newId userId form now with
    | none => (s, .serverError)
    | some (s', row) => (s', .schedule newId row)
  | .update scheduleId form =>
    let (s', row) := s.update scheduleId userId form now
    (s', (row.map (.schedule scheduleId)).getD .notFound)
  | .markRun scheduleId form =>
    let (s', row) := s.markRun scheduleId userId form now
    (s', (row.map (.schedule scheduleId)).getD .runAlreadyRecorded)
  | .delete scheduleId =>
    let (s', found) := s.delete scheduleId userId
    (s', if found then .deleted else .notFound)

/-- A whole request. -/
def handle (newId : Text) (now : ℤ) (request : ScheduleRequest) : ScheduleStore × ScheduleReply :=
  match s.read userId requestDeviceId request with
  | .error reply => (s, reply)
  | .ok statement => s.write userId newId now statement

end ScheduleStore

/-! ## What a statement does -/

variable {s : ScheduleStore} {scheduleId userId deviceId newId : Text} {now : ℤ} {row : BrowserSchedule}

theorem getByIdAndUserId_eq_some :
    s.getByIdAndUserId scheduleId userId = some row ↔ s.schedules.get scheduleId = some row ∧ row.userId = userId := by
  rw [ScheduleStore.getByIdAndUserId, Option.filter_eq_some_iff, decide_eq_true_eq]

theorem get_setRow {id : Text} :
    (s.setRow scheduleId row).schedules.get id = if id = scheduleId then some row else s.schedules.get id :=
  Dict.get_set

/-- **An `UPDATE` of a schedule**: nothing matches, or it replaces the row of the user. -/
theorem updateRow_cases (s : ScheduleStore) (scheduleId userId : Text) (p : BrowserSchedule → Bool)
    (f : BrowserSchedule → BrowserSchedule) :
    (s.updateRow scheduleId userId p f = (s, none) ∧
      ∀ row, s.schedules.get scheduleId = some row → row.userId = userId → ¬ p row) ∨
    ∃ row, s.schedules.get scheduleId = some row ∧ row.userId = userId ∧ p row ∧
      s.updateRow scheduleId userId p f = (s.setRow scheduleId (f row), some (f row)) := by
  rw [ScheduleStore.updateRow]
  cases hrow : (s.getByIdAndUserId scheduleId userId).filter p with
  | none =>
    refine .inl ⟨rfl, fun row hget huser hp => ?_⟩
    have hsome := Option.filter_eq_some_iff.2 ⟨getByIdAndUserId_eq_some.2 ⟨hget, huser⟩, hp⟩
    rw [hrow] at hsome
    cases hsome
  | some row =>
    obtain ⟨hget, hp⟩ := Option.filter_eq_some_iff.1 hrow
    obtain ⟨hget, huser⟩ := getByIdAndUserId_eq_some.1 hget
    exact .inr ⟨row, hget, huser, hp, rfl⟩

/-- **A `DELETE` of a schedule.** -/
theorem delete_cases (s : ScheduleStore) (scheduleId userId : Text) :
    (s.delete scheduleId userId = (s, false) ∧ ∀ row, s.schedules.get scheduleId = some row → row.userId ≠ userId) ∨
    ∃ row, s.schedules.get scheduleId = some row ∧ row.userId = userId ∧
      s.delete scheduleId userId = ({ s with schedules := s.schedules.erase scheduleId }, true) := by
  rw [ScheduleStore.delete]
  cases hrow : s.getByIdAndUserId scheduleId userId with
  | none =>
    refine .inl ⟨rfl, fun row hget huser => ?_⟩
    have hsome := getByIdAndUserId_eq_some.2 ⟨hget, huser⟩
    rw [hrow] at hsome
    cases hsome
  | some row =>
    obtain ⟨hget, huser⟩ := getByIdAndUserId_eq_some.1 hrow
    exact .inr ⟨row, hget, huser, rfl⟩

/-! ## The comparison with the device -/

theorem compareDigest_eq_some {a b : Text} {equal : Bool} (h : compareDigest a b = some equal) : equal = (a = b) := by
  rw [compareDigest, Option.ite_none_right_eq_some] at h
  rw [← Option.some.inj h.2, decide_eq_true_eq]

theorem truthyDevice_some (hdevice : deviceId ≠ []) : truthyDevice (some deviceId) = some deviceId := by
  simp [truthyDevice, Option.filter, hdevice]

theorem deviceMismatch_eq_false {id : Text} (hdevice : deviceId ≠ [])
    (h : deviceMismatch (some deviceId) id = some false) : deviceId = id := by
  rw [deviceMismatch, truthyDevice_some hdevice] at h
  obtain ⟨equal, hequal, hnot⟩ := Option.map_eq_some_iff.1 h
  rw [← compareDigest_eq_some hequal]
  simpa using hnot

theorem mem_filterDevice {items kept : List (Text × BrowserSchedule)} (h : filterDevice deviceId items = some kept)
    {r : Text × BrowserSchedule} (hr : r ∈ kept) : r ∈ items ∧ r.2.deviceId = deviceId := by
  induction items generalizing kept with
  | nil =>
    cases h
    cases hr
  | cons item items ih =>
    obtain ⟨keep, hkeep, h⟩ := Option.bind_eq_some_iff.1 h
    obtain ⟨rest, hrest, h⟩ := Option.bind_eq_some_iff.1 h
    cases h
    have hih : r ∈ rest → r ∈ item :: items ∧ r.2.deviceId = deviceId := fun hr =>
      ⟨List.mem_cons_of_mem _ (ih hrest hr).1, (ih hrest hr).2⟩
    split_ifs at hr with hk
    · rcases List.mem_cons.1 hr with rfl | hr
      · exact ⟨List.mem_cons_self, (compareDigest_eq_some hkeep).mp hk⟩
      · exact hih hr
    · exact hih hr

theorem listSchedules_device (hdevice : deviceId ≠ []) {r : Text × BrowserSchedule}
    (hr : r ∈ (s.listSchedules userId (some deviceId)).rows) :
    s.schedules.get r.1 = some r.2 ∧ r.2.deviceId = deviceId := by
  rw [ScheduleStore.listSchedules, truthyDevice_some hdevice] at hr
  dsimp only at hr
  cases hkept : filterDevice deviceId (s.listByUserId userId) with
  | none =>
    rw [hkept] at hr
    cases hr
  | some kept =>
    rw [hkept] at hr
    obtain ⟨hmem, heq⟩ := mem_filterDevice hkept hr
    rw [ScheduleStore.listByUserId, List.mem_mergeSort, List.mem_filter] at hmem
    exact ⟨Dict.mem_entries_iff.1 hmem.1, heq⟩

theorem compareDevice_ok {requestDeviceId : Option Text} {id : Text} {next : Except ScheduleReply ScheduleWrite}
    {w : ScheduleWrite} (h : ScheduleStore.compareDevice requestDeviceId id next = .ok w) :
    deviceMismatch requestDeviceId id = some false ∧ next = .ok w := by
  rw [ScheduleStore.compareDevice] at h
  split at h
  · cases h
  · cases h
  · exact ⟨by assumption, h⟩

/-! ## The schedules of other devices -/

/-- A request leaves the schedules that the user has on other devices as they are, and returns none of them. -/
def OthersKept (userId deviceId : Text) (s : ScheduleStore) (r : ScheduleStore × ScheduleReply) : Prop :=
  ∀ id row, s.schedules.get id = some row → row.userId = userId → row.deviceId ≠ deviceId →
    r.1.schedules.get id = some row ∧ ∀ item ∈ r.2.rows, item.1 ≠ id

/-- A schedule of the user is assigned to a device, if there is one with this id. -/
def AssignedTo (s : ScheduleStore) (userId deviceId scheduleId : Text) : Prop :=
  ∀ row ∈ s.getByIdAndUserId scheduleId userId, row.deviceId = deviceId

instance (s : ScheduleStore) (userId deviceId scheduleId : Text) : Decidable (AssignedTo s userId deviceId scheduleId) :=
  inferInstanceAs (Decidable (∀ row ∈ s.getByIdAndUserId scheduleId userId, row.deviceId = deviceId))

/-- **The condition on a request** of a device: a schedule that it updates or deletes is one of that device. -/
def OwnSchedule (userId deviceId : Text) (s : ScheduleStore) : ScheduleRequest → Prop
  | .list | .create _ | .completeRun .. => True
  | .update scheduleId form =>
    (s.read userId (some deviceId) (.update scheduleId form)).isOk → AssignedTo s userId deviceId scheduleId
  | .delete scheduleId => AssignedTo s userId deviceId scheduleId

instance (userId deviceId : Text) (s : ScheduleStore) : (request : ScheduleRequest) →
    Decidable (OwnSchedule userId deviceId s request)
  | .list | .create _ | .completeRun .. => inferInstanceAs (Decidable True)
  | .update .. => inferInstanceAs (Decidable (_ → _))
  | .delete scheduleId => inferInstanceAs (Decidable (AssignedTo s userId deviceId scheduleId))

variable {reply : ScheduleReply} {request : ScheduleRequest}

theorem othersKept_of_rows (h : reply.rows = []) : OthersKept userId deviceId s (s, reply) := by
  intro id row hget _ _
  refine ⟨hget, ?_⟩
  rw [h]
  simp

theorem othersKept_setRow
    (hold : ∀ old, s.schedules.get scheduleId = some old → old.userId = userId → old.deviceId = deviceId) :
    OthersKept userId deviceId s (s.setRow scheduleId row, .schedule scheduleId row) := by
  intro id old hget huser hother
  have hne : id ≠ scheduleId := by
    rintro rfl
    exact hother (hold old hget huser)
  refine ⟨?_, ?_⟩
  · rw [get_setRow, if_neg hne]
    exact hget
  · intro item hitem
    rw [List.mem_singleton.1 hitem]
    exact hne.symm

theorem rows_of_read_error (hdevice : deviceId ≠ []) (h : s.read userId (some deviceId) request = .error reply) :
    OthersKept userId deviceId s (s, reply) := by
  have hcompare : ∀ {id next}, ScheduleStore.compareDevice (some deviceId) id next = .error reply →
      (∀ reply', next = .error reply' → reply'.rows = []) → reply.rows = [] := by
    intro id next hcmp hnext
    rw [ScheduleStore.compareDevice] at hcmp
    split at hcmp
    · cases hcmp
      rfl
    · cases hcmp
      rfl
    · exact hnext reply hcmp
  have howned : ∀ {form write} reply', s.readOwned userId form write = .error reply' → reply'.rows = [] := by
    intro form write reply' hread
    rw [ScheduleStore.readOwned] at hread
    split_ifs at hread
    cases hread
    rfl
  cases request with
  | list =>
    cases h
    intro id row hget _ hother
    refine ⟨hget, fun item hitem heq => hother ?_⟩
    obtain ⟨hitem, hown⟩ := listSchedules_device hdevice hitem
    rw [heq, hget] at hitem
    rw [Option.some.inj hitem]
    exact hown
  | create form => exact othersKept_of_rows (hcompare h howned)
  | update scheduleId form => exact othersKept_of_rows (hcompare h howned)
  | completeRun scheduleId form =>
    rw [ScheduleStore.read] at h
    split at h
    · cases h
      exact othersKept_of_rows rfl
    · exact othersKept_of_rows (hcompare h (by rintro _ ⟨⟩))
  | delete scheduleId => cases h

/-- A handler that goes on has compared the device with that of the form, or of the schedule. -/
theorem read_ok (hdevice : deviceId ≠ []) {statement : ScheduleWrite}
    (h : s.read userId (some deviceId) request = .ok statement) :
    (∃ form, request = .create form ∧ statement = .insert form ∧ form.deviceId = deviceId) ∨
    (∃ scheduleId form, request = .update scheduleId form ∧ statement = .update scheduleId form ∧
      form.deviceId = deviceId) ∨
    (∃ scheduleId form, request = .completeRun scheduleId form ∧ statement = .markRun scheduleId form ∧
      AssignedTo s userId deviceId scheduleId) ∨
    ∃ scheduleId, request = .delete scheduleId ∧ statement = .delete scheduleId := by
  have howned : ∀ {form write}, s.readOwned userId form write = .ok statement → write = statement := by
    intro form write hread
    rw [ScheduleStore.readOwned] at hread
    split_ifs at hread
    exact Except.ok.inj hread
  cases request with
  | list => cases h
  | create form =>
    obtain ⟨hsame, h⟩ := compareDevice_ok h
    exact .inl ⟨form, rfl, (howned h).symm, (deviceMismatch_eq_false hdevice hsame).symm⟩
  | update scheduleId form =>
    obtain ⟨hsame, h⟩ := compareDevice_ok h
    exact .inr (.inl ⟨scheduleId, form, rfl, (howned h).symm, (deviceMismatch_eq_false hdevice hsame).symm⟩)
  | completeRun scheduleId form =>
    rw [ScheduleStore.read] at h
    cases hrow : s.getByIdAndUserId scheduleId userId with
    | none =>
      rw [hrow] at h
      cases h
    | some current =>
      rw [hrow] at h
      obtain ⟨hsame, h⟩ := compareDevice_ok h
      refine .inr (.inr (.inl ⟨scheduleId, form, rfl, (Except.ok.inj h).symm, fun row hget => ?_⟩))
      rw [hrow] at hget
      rw [← Option.some.inj hget]
      exact (deviceMismatch_eq_false hdevice hsame).symm
  | delete scheduleId => exact .inr (.inr (.inr ⟨scheduleId, rfl, (Except.ok.inj h).symm⟩))

theorem othersKept_updateRow (hown : AssignedTo s userId deviceId scheduleId) (p : BrowserSchedule → Bool)
    (f : BrowserSchedule → BrowserSchedule) (hreply : reply.rows = []) :
    OthersKept userId deviceId s ((s.updateRow scheduleId userId p f).1,
      ((s.updateRow scheduleId userId p f).2.map (.schedule scheduleId)).getD reply) := by
  rcases updateRow_cases s scheduleId userId p f with ⟨hnone, -⟩ | ⟨row, hget, huser, -, hsome⟩
  · rw [hnone]
    exact othersKept_of_rows hreply
  · rw [hsome]
    exact othersKept_setRow fun old hold huser => hown old (getByIdAndUserId_eq_some.2 ⟨hold, huser⟩)

/-- An `UPDATE` that assigns a schedule to the device has found it there, or has found none. -/
theorem assignedTo_of_othersKept_update {form : ScheduleForm} (hform : form.deviceId = deviceId)
    (h : OthersKept userId deviceId s (s.write userId newId now (.update scheduleId form))) :
    AssignedTo s userId deviceId scheduleId := by
  intro row hrow
  by_contra hother
  obtain ⟨hget, huser⟩ := getByIdAndUserId_eq_some.1 hrow
  have hkept := (h scheduleId row hget huser hother).1
  rcases updateRow_cases s scheduleId userId (fun _ => true) (·.edited form now) with
    ⟨-, hnone⟩ | ⟨row', hget', -, -, hupdated⟩
  · exact hnone row hget huser rfl
  · have hnew : (s.write userId newId now (.update scheduleId form)).1.schedules.get scheduleId =
        some (row'.edited form now) := by
      rw [ScheduleStore.write, ScheduleStore.update, hupdated]
      exact get_setRow.trans (if_pos rfl)
    rw [hkept] at hnew
    rw [Option.some.inj hnew] at hother
    exact hother hform

/-- A `DELETE` keeps the schedules of other devices if and only if it does not find one of them. -/
theorem othersKept_delete_iff :
    OthersKept userId deviceId s (s.write userId newId now (.delete scheduleId)) ↔
      AssignedTo s userId deviceId scheduleId := by
  rcases delete_cases s scheduleId userId with ⟨hsame, hnone⟩ | ⟨row, hget, huser, hdeleted⟩
  · rw [ScheduleStore.write, hsame]
    refine iff_of_true (othersKept_of_rows rfl) fun row hrow => ?_
    obtain ⟨hget, huser⟩ := getByIdAndUserId_eq_some.1 hrow
    exact absurd huser (hnone row hget)
  · rw [ScheduleStore.write, hdeleted]
    constructor
    · intro h row' hrow
      by_contra hother
      obtain ⟨hget', huser'⟩ := getByIdAndUserId_eq_some.1 hrow
      have hkept : (s.schedules.erase scheduleId).get scheduleId = some row' := (h _ row' hget' huser' hother).1
      rw [Dict.get_erase_self] at hkept
      cases hkept
    · intro hown id old hold huser' hother
      have hne : id ≠ scheduleId := by
        rintro rfl
        exact hother (hown old (getByIdAndUserId_eq_some.2 ⟨hold, huser'⟩))
      exact ⟨(Dict.get_erase_of_ne _ hne).trans hold, by simp [ScheduleReply.rows]⟩

/-- **A request of a device keeps to its own schedules exactly under the condition.** -/
theorem othersKept_handle_iff (hdevice : deviceId ≠ []) :
    OthersKept userId deviceId s (s.handle userId (some deviceId) newId now request) ↔
      OwnSchedule userId deviceId s request := by
  rw [ScheduleStore.handle]
  cases hread : s.read userId (some deviceId) request with
  | error reply =>
    refine iff_of_true (rows_of_read_error hdevice hread) ?_
    cases request with
    | list => trivial
    | create form => trivial
    | update scheduleId form =>
      intro hok
      rw [hread] at hok
      cases hok
    | completeRun scheduleId form => trivial
    | delete scheduleId => cases hread
  | ok statement =>
    rcases read_ok hdevice hread with ⟨form, rfl, rfl, hform⟩ | ⟨scheduleId, form, rfl, rfl, hform⟩ |
      ⟨scheduleId, form, rfl, rfl, hown⟩ | ⟨scheduleId, rfl, rfl⟩
    · refine iff_of_true ?_ trivial
      dsimp only [ScheduleStore.write, ScheduleStore.insert]
      split_ifs with hused
      · exact othersKept_of_rows rfl
      · refine othersKept_setRow fun old hold _ => ?_
        rw [hold] at hused
        exact absurd rfl hused
    · refine ⟨fun h _ => assignedTo_of_othersKept_update hform h, fun h => ?_⟩
      exact othersKept_updateRow (h (by rw [hread]; rfl)) _ _ rfl
    · exact iff_of_true (othersKept_updateRow hown _ _ rfl) trivial
    · exact othersKept_delete_iff

/-! ## Runs -/

/-- Requests with the access token of one device, with the id that `uuid4` gives and the time. -/
def deviceMachine (userId deviceId : Text) : Machine ScheduleStore (ScheduleRequest × Text × ℤ) ScheduleReply where
  step s i := some (s.handle userId (some deviceId) i.2.1 i.2.2 i.1)

/-- **In a run in which a device updates and deletes only its own schedules, it leaves those of the other devices of
    the user as they are, and none of them is returned to it.** -/
theorem otherDevicesSchedulesKept (hdevice : deviceId ≠ []) {s' : ScheduleStore}
    {tr : List ((ScheduleRequest × Text × ℤ) × ScheduleReply)}
    (hrun : (deviceMachine userId deviceId).RunIn (fun s i => OwnSchedule userId deviceId s i.1) s tr s')
    {id : Text} (hget : s.schedules.get id = some row) (huser : row.userId = userId) (hother : row.deviceId ≠ deviceId) :
    s'.schedules.get id = some row ∧ ∀ e ∈ tr, ∀ item ∈ e.2.rows, item.1 ≠ id := by
  refine hrun.safety (I := fun s => s.schedules.get id = some row) ?_ hget
  intro s i t o hown hget hs
  have hkept : OthersKept userId deviceId s (s.handle userId (some deviceId) i.2.1 i.2.2 i.1) :=
    (othersKept_handle_iff hdevice).2 hown
  rw [Option.some.inj hs] at hkept
  exact hkept id row hget huser hother

namespace Sample

def pairedDevice (id : String) : PairedDevice :=
  ⟨.lit id, .lit "u", .lit id, .lit id, none, none, .lit id, [], [], none, none, 0, 0⟩

def scheduleForm (deviceId : String) : ScheduleForm :=
  ⟨.lit "w", .lit deviceId, .lit "n", .lit "FREQ=DAILY", .lit "UTC", true, some 5⟩

/-- One user with a workflow and two devices; a schedule of each device. -/
def scheduleStore : ScheduleStore where
  workflows := ⟨[⟨.lit "w", .lit "u", [], [], [], 1, 0, 0⟩], by decide⟩
  devices := ⟨[pairedDevice "A", pairedDevice "B"], by decide⟩
  schedules := (Dict.empty.set (.lit "a") ((scheduleForm "A").row (.lit "u") 1)).set (.lit "b")
    ((scheduleForm "B").row (.lit "u") 2)

end Sample

/-- The device `A` lists, updates, runs and deletes. -/
theorem otherDevicesSchedulesKept_sample : ∃ tr s',
    (deviceMachine (.lit "u") (.lit "A")).RunIn (fun s i => OwnSchedule (.lit "u") (.lit "A") s i.1)
      Sample.scheduleStore tr s' ∧ tr.length = 4 ∧ s'.schedules.get (.lit "a") = none ∧
    s'.schedules.get (.lit "b") = some ((Sample.scheduleForm "B").row (.lit "u") 2) ∧
      ∀ e ∈ tr, ∀ item ∈ e.2.rows, item.1 ≠ .lit "b" := by
  obtain ⟨⟨tr, s'⟩, hm, hlength, hdeleted⟩ : ∃ r ∈ (deviceMachine (.lit "u") (.lit "A")).exec
      (fun s i => OwnSchedule (.lit "u") (.lit "A") s i.1) Sample.scheduleStore
      [(.list, [], 3), (.update (.lit "a") (Sample.scheduleForm "A"), [], 4),
        (.completeRun (.lit "a") ⟨5, 6⟩, [], 5), (.delete (.lit "a"), [], 6)],
      r.1.length = 4 ∧ r.2.schedules.get (.lit "a") = none := by
    decide +kernel
  have hrun := Machine.runIn_of_exec hm
  exact ⟨tr, s', hrun, hlength, hdeleted, otherDevicesSchedulesKept (by decide) hrun (by decide) (by decide) (by decide)⟩

/-- **A device deletes a schedule of another device, or assigns it to itself.** -/
theorem not_otherDevicesSchedulesKept :
    ¬ (∀ tr s', (deviceMachine (.lit "u") (.lit "A")).Run Sample.scheduleStore tr s' →
      ∀ id row, Sample.scheduleStore.schedules.get id = some row → row.userId = .lit "u" → row.deviceId = .lit "B" →
        s'.schedules.get id = some row) := by
  intro h
  obtain ⟨⟨tr, s'⟩, hm, hstolen⟩ : ∃ r ∈ (deviceMachine (.lit "u") (.lit "A")).exec (fun _ _ => True)
      Sample.scheduleStore [(.update (.lit "b") (Sample.scheduleForm "A"), [], 4)],
      (r.2.schedules.get (.lit "b")).any (·.deviceId = .lit "A") := by
    decide +kernel
  have hget := h tr s' (Machine.runIn_of_exec hm) (.lit "b") _ rfl (by decide) (by decide)
  rw [hget] at hstolen
  exact absurd hstolen (by decide)

end TideBot
