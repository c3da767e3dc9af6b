/-
  What a recording holds, and whether the server takes it (`content/recording.ts` against
  `_validated_workflow_definition`).

  The recorder makes a step of the page's URL and of every event that it captures; it bounds the names, the
  test ids and the values, but neither the role nor the tag, and it cuts the URL after it has hidden the
  values of sensitive keys.  The server bounds every text of a target, and looks for sensitive keys by its
  own rule, which knows more letters.

  How a browser and Python take URLs apart are parameters; that they agree on the URL of the page is
  `PageUrlsAgree`.  The times of a recording are left out.
-/
import TideBot.Lib.FormText
import TideBot.Extension.PageText
import TideBot.Workflow.Encryption

namespace TideBot

open Lib

/-! ## Targets -/

/-- `WorkflowTarget` -/
structure WorkflowTarget where
  role : Text
  name : Text
  tag : Text
  type : Option Text
  testId : Option Text
  deriving DecidableEq

/-- `RecordedWorkflowStep` -/
inductive RecordedWorkflowStep where
  | navigate (url : Text)
  | click (target : WorkflowTarget)
  | typeIntent (target : WorkflowTarget) (sensitive : Bool)
  | select (target : WorkflowTarget) (values : List Text)
  deriving DecidableEq

def WorkflowTarget.json (t : WorkflowTarget) : Json :=
  .obj ([(.lit "role", .str t.role), (.lit "name", .str t.name), (.lit "tag", .str t.tag)] ++
    t.type.toList.map (fun x => (.lit "type", .str x)) ++ t.testId.toList.map fun x => (.lit "testId", .str x))

def RecordedWorkflowStep.json : RecordedWorkflowStep → Json
  | .navigate url => .obj [(.lit "action", .str (.lit "navigate")), (.lit "url", .str url)]
  | .click target => .obj [(.lit "action", .str (.lit "click")), (.lit "target", target.json)]
  | .typeIntent target sensitive =>
    .obj [(.lit "action", .str (.lit "type-intent")), (.lit "target", target.json), (.lit "sensitive", .bool sensitive)]
  | .select target values =>
    .obj [(.lit "action", .str (.lit "select")), (.lit "target", target.json), (.lit "values", .arr (values.map .str))]

/-- The first word of the attribute, if it is there. -/
def PageElement.explicitRole (e : PageElement) : Option Text :=
  ((e.getAttribute (.lit "role")).map (·.takeWhile (!isSpace ·))).filter (· ≠ [])

/-- `split(/\s+/)` -/
def splitSpaces (t : Text) : List Text := (collapseSpaces t).splitOn (.ofChar ' ')

section
variable (toLowerCase : Text → Text) (textById : Text → Option Text)

/-- `implicitRole`; `none`: an element named `input` that is no `HTMLInputElement` has no type, and it throws. -/
def PageElement.implicitRole (e : PageElement) : Option Text :=
  match e.explicitRole with
  | some role => some (toLowerCase role)
  | none =>
    let tag := toLowerCase e.tagName
    if tag = .lit "a" then some (.lit "link")
    else if tag = .lit "button" then some (.lit "button")
    else if tag = .lit "select" then some (.lit (if e.select = some true then "listbox" else "combobox"))
    else if tag = .lit "textarea" then some (.lit "textbox")
    else if tag = .lit "input" then e.input.map fun type =>
      if type = .button ∨ type = .submit ∨ type = .reset then .lit "button"
      else if type = .checkbox ∨ type = .radio ∨ type = .range then .lit type.name
      else .lit "textbox"
    else some tag

/-- The text that names the element. -/
def PageElement.nameText (e : PageElement) : Text :=
  match e.attributeText "aria-label" with
  | some aria => aria
  | none =>
    let labelledBy := (e.attributeText "aria-labelledby").map fun ids =>
      joinSpaces ((splitSpaces ids).map fun id => (textById id).getD [])
    let labels := if e.labels = [] then none else some (joinSpaces e.labels)
    let shown := [labelledBy, labels].filterMap fun t => t.filter fun t => trimSpaces t ≠ []
    match shown.head? with
    | some text => text
    | none => (["placeholder", "title", "alt"].findSome? e.attributeText).getD e.textContent

/-- `accessibleName` -/
def PageElement.accessibleName (e : PageElement) : Text := redactText (e.nameText textById) 200

/-- `targetFor` -/
def PageElement.targetFor (e : PageElement) : Option WorkflowTarget :=
  (e.implicitRole toLowerCase).map fun role =>
    { role := role
      name := e.accessibleName textById
      tag := toLowerCase e.tagName
      type := e.input.map fun type => .lit type.name
      testId := (e.attributeText "data-testid").map (redactText · 128) }

end

/-! ## URLs -/

/-- What `new URL` makes of a URL, and of it without its hash: `stem` is what stands before the query. -/
structure JsUrl where
  protocol : Text
  username : Text
  password : Text
  stem : Text
  query : Option Text
  deriving DecidableEq

/-- The URLs of the browser; `none`: the constructor throws. -/
structure JsUrls where
  parse : Text → Option JsUrl
  encode : Text → Text
  decode : Text → Text

/-- `URLSearchParams.set` -/
def setParam (key value : Text) : List (Text × Text) → List (Text × Text)
  | [] => [(key, value)]
  | p :: ps => if p.1 = key then (key, value) :: ps.filter (·.1 ≠ key) else p :: setParam key value ps

/-- The keys that `safeUrl` looks for. -/
def hidesKey (key : Text) : Bool :=
  Pattern.contains ["token", "secret", "password", "passcode", "auth", "key", "session"] key

def safeParam (key item : Text) : Text := if hidesKey key then redacted else redactText item 256

/-- The loop of `safeUrl`: the pairs are gone through by index while they are set. -/
def safeParams : ℕ → ℕ → List (Text × Text) → List (Text × Text)
  | 0, _, params => params
  | fuel + 1, index, params =>
    match params[index]? with
    | none => params
    | some (key, item) => safeParams fuel (index + 1) (setParam key (safeParam key item) params)

section
variable (J : JsUrls)

def JsUrl.searchParams (u : JsUrl) : List (Text × Text) := FormText.parsePairs J.decode (u.query.getD [])

/-- The pairs after the loop. -/
def JsUrl.keptParams (u : JsUrl) : List (Text × Text) :=
  safeParams (u.searchParams J).length 0 (u.searchParams J)

/-- The query is written anew when a pair has been set. -/
def JsUrl.safeQuery (u : JsUrl) : Option Text :=
  if u.searchParams J = [] then u.query else some (FormText.serializePairs J.encode (u.keptParams J))

/-- `href` -/
def JsUrl.safeHref (u : JsUrl) : Text := u.stem ++ (u.safeQuery J).elim [] (CodePoint.ofChar '?' :: ·)

/-- Has the URL one of the two protocols, and no credentials? -/
def JsUrl.recordable (u : JsUrl) : Bool :=
  (u.protocol = .lit "http:" || u.protocol = .lit "https:") && u.username = [] && u.password = []

/-- `safeUrl`; empty: the URL is not recorded. -/
def safeUrl (value : Text) : Text :=
  match J.parse value with
  | none => []
  | some u => if u.recordable then Transport.slice 4096 (u.safeHref J) else []

end

/-! ## The recorder -/

/-- An event of the page; of a click, the element is the closest one that can be acted on. -/
inductive PageEvent where
  | click (accepted : Bool) (element : Option PageElement)
  | input (accepted : Bool) (node : Node) (element : PageElement)
  | change (accepted : Bool) (element : PageElement)

/-- `ContentWorkflowRecorder` -/
structure Recorder where
  recordingId : Text
  active : Bool
  maxSteps : ℕ
  steps : List RecordedWorkflowStep
  typedElements : List Node
  deriving DecidableEq

/-- What an event records. -/
inductive Capture where
  | click (element : PageElement)
  | typeIntent (element : PageElement)
  | select (element : PageElement)

def Capture.element : Capture → PageElement
  | .click e | .typeIntent e | .select e => e

section
variable (toLowerCase : Text → Text) (textById : Text → Option Text)

/-- The step; `none`: it throws. -/
def Capture.step : Capture → Option RecordedWorkflowStep
  | .click e => (e.targetFor toLowerCase textById).map .click
  | .typeIntent e => (e.targetFor toLowerCase textById).map fun target => .typeIntent target e.isSensitive
  | .select e => (e.targetFor toLowerCase textById).map fun target =>
    .select target (if e.isSensitive then [] else (e.selectedOptions.map (redactText · 256)).take 20)

/-- `capture` -/
def Recorder.capture (r : Recorder) (step : RecordedWorkflowStep) : Recorder :=
  if !r.active || r.maxSteps ≤ r.steps.length then r else { r with steps := r.steps ++ [step] }

/-- `/^[a-z0-9_-]{1,128}$/i` -/
def validRecordingId (id : Text) : Bool :=
  0 < id.length && id.length ≤ 128 && id.all fun c => isKeyChar (lowerAscii c) || (Text.lit "_-").contains c

/-- `start`, with the `maxSteps` of the options; `none`: it throws. -/
def Recorder.start (J : JsUrls) (maxSteps : Option ℕ) (recordingId href : Text) : Option Recorder :=
  if validRecordingId recordingId then
    let r : Recorder := ⟨recordingId, true, min 500 (max 1 (maxSteps.getD 200)), [], []⟩
    let url := safeUrl J href
    some (if url = [] then r else r.capture (.navigate url))
  else none

/-- `onClick`, `onInput` and `onChange`, up to `capture`. -/
def Recorder.onEvent (r : Recorder) : PageEvent → Recorder × Option Capture
  | .click accepted element => (r, if accepted then element.map .click else none)
  | .input accepted node e =>
    if !accepted || node ∈ r.typedElements || !(e.input.isSome || e.textArea || e.contentEditable) then (r, none)
    else ({ r with typedElements := node :: r.typedElements }, some (.typeIntent e))
  | .change accepted e => (r, if accepted && e.select.isSome then some (.select e) else none)

/-- An event, with what it records. -/
def Recorder.handle (r : Recorder) (event : PageEvent) : Recorder :=
  let (r', captured) := r.onEvent event
  match captured.bind (Capture.step toLowerCase textById) with
  | none => r'
  | some step => r'.capture step

def Recorder.run (r : Recorder) (events : List PageEvent) : Recorder :=
  events.foldl (Recorder.handle toLowerCase textById) r

/-- What an event records, if there is room. -/
def Recorder.captured (r : Recorder) (event : PageEvent) : Option Capture :=
  (r.onEvent event).2.filter fun c =>
    (c.step toLowerCase textById).isSome && r.active && r.steps.length < r.maxSteps

/-- What the events record. -/
def Recorder.captures (r : Recorder) : List PageEvent → List Capture
  | [] => []
  | event :: events => (r.captured toLowerCase textById event).toList ++
      (r.handle toLowerCase textById event).captures events

end

/-- The definition of a recording. -/
def recordedDefinition (origin : Text) (steps : List RecordedWorkflowStep) : Json :=
  .obj [(.lit "schemaVersion", .int 1), (.lit "origin", .str origin),
    (.lit "steps", .arr (steps.map RecordedWorkflowStep.json))]

/-! ## Steps that the server takes -/

section

variable {toLowerCase : Text → Text} {textById : Text → Option Text} {U : PyUrls} {target : WorkflowTarget}
  {e : PageElement} {step : RecordedWorkflowStep}

/-- What the recorder bounds of a target. -/
structure WorkflowTarget.Bounded (t : WorkflowTarget) : Prop where
  name : t.name.length ≤ 200
  type : ∀ x ∈ t.type, x.length ≤ 14
  testId : ∀ x ∈ t.testId, x.length ≤ 128

/-- **A bounded target is taken** if its role and its tag are short. -/
theorem validTarget_json (h : target.Bounded) :
    validTarget target.json ↔ target.role.length ≤ 256 ∧ target.tag.length ≤ 256 := by
  obtain ⟨role, name, tag, type, testId⟩ := target
  have hname : name.length ≤ 256 := h.name.trans (by decide)
  have htype : ∀ x ∈ type, x.length ≤ 64 := fun x hx => (h.type x hx).trans (by decide)
  have htest := h.testId
  simp only at htest
  rcases type with _ | x <;> rcases testId with _ | y
  · simp [WorkflowTarget.json, validTarget, keysWithin, targetKeys, shortString, Json.get, Json.field, hname]
  · have hy := htest y rfl
    simp [WorkflowTarget.json, validTarget, keysWithin, targetKeys, shortString, Json.get, Json.field, hname, hy]
  · have hx := htype x rfl
    simp [WorkflowTarget.json, validTarget, keysWithin, targetKeys, shortString, Json.get, Json.field, hname, hx]
  · have hx := htype x rfl
    have hy := htest y rfl
    simp [WorkflowTarget.json, validTarget, keysWithin, targetKeys, shortString, Json.get, Json.field, hname, hx, hy]

theorem length_inputType (type : InputType) : (Text.lit type.name).length ≤ 14 := by
  cases type <;> decide +kernel

theorem bounded_targetFor (h : e.targetFor toLowerCase textById = some target) : target.Bounded := by
  obtain ⟨role, -, heq⟩ := Option.map_eq_some_iff.1 h
  have hname : target.name = redactText (e.nameText textById) 200 := by rw [← heq, PageElement.accessibleName]
  have htype : target.type = e.input.map fun type => Text.lit type.name := by rw [← heq]
  have htest : target.testId = (e.attributeText "data-testid").map (redactText · 128) := by rw [← heq]
  refine ⟨?_, ?_, ?_⟩
  · rw [hname]
    exact length_redactText _ _
  · intro x hx
    rw [htype] at hx
    obtain ⟨type, -, rfl⟩ := Option.map_eq_some_iff.1 hx
    exact length_inputType type
  · intro x hx
    rw [htest] at hx
    obtain ⟨text, -, rfl⟩ := Option.map_eq_some_iff.1 hx
    exact length_redactText _ _

/-- **The condition on an element**: its role and its tag are short. -/
def PageElement.Short (toLowerCase : Text → Text) (e : PageElement) : Prop :=
  (∀ role ∈ e.explicitRole, (toLowerCase role).length ≤ 256) ∧ (toLowerCase e.tagName).length ≤ 256

theorem short_iff (h : e.targetFor toLowerCase textById = some target) :
    target.role.length ≤ 256 ∧ target.tag.length ≤ 256 ↔ e.Short toLowerCase := by
  obtain ⟨role, hrole, rfl⟩ := Option.map_eq_some_iff.1 h
  unfold PageElement.Short
  refine and_congr_left fun htag => ?_
  unfold PageElement.implicitRole at hrole
  rcases hexplicit : e.explicitRole with _ | given
  · simp only [hexplicit] at hrole
    have hshort : role.length ≤ 256 := by
      split_ifs at hrole
      iterate 5 exact Option.some.inj hrole ▸ by decide
      · obtain ⟨type, -, rfl⟩ := Option.map_eq_some_iff.1 hrole
        split_ifs
        · decide
        · exact (length_inputType type).trans (by decide)
        · decide
      · exact Option.some.inj hrole ▸ htag
    exact ⟨by rintro _ _ ⟨⟩, fun _ => hshort⟩
  · simp only [hexplicit] at hrole
    obtain rfl := Option.some.inj hrole
    exact ⟨by rintro h _ ⟨⟩; exact h, fun h => h given rfl⟩

theorem validStep_click : validStep U (RecordedWorkflowStep.click target).json = validTarget target.json := by
  simp [validStep, RecordedWorkflowStep.json, keysAre, keysWithin, Json.get, Json.field]

theorem validStep_typeIntent (sensitive : Bool) :
    validStep U (RecordedWorkflowStep.typeIntent target sensitive).json = validTarget target.json := by
  simp [validStep, RecordedWorkflowStep.json, keysAre, keysWithin, Json.get, Json.field, Json.isBool]

theorem validStep_select {values : List Text} (hcount : values.length ≤ 20) (hshort : ∀ v ∈ values, v.length ≤ 256) :
    validStep U (RecordedWorkflowStep.select target values).json = validTarget target.json := by
  have hvalues : validValues (.arr (values.map .str)) := by
    simpa [validValues, hcount, shortString] using hshort
  simp [validStep, RecordedWorkflowStep.json, keysAre, keysWithin, Json.get, Json.field, hvalues]

theorem validStep_navigate (url : Text) :
    validStep U (RecordedWorkflowStep.navigate url).json = validUrl U url := by
  simp [validStep, RecordedWorkflowStep.json, keysAre, keysWithin, Json.get, Json.field, validNavigationUrl]

/-- **A step of an event is taken** exactly when its element is short. -/
theorem validStep_capture {c : Capture} (h : c.step toLowerCase textById = some step) :
    validStep U step.json ↔ c.element.Short toLowerCase := by
  have key : ∀ {e : PageElement} {target : WorkflowTarget}, e.targetFor toLowerCase textById = some target →
      (validTarget target.json ↔ e.Short toLowerCase) := fun htarget =>
    (validTarget_json (bounded_targetFor htarget)).trans (short_iff htarget)
  cases c with
  | click e =>
    obtain ⟨target, htarget, rfl⟩ := Option.map_eq_some_iff.1 h
    rw [validStep_click]
    exact key htarget
  | typeIntent e =>
    obtain ⟨target, htarget, rfl⟩ := Option.map_eq_some_iff.1 h
    rw [validStep_typeIntent]
    exact key htarget
  | select e =>
    obtain ⟨target, htarget, rfl⟩ := Option.map_eq_some_iff.1 h
    rw [validStep_select]
    · exact key htarget
    · split_ifs
      · exact Nat.zero_le _
      · exact List.length_take_le _ _
    · intro v hv
      split_ifs at hv
      · cases hv
      · obtain ⟨x, -, rfl⟩ := List.mem_map.1 (List.mem_of_mem_take hv)
        exact length_redactText x 256

end

/-! ## The steps of a recording -/

section

variable {toLowerCase : Text → Text} {textById : Text → Option Text} {r : Recorder} {event : PageEvent}

theorem onEvent_same (r : Recorder) (event : PageEvent) :
    (r.onEvent event).1.steps = r.steps ∧ (r.onEvent event).1.active = r.active ∧
      (r.onEvent event).1.maxSteps = r.maxSteps := by
  cases event with
  | click | change => exact ⟨rfl, rfl, rfl⟩
  | input accepted node e =>
    rw [Recorder.onEvent]
    split_ifs <;> exact ⟨rfl, rfl, rfl⟩

/-- There is room for one more step. -/
def Recorder.HasRoom (r : Recorder) : Prop := r.active = true ∧ r.steps.length < r.maxSteps

theorem capture_of_room {step : RecordedWorkflowStep} (h : r.HasRoom) :
    r.capture step = { r with steps := r.steps ++ [step] } := by
  rw [Recorder.capture, if_neg]
  simpa [h.1] using h.2

theorem capture_of_full {step : RecordedWorkflowStep} (h : ¬ r.HasRoom) : r.capture step = r := by
  rw [Recorder.capture, if_pos]
  rw [Recorder.HasRoom, not_and_or, not_lt] at h
  simpa using h

theorem mem_captured {c : Capture} :
    c ∈ r.captured toLowerCase textById event ↔
      c ∈ (r.onEvent event).2 ∧ (c.step toLowerCase textById).isSome ∧ r.HasRoom := by
  simp [Recorder.captured, Recorder.HasRoom, Option.filter_eq_some_iff, and_assoc]

/-- **An event** adds the step of what it records, if there is room. -/
theorem handle_cases (toLowerCase : Text → Text) (textById : Text → Option Text) (r : Recorder) (event : PageEvent) :
    ((r.captured toLowerCase textById event = none ∧ (r.handle toLowerCase textById event).steps = r.steps) ∨
      ∃ c step, r.captured toLowerCase textById event = some c ∧ c.step toLowerCase textById = some step ∧
        r.HasRoom ∧ (r.handle toLowerCase textById event).steps = r.steps ++ [step]) ∧
    (r.handle toLowerCase textById event).maxSteps = r.maxSteps := by
  obtain ⟨hsteps, hactive, hmax⟩ := onEvent_same r event
  have hroom : (r.onEvent event).1.HasRoom ↔ r.HasRoom := by
    rw [Recorder.HasRoom, Recorder.HasRoom, hsteps, hactive, hmax]
  unfold Recorder.handle
  rcases hevent : (r.onEvent event).2.bind (Capture.step toLowerCase textById) with _ | step
  · refine ⟨.inl ⟨?_, ?_⟩, ?_⟩
    · rw [Option.eq_none_iff_forall_not_mem]
      intro c hc
      obtain ⟨hmem, hstep, -⟩ := mem_captured.1 hc
      obtain ⟨step, hstep⟩ := Option.isSome_iff_exists.1 hstep
      exact Option.some_ne_none step (hstep.symm.trans (Option.bind_eq_none_iff.1 hevent c hmem))
    · simp only [hevent, hsteps]
    · simp only [hevent, hmax]
  · obtain ⟨c, hc, hstep⟩ := Option.bind_eq_some_iff.1 hevent
    simp only [hevent]
    by_cases h : r.HasRoom
    · refine ⟨.inr ⟨c, step, ?_, hstep, h, ?_⟩, ?_⟩
      · exact mem_captured.2 ⟨hc, by rw [hstep]; rfl, h⟩
      · rw [capture_of_room (hroom.2 h), hsteps]
      · rw [capture_of_room (hroom.2 h), hmax]
    · refine ⟨.inl ⟨?_, ?_⟩, ?_⟩
      · rw [Option.eq_none_iff_forall_not_mem]
        exact fun c hc => h (mem_captured.1 hc).2.2
      · rw [capture_of_full (mt hroom.1 h), hsteps]
      · rw [capture_of_full (mt hroom.1 h), hmax]

/-- **A run** adds the steps of what its events record, and has room for them. -/
theorem run_steps (toLowerCase : Text → Text) (textById : Text → Option Text) (r : Recorder) (events : List PageEvent)
    (hlen : r.steps.length ≤ r.maxSteps) :
    (∃ steps, (r.run toLowerCase textById events).steps = r.steps ++ steps ∧
      List.Forall₂ (fun c step => c.step toLowerCase textById = some step)
        (r.captures toLowerCase textById events) steps) ∧
    (r.run toLowerCase textById events).steps.length ≤ r.maxSteps := by
  induction events generalizing r with
  | nil => exact ⟨⟨[], by simp [Recorder.run], .nil⟩, hlen⟩
  | cons event events ih =>
    rw [Recorder.run, List.foldl_cons, Recorder.captures]
    change (∃ steps, ((r.handle toLowerCase textById event).run toLowerCase textById events).steps = _ ∧ _) ∧
      ((r.handle toLowerCase textById event).run toLowerCase textById events).steps.length ≤ _
    obtain ⟨⟨hnone, hsteps⟩ | ⟨c, step, hsome, hstep, hroom, hsteps⟩, hmax⟩ :=
      handle_cases toLowerCase textById r event
    · obtain ⟨⟨steps, hrun, hall⟩, hshort⟩ := ih (r.handle toLowerCase textById event) (by rw [hsteps, hmax]; exact hlen)
      refine ⟨⟨steps, by rw [hrun, hsteps], ?_⟩, hmax ▸ hshort⟩
      rw [hnone]
      exact hall
    · obtain ⟨⟨steps, hrun, hall⟩, hshort⟩ := ih (r.handle toLowerCase textById event) (by
        rw [hsteps, hmax, List.length_append]
        exact hroom.2)
      refine ⟨⟨step :: steps, by rw [hrun, hsteps, List.append_assoc]; rfl, ?_⟩, hmax ▸ hshort⟩
      rw [hsome]
      exact .cons hstep hall

end

/-! ## The pairs of a recorded URL -/

/-- The pairs whose key is new. -/
def firstPairs : List (Text × Text) → List (Text × Text)
  | [] => []
  | p :: ps => p :: (firstPairs ps).filter (·.1 ≠ p.1)

def safePair (p : Text × Text) : Text × Text := (p.1, safeParam p.1 p.2)

section

variable {p : Text × Text} {ps done : List (Text × Text)} {q : Text → Bool}

theorem firstPairs_filter (q : Text → Bool) (ps : List (Text × Text)) :
    firstPairs (ps.filter (q ·.1)) = (firstPairs ps).filter (q ·.1) := by
  induction ps with
  | nil => rfl
  | cons p ps ih =>
    rw [firstPairs]
    by_cases hq : q p.1
    · rw [List.filter_cons_of_pos (by simpa using hq), firstPairs, ih, List.filter_cons_of_pos (by simpa using hq),
        List.filter_filter, List.filter_filter]
      simp only [Bool.and_comm]
    · rw [List.filter_cons_of_neg (by simpa using hq), ih, List.filter_cons_of_neg (by simpa using hq),
        List.filter_filter]
      refine List.filter_congr fun x _ => ?_
      by_cases hx : x.1 = p.1
      · simp [hx, hq]
      · simp [hx]

theorem setParam_append {key item value : Text} (hdone : ∀ x ∈ done, x.1 ≠ key) :
    setParam key value (done ++ (key, item) :: ps) = done ++ (key, value) :: ps.filter (·.1 ≠ key) := by
  induction done with
  | nil => simp [setParam]
  | cons x done ih =>
    obtain ⟨hx, hdone⟩ := List.forall_mem_cons.1 hdone
    rw [List.cons_append, setParam, if_neg hx, ih hdone, List.cons_append]

/-- The invariant of the loop: no key that has been gone through comes again. -/
theorem safeParams_append (fuel : ℕ) (hfuel : ps.length ≤ fuel) (hdone : ∀ x ∈ done, ∀ p ∈ ps, x.1 ≠ p.1) :
    safeParams fuel done.length (done ++ ps) = done ++ (firstPairs ps).map safePair := by
  induction fuel generalizing done ps with
  | zero =>
    obtain rfl := List.length_eq_zero_iff.1 (Nat.le_zero.1 hfuel)
    simp [safeParams, firstPairs]
  | succ fuel ih =>
    cases ps with
    | nil => simp [safeParams, firstPairs]
    | cons p ps =>
      obtain ⟨key, item⟩ := p
      have hget : (done ++ (key, item) :: ps)[done.length]? = some (key, item) := by simp
      have hkey : ∀ x ∈ done, x.1 ≠ key := fun x hx => hdone x hx _ List.mem_cons_self
      rw [safeParams, hget]
      simp only
      rw [setParam_append hkey]
      have hnext : ∀ x ∈ done ++ [(key, safeParam key item)], ∀ p ∈ ps.filter (·.1 ≠ key), x.1 ≠ p.1 := by
        intro x hx p hp
        obtain ⟨hp, hne⟩ := List.mem_filter.1 hp
        rcases List.mem_append.1 hx with hx | hx
        · exact hdone x hx p (List.mem_cons_of_mem _ hp)
        · rw [List.mem_singleton.1 hx]
          exact fun heq => of_decide_eq_true hne heq.symm
      have hlen : (ps.filter (·.1 ≠ key)).length ≤ fuel :=
        (List.length_filter_le _ _).trans (Nat.le_of_succ_le_succ hfuel)
      have hrest := ih hlen hnext
      rw [List.length_append, List.length_singleton, List.append_assoc, List.singleton_append] at hrest
      rw [hrest, List.append_assoc, firstPairs, List.map_cons, List.singleton_append,
        firstPairs_filter (fun k => decide (k ≠ key))]
      rfl

/-- **The loop** keeps the first pair of every key, and hides or redacts its value. -/
theorem keptParams_eq (J : JsUrls) (u : JsUrl) :
    u.keptParams J = (firstPairs (u.searchParams J)).map safePair := by
  have hdone : ∀ x ∈ ([] : List (Text × Text)), ∀ p ∈ u.searchParams J, x.1 ≠ p.1 := by
    rintro x ⟨⟩
  simpa [JsUrl.keptParams] using safeParams_append (u.searchParams J).length le_rfl hdone

theorem firstPairs_subset : firstPairs ps ⊆ ps := by
  induction ps with
  | nil => exact List.Subset.refl _
  | cons p ps ih =>
    rw [firstPairs]
    exact List.cons_subset_cons _ fun x hx => ih (List.mem_of_mem_filter hx)

end

/-! ## URLs that the server takes -/

/-- `item != '%5BREDACTED%5D' and item != '[REDACTED]'`, negated -/
def isMarker (t : Text) : Bool := t = .lit "%5BREDACTED%5D" || t = .lit "[REDACTED]"

section
variable (J : JsUrls) (U : PyUrls) (unquote : Text → Text)

/-- **The condition on a query** that is cut after `n` characters: up to there, every value of a key that
Python finds sensitive is the marker. -/
def MarkedUpTo : ℕ → List (Text × Text) → Prop
  | _, [] => True
  | n, p :: ps =>
    let name := J.encode p.1
    let value := J.encode p.2
    if (FormText.writePair J.encode p).length < n then
      (sensitiveKey p.1 → hidesKey p.1 ∨ isMarker (unquote value)) ∧
        MarkedUpTo (n - ((FormText.writePair J.encode p).length + 1)) ps
    else if n = 0 then True
    -- the cut is in the name, or in the value
    else if n ≤ name.length then ¬ sensitiveKey (unquote (name.take n))
    else sensitiveKey p.1 → isMarker (unquote (value.take (n - (name.length + 1))))

/-- What stands after the first question mark. -/
def afterQuestion (t : Text) : Text := (t.dropWhile (· ≠ .ofChar '?')).drop 1

/-- `urlsplit` takes a URL of the web apart. -/
structure WebSplit (t : Text) (parsed : SplitUrl) : Prop where
  split : U.urlsplit t = some parsed
  scheme : parsed.scheme = .lit "http" ∨ parsed.scheme = .lit "https"
  hostname : truthy parsed.hostname
  username : ¬ truthy parsed.username
  password : ¬ truthy parsed.password
  query : parsed.query = afterQuestion t

/-- **The assumption on the URLs**: the browser and Python agree on the URL of the page, up to the cut, and
on its origin. -/
structure PageUrlsAgree (u : JsUrl) (origin : Text) : Prop where
  /-- a URL is written in ASCII -/
  ascii : ∀ c ∈ u.safeHref J, c.val < 0x80
  nonempty : u.stem ≠ []
  stem : CodePoint.ofChar '?' ∉ u.stem
  separable : FormText.Separable J.encode
  parseQsl : ∀ query, U.parseQsl query = FormText.parsePairs unquote query
  /-- a name and the marker are read as they were written -/
  name : ∀ p ∈ u.searchParams J, unquote (J.encode p.1) = p.1
  marker : unquote (J.encode redacted) = redacted
  empty : unquote [] = []
  split : u.recordable → ∃ parsed, WebSplit U ((u.safeHref J).take 4096) parsed
  origin : ∃ parsed, WebSplit U origin parsed ∧ (parsed.path = [] ∨ parsed.path = .lit "/") ∧
    parsed.query = [] ∧ parsed.fragment = []

end

section

variable {J : JsUrls} {U : PyUrls} {unquote : Text → Text} {u : JsUrl} {origin : Text} {parsed : SplitUrl}
  {p : Text × Text} {ps : List (Text × Text)}

/-- What the server wants of a pair. -/
def markedPair (q : Text × Text) : Bool := !sensitiveKey q.1 || isMarker q.2

theorem markedPair_iff {q : Text × Text} : markedPair q ↔ (sensitiveKey q.1 → isMarker q.2) := by
  simp [markedPair, Bool.or_eq_true, imp_iff_not_or]

theorem isMarker_redacted : isMarker redacted := by
  decide +kernel

theorem markedPair_writePair (hsep : FormText.Separable J.encode) (hmarker : unquote (J.encode redacted) = redacted)
    (hname : unquote (J.encode p.1) = p.1) :
    markedPair (FormText.readPair unquote (FormText.writePair J.encode (safePair p))) ↔
      (sensitiveKey p.1 → hidesKey p.1 ∨ isMarker (unquote (J.encode (safePair p).2))) := by
  rw [FormText.readPair_writePair hsep, markedPair_iff]
  have hkey : (safePair p).1 = p.1 := rfl
  rw [hkey, hname]
  refine imp_congr_right fun _ => ⟨.inr, ?_⟩
  rintro (hides | h)
  · have hvalue : (safePair p).2 = redacted := if_pos hides
    rw [hvalue, hmarker]
    exact isMarker_redacted
  · exact h

/-- **The pairs that the server reads** of the cut query are marked exactly when the query is marked up to the
cut. -/
theorem markedUpTo_iff (hsep : FormText.Separable J.encode) (hmarker : unquote (J.encode redacted) = redacted)
    (hempty : unquote [] = []) (hname : ∀ p ∈ ps, unquote (J.encode p.1) = p.1) (n : ℕ) :
    (FormText.cutPairs J.encode unquote n (ps.map safePair)).all markedPair ↔
      MarkedUpTo J unquote n (ps.map safePair) := by
  induction ps generalizing n with
  | nil => simp [FormText.cutPairs, MarkedUpTo]
  | cons p ps ih =>
    obtain ⟨hp, hps⟩ := List.forall_mem_cons.1 hname
    rw [List.map_cons, FormText.cutPairs, MarkedUpTo]
    have hkey : (safePair p).1 = p.1 := rfl
    split_ifs with hlt hn hcut
    · rw [List.all_cons, Bool.and_eq_true, markedPair_writePair hsep hmarker hp, ih hps]
      rfl
    · simp
    · rw [FormText.writePair, List.take_append_of_le_length hcut, FormText.readPair_of_notMem
        fun hmem => (hsep _).2 (List.mem_of_mem_take hmem), hempty]
      have hblank : ¬ isMarker [] := by decide
      simp [markedPair, hblank]
    · rw [not_le] at hcut
      obtain ⟨m, rfl⟩ : ∃ m, n = (J.encode (safePair p).1).length + (m + 1) :=
        ⟨n - (J.encode (safePair p).1).length - 1, by omega⟩
      have hm : (J.encode (safePair p).1).length + (m + 1) - ((J.encode (safePair p).1).length + 1) = m := by omega
      rw [FormText.writePair, List.take_length_add_append, List.take_succ_cons, FormText.readPair_append (hsep _).2, hm]
      rw [List.all_cons, List.all_nil, Bool.and_true, markedPair_iff, hkey, hp]

theorem validUrl_iff {t : Text} (h : WebSplit U t parsed) :
    validUrl U t ↔ t.length ≤ 4096 ∧ (U.parseQsl parsed.query).all markedPair := by
  have hhost := h.hostname
  have huser := h.username
  have hpass := h.password
  have hscheme : (parsed.scheme = .lit "http" || parsed.scheme = .lit "https") = true := by
    rcases h.scheme with hs | hs <;> simp [hs]
  have hall : (U.parseQsl parsed.query).all markedPair =
      (U.parseQsl parsed.query).all fun q => !sensitiveKey q.1 || q.2 = .lit "%5BREDACTED%5D" || q.2 = .lit "[REDACTED]" := by
    refine congrArg _ (funext fun q => ?_)
    rw [markedPair, isMarker, Bool.or_assoc]
  rw [validUrl, h.split, Option.any_some, hall]
  simp [hscheme, hhost, huser, hpass]

theorem afterQuestion_take {stem query : Text} (hstem : CodePoint.ofChar '?' ∉ stem) (n : ℕ) :
    afterQuestion ((stem ++ CodePoint.ofChar '?' :: query).take n) = query.take (n - (stem.length + 1)) := by
  have hall : ∀ m, ∀ c ∈ stem.take m, decide (c ≠ CodePoint.ofChar '?') = true := by
    intro m c hc
    refine decide_eq_true ?_
    rintro rfl
    exact hstem (List.mem_of_mem_take hc)
  rcases Nat.lt_or_ge stem.length n with hlt | hle
  · obtain ⟨m, rfl⟩ : ∃ m, n = stem.length + (m + 1) := ⟨n - stem.length - 1, by omega⟩
    have hstem' := hall stem.length
    rw [List.take_length] at hstem'
    rw [List.take_length_add_append, List.take_succ_cons, afterQuestion, List.dropWhile_append_of_pos hstem']
    have hm : stem.length + (m + 1) - (stem.length + 1) = m := by omega
    simp [hm]
  · rw [List.take_append_of_le_length hle, afterQuestion, List.dropWhile_eq_nil_iff.2 (hall n)]
    have hn : n - (stem.length + 1) = 0 := by omega
    simp [hn]

theorem afterQuestion_of_notMem {t : Text} (h : CodePoint.ofChar '?' ∉ t) : afterQuestion t = [] := by
  have hall : ∀ c ∈ t, decide (c ≠ CodePoint.ofChar '?') = true := by
    intro c hc
    refine decide_eq_true ?_
    rintro rfl
    exact h hc
  rw [afterQuestion, List.dropWhile_eq_nil_iff.2 hall]
  rfl

/-- **The URL of the page** is taken exactly when its query is marked up to the cut. -/
theorem validUrl_safeHref (h : PageUrlsAgree J U unquote u origin) (hrec : u.recordable) :
    validUrl U (Transport.slice 4096 (u.safeHref J)) ↔
      MarkedUpTo J unquote (4096 - (u.stem.length + 1)) ((firstPairs (u.searchParams J)).map safePair) := by
  have hcut : Transport.slice 4096 (u.safeHref J) = (u.safeHref J).take 4096 :=
    slice_eq_take (fun c hc => (h.ascii c hc).trans (by decide)) 4096
  obtain ⟨parsed, hsplit⟩ := h.split hrec
  rw [hcut, validUrl_iff hsplit, h.parseQsl, hsplit.query, and_iff_right (List.length_take_le _ _)]
  by_cases hnone : u.searchParams J = []
  · rw [hnone, firstPairs, List.map_nil, MarkedUpTo, iff_true]
    -- the query, if any, is made of separators alone
    have hread : FormText.parsePairs unquote (afterQuestion ((u.safeHref J).take 4096)) = [] := by
      rw [JsUrl.safeHref, JsUrl.safeQuery, if_pos hnone]
      rcases hquery : u.query with _ | query
      · rw [Option.elim_none, List.append_nil, afterQuestion_of_notMem fun hmem => h.stem (List.mem_of_mem_take hmem),
          FormText.parsePairs_nil]
      · rw [JsUrl.searchParams, hquery, Option.getD_some, FormText.parsePairs_eq_nil] at hnone
        rw [Option.elim_some, afterQuestion_take h.stem, FormText.parsePairs_eq_nil]
        exact fun c hc => hnone c (List.mem_of_mem_take hc)
    rw [hread]
    rfl
  · rw [JsUrl.safeHref, JsUrl.safeQuery, if_neg hnone, Option.elim_some, afterQuestion_take h.stem,
      FormText.parsePairs_take h.separable, keptParams_eq]
    exact markedUpTo_iff h.separable h.marker h.empty (fun p hp => h.name p (firstPairs_subset hp)) _

theorem validWorkflowOrigin_of_agree (h : PageUrlsAgree J U unquote u origin) (hlen : origin.length ≤ 512) :
    validWorkflowOrigin U origin := by
  obtain ⟨parsed, hsplit, hpath, hquery, hfragment⟩ := h.origin
  have hvalid : validUrl U origin := by
    rw [validUrl_iff hsplit, hquery, h.parseQsl, FormText.parsePairs_nil]
    exact ⟨hlen.trans (by decide), rfl⟩
  rw [validWorkflowOrigin, hvalid, hsplit.split]
  rcases hpath with hpath | hpath <;> simp [hpath, hquery, hfragment]

end

/-! ## Whether a recording is taken -/

section

variable {J : JsUrls} {U : PyUrls} {F : Json.FloatText} {unquote toLowerCase : Text → Text}
  {textById : Text → Option Text} {u : JsUrl} {recordingId href origin : Text} {r : Recorder}
  {steps : List RecordedWorkflowStep} {captures : List Capture}

theorem start_cases {maxSteps : Option ℕ} (h : Recorder.start J maxSteps recordingId href = some r) :
    r.maxSteps = min 500 (max 1 (maxSteps.getD 200)) ∧
      r.steps = if safeUrl J href = [] then [] else [.navigate (safeUrl J href)] := by
  rw [Recorder.start] at h
  split_ifs at h with hid
  obtain rfl := Option.some.inj h
  by_cases hurl : safeUrl J href = []
  · rw [if_pos hurl, if_pos hurl]
    exact ⟨rfl, rfl⟩
  · rw [if_neg hurl, if_neg hurl, capture_of_room ⟨rfl, by simp⟩]
    exact ⟨rfl, rfl⟩

theorem isSome_validated_iff (hne : steps ≠ []) (hcount : steps.length ≤ 500)
    (hsize : ((recordedDefinition origin steps).size (asciiPrinter F.repr)).getD 1000000 ≤ 128000) :
    (validatedWorkflowDefinition F U (recordedDefinition origin steps)).isSome ↔
      (origin.length ≤ 512 ∧ validWorkflowOrigin U origin) ∧ ∀ step ∈ steps, validStep U step.json := by
  have hpos : 0 < steps.length := List.length_pos_iff.2 hne
  rw [recordedDefinition] at hsize ⊢
  simp only [validatedWorkflowDefinition, hsize]
  simp [Json.get, Json.field, keysAre, keysWithin, Json.eqInt, hpos, hcount, and_assoc]

theorem forall_validStep_captures
    (h : List.Forall₂ (fun c step => Capture.step toLowerCase textById c = some step) captures steps) :
    (∀ step ∈ steps, validStep U step.json) ↔ ∀ c ∈ captures, c.element.Short toLowerCase := by
  induction h with
  | nil => simp
  | cons hstep _ ih => rw [List.forall_mem_cons, List.forall_mem_cons, validStep_capture hstep, ih]

/-- **A recording is taken** exactly when the origin of the page is short, the query of its URL is marked up to
the cut, and every element that was recorded has a short role and a short tag. -/
theorem isSome_validated_recording (hagree : PageUrlsAgree J U unquote u origin) (hparse : J.parse href = some u)
    (hstart : Recorder.start J none recordingId href = some r) (events : List PageEvent)
    (hne : (r.run toLowerCase textById events).steps ≠ [])
    (hsize : ((recordedDefinition origin (r.run toLowerCase textById events).steps).size
      (asciiPrinter F.repr)).getD 1000000 ≤ 128000) :
    (validatedWorkflowDefinition F U (recordedDefinition origin (r.run toLowerCase textById events).steps)).isSome ↔
      origin.length ≤ 512 ∧
      (u.recordable →
        MarkedUpTo J unquote (4096 - (u.stem.length + 1)) ((firstPairs (u.searchParams J)).map safePair)) ∧
      ∀ c ∈ r.captures toLowerCase textById events, c.element.Short toLowerCase := by
  obtain ⟨hmax, hfirst⟩ := start_cases hstart
  have hlen : r.steps.length ≤ r.maxSteps := by
    rw [hmax, hfirst]
    split_ifs <;> simp
  obtain ⟨⟨steps, hsteps, hall⟩, hcount⟩ := run_steps toLowerCase textById r events hlen
  rw [hmax] at hcount
  rw [isSome_validated_iff hne (hcount.trans (by decide)) hsize, hsteps, List.forall_mem_append,
    forall_validStep_captures hall]
  have horigin : origin.length ≤ 512 ∧ validWorkflowOrigin U origin ↔ origin.length ≤ 512 :=
    and_iff_left_of_imp (validWorkflowOrigin_of_agree hagree)
  have hurl : (∀ step ∈ r.steps, validStep U step.json) ↔ (u.recordable →
      MarkedUpTo J unquote (4096 - (u.stem.length + 1)) ((firstPairs (u.searchParams J)).map safePair)) := by
    by_cases hrec : u.recordable
    · have hurl : safeUrl J href = Transport.slice 4096 (u.safeHref J) := by simp [safeUrl, hparse, hrec]
      have hne : Transport.slice 4096 (u.safeHref J) ≠ [] := by
        rw [slice_eq_take fun c hc => (hagree.ascii c hc).trans (by decide)]
        simp [JsUrl.safeHref, hagree.nonempty]
      rw [hfirst, hurl, if_neg hne, List.forall_mem_singleton, validStep_navigate, validUrl_safeHref hagree hrec]
      exact ⟨fun h _ => h, fun h => h hrec⟩
    · have hurl : safeUrl J href = [] := by simp [safeUrl, hparse, hrec]
      rw [hfirst, if_pos hurl]
      exact iff_of_true (by simp) fun h => absurd h hrec
  rw [horigin, hurl]

end

namespace Sample

def writeForm (t : Text) : Text := t.flatMap fun c =>
  if isKeyChar (lowerAscii c) then [c]
  else if c = .ofChar '[' then Text.lit "%5B"
  else if c = .ofChar ']' then Text.lit "%5D"
  else []

def readForm : Text → Text
  | a :: b :: c :: cs =>
    if [a, b, c] = Text.lit "%5B" then .ofChar '[' :: readForm cs
    else if [a, b, c] = Text.lit "%5D" then .ofChar ']' :: readForm cs
    else a :: readForm (b :: c :: cs)
  | cs => cs

def pageUrls : JsUrls where
  parse t :=
    if (Text.lit "http://").isPrefixOf t then
      some ⟨.lit "http:", [], [], t.takeWhile (· ≠ .ofChar '?'),
        if t.contains (.ofChar '?') then some (afterQuestion t) else none⟩
    else none
  encode := writeForm
  decode := readForm

def serverUrls : PyUrls where
  urlsplit t :=
    let rest := (t.takeWhile (· ≠ .ofChar '?')).drop 7
    if (Text.lit "http://").isPrefixOf t then
      some ⟨.lit "http", some (rest.takeWhile (· ≠ .ofChar '/')), none, none, rest.dropWhile (· ≠ .ofChar '/'),
        afterQuestion t, []⟩
    else none
  parseQsl := FormText.parsePairs readForm

def shopOrigin : Text := .lit "http://shop.test"

def shopHref : Text := .lit "http://shop.test/cart?token=x7"

def shopUrl : JsUrl := ⟨.lit "http:", [], [], .lit "http://shop.test/cart", some (.lit "token=x7")⟩

theorem separable_writeForm : FormText.Separable writeForm := by
  have key : ∀ (sep : CodePoint) (t : Text), isKeyChar (lowerAscii sep) = false → sep ∉ Text.lit "%5B" →
      sep ∉ Text.lit "%5D" → sep ∉ writeForm t := by
    intro sep t hkey hopen hclose hmem
    obtain ⟨c, -, hc⟩ := List.mem_flatMap.1 hmem
    split_ifs at hc with hchar
    · rw [List.mem_singleton.1 hc, hchar] at hkey
      cases hkey
    · exact hopen hc
    · exact hclose hc
    · cases hc
  exact fun t => ⟨key _ t (by decide) (by decide) (by decide), key _ t (by decide) (by decide) (by decide)⟩

theorem safeHref_shopUrl :
    shopUrl.safeHref pageUrls = .lit "http://shop.test/cart?token=%5BREDACTED%5D" := by
  decide +kernel

theorem shopUrl_agree : PageUrlsAgree pageUrls serverUrls readForm shopUrl shopOrigin where
  ascii := by
    have hall : (shopUrl.safeHref pageUrls).all fun c => c.val < 0x80 := by
      rw [safeHref_shopUrl]
      decide +kernel
    exact fun c hc => of_decide_eq_true (List.all_eq_true.1 hall c hc)
  nonempty := by decide +kernel
  stem := by decide +kernel
  separable := separable_writeForm
  parseQsl _ := rfl
  name := by decide +kernel
  marker := by decide +kernel
  empty := rfl
  split _ := ⟨⟨.lit "http", some (.lit "shop.test"), none, none, .lit "/cart", .lit "token=%5BREDACTED%5D", []⟩,
    by decide +kernel, .inl rfl, by decide +kernel, by decide +kernel, by decide +kernel, by decide +kernel⟩
  origin := ⟨⟨.lit "http", some (.lit "shop.test"), none, none, [], [], []⟩,
    ⟨by decide +kernel, .inl rfl, by decide +kernel, by decide +kernel, by decide +kernel, by decide +kernel⟩,
    .inl rfl, rfl, rfl⟩

def pageButton (role : Option Text) : PageElement where
  tagName := .lit "BUTTON"
  getAttribute name := if name = .lit "role" then role else none
  input := none
  select := none
  textArea := false
  contentEditable := false
  labels := []
  closestLabel := none
  textContent := .lit "Buy"
  value := []
  selectedOptions := []

def shopRecorder : Recorder := ⟨.lit "rec", true, 200, [.navigate (.lit "http://shop.test/cart?token=%5BREDACTED%5D")], []⟩

def clicks (role : Option Text) : List PageEvent := [.click true (some (pageButton role))]

end Sample

section
open Sample

/-- A button of the shop. -/
theorem isSome_validated_click :
    (validatedWorkflowDefinition oneText serverUrls (recordedDefinition shopOrigin
      (shopRecorder.run (·.map lowerAscii) (fun _ => none) (clicks none)).steps)).isSome := by
  have hparams : (firstPairs (shopUrl.searchParams pageUrls)).map safePair = [(.lit "token", redacted)] := by
    decide +kernel
  have hsize : ((recordedDefinition shopOrigin
      (shopRecorder.run (·.map lowerAscii) (fun _ => none) (clicks none)).steps).size
        (asciiPrinter oneText.repr)).getD 1000000 ≤ 128000 := by decide +kernel
  have hne : (shopRecorder.run (·.map lowerAscii) (fun _ => none) (clicks none)).steps ≠ [] :=
    List.ne_nil_of_length_pos (by decide +kernel)
  have hparse : pageUrls.parse shopHref = some shopUrl := by decide +kernel
  have hstart : Recorder.start pageUrls none (.lit "rec") shopHref = some shopRecorder := by decide +kernel
  refine (isSome_validated_recording shopUrl_agree hparse hstart (clicks none) hne hsize).2 ⟨by decide +kernel, fun _ => ?_, ?_⟩
  · rw [hparams, MarkedUpTo, if_pos (by decide +kernel)]
    exact ⟨fun _ => .inl (by decide +kernel), trivial⟩
  · have hcaptures : shopRecorder.captures (·.map lowerAscii) (fun _ => none) (clicks none) =
        [.click (pageButton none)] := rfl
    rw [hcaptures, List.forall_mem_singleton]
    exact ⟨by rintro _ ⟨⟩, by decide⟩

/-- A role of 257 letters: the recording is not taken. -/
theorem not_validated_longRole :
    let steps := (shopRecorder.run (·.map lowerAscii) (fun _ => none)
      (clicks (some (List.replicate 257 (.ofChar 'x'))))).steps
    PageUrlsAgree pageUrls serverUrls readForm shopUrl shopOrigin ∧ pageUrls.parse shopHref = some shopUrl ∧
      Recorder.start pageUrls none (.lit "rec") shopHref = some shopRecorder ∧ steps ≠ [] ∧
      ((recordedDefinition shopOrigin steps).size (asciiPrinter oneText.repr)).getD 1000000 ≤ 128000 ∧
      validatedWorkflowDefinition oneText serverUrls (recordedDefinition shopOrigin steps) = none :=
  ⟨shopUrl_agree, by decide +kernel, by decide +kernel, List.ne_nil_of_length_pos (by decide +kernel),
    by decide +kernel, by decide +kernel⟩

end

end TideBot
