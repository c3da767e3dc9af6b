/-
  Workflow definitions as the extension accepts them (`background/workflows.ts`), and replays them.

  The checks are those of the server (`Workflow.Definition`), with JavaScript's rules: lengths
  are counted in UTF-16 code units, and `=== 1` does not hold of `true`.  So a definition the
  server has stored may not be replayed (`replayable_accepted`).
-/
import TideBot.Workflow.Encryption
import TideBot.Extension.Policy

namespace TideBot

open Lib

/-! ## The checks -/

/-- `exactKeys` -/
def exactKeys (value : List (Text × Json)) (allowed : List String) : Bool := keysWithin value allowed

/-- `typeof value === 'string' && value.length <= limit` -/
def shortUnits (limit : ℕ) : Option Json → Bool
  | some (.str s) => Text.utf16Length s ≤ limit
  | _ => false

/-- `target` -/
def workflowTarget : Json → Option Json
  | .obj fields =>
    let value := Json.obj fields
    if exactKeys fields targetKeys &&
        ["role", "name", "tag"].all (fun k => shortUnits 256 (value.field (.lit k))) &&
        [("type", 64), ("testId", 128)].all fun k =>
          (value.field (.lit k.1)).isNone || shortUnits k.2 (value.field (.lit k.1)) then some value
    else none
  | _ => none

/-- `value.values.every((item) => typeof item === 'string' && item.length <= 256)` -/
def everyShort : Option Json → Bool
  | some (.arr values) => values.length ≤ 20 && values.all fun item => shortUnits 256 (some item)
  | _ => false

section
variable (parseUrl : Text → Option ParsedUrl)

/-- `safeNavigation` -/
def safeNavigation : Option Json → Bool
  | some (.str value) =>
    Text.utf16Length value ≤ 4096 && (parseUrl value).any fun parsed =>
      parsed.protocol ∈ [Text.lit "http:", .lit "https:"] && parsed.username = [] &&
        parsed.password = []
  | _ => false

/-- `validateWorkflowStep` -/
def validateWorkflowStep : Json → Bool
  | .obj fields =>
    let value := Json.obj fields
    let targeted := (value.field (.lit "target")).any fun t => (workflowTarget t).isSome
    match value.field (.lit "action") with
    | some (.str action) =>
      if action = .lit "navigate" then
        exactKeys fields ["action", "url"] && safeNavigation parseUrl (value.field (.lit "url"))
      else if action = .lit "click" then exactKeys fields ["action", "target"] && targeted
      else if action = .lit "type-intent" then
        exactKeys fields ["action", "target", "sensitive"] && targeted &&
          (value.field (.lit "sensitive")).any Json.isBool
      else if action = .lit "select" then
        exactKeys fields ["action", "target", "values"] && targeted &&
          everyShort (value.field (.lit "values"))
      else
        action = .lit "wait" && exactKeys fields ["action", "condition"] &&
          (value.field (.lit "condition")).any fun c => c.eqStr (.lit "load")
    | _ => false
  | _ => false

/-- `validateWorkflowDefinition` -/
def validateWorkflowDefinition : Json → Bool
  | .obj fields =>
    let value := Json.obj fields
    exactKeys fields ["schemaVersion", "origin", "steps"] &&
      (value.field (.lit "schemaVersion")).any (fun v => v.number = some 1) &&
      shortUnits 512 (value.field (.lit "origin")) &&
      match value.field (.lit "steps") with
      | some (.arr steps) =>
        0 < steps.length && steps.length ≤ 500 && steps.all (validateWorkflowStep parseUrl)
      | _ => false
  | _ => false

/-! ## Replay -/

/-- `BrowserCommand` -/
structure BrowserCommand where
  name : Text
  args : Json
  mutating : Bool

/-- What becomes of a command; an error may have a code. -/
inductive Executed (Error : Type) where
  | done
  | raised (code : Option Text) (error : Error)

/-- The errors of `replay`; of them, those of the last kind are passed on. -/
inductive WorkflowError (Error : Type) where
  | invalidWorkflow
  | inputRequired (stepIndex : ℕ)
  | approvalRequired (stepIndex : ℕ)
  | raised (error : Error)

variable {Error : Type} (execute : ℕ → BrowserCommand → Executed Error) (inputs : ℕ → Option Text)

/-- The command of a step; `none`: an input is required. -/
def stepCommand (index : ℕ) (step : Json) : Option BrowserCommand :=
  let action := step.get (.lit "action")
  let arg (k : String) := (Text.lit k, step.get (.lit k))
  if action.eqStr (.lit "navigate") then some ⟨.lit "browser_navigate", .obj [arg "url"], true⟩
  else if action.eqStr (.lit "click") then some ⟨.lit "browser_click", .obj [arg "target"], true⟩
  else if action.eqStr (.lit "select") then
    some ⟨.lit "browser_select", .obj [arg "target", arg "values"], true⟩
  else if action.eqStr (.lit "wait") then
    some ⟨.lit "browser_wait", .obj [arg "condition"], false⟩
  else (inputs index).map fun text => ⟨.lit "browser_type",
    .obj [arg "target", (.lit "text", .str text), (.lit "operation", .str (.lit "replace"))], true⟩

/-- The loop of `replay`, from a step on. -/
def replaySteps : ℕ → List Json → Except (WorkflowError Error) Unit
  | _, [] => .ok ()
  | index, step :: rest =>
    match stepCommand inputs index step with
    | none => .error (.inputRequired index)
    | some command =>
      match execute index command with
      | .done => replaySteps (index + 1) rest
      | .raised code error =>
        if code = some (.lit "approval_required") then .error (.approvalRequired index)
        else .error (.raised error)

/-- `replay`: how many steps were completed. -/
def replay (definition : Json) : Except (WorkflowError Error) ℕ :=
  if validateWorkflowDefinition parseUrl definition then
    match definition.get (.lit "steps") with
    | .arr steps => (replaySteps execute inputs 0 steps).map fun _ => steps.length
    | _ => .ok 0
  else .error .invalidWorkflow

end

/-! ## Two URL parsers -/

/-- Printable ASCII without whitespace. -/
def plainUrl (u : Text) : Bool := u.all fun c => 0x21 ≤ c.val && c.val ≤ 0x7E

/-- `urlsplit` and the parser of WHATWG agree on plain `http(s)` URLs with a host and no user. -/
def UrlsAgree (U : PyUrls) (parseUrl : Text → Option ParsedUrl) : Prop :=
  ∀ {u split}, plainUrl u → U.urlsplit u = some split →
    (split.scheme = .lit "http" ∨ split.scheme = .lit "https") → truthy split.hostname →
    ¬ truthy split.username → ¬ truthy split.password →
    ∃ parsed, parseUrl u = some parsed ∧ parsed.protocol = split.scheme ++ .lit ":" ∧
      parsed.username = [] ∧ parsed.password = []

/-- The URLs of a definition are plain. -/
structure PlainUrls (d : Json) : Prop where
  origin : ∀ {u}, d.get (.lit "origin") = .str u → plainUrl u
  steps : ∀ {steps step u}, d.get (.lit "steps") = .arr steps → step ∈ steps →
    step.get (.lit "url") = .str u → plainUrl u

/-! ## What fits the extension -/

/-- A string of at most so many UTF-16 code units, or no string. -/
def unitsFit (limit : ℕ) : Json → Bool
  | .str s => Text.utf16Length s ≤ limit
  | _ => true

/-- The strings of a target, in UTF-16 code units. -/
def targetFits (target : Json) : Bool :=
  [("role", 256), ("name", 256), ("tag", 256), ("type", 64), ("testId", 128)].all fun k =>
    (target.field (.lit k.1)).all (unitsFit k.2)

/-- The values of a selection, in UTF-16 code units. -/
def valuesFit : Json → Bool
  | .arr values => values.all (unitsFit 256)
  | _ => true

def stepFits (step : Json) : Bool :=
  (step.field (.lit "target")).all targetFits && (step.field (.lit "values")).all valuesFit

def stepsFit : Json → Bool
  | .arr steps => steps.all stepFits
  | _ => true

/-- The version is a number, and the strings of the steps are short in UTF-16 code units. -/
def fitsExtension (d : Json) : Bool :=
  (d.get (.lit "schemaVersion")).number.isSome && stepsFit (d.get (.lit "steps"))

/-! ## Step by step -/

section
variable {U : PyUrls} {parseUrl : Text → Option ParsedUrl} {F : Json.FloatText} {j v : Json} {k : Text}
  {fields : List (Text × Json)} {keys : List String} {n m : ℕ}

theorem field_of_get (h : j.get k = v) (hne : v ≠ .null) : j.field k = some v := by
  unfold Json.get at h
  cases hf : j.field k with
  | none =>
    rw [hf] at h
    exact absurd h.symm hne
  | some w =>
    rw [hf] at h
    exact congrArg some h

theorem field_of_check {p : Json → Bool} (h : p (j.get k)) (hnull : p .null = false) :
    j.field k = some (j.get k) := by
  refine field_of_get rfl ?_
  intro heq
  rw [heq, hnull] at h
  cases h

theorem field_of_keysWithin {k : String} (h : keysWithin fields keys) (hk : k ∉ keys) :
    (Json.obj fields).field (.lit k) = none := by
  have hfind : fields.find? (fun f => f.1 = .lit k) = none := by
    refine List.find?_eq_none.2 ?_
    intro f hf heq
    obtain ⟨k', hk', hlit⟩ := mem_keysWithin h hf
    rw [of_decide_eq_true heq, Text.lit_inj] at hlit
    exact hk (hlit ▸ hk')
  rw [Json.field, hfind, Option.map_none]

theorem utf16Length_plain {u : Text} (h : plainUrl u) : Text.utf16Length u = u.length := by
  refine Text.utf16Length_eq_length ?_
  intro c hc
  have hplain := List.all_eq_true.1 h c hc
  rw [Bool.and_eq_true, decide_eq_true_eq, decide_eq_true_eq] at hplain
  omega

theorem safeNavigation_valid (hagree : UrlsAgree U parseUrl) (h : validNavigationUrl U v)
    (hplain : ∀ {u}, v = .str u → plainUrl u) : safeNavigation parseUrl (some v) := by
  cases v with
  | str u =>
    have hu := hplain rfl
    simp only [validNavigationUrl, validUrl, Bool.and_eq_true, decide_eq_true_eq, Option.any_eq_true,
      Bool.or_eq_true, Bool.not_eq_true'] at h
    obtain ⟨hlen, split, hsplit, ⟨⟨⟨hscheme, hhost⟩, huser⟩, hpass⟩, -⟩ := h
    obtain ⟨parsed, hparsed, hprotocol, huser', hpass'⟩ := hagree hu hsplit hscheme hhost
      (by simp [huser]) (by simp [hpass])
    have hmem : parsed.protocol ∈ [Text.lit "http:", .lit "https:"] := by
      rw [hprotocol]
      rcases hscheme with h | h <;> rw [h] <;> decide
    simp only [safeNavigation, utf16Length_plain hu, hparsed, Option.any_some, huser', hpass', hmem]
    simpa using hlen
  | null | bool | int | float | arr | obj => cases h

theorem shortUnits_required (h : shortString n (j.get k)) :
    shortUnits m (j.field k) = (j.field k).all (unitsFit m) := by
  cases hv : j.get k with
  | str s =>
    rw [field_of_get hv (by simp)]
    rfl
  | null | bool | int | float | arr | obj =>
    rw [hv] at h
    cases h

theorem shortUnits_optional (h : (j.field k).all (shortString n)) :
    ((j.field k).isNone || shortUnits m (j.field k)) = (j.field k).all (unitsFit m) := by
  cases hv : j.field k with
  | none => rfl
  | some v =>
    rw [hv] at h
    cases v with
    | str => rfl
    | null | bool | int | float | arr | obj => cases h

theorem workflowTarget_valid (h : validTarget j) : (workflowTarget j).isSome = targetFits j := by
  cases j with
  | obj fields =>
    simp only [validTarget, Bool.and_eq_true, List.all_cons, List.all_nil, Bool.and_true] at h
    obtain ⟨⟨hkeys, hrole, hname, htag⟩, htype, htest⟩ := h
    simp only [workflowTarget, exactKeys, hkeys, List.all_cons, List.all_nil, Bool.and_true,
      Bool.true_and, shortUnits_required hrole, shortUnits_required hname, shortUnits_required htag,
      shortUnits_optional htype, shortUnits_optional htest, targetFits]
    split_ifs with hall
    · simpa [and_assoc] using hall
    · simpa [and_assoc] using hall
  | null | bool | int | float | str | arr => cases h

theorem everyShort_valid (h : validValues j) : everyShort (some j) = valuesFit j := by
  cases j with
  | arr values =>
    simp only [validValues, Bool.and_eq_true] at h
    have hitem : ∀ v ∈ values, shortUnits 256 (some v) = unitsFit 256 v := by
      intro v hv
      have hshort := List.all_eq_true.1 h.2 v hv
      cases v with
      | str => rfl
      | null | bool | int | float | arr | obj => cases hshort
    simp only [everyShort, valuesFit, h.1, Bool.true_and]
    rw [Bool.eq_iff_iff, List.all_eq_true, List.all_eq_true]
    exact forall₂_congr fun v hv => by rw [hitem v hv]
  | null | bool | int | float | str | obj => cases h

/-- **What the extension makes of a step** that the server accepts. -/
theorem validateWorkflowStep_valid (hagree : UrlsAgree U parseUrl) (h : validStep U j)
    (hplain : ∀ {u}, j.get (.lit "url") = .str u → plainUrl u) :
    validateWorkflowStep parseUrl j = stepFits j := by
  obtain ⟨fields, rfl, hform⟩ := stepForm h
  have hwithin : ∀ {keys}, keysAre fields keys → keysWithin fields keys := by
    intro keys hkeys
    simp only [keysAre, Bool.and_eq_true] at hkeys
    exact hkeys.1
  cases hform with
  | navigate hact hkeys hurl =>
    have hk := hwithin hkeys
    simp only [validateWorkflowStep, field_of_get hact (by simp), if_true, exactKeys, hk,
      field_of_check hurl rfl, safeNavigation_valid hagree hurl hplain, stepFits,
      field_of_keysWithin hk (show "target" ∉ ["action", "url"] by decide),
      field_of_keysWithin hk (show "values" ∉ ["action", "url"] by decide)]
    rfl
  | click hact hkeys htarget =>
    have hk := hwithin hkeys
    simp only [validateWorkflowStep, field_of_get hact (by simp), Text.lit_inj, exactKeys, hk,
      field_of_check htarget rfl, Option.any_some, workflowTarget_valid htarget, stepFits,
      field_of_keysWithin hk (show "values" ∉ ["action", "target"] by decide), Option.all_some,
      Option.all_none]
    simp
  | type hact hkeys htarget hbool =>
    have hk := hwithin hkeys
    simp only [validateWorkflowStep, field_of_get hact (by simp), Text.lit_inj, exactKeys, hk,
      field_of_check htarget rfl, field_of_check hbool rfl, Option.any_some,
      workflowTarget_valid htarget, hbool, stepFits,
      field_of_keysWithin hk (show "values" ∉ ["action", "target", "sensitive"] by decide),
      Option.all_some, Option.all_none]
    simp
  | select hact hkeys htarget hvalues =>
    have hk := hwithin hkeys
    simp only [validateWorkflowStep, field_of_get hact (by simp), Text.lit_inj, exactKeys, hk,
      field_of_check htarget rfl, field_of_check hvalues rfl, Option.any_some,
      workflowTarget_valid htarget, everyShort_valid hvalues, stepFits, Option.all_some]
    simp
  | wait hact hkeys hcond =>
    have hk := hwithin hkeys
    simp only [validateWorkflowStep, field_of_get hact (by simp), Text.lit_inj, exactKeys, hk,
      field_of_get hcond (by simp), stepFits,
      field_of_keysWithin hk (show "target" ∉ ["action", "condition"] by decide),
      field_of_keysWithin hk (show "values" ∉ ["action", "condition"] by decide)]
    simp [Json.eqStr]

/-! ## Whole definitions -/

theorem number_of_eqInt (h : v.eqInt 1) : decide (v.number = some 1) = v.number.isSome := by
  cases v with
  | int n =>
    have hn : n = 1 := by simpa [Json.eqInt] using h
    subst hn
    rfl
  | float q =>
    have hq : q = 1 := by simpa [Json.eqInt] using h
    subst hq
    rfl
  | bool => rfl
  | null | str | arr | obj => cases h

theorem steps_valid {steps : List Json} (hagree : UrlsAgree U parseUrl)
    (h : ∀ step ∈ steps, validStep U step)
    (hplain : ∀ {step u}, step ∈ steps → step.get (.lit "url") = .str u → plainUrl u) :
    steps.all (validateWorkflowStep parseUrl) = steps.all stepFits := by
  rw [Bool.eq_iff_iff, List.all_eq_true, List.all_eq_true]
  refine forall₂_congr fun step hstep => ?_
  rw [validateWorkflowStep_valid hagree (h step hstep) (hplain hstep)]

/-- **What the extension makes of a definition** that the server accepts. -/
theorem validateWorkflowDefinition_eq {d d' : Json} (hagree : UrlsAgree U parseUrl)
    (h : validatedWorkflowDefinition F U d = some d') (hplain : PlainUrls d) :
    validateWorkflowDefinition parseUrl d = fitsExtension d := by
  obtain ⟨-, fields, origin, steps, rfl, hacc⟩ := accepted h
  have hkeys := hacc.keys
  simp only [keysAre, Bool.and_eq_true] at hkeys
  have horigin : shortUnits 512 (some (.str origin)) := by
    have hlen := hacc.short
    rw [← utf16Length_plain (hplain.origin hacc.originAt)] at hlen
    exact decide_eq_true hlen
  have hsteps := steps_valid hagree hacc.valid (hplain.steps hacc.stepsAt)
  simp only [validateWorkflowDefinition, exactKeys, hkeys.1,
    field_of_check (p := fun v => v.eqInt 1) hacc.version rfl, Option.any_some, number_of_eqInt hacc.version, field_of_get hacc.originAt (by simp), horigin,
    field_of_get hacc.stepsAt (by simp), hacc.nonempty, hacc.few, hsteps, fitsExtension,
    hacc.stepsAt, stepsFit, decide_true, Bool.true_and, Bool.and_true]

end

/-! ## No replay of a definition that fits is refused -/

section
variable {U : PyUrls} {parseUrl : Text → Option ParsedUrl} {F : Json.FloatText} {d : Json}
  {Error : Type} {execute : ℕ → BrowserCommand → Executed Error} {inputs : ℕ → Option Text}

theorem replaySteps_ne (execute : ℕ → BrowserCommand → Executed Error) (inputs : ℕ → Option Text)
    (index : ℕ) (steps : List Json) :
    replaySteps execute inputs index steps ≠ .error .invalidWorkflow := by
  induction steps generalizing index with
  | nil => simp [replaySteps]
  | cons step rest ih =>
    unfold replaySteps
    split
    · simp
    · split
      · exact ih (index + 1)
      · split_ifs <;> simp

theorem replay_invalid : replay parseUrl execute inputs d = .error .invalidWorkflow ↔
    validateWorkflowDefinition parseUrl d = false := by
  unfold replay
  split_ifs with hvalid
  · refine ⟨fun h => ?_, fun h => by rw [h] at hvalid; cases hvalid⟩
    split at h
    · rename_i steps _
      have hne := replaySteps_ne execute inputs 0 steps
      cases hr : replaySteps execute inputs 0 steps with
      | ok => rw [hr] at h; cases h
      | error e =>
        rw [hr] at h hne
        exact absurd (congrArg Except.error (Except.error.inj h)) hne
    · cases h
  · simpa using hvalid

/-- **A stored definition can be replayed** exactly if its version is a number and the strings of
    its steps are short enough in UTF-16 code units. -/
theorem replayable_accepted (hagree : UrlsAgree U parseUrl)
    (hacc : validatedWorkflowDefinition F U d = some d) (hplain : PlainUrls d) :
    (validateWorkflowDefinition parseUrl d ∧
        replay parseUrl execute inputs d ≠ .error .invalidWorkflow) ↔ fitsExtension d := by
  rw [Ne, replay_invalid, validateWorkflowDefinition_eq hagree hacc hplain]
  cases fitsExtension d <;> simp

end

/-! ### A name of astral characters, and a version that is `true` -/

/-- The parser of WHATWG, at one URL. -/
def exampleParse (u : Text) : Option ParsedUrl :=
  if u = .lit "https://example.com" then
    some {
      protocol := .lit "https:", username := [], password := []
      href := .lit "https://example.com/", origin := .lit "https://example.com" }
  else none

theorem urlsAgree_example : UrlsAgree exampleUrls exampleParse := by
  intro u split _ hsplit _ _ _ _
  simp only [exampleUrls] at hsplit
  split_ifs at hsplit with hu
  cases hsplit
  exact ⟨_, if_pos hu, rfl, rfl, rfl⟩

/-- A definition of this version that waits. -/
def waitDefinition (version : Json) : Json :=
  .obj [(.lit "schemaVersion", version), (.lit "origin", .str (.lit "https://example.com")),
    (.lit "steps", .arr [.obj [(.lit "action", .str (.lit "wait")),
      (.lit "condition", .str (.lit "load"))]])]

theorem plainUrls_example {d step : Json}
    (horigin : d.get (.lit "origin") = .str (.lit "https://example.com"))
    (hsteps : d.get (.lit "steps") = .arr [step]) (hurl : step.get (.lit "url") = .null) :
    PlainUrls d where
  origin h := by
    rw [horigin] at h
    cases h
    rfl
  steps h hstep hu := by
    rw [hsteps] at h
    cases h
    rw [List.mem_singleton.1 hstep, hurl] at hu
    cases hu

theorem validated_of_isSome {F : Json.FloatText} {U : PyUrls} {d : Json}
    (h : (validatedWorkflowDefinition F U d).isSome) : validatedWorkflowDefinition F U d = some d := by
  obtain ⟨d', hd'⟩ := Option.isSome_iff_exists.1 h
  rw [hd', (accepted hd').1]

/-- Two definitions that the server accepts and the extension does not. -/
theorem replayable_fails :
    UrlsAgree exampleUrls exampleParse ∧
    (PlainUrls (waitDefinition (.bool true)) ∧
      validatedWorkflowDefinition oneText exampleUrls (waitDefinition (.bool true)) =
        some (waitDefinition (.bool true)) ∧
      validateWorkflowDefinition exampleParse (waitDefinition (.bool true)) = false) ∧
    (PlainUrls (clickDefinition (List.replicate 129 0x1F600)) ∧
      validatedWorkflowDefinition oneText exampleUrls
        (clickDefinition (List.replicate 129 0x1F600)) =
        some (clickDefinition (List.replicate 129 0x1F600)) ∧
      validateWorkflowDefinition exampleParse (clickDefinition (List.replicate 129 0x1F600)) =
        false) := by
  refine ⟨urlsAgree_example, ⟨plainUrls_example rfl rfl rfl, ?_, by decide +kernel⟩,
    plainUrls_example rfl rfl rfl, ?_, by decide +kernel⟩
  · exact validated_of_isSome (by decide +kernel)
  · exact validated_of_isSome (by decide +kernel)

theorem replayable_wait :
    validateWorkflowDefinition exampleParse (waitDefinition (.int 1)) ∧
      replay exampleParse (fun _ _ => (Executed.done : Executed Unit)) (fun _ => none)
        (waitDefinition (.int 1)) ≠ .error .invalidWorkflow :=
  (replayable_accepted (F := oneText) urlsAgree_example rfl
    (plainUrls_example rfl rfl rfl)).2 (by decide +kernel)

end TideBot
