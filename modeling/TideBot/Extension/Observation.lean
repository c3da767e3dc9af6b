/-
  What `observe` shows of a page (`content/dom.ts`).

  Every visible interactive element and every visible form is registered under a handle, read, and listed in the
  snapshot; then entries are dropped until the snapshot fits, and the tables are pruned to what is still listed.

  Reading may raise: a property of a form or of the document can be overridden by a name in the page (`clobbered`,
  and what is an `Option` of `Page`), and an element named `input` need not have a type.  What has been registered
  until then stays in the tables.
-/
import TideBot.Extension.Recording
import TideBot.Lib.Machine

namespace TideBot

open Lib

/-! ## The page -/

/-- What `isVisible` reads of an element and its ancestors; the style may not be there. -/
structure Styling where
  hidden : Bool
  ariaHidden : Option Text
  display : Option Text
  visibility : Option Text

/-- What `observe` reads of an element. -/
structure ObservedElement extends PageElement where
  /-- `labelText` of its labels -/
  labelTexts : List Text
  /-- `labelText` of the label around it -/
  closestLabelText : Option Text
  disabled : Bool

/-- An element of the page; in its lineage, `none` is an element whose attributes cannot be read. -/
structure PageNode where
  node : Node
  element : ObservedElement
  lineage : List (Option Styling)
  clobbered : Bool

structure Viewport where
  width : ℚ
  height : ℚ
  scrollX : ℚ
  scrollY : ℚ

/-- What the selectors find, and what else is read. -/
structure Page where
  interactive : Option (List PageNode)
  headings : List PageNode
  landmarks : List PageNode
  forms : Option (List PageNode)
  textById : Text → Option Text
  bodyText : Option Text
  href : Text
  title : Option Text
  viewport : Viewport

/-! ## Elements -/

/-- Does it hide what is in it? -/
def Styling.hides (s : Styling) : Bool :=
  s.hidden || s.ariaHidden = some (.lit "true") || s.display = some (.lit "none") ||
    s.visibility = some (.lit "hidden") || s.visibility = some (.lit "collapse")

/-- The loop of `isVisible`. -/
def visibleIn : List (Option Styling) → Option Bool
  | [] => some true
  | none :: _ => none
  | some s :: lineage => if s.hides then some false else visibleIn lineage

/-- `isVisible` -/
def PageNode.isVisible (x : PageNode) : Option Bool :=
  if x.element.input = some .hidden then some false else visibleIn x.lineage

/-- What is read of an element, if that is possible. -/
def PageNode.read (x : PageNode) : Option ObservedElement := if x.clobbered then none else some x.element

/-- `filter(isVisible)` -/
def visibleNodes : List PageNode → Option (List PageNode)
  | [] => some []
  | x :: xs =>
    match x.isVisible, visibleNodes xs with
    | some shown, some rest => some (if shown then x :: rest else rest)
    | _, _ => none

section
variable (toLowerCase : Text → Text) (textById : Text → Option Text)

namespace ObservedElement

variable (e : ObservedElement)

/-- The first word of the role, if there is one. -/
def explicitRole : Option Text :=
  (e.attributeText "role").map fun role => toLowerCase (role.takeWhile (!isSpace ·))

/-- `implicitRole`; `none`: an element named `input` that is no `HTMLInputElement` has no type, and it raises. -/
def implicitRole : Option Text :=
  match e.explicitRole toLowerCase with
  | some role => some role
  | none =>
    let tag := toLowerCase e.tagName
    if tag = .lit "a" then some (.lit "link")
    else if tag = .lit "button" then some (.lit "button")
    else if tag = .lit "textarea" then some (.lit "textbox")
    else if tag = .lit "select" then some (.lit (if e.select = some true then "listbox" else "combobox"))
    else if tag = .lit "input" then e.input.map fun type =>
      if type = .button ∨ type = .submit ∨ type = .reset then .lit "button"
      else if type = .checkbox then .lit "checkbox"
      else if type = .radio then .lit "radio"
      else if type = .range then .lit "slider"
      else .lit "textbox"
    else if e.contentEditable || e.getAttribute (.lit "contenteditable") = some (.lit "true") then
      some (.lit "textbox")
    else some tag

/-- `accessibleName` -/
def accessibleName : Text :=
  let labelledBy := (e.attributeText "aria-labelledby").map fun ids =>
    joinSpaces ((splitSpaces ids).map fun id => (textById id).getD [])
  let labels := if e.labelTexts = [] then none else some (joinSpaces e.labelTexts)
  let shown := [labelledBy, labels, e.closestLabelText].filterMap fun t => t.filter fun t => trimSpaces t ≠ []
  let name := (e.attributeText "aria-label").orElse fun _ => shown.head?.orElse fun _ =>
    ["alt", "placeholder", "title"].findSome? e.attributeText
  redactText (name.getD e.textContent) 256

/-- `landmarkRole` -/
def landmarkRole : Option Text :=
  match e.explicitRole toLowerCase with
  | some role =>
    if role ∈ ["banner", "navigation", "main", "complementary", "contentinfo", "form", "search", "region"].map Text.lit
    then some role else none
  | none =>
    let tag := toLowerCase e.tagName
    [("header", "banner"), ("nav", "navigation"), ("main", "main"), ("aside", "complementary"),
      ("footer", "contentinfo"), ("form", "form")].findSome? fun r => if tag = .lit r.1 then some (.lit r.2) else none

end ObservedElement

end

/-! ## Snapshots -/

/-- `SemanticElementRecord` -/
structure InteractiveRecord extends SemanticElementRecord where
  value : Option Text
  disabled : Bool
  deriving DecidableEq

/-- The record of an element, under its handle. -/
def ObservedElement.record (toLowerCase : Text → Text) (textById : Text → Option Text) (handle : Text)
    (e : ObservedElement) : Option InteractiveRecord :=
  (e.implicitRole toLowerCase).map fun role =>
    let text := redactText e.textContent 500
    { handle := handle
      role := role
      name := e.accessibleName textById
      text := if text ≠ [] ∧ text ≠ e.accessibleName textById then some text else none
      value := e.safeValue
      disabled := e.disabled || e.getAttribute (.lit "aria-disabled") = some (.lit "true") }

/-- A JavaScript number, as far as it is printed. -/
inductive JsNumber where
  | finite (q : ℚ)
  | infinite
  | nan

def JsNumber.json : JsNumber → Json
  | .finite q => .float q
  | .infinite => .null
  | .nan => .null

structure PageHeading where
  level : JsNumber
  text : Text

structure PageLandmark where
  role : Text
  name : Text

structure PageForm where
  handle : Text
  name : Text

structure PageSnapshot where
  revision : ℕ
  url : Text
  title : Text
  viewport : Viewport
  headings : List PageHeading
  landmarks : List PageLandmark
  forms : List PageForm
  interactive : List InteractiveRecord
  pageSignals : List Text
  truncated : Bool

/-- A field that is there or not. -/
def optionalField (key : String) (value : Option Text) : List (Text × Json) :=
  value.toList.map fun t => (.lit key, .str t)

def InteractiveRecord.json (r : InteractiveRecord) : Json :=
  .obj ([(.lit "handle", .str r.handle), (.lit "role", .str r.role), (.lit "name", .str r.name)] ++
    optionalField "text" r.text ++ optionalField "value" r.value ++
    if r.disabled then [(.lit "disabled", .bool true)] else [])

namespace PageSnapshot

variable (s : PageSnapshot)

def json : Json :=
  .obj [(.lit "revision", .int s.revision), (.lit "url", .str s.url), (.lit "title", .str s.title),
    (.lit "viewport", .obj [(.lit "width", .float s.viewport.width), (.lit "height", .float s.viewport.height),
      (.lit "scrollX", .float s.viewport.scrollX), (.lit "scrollY", .float s.viewport.scrollY)]),
    (.lit "headings", .arr (s.headings.map fun x => .obj [(.lit "level", x.level.json), (.lit "text", .str x.text)])),
    (.lit "landmarks", .arr (s.landmarks.map fun x => .obj [(.lit "role", .str x.role), (.lit "name", .str x.name)])),
    (.lit "forms", .arr (s.forms.map fun x => .obj [(.lit "handle", .str x.handle), (.lit "name", .str x.name)])),
    (.lit "interactive", .arr (s.interactive.map InteractiveRecord.json)),
    (.lit "pageSignals", .arr (s.pageSignals.map Json.str)), (.lit "untrustedContent", .bool true),
    (.lit "truncated", .bool s.truncated)]

/-- `new TextEncoder().encode(JSON.stringify(snapshot)).byteLength` -/
def size (numberText : ℚ → Text) : ℕ := (s.json.size (Json.jsPrinter numberText)).getD 0

/-- The snapshot with one entry less, from the first list that has one. -/
def pop : Option PageSnapshot :=
  if s.interactive ≠ [] then some { s with truncated := true, interactive := s.interactive.dropLast }
  else if s.forms ≠ [] then some { s with truncated := true, forms := s.forms.dropLast }
  else if s.landmarks ≠ [] then some { s with truncated := true, landmarks := s.landmarks.dropLast }
  else if s.headings ≠ [] then some { s with truncated := true, headings := s.headings.dropLast }
  else none

/-- The number of entries. -/
def entries : ℕ := s.interactive.length + s.forms.length + s.landmarks.length + s.headings.length

theorem entries_pop {s s' : PageSnapshot} (h : s.pop = some s') : s'.entries < s.entries := by
  have hlast : ∀ {α : Type} {l : List α}, l ≠ [] → l.dropLast.length < l.length := by
    intro α l hl
    have hpos := List.length_pos_iff.2 hl
    rw [List.length_dropLast]
    omega
  unfold pop at h
  split_ifs at h with h₁ h₂ h₃ h₄
  all_goals
    cases h
    unfold entries
  · have hlt := hlast h₁
    simp only
    omega
  · have hlt := hlast h₂
    simp only
    omega
  · have hlt := hlast h₃
    simp only
    omega
  · have hlt := hlast h₄
    simp only
    omega

end PageSnapshot

/-- `fitSnapshot` -/
def fitSnapshot (numberText : ℚ → Text) (maxBytes : ℕ) (s : PageSnapshot) : PageSnapshot :=
  if s.size numberText ≤ maxBytes then s
  else
    match _h : s.pop with
    | some s' => fitSnapshot numberText maxBytes s'
    | none => { s with truncated := true }
termination_by s.entries
decreasing_by exact PageSnapshot.entries_pop _h

/-! ## `observe` -/

/-- The tables while `observe` fills them. -/
structure Registered where
  handleIndex : ℕ
  handles : List (Text × Node)
  records : List (Node × InteractiveRecord)

def Registered.empty : Registered := ⟨0, [], []⟩

/-- The tables, as `resolve` and `findTarget` read them. -/
def Registered.tables (t : Registered) : DomObserver where
  handles := t.handles
  records := t.records.map fun x => (x.1, x.2.toSemanticElementRecord)

/-- What is still listed. -/
def Registered.exposed (t : Registered) (snapshot : PageSnapshot) : DomObserver :=
  let exposedHandles := snapshot.interactive.map (·.handle) ++ snapshot.forms.map (·.handle)
  { handles := t.handles.filter fun x => x.1 ∈ exposedHandles
    records := t.tables.records.filter fun x => x.2.handle ∈ exposedHandles }

section
variable (toLowerCase : Text → Text) (toNumber : Text → JsNumber) (numberText : ℚ → Text) (nonce : Text)
variable (maxBytes revision : ℕ) (page : Page)

/-- The handle of the next element. -/
def Registered.next (t : Registered) : Text := handleText revision (t.handleIndex + 1) nonce

/-- `register`; a handle is given once. -/
def Registered.register (t : Registered) (node : Node) : Registered :=
  { t with handleIndex := t.handleIndex + 1, handles := t.handles ++ [(t.next nonce revision, node)] }

/-- The interactive elements. -/
def observeInteractive : List PageNode → Registered → Registered × Option (List InteractiveRecord)
  | [], t => (t, some [])
  | x :: xs, t =>
    match x.read.bind (·.record toLowerCase page.textById (t.next nonce revision)) with
    | none => (t.register nonce revision x.node, none)
    | some record =>
      let t := t.register nonce revision x.node
      let (t, records) := observeInteractive xs { t with records := t.records ++ [(x.node, record)] }
      (t, records.map (record :: ·))

/-- The forms. -/
def observeForms : List PageNode → Registered → Registered × Option (List PageForm)
  | [], t => (t, some [])
  | x :: xs, t =>
    match x.read with
    | none => (t.register nonce revision x.node, none)
    | some e =>
      let form := ⟨t.next nonce revision, e.accessibleName page.textById⟩
      let (t, forms) := observeForms xs (t.register nonce revision x.node)
      (t, forms.map (form :: ·))

/-- `Number(…) || 2` -/
def ObservedElement.level (e : ObservedElement) : JsNumber :=
  match toNumber ((e.getAttribute (.lit "aria-level")).getD (e.tagName.drop 1)) with
  | .nan => .finite 2
  | .finite q => .finite (if q = 0 then 2 else q)
  | .infinite => .infinite

/-- The interactive elements that are read. -/
def Page.shownInteractive : Option (List PageNode) := (page.interactive.bind visibleNodes).map (·.take 500)

/-- The headings that are read. -/
def Page.shownHeadings : Option (List PageNode) := (visibleNodes page.headings).map (·.take 100)

/-- The landmarks that are read. -/
def Page.shownLandmarks : Option (List PageNode) := visibleNodes page.landmarks

/-- The forms that are read. -/
def Page.shownForms : Option (List PageNode) := (page.forms.bind visibleNodes).map (·.take 50)

/-- What is read of all of the elements, if that is possible. -/
def readAll (nodes : Option (List PageNode)) : Option (List ObservedElement) :=
  nodes.bind fun xs => xs.mapM PageNode.read

def observeHeadings : Option (List PageHeading) :=
  (readAll page.shownHeadings).map fun elements => (elements.map fun e =>
    (⟨e.level toNumber, redactText e.textContent 500⟩ : PageHeading)).filter (·.text ≠ [])

def observeLandmarks : Option (List PageLandmark) :=
  (readAll page.shownLandmarks).map fun elements => (elements.filterMap fun e =>
    (e.landmarkRole toLowerCase).map fun role => (⟨role, e.accessibleName page.textById⟩ : PageLandmark)).take 100

/-- `detectPageSignals` -/
def detectPageSignals (text : Text) : List Text :=
  let bounded := Transport.slice 100000 text
  if Pattern.containsPair ["ignore", "disregard"] 50 ["previous", "system", "developer", "instruction"] bounded ||
    Pattern.containsPair ["reveal"] 40 ["system prompt", "developer message", "secret", "credential"] bounded ||
    Pattern.containsPair ["bypass", "disable", "override"] 40 ["policy", "approval", "permission", "safety"] bounded ||
    Pattern.containsPair ["send", "upload", "exfiltrate"] 50 ["cookie", "token", "password", "credential", "secret"]
      bounded
  then [.lit "prompt_injection"] else []

/-- The fields of a `DomObserver` that change. -/
structure ObserverState where
  revision : ℕ
  tables : DomObserver

/-- A new `DomObserver`. -/
def ObserverState.initial : ObserverState := ⟨0, ⟨[], []⟩⟩

/-- The snapshot of what has been read. -/
def Page.snapshot (interactive : List InteractiveRecord) (headings : List PageHeading) (landmarks : List PageLandmark)
    (forms : List PageForm) (bodyText title : Text) : PageSnapshot where
  revision := revision
  url := Transport.slice 4096 page.href
  title := redactText title 512
  viewport := page.viewport
  headings := headings
  landmarks := landmarks
  forms := forms
  interactive := interactive
  pageSignals := detectPageSignals bodyText
  truncated := interactive.length < (page.interactive.getD []).length

/-- Forms, and what comes after them. -/
def finishObservation (interactive : List InteractiveRecord) (headings : List PageHeading)
    (landmarks : List PageLandmark) (forms : List PageNode) (t : Registered) :
    DomObserver × Option PageSnapshot :=
  match observeForms nonce revision page forms t, page.bodyText, page.title with
  | (t, some forms), some bodyText, some title =>
    let snapshot := fitSnapshot numberText maxBytes
      (page.snapshot revision interactive headings landmarks forms bodyText title)
    (t.exposed snapshot, some snapshot)
  | (t, _), _, _ => (t.tables, none)

/-- The tables after `observe`, and the snapshot that it returns, unless it raises. -/
def observePage : DomObserver × Option PageSnapshot :=
  match page.shownInteractive with
  | none => (Registered.empty.tables, none)
  | some nodes =>
    match observeInteractive toLowerCase nonce revision page nodes .empty with
    | (t, none) => (t.tables, none)
    | (t, some interactive) =>
      match observeHeadings toNumber page, observeLandmarks toLowerCase page, page.shownForms with
      | some headings, some landmarks, some forms =>
        finishObservation numberText nonce maxBytes revision page interactive headings landmarks forms t
      | _, _, _ => (t.tables, none)

/-- `observe` -/
def ObserverState.observe (s : ObserverState) : ObserverState × Option PageSnapshot :=
  let (tables, snapshot) := observePage toLowerCase toNumber numberText nonce maxBytes (s.revision + 1) page
  (⟨s.revision + 1, tables⟩, snapshot)

/-- An observer, as `observe` is called on pages. -/
def observerMachine : Machine ObserverState Page (Option PageSnapshot) where
  step s page := some (s.observe toLowerCase toNumber numberText nonce maxBytes page)

end

end TideBot
