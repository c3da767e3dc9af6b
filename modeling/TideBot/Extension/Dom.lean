/-
  The elements of the page and what the policy sees of them (`content/dom.ts`).

  `observe` gives every interactive element a handle and a record; `findTarget`
  resolves the target of a command, by its handle if it has one and otherwise by
  comparing its texts with the records.  The policy does not resolve anything: it
  judges the texts that stand in the request.

  A target that is named by its handle has no text, so the policy allows a click on
  `Delete account` (`seesTarget_fails`).  `seesTarget_iff` says exactly when the policy
  is right about the element that will be acted on.

  `toLowerCase` is that of JavaScript; a `Node` is an element of the document.
-/
import TideBot.Extension.Mutating

namespace TideBot

open Lib

/-- An element of the document. -/
abbrev Node := ℕ

/-- What `findTarget` reads of the document. -/
structure Document where
  textContent : Node → Text
  placeholder : Node → Option Text
  testId : Node → Option Text
  isConnected : Node → Bool
  isVisible : Node → Bool

/-- `SemanticElementRecord`, as far as it is compared. -/
structure SemanticElementRecord where
  handle : Text
  role : Text
  name : Text
  text : Option Text
  deriving DecidableEq

/-- `DomObserver`: the tables that the last `observe` has left. -/
structure DomObserver where
  handles : List (Text × Node)
  records : List (Node × SemanticElementRecord)

/-- The codes of `DomObservationError`. -/
inductive DomObservationError where
  | staleHandle
  | invalidTarget
  | rawSelectorDenied
  | targetNotFound
  deriving DecidableEq

/-! ## Texts -/

/-- `\s` -/
def isSpace (c : CodePoint) : Bool :=
  (9 ≤ c.val ∧ c.val ≤ 13) ∨ (0x2000 ≤ c.val ∧ c.val ≤ 0x200A) ∨
    c.val ∈ [0x20, 0xA0, 0x1680, 0x2028, 0x2029, 0x202F, 0x205F, 0x3000, 0xFEFF]

/-- The words between the white space. -/
def words (t : Text) : List Text := (t.splitOnP isSpace).filter (· ≠ [])

section
variable (toLowerCase : Text → Text)

/-- `normalized`: white space collapsed and trimmed, in lower case. -/
def normalized (value : Option Text) : Text := toLowerCase (joinSpaces (words (value.getD [])))

/-- `includes`, on UTF-16 code units. -/
def includes (t expected : Text) : Bool :=
  Pattern.anywhere (fun _ s => expected.units.isPrefixOf s) none t.units

/-! ## `findTarget` -/

variable (document : Document) (observer : DomObserver)

/-- `resolve` -/
def DomObserver.resolve (handle : Text) : Except DomObservationError Node :=
  match observer.handles.lookup handle with
  | some element => if document.isConnected element then .ok element else .error .staleHandle
  | none => .error .staleHandle

/-- The fields a target can be found by. -/
def matchFields : List String := ["role", "name", "text", "label", "placeholder", "testId"]

/-- The text of a field, if there is one. -/
def matchText (target : Json) (key : String) : Option Text :=
  match target.field (.lit key) with
  | some (.str s) => if s = [] then none else some s
  | _ => none

/-- Does the element match the text of one field? -/
def matchesField (element : Node) (candidate : SemanticElementRecord) (key : String) (value : Text) :
    Bool :=
  let expected := normalized toLowerCase (some value)
  if key = "role" then normalized toLowerCase (some candidate.role) = expected
  else if key = "name" ∨ key = "label" then normalized toLowerCase (some candidate.name) = expected
  else if key = "text" then
    includes (normalized toLowerCase (some (candidate.text.getD (document.textContent element))))
      expected
  else if key = "placeholder" then normalized toLowerCase (document.placeholder element) = expected
  else normalized toLowerCase (document.testId element) = expected

/-- The `index` of a target: a non-negative integer, or 0. -/
def targetIndex (target : Json) : ℕ :=
  match (target.field (.lit "index")).bind Json.number with
  | some q => if q.den = 1 ∧ 0 ≤ q then q.num.toNat else 0
  | none => 0

/-- The elements that match all texts of the target. -/
def DomObserver.candidates (target : Json) : List (Node × SemanticElementRecord) :=
  observer.records.filter fun x => matchFields.all fun key =>
    (matchText target key).all (matchesField toLowerCase document x.1 x.2 key)

/-- `findTarget` -/
def DomObserver.findTarget (target : Json) : Except DomObservationError Node :=
  if !target.isObj then .error .invalidTarget
  else if ["selector", "xpath", "css"].any fun key => (target.field (.lit key)).isSome then
    .error .rawSelectorDenied
  else match target.field (.lit "handle") with
    | some (.str handle) => observer.resolve document handle
    | _ =>
      if matchFields.all fun key => matchText target key = none then .error .invalidTarget
      else match (observer.candidates toLowerCase document target)[targetIndex target]? with
        | some x => if document.isVisible x.1 then .ok x.1 else .error .targetNotFound
        | none => .error .targetNotFound

end

/-! ## `observe` -/

/-- `toString(36)` of a positive number. -/
def base36 (n : ℕ) : Text :=
  (Nat.digits 36 n).reverse.map fun d => CodePoint.ofChar (Char.ofNat (if d < 10 then 48 + d else 87 + d))

/-- The handle given to the `index`-th element. -/
def handleText (revision index : ℕ) (nonce : Text) : Text :=
  .lit "tbx_" ++ base36 revision ++ .lit "_" ++ base36 index ++ .lit "_" ++ nonce

/-- The tables of `observe`, from the visible interactive elements (with role, name and
    text) and the forms; of each only those that fit into the snapshot are kept. -/
def DomObserver.observe (revision : ℕ) (nonce : Text)
    (interactive : List (Node × Text × Text × Option Text)) (forms : List Node)
    (keep keepForms : ℕ) : DomObserver :=
  let records := ((interactive.take 500).zipIdx 1).map fun x =>
    (x.1.1, (⟨handleText revision x.2 nonce, x.1.2.1, x.1.2.2.1, x.1.2.2.2⟩ : SemanticElementRecord))
  let formHandles := ((forms.take 50).zipIdx (records.length + 1)).map fun x =>
    (handleText revision x.2 nonce, x.1)
  { handles := (records.take keep).map (fun x => (x.2.handle, x.1)) ++ formHandles.take keepForms
    records := records.take keep }

/-! ## What the policy sees -/

section
variable (toLowerCase : Text → Text) (document : Document) (observer : DomObserver)
  (request : CommandRequest)

/-- The element that the command will act on, with its record. -/
def ActsOn (element : Node) (r : SemanticElementRecord) : Prop :=
  (element, r) ∈ observer.records ∧
    observer.findTarget toLowerCase document (request.args.get (.lit "target")) = .ok element

/-- A click on a consequential element, or typing into a secret one. -/
def sensitive (r : SemanticElementRecord) : Bool :=
  request.name.eqStr (.lit "browser_click") && consequential r.name ||
    request.name.eqStr (.lit "browser_type") && secret r.name

variable (parseUrl : Text → Option ParsedUrl) (mode : ActionMode) (currentUrl : Text)
  (pageSignals : List Text)

/-- If the element that will be acted on is sensitive, the command is not just allowed. -/
def SeesTarget : Prop :=
  ∀ element r, ActsOn toLowerCase document observer request element r → sensitive request r →
    (decideBrowserAction parseUrl mode request currentUrl pageSignals).decision ≠ .allow

/-- The request itself, or the situation, calls for an approval. -/
def CallsForApproval : Prop :=
  secretField request.name request.args ∨ consequential (semanticTargetText request.args) ∨
    (∃ s ∈ pageSignals, s = .lit "prompt_injection" ∨ injection s) ∨ mode = .manualApproval

end

variable {toLowerCase : Text → Text} {document : Document} {observer : DomObserver}
  {request : CommandRequest} {parseUrl : Text → Option ParsedUrl} {mode : ActionMode}
  {currentUrl : Text} {pageSignals : List Text}

theorem decision_eq_allow_iff (hmut : request.mutating = true)
    (hname : request.name.eqStr (.lit "browser_click") ∨ request.name.eqStr (.lit "browser_type")) :
    (decideBrowserAction parseUrl mode request currentUrl pageSignals).decision = .allow ↔
      ¬ CallsForApproval request mode pageSignals := by
  have htool : mutatingTool request.name := by
    rcases hname with h | h <;> simp [mutatingTool, toolDefinitions, h]
  have hone : ∀ {n m : String}, n ≠ m → request.name.eqStr (.lit n) →
      request.name.eqStr (.lit m) = false := by
    intro n m hne h
    cases hn : request.name with
    | str t =>
      simp only [hn, Json.eqStr, decide_eq_true_eq] at h
      simp [Json.eqStr, h, hne]
    | _ => rfl
  have hdownload : request.name.eqStr (.lit "browser_download") = false := by
    rcases hname with h | h
    · exact hone (by decide) h
    · exact hone (by decide) h
  have hnav : navigationIdentity parseUrl request.name request.args = none := by
    unfold navigationIdentity
    rw [if_pos]
    rcases hname with h | h
    · rw [hone (by decide) h]; rfl
    · rw [hone (by decide) h]; rfl
  have hreq : decisionFor parseUrl mode request currentUrl pageSignals true =
      (decideBrowserAction parseUrl mode request currentUrl pageSignals).decision := by
    rw [decisionFor, ← hmut]
  rw [← hreq, decisionFor_true htool (by simp [hnav])]
  unfold CallsForApproval
  push Not
  constructor
  · intro hh
    refine ⟨by simp [hh.field], by simp [hh.target], ?_, hh.automatic⟩
    intro s hs
    simpa using hh.signals s hs
  · rintro ⟨hfield, htarget, hsignals, hmode⟩
    refine ⟨by simpa using hfield, ?_, hdownload, by simpa using htarget, hmode, by simp [hnav]⟩
    intro s hs
    simpa using hsignals s hs

/-- **The policy is right about the element** exactly when the element is not sensitive,
    or when the request itself or the situation calls for an approval. -/
theorem seesTarget_iff (hmut : request.mutating = true)
    (hname : request.name.eqStr (.lit "browser_click") ∨ request.name.eqStr (.lit "browser_type")) :
    SeesTarget toLowerCase document observer request parseUrl mode currentUrl pageSignals ↔
      (∀ element r, ActsOn toLowerCase document observer request element r →
        sensitive request r = false) ∨ CallsForApproval request mode pageSignals := by
  have hallow : (decideBrowserAction parseUrl mode request currentUrl pageSignals).decision = .allow ↔
      ¬ CallsForApproval request mode pageSignals := decision_eq_allow_iff hmut hname
  constructor
  · intro h
    by_cases hcalls : CallsForApproval request mode pageSignals
    · exact .inr hcalls
    · refine .inl fun element r hacts => ?_
      by_contra hsens
      exact h element r hacts (by simpa using hsens) (hallow.2 hcalls)
  · rintro (h | hcalls) element r hacts hsens
    · rw [h element r hacts] at hsens
      cases hsens
    · intro hdec
      exact hallow.1 hdec hcalls

/-! ## A button -/

namespace Sample

def buttonPage : Document := ⟨fun _ => [], fun _ => none, fun _ => none, fun _ => true, fun _ => true⟩

def button (name : String) : DomObserver :=
  .observe 1 (.lit "n") [(0, .lit "button", .lit name, none)] [] 1 0

/-- The arguments of a click on the first element observed. -/
def clickHandle : List (Text × Json) :=
  [(.lit "target", .obj [(.lit "handle", .str (.lit "tbx_1_1_n"))])]

def clickWith (args : List (Text × Json)) : CommandRequest :=
  .read (Broker.requestEnvelope pendingClick (.lit "browser_click") args 0 30)

def lowerCase (t : Text) : Text :=
  t.map fun c => if 65 ≤ c.val ∧ c.val ≤ 90 then ⟨(c.val + 32) % 0x110000, Nat.mod_lt _ (by decide)⟩ else c

end Sample

/-- A click on `Next` by its handle. -/
theorem seesTarget_iff_next :
    SeesTarget Sample.lowerCase Sample.buttonPage (Sample.button "Next")
      (Sample.clickWith Sample.clickHandle) Sample.parseUrl .autonomous Sample.page [] := by
  refine (seesTarget_iff (by decide +kernel) (.inl (by decide +kernel))).2 (.inl ?_)
  rintro element r ⟨hmem, -⟩
  have hall : ∀ x ∈ (Sample.button "Next").records,
      sensitive (Sample.clickWith Sample.clickHandle) x.2 = false := by
    decide +kernel
  exact hall (element, r) hmem

/-- A click on `Delete account` by its handle is allowed. -/
theorem seesTarget_fails :
    (Sample.clickWith Sample.clickHandle).mutating = true ∧
      ¬ SeesTarget Sample.lowerCase Sample.buttonPage (Sample.button "Delete account")
          (Sample.clickWith Sample.clickHandle) Sample.parseUrl .autonomous Sample.page [] := by
  refine ⟨by decide +kernel, ?_⟩
  intro h
  refine h 0 ⟨.lit "tbx_1_1_n", .lit "button", .lit "Delete account", none⟩ ⟨?_, ?_⟩ ?_ ?_
  · decide +kernel
  · decide +kernel
  · decide +kernel
  · decide +kernel

end TideBot
