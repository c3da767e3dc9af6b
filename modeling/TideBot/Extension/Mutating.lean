/-
  The `mutating` flag of a command.

  Whether a tool changes the page is known to the server (`_TOOL_DEFINITIONS`), which
  sends it along with every command; the policy takes the flag as it comes, and a
  command that claims to be read-only is executed without asking.

  `FlagIgnored` says that the decision does not depend on the flag.  It is so exactly
  when the command is denied anyhow, or when nothing about it calls for an approval
  (`flagIgnored_iff`); otherwise the flag switches the approval off
  (`flagIgnored_fails`).
-/
import TideBot.Extension.Worker
import TideBot.Protocol.RoundTrip

namespace TideBot

open Lib

/-- `_TOOL_DEFINITIONS` (`utils/browser_extension_tools.py`): which tools are mutating. -/
def toolDefinitions : List (String × Bool) :=
  [("browser_observe", false), ("browser_click", true), ("browser_type", true),
    ("browser_select", true), ("browser_scroll", true), ("browser_navigate", true),
    ("browser_go_back", true), ("browser_go_forward", true), ("browser_reload", true),
    ("browser_wait", false), ("browser_screenshot", false), ("browser_download", true),
    ("browser_console", false), ("browser_network", false), ("browser_dom", false),
    ("browser_recording", true)]

/-- Is it the name of a tool whose definition is mutating? -/
def mutatingTool (name : Json) : Bool := toolDefinitions.any fun d => d.2 && name.eqStr (.lit d.1)

/-- The three decisions. -/
inductive Decision where
  | allow
  | ask
  | deny
  deriving DecidableEq

/-- The decision without its reason. -/
def PolicyDecision.decision : PolicyDecision → Decision
  | .allow _ => .allow
  | .ask _ => .ask
  | .deny _ => .deny

variable (parseUrl : Text → Option ParsedUrl) (mode : ActionMode) (request : CommandRequest)
  (currentUrl : Text) (pageSignals : List Text)

/-- The decision about the command if its flag is `mutating`. -/
def decisionFor (mutating : Bool) : Decision :=
  (decideBrowserAction parseUrl mode { request with mutating := mutating } currentUrl
    pageSignals).decision

/-- The flag does not change the decision; in particular it does not make the policy
    allow anything under manual approval, a download, or typing into a secret field. -/
structure FlagIgnored : Prop where
  same : ∀ b b', decisionFor parseUrl mode request currentUrl pageSignals b =
    decisionFor parseUrl mode request currentUrl pageSignals b'
  manual : mode = .manualApproval → ∀ b,
    decisionFor parseUrl mode request currentUrl pageSignals b ≠ .allow
  download : request.name.eqStr (.lit "browser_download") → ∀ b,
    decisionFor parseUrl mode request currentUrl pageSignals b ≠ .allow
  secret : secretField request.name request.args → ∀ b,
    decisionFor parseUrl mode request currentUrl pageSignals b ≠ .allow

/-- Nothing about the command calls for an approval. -/
structure Harmless : Prop where
  field : secretField request.name request.args = false
  signals : ∀ s ∈ pageSignals, s ≠ .lit "prompt_injection" ∧ injection s = false
  download : request.name.eqStr (.lit "browser_download") = false
  target : consequential (semanticTargetText request.args) = false
  automatic : mode ≠ .manualApproval
  navigation : mode = .consequentialApproval → ∀ target,
    navigationIdentity parseUrl request.name request.args = some (some target) →
      ∃ current, pageIdentity parseUrl currentUrl = some current ∧ target.origin = current.origin

variable {parseUrl mode request currentUrl pageSignals}

/-! ## The decision -/

theorem known_of_mutatingTool (h : mutatingTool request.name) :
    browserCommandNames.any (fun n => request.name.eqStr (.lit n)) = true := by
  simp only [mutatingTool, List.any_eq_true, Bool.and_eq_true] at h
  obtain ⟨d, hd, -, hname⟩ := h
  have hmem : d.1 ∈ browserCommandNames := by
    have hall : ∀ d ∈ toolDefinitions, d.1 ∈ browserCommandNames := by decide
    exact hall d hd
  exact List.any_eq_true.2 ⟨d.1, hmem, hname⟩

theorem decisionFor_restricted (h : mutatingTool request.name)
    (hnav : navigationIdentity parseUrl request.name request.args = some none) (b : Bool) :
    decisionFor parseUrl mode request currentUrl pageSignals b = .deny := by
  simp only [decisionFor, decideBrowserAction, known_of_mutatingTool h, hnav, Bool.not_true,
    Bool.false_eq_true, if_false, if_true, PolicyDecision.decision]

theorem decisionFor_false (h : mutatingTool request.name)
    (hnav : navigationIdentity parseUrl request.name request.args ≠ some none) :
    decisionFor parseUrl mode request currentUrl pageSignals false = .allow := by
  simp only [decisionFor, decideBrowserAction, known_of_mutatingTool h, hnav, Bool.not_true,
    Bool.false_eq_true, Bool.not_false, if_false, if_true, PolicyDecision.decision]

theorem decideOrdinary_allow {navigation : Option (Option PageIdentity)}
    (hmode : mode ≠ .manualApproval) :
    (decideOrdinary parseUrl mode navigation currentUrl).decision = .allow ↔
      (mode = .consequentialApproval → ∀ target, navigation = some (some target) →
        ∃ current, pageIdentity parseUrl currentUrl = some current ∧
          target.origin = current.origin) := by
  cases mode with
  | manualApproval => exact absurd rfl hmode
  | autonomous => rcases navigation with _ | _ | _ <;> simp [decideOrdinary, PolicyDecision.decision]
  | consequentialApproval =>
    rcases navigation with _ | _ | target
    · simp [decideOrdinary, PolicyDecision.decision]
    · simp [decideOrdinary, PolicyDecision.decision]
    · unfold decideOrdinary
      cases hcur : pageIdentity parseUrl currentUrl with
      | none => simp [PolicyDecision.decision]
      | some current =>
        by_cases horigin : target.origin = current.origin
        · simp [PolicyDecision.decision, horigin]
        · simp [PolicyDecision.decision, horigin]

/-- A command that says it is mutating is allowed if nothing about it calls for an
    approval. -/
theorem decisionFor_true (h : mutatingTool request.name)
    (hnav : navigationIdentity parseUrl request.name request.args ≠ some none) :
    decisionFor parseUrl mode request currentUrl pageSignals true = .allow ↔
      Harmless parseUrl mode request currentUrl pageSignals := by
  simp only [decisionFor, decideBrowserAction, known_of_mutatingTool h, hnav, Bool.not_true,
    Bool.false_eq_true, if_false]
  split_ifs with hfield hsignals htarget hmode
  · exact ⟨by simp [PolicyDecision.decision], fun hh => by simp [hh.field] at hfield⟩
  · refine ⟨by simp [PolicyDecision.decision], fun hh => ?_⟩
    obtain ⟨s, hs, hbad⟩ := List.any_eq_true.1 hsignals
    simp [hh.signals s hs] at hbad
  · refine ⟨by simp [PolicyDecision.decision], fun hh => ?_⟩
    simp [hh.download, hh.target] at htarget
  · exact ⟨by simp [PolicyDecision.decision], fun hh => absurd hmode hh.automatic⟩
  · rw [decideOrdinary_allow hmode]
    simp only [Bool.not_eq_true] at hfield hsignals htarget
    rw [Bool.or_eq_false_iff] at htarget
    constructor
    · intro hordinary
      refine ⟨hfield, ?_, htarget.1, htarget.2, hmode, hordinary⟩
      intro s hs
      have hno := List.any_eq_false.1 hsignals s hs
      simpa using hno
    · exact Harmless.navigation

/-! ## The flag -/

/-- **The flag of a mutating tool is ignored** exactly when the command is denied anyhow
    or nothing about it calls for an approval. -/
theorem flagIgnored_iff (h : mutatingTool request.name) :
    FlagIgnored parseUrl mode request currentUrl pageSignals ↔
      navigationIdentity parseUrl request.name request.args = some none ∨
        Harmless parseUrl mode request currentUrl pageSignals := by
  by_cases hnav : navigationIdentity parseUrl request.name request.args = some none
  · have hdeny : ∀ b, decisionFor parseUrl mode request currentUrl pageSignals b = .deny :=
      decisionFor_restricted h hnav
    refine iff_of_true ?_ (.inl hnav)
    constructor <;> intros <;> simp [hdeny]
  · have hfalse : decisionFor parseUrl mode request currentUrl pageSignals false = .allow :=
      decisionFor_false h hnav
    have htrue : decisionFor parseUrl mode request currentUrl pageSignals true = .allow ↔
        Harmless parseUrl mode request currentUrl pageSignals := decisionFor_true h hnav
    constructor
    · intro hsame
      exact .inr (htrue.1 (hsame.same true false ▸ hfalse))
    · intro hcond
      have hharm := hcond.resolve_left hnav
      have hallow := htrue.2 hharm
      refine ⟨?_, fun hm => absurd hm hharm.automatic, ?_, ?_⟩
      · intro b b'
        cases b <;> cases b' <;> simp [hfalse, hallow]
      · intro hd
        rw [hharm.download] at hd
        cases hd
      · intro hf
        rw [hharm.field] at hf
        cases hf

namespace Sample

/-- The arguments of a click on the control with this name. -/
def clickOn (name : String) : List (Text × Json) :=
  [(.lit "target", .obj [(.lit "name", .str (.lit name))])]

def clickEnvelope (name : String) (mutating : Bool) : Json :=
  Broker.requestEnvelope { pendingClick with mutating := mutating } (.lit "browser_click")
    (clickOn name) 0 30

end Sample

/-- An ordinary click, while every action is autonomous. -/
theorem flagIgnored_iff_ordinary :
    FlagIgnored Sample.parseUrl .autonomous (.read (Sample.clickEnvelope "Next" true)) Sample.page
      [] := by
  refine (flagIgnored_iff (by decide +kernel)).2 (.inr ?_)
  exact ⟨by decide +kernel, by decide +kernel, by decide +kernel, by decide +kernel,
    by decide +kernel, by rintro ⟨⟩⟩

/-- A click on `Delete account` under manual approval that the server calls read-only is
    allowed. -/
theorem flagIgnored_fails :
    isCommandRequest Sample.integerText (Sample.clickEnvelope "Delete account" false) 10000 ∧
      mutatingTool (CommandRequest.read (Sample.clickEnvelope "Delete account" false)).name ∧
      ¬ FlagIgnored Sample.parseUrl .manualApproval
          (.read (Sample.clickEnvelope "Delete account" false)) Sample.page [] := by
  refine ⟨by decide +kernel, by decide +kernel, ?_⟩
  intro h
  exact h.manual rfl false (by decide +kernel)

end TideBot
