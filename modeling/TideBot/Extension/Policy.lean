/-
  The local policy (`background/policy.ts`): whether a command is executed, put to
  the user, or denied.

  `parseUrl` is the URL parser of the browser.
-/
import TideBot.Lib.Pattern
import TideBot.Protocol.Command

namespace TideBot

open Lib

/-- `ACTION_MODES` -/
inductive ActionMode where
  | autonomous
  | consequentialApproval
  | manualApproval
  deriving DecidableEq

/-- `TAB_POLICIES` -/
inductive TabPolicy where
  | locked
  | followActive
  deriving DecidableEq

/-- What `new URL(...)` gives. -/
structure ParsedUrl where
  protocol : Text
  username : Text
  password : Text
  href : Text
  origin : Text
  deriving DecidableEq

/-- The identity of a page. -/
structure PageIdentity where
  url : Text
  origin : Text
  deriving DecidableEq

/-- `PolicyDecision` -/
inductive PolicyDecision where
  | allow (reason : String)
  | ask (reason : String)
  | deny (reason : String)
  deriving DecidableEq

section
variable (parseUrl : Text → Option ParsedUrl)

/-- `pageIdentity` (`background/tab-controller.ts`); `none`: `restricted_url`. -/
def pageIdentity (url : Text) : Option PageIdentity :=
  match parseUrl url with
  | none => none
  | some parsed =>
    if parsed.protocol ∉ [Text.lit "http:", .lit "https:"] ∨ parsed.username ≠ [] ∨
        parsed.password ≠ [] then none
    else some ⟨parsed.href, parsed.origin⟩

/-- `consequentialPattern` -/
def consequential (t : Text) : Bool :=
  Pattern.containsWord ["purchase", "buy", "pay", "send", "submit", "confirm", "delete", "remove",
    "cancel account", "book", "reserve"] t

/-- `secretPattern` -/
def secret (t : Text) : Bool :=
  Pattern.contains ["password", "passcode", "pin", "card", "credit", "debit", "payment", "cvv",
    "cvc", "security code", "expiry", "expiration"] t

/-- `injectionPattern` -/
def injection (t : Text) : Bool :=
  Pattern.containsPair ["ignore", "disregard"] 40
      ["previous", "system", "developer", "instruction"] t ||
  Pattern.containsPair ["reveal"] 30 ["prompt", "secret"] t ||
  Pattern.containsPair ["bypass"] 30 ["policy", "approval", "permission"] t

/-- The strings joined by spaces. -/
def joinSpaces : List Text → Text
  | [] => []
  | [t] => t
  | t :: ts => t ++ .lit " " ++ joinSpaces ts

/-- `semanticTargetText` -/
def semanticTargetText (args : Json) : Text :=
  match args.field (.lit "target") with
  | some (.obj fields) =>
    joinSpaces (["role", "name", "label", "placeholder", "text", "testId"].filterMap fun key =>
      match (Json.obj fields).field (.lit key) with
      | some (.str s) => some s
      | _ => none)
  | _ => []

/-- `navigationIdentity`: `none` if the command does not navigate to a URL,
    `some none` if that is restricted. -/
def navigationIdentity (name args : Json) : Option (Option PageIdentity) :=
  if !name.eqStr (.lit "browser_navigate") then none
  else match args.field (.lit "url") with
    | some (.str url) => some (pageIdentity parseUrl url)
    | _ => none

/-- Is text typed into a secret field? -/
def secretField (name args : Json) : Bool :=
  name.eqStr (.lit "browser_type") &&
  ((args.get (.lit "fieldKind")).eqStr (.lit "password") ||
    (args.get (.lit "fieldKind")).eqStr (.lit "payment") || secret (semanticTargetText args))

/-- The last part of `decideBrowserAction`, for an ordinary action. -/
def decideOrdinary (mode : ActionMode) (navigation : Option (Option PageIdentity))
    (currentUrl : Text) : PolicyDecision :=
  match navigation, mode with
  | some (some target), .consequentialApproval =>
    match pageIdentity parseUrl currentUrl with
    | none => .deny "restricted_url"
    | some current =>
      if target.origin ≠ current.origin then .ask "cross_origin_navigation"
      else .allow "ordinary_action"
  | _, .autonomous => .allow "autonomous_ordinary"
  | _, _ => .allow "ordinary_action"

/-- `decideBrowserAction` -/
def decideBrowserAction (mode : ActionMode) (request : CommandRequest) (currentUrl : Text)
    (pageSignals : List Text) : PolicyDecision :=
  let navigation := navigationIdentity parseUrl request.name request.args
  if !(browserCommandNames.any fun n => request.name.eqStr (.lit n)) then
    .deny "forbidden_capability"
  else if navigation = some none then .deny "restricted_url"
  else if !request.mutating then .allow "read_only"
  else if secretField request.name request.args then .ask "secret_field"
  else if pageSignals.any fun s => s = .lit "prompt_injection" || injection s then
    .ask "prompt_injection_risk"
  else if request.name.eqStr (.lit "browser_download") ||
      consequential (semanticTargetText request.args) then .ask "consequential_action"
  else if mode = .manualApproval then .ask "manual_approval"
  else decideOrdinary parseUrl mode navigation currentUrl

end

end TideBot
