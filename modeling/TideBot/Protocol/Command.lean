/-
  The command envelopes of the extension (`shared/protocol.ts`).

  `isCommandRequest` is the check an inbound value has to pass, `CommandRequest`
  what the code reads from a value that passed it, and `commandResult` the
  envelope it answers with.  JavaScript numbers are exact rationals here, so that
  every number is finite; how one is printed is the parameter `numberText`.
-/
import TideBot.Lib.Json

namespace TideBot

open Lib

/-- `BROWSER_COMMAND_NAMES` -/
def browserCommandNames : List String :=
  ["browser_observe", "browser_click", "browser_type", "browser_select", "browser_scroll",
    "browser_navigate", "browser_go_back", "browser_go_forward", "browser_reload", "browser_wait",
    "browser_screenshot", "browser_download", "browser_console", "browser_network", "browser_dom",
    "browser_recording"]

def commandKeys : List String :=
  ["version", "id", "type", "deviceId", "userId", "sessionId", "timestamp", "deadlineAt", "nonce",
    "sequence", "payload"]

def payloadKeys : List String := ["name", "args", "mutating"]

/-- `isBoundedId` -/
def isBoundedId : Option Json → Bool
  | some (.str s) => 0 < s.utf16Length ∧ s.utf16Length ≤ 128
  | _ => false

/-- `Number.isSafeInteger` -/
def isSafeInteger (q : ℚ) : Bool := q.den = 1 ∧ |q.num| ≤ 9007199254740991

/-- The value of a property that is a number. -/
def numberAt (value : Json) (key : String) : Option ℚ := (value.field (.lit key)).bind Json.number

/-- Are these the keys of the object, and is their number `n`? -/
def hasKeys (fields : List (Text × Json)) (keys : List String) (n : ℕ) : Bool :=
  fields.all (fun f => f.1 ∈ keys.map Text.lit) ∧ fields.length = n

/-- The checks on the times and the sequence number. -/
def hasTimes (value : Json) (now : ℚ) : Bool :=
  match numberAt value "timestamp", numberAt value "deadlineAt", numberAt value "sequence" with
  | some timestamp, some deadlineAt, some sequence =>
    timestamp ≤ deadlineAt ∧ deadlineAt - timestamp ≤ 30000 ∧ now ≤ deadlineAt ∧
      isSafeInteger sequence ∧ 1 ≤ sequence
  | _, _, _ => false

/-- The checks on the payload. -/
def isCommand (numberText : ℚ → Text) : Option Json → Bool
  | some (.obj fields) =>
    let payload := Json.obj fields
    hasKeys fields payloadKeys 3 &&
    ((payload.field (.lit "name")).map (Json.jsString numberText)).getD (.lit "undefined") ∈
      browserCommandNames.map Text.lit &&
    (payload.field (.lit "args")).any Json.isObj &&
    (payload.field (.lit "mutating")).any Json.isBool
  | _ => false

/-- `isCommandRequest` -/
def isCommandRequest (numberText : ℚ → Text) (value : Json) (now : ℚ) : Bool :=
  match value.size (Json.jsPrinter numberText), value with
  | some size, .obj fields =>
    size ≤ 1048576 &&
    hasKeys fields commandKeys 11 &&
    numberAt value "version" = some 1 &&
    (value.field (.lit "type")).any (·.eqStr (.lit "command.request")) &&
    isBoundedId (value.field (.lit "id")) &&
    isBoundedId (value.field (.lit "deviceId")) &&
    isBoundedId (value.field (.lit "userId")) &&
    isBoundedId (value.field (.lit "sessionId")) &&
    isBoundedId (value.field (.lit "nonce")) &&
    hasTimes value now &&
    isCommand numberText (value.field (.lit "payload"))
  | _, _ => false

/-- `CommandRequest`: what the code reads from a value that passed the check.
    The name is whatever prints as a command name. -/
structure CommandRequest where
  id : Text
  deviceId : Text
  userId : Text
  sessionId : Text
  timestamp : ℚ
  deadlineAt : ℚ
  nonce : Text
  sequence : ℚ
  name : Json
  args : Json
  mutating : Bool

def textAt (value : Json) (key : String) : Text :=
  match value.field (.lit key) with
  | some (.str s) => s
  | _ => []

/-- Read a value as a `CommandRequest`. -/
def CommandRequest.read (value : Json) : CommandRequest where
  id := textAt value "id"
  deviceId := textAt value "deviceId"
  userId := textAt value "userId"
  sessionId := textAt value "sessionId"
  timestamp := (numberAt value "timestamp").getD 0
  deadlineAt := (numberAt value "deadlineAt").getD 0
  nonce := textAt value "nonce"
  sequence := (numberAt value "sequence").getD 0
  name := (value.get (.lit "payload")).get (.lit "name")
  args := (value.get (.lit "payload")).get (.lit "args")
  mutating := match (value.get (.lit "payload")).get (.lit "mutating") with
    | .bool m => m
    | _ => false

/-- What the executor comes to. -/
inductive ExecResult where
  | ok (value : Json)
  | error (code message : Text)

/-- A JavaScript number as Python reads its printed form. -/
def jsNumber (q : ℚ) : Json := if q.den = 1 then .int q.num else .float q

/-- The payload of a result. -/
def resultPayload (request : CommandRequest) : ExecResult → Json
  | .ok value =>
    .obj [(.lit "ok", .bool true), (.lit "value", value), (.lit "nonce", .str request.nonce),
      (.lit "sequence", jsNumber request.sequence)]
  | .error code message =>
    .obj [(.lit "ok", .bool false),
      (.lit "error", .obj [(.lit "code", .str code), (.lit "message", .str message)]),
      (.lit "nonce", .str request.nonce), (.lit "sequence", jsNumber request.sequence)]

/-- `commandResult` -/
def commandResult (request : CommandRequest) (result : ExecResult) (now : ℚ) : Json :=
  .obj [(.lit "version", .int 1), (.lit "id", .str request.id),
    (.lit "type", .str (.lit "command.result")), (.lit "deviceId", .str request.deviceId),
    (.lit "userId", .str request.userId), (.lit "sessionId", .str request.sessionId),
    (.lit "timestamp", jsNumber now), (.lit "payload", resultPayload request result)]

end TideBot
